import Mathlib.Data.List.ReduceOption
import Asyncmsg.Listing

namespace Asyncmsg
open Transition

namespace Registry
variable {r t : Registry} {a : Registry.Action}

/-- The connections that are alive and have no device id yet. -/
def unannounced (r : Registry) : List Nat :=
  (List.range r.peers.length).filter fun c => r.Alive c ∧ r.deviceIdOf c = some []

/-- What is left after `on_disconnected` has removed the connection. -/
structure Removed (r t : Registry) (c : Nat) (id : List UInt8) : Prop where
  unlisted : some c ∉ t.connections
  unmapped : t.find id ≠ some c
  others : t.connections.reduceOption = r.connections.reduceOption.filter (· ≠ c)
  full : none ∉ t.connections
  length : t.connections.length = t.unannounced.length

theorem length_reduceOption (full : none ∉ r.connections) :
    r.connections.reduceOption.length = r.connections.length :=
  List.reduceOption_length_eq_iff.mpr fun slot member => by
    cases slot with
    | none => exact absurd member full
    | some c => rfl

/-- Without empty slots the list counts the connections that have not announced
a device id. -/
theorem Reachable.length_connections (reachable : r.Reachable) (full : none ∉ r.connections) :
    r.connections.length = r.unannounced.length := by
  rw [← length_reduceOption full]
  refine List.Perm.length_eq ((List.perm_ext_iff_of_nodup reachable.nodup (List.nodup_range.filter _)).mpr fun c => ?_)
  simp only [List.reduceOption_mem_iff, List.mem_filter, List.mem_range, decide_eq_true_eq]
  constructor
  · intro listed
    have unnamed := reachable.listed c listed
    exact ⟨deviceIdOf_lt unnamed, Or.inl listed, unnamed⟩
  · rintro ⟨_, alive, unnamed⟩
    exact reachable.listed_of_alive alive unnamed

/-- A pending connection is never removed as it should be: the list keeps its length. -/
theorem not_removed_of_pending {c : Nat} {id : List UInt8} (pending : some c ∈ r.connections)
    (list : t.connections = RemoveIf.removeIf (· == some c) none r.connections) : ¬Removed r t c id := by
  intro removed
  have before : t.connections.length = r.connections.length := by rw [list, RemoveIf.length_removeIf]
  have after := length_reduceOption removed.full
  rw [removed.others] at after
  have fewer : (r.connections.reduceOption.filter (· ≠ c)).length < r.connections.reduceOption.length :=
    List.length_filter_lt_length_iff_exists.mpr ⟨c, List.reduceOption_mem_iff.mpr pending, by simp⟩
  have most := List.reduceOption_length_le r.connections
  omega

/-- The connection that is lost has announced a device id. -/
def Announced (r : Registry) : Action → Prop
  | .readFails c | .inactive c => r.deviceIdOf c ≠ some []
  | _ => True

/-- Only a failed read, inactivity and a mismatch disconnect, and a mismatch
takes a connection that has announced a device id. -/
theorem disconnects_of_step (taken : r.step a = some t) :
    t.disconnects = r.disconnects ∨
      ∃ c peer, r.peers[c]? = some peer ∧ t.disconnects = r.disconnects ++ [(c, peer.deviceId)] ∧
        ((a = .readFails c ∨ a = .inactive c) ∨ peer.deviceId ≠ []) := by
  cases moves_of_step taken with
  | @packet c pack peer found receiving =>
    rcases r.process_cases receiving pack with ⟨_, same⟩ | ⟨_, _, same⟩ | ⟨named, same⟩ <;> rw [same]
    · exact Or.inl rfl
    · unfold onGotDeviceId
      split <;> exact Or.inl rfl
    · exact Or.inr ⟨c, peer, found, rfl, Or.inr named⟩
  | @lost _ c peer _ reason found => exact Or.inr ⟨c, peer, found, rfl, Or.inl reason⟩
  | _ => exact Or.inl rfl

theorem Announced.named (met : r.Announced a) (taken : r.step a = some t) {c : Nat} {id : List UInt8}
    (called : t.disconnects = r.disconnects ++ [(c, id)]) : id ≠ [] := by
  rcases disconnects_of_step taken with none | ⟨d, peer, found, some, reason⟩
  · simp [none] at called
  · cases List.singleton_injective (List.append_cancel_left (some.symm.trans called))
    have own : r.deviceIdOf c = Option.some peer.deviceId := by rw [deviceIdOf, found]; rfl
    rcases reason with (rfl | rfl) | named
    · exact fun empty => met (own.trans (congrArg _ empty))
    · exact fun empty => met (own.trans (congrArg _ empty))
    · exact named

/-- Where no pending connection is lost no slot is left empty. -/
theorem full_of_announced {labels : List Action} (run : Run step Announced start labels r) :
    none ∉ r.connections := by
  have both : r.Reachable ∧ none ∉ r.connections := by
    refine run.invariant (I := fun r => r.Reachable ∧ none ∉ r.connections)
      ⟨⟨start_sound, start_held⟩, List.not_mem_nil⟩ ?_
    rintro s a t ⟨reachable, full⟩ met taken
    have sound := (effect_of_step taken).sound reachable.toSound
    refine ⟨⟨sound, reachable.held.step reachable.toSound taken⟩, ?_⟩
    cases effect_of_step taken with
    | quiet _ list => exact list ▸ full
    | accepted _ list => simp [list, full]
    | announced _ _ _ _ list => exact fun member => full (List.mem_of_mem_erase (list ▸ member))
    | unlisted _ _ list => exact list ▸ full
    | @disconnected c id own _ _ list disconnects =>
      have named := met.named taken disconnects
      rw [list, RemoveIf.removeIf_of_forall]
      · exact full
      · intro slot member
        refine beq_eq_false_iff_ne.mpr fun same => named ?_
        exact Option.some.inj (own.symm.trans (reachable.listed c (same ▸ member)))
    | stopped _ list => simp [list]
  exact both.2

/-- Where `on_disconnected` does what it is for: exactly if its connection has
announced a device id, and no empty slot is left from a pending connection that
was disconnected before. -/
theorem removed_iff {labels : List Action} (run : Run step free start labels r)
    (taken : r.step a = some t) {c : Nat} {id : List UInt8} (called : t.disconnects = r.disconnects ++ [(c, id)]) :
    Removed r t c id ↔ id ≠ [] ∧ none ∉ r.connections := by
  have reachable := run_reachable run
  have later := run_reachable (run.snoc trivial taken)
  cases effect_of_step taken with
  | @disconnected c' id' own alive map list disconnects =>
    cases List.singleton_injective (List.append_cancel_left (disconnects.symm.trans called))
    have still (unlisted : some c ∉ r.connections) : t.connections = r.connections :=
      list.trans (RemoveIf.removeIf_of_forall fun slot member => beq_eq_false_iff_ne.mpr fun same =>
        unlisted (same ▸ member))
    have unlisted (named : id ≠ []) : some c ∉ r.connections := fun listed =>
      named (Option.some.inj (own.symm.trans (reachable.listed c listed)))
    constructor
    · intro removed
      have named : id ≠ [] := by
        rintro rfl
        exact not_removed_of_pending (reachable.listed_of_alive alive own) list removed
      exact ⟨named, still (unlisted named) ▸ removed.full⟩
    · rintro ⟨named, full⟩
      have same := still (unlisted named)
      refine ⟨same ▸ unlisted named, ?_, ?_, same ▸ full, later.length_connections (same ▸ full)⟩
      · rw [find, map, AList.lookup_erase]
        simp
      · rw [same, eq_comm, List.filter_eq_self]
        intro d member
        have listed := List.reduceOption_mem_iff.mp member
        exact decide_eq_true fun here => unlisted named (here ▸ listed)
  | quiet _ _ same => simp [same] at called
  | accepted _ _ same => simp [same] at called
  | announced _ _ _ _ _ same => simp [same] at called
  | unlisted _ _ _ same => simp [same] at called
  | stopped _ _ same => simp [same] at called

/-- A disconnect removes the connection: exactly if the connection has announced
a device id and no slot is empty yet; and on a run that loses announced
connections only, no slot is. -/
theorem onDisconnected_removes_iff {labels : List Action} (run : Run step free start labels r) :
    (∀ a t c id, r.step a = some t → t.disconnects = r.disconnects ++ [(c, id)] →
      (Removed r t c id ↔ id ≠ [] ∧ none ∉ r.connections)) ∧
    (Run step Announced start labels r → none ∉ r.connections) :=
  ⟨fun _ _ _ _ taken called => removed_iff run taken called, full_of_announced⟩

/-- A device is lost, and then a connection that has not announced one. -/
def lostBehind : List Action := [.incoming, .accept, .incoming, .accept, .packet 0 ping, .readFails 0]

theorem onDisconnected_removes_lostBehind :
    ∃ r, exec step free start lostBehind = some r ∧
      (∀ a t c id, r.step a = some t → t.disconnects = r.disconnects ++ [(c, id)] →
        (Removed r t c id ↔ id ≠ [] ∧ none ∉ r.connections)) ∧
      (Run step Announced start lostBehind r → none ∉ r.connections) := by
  have trace : (exec step free start lostBehind).isSome := by decide +kernel
  obtain ⟨r, done⟩ := Option.isSome_iff_exists.mp trace
  exact ⟨r, done, onDisconnected_removes_iff (exec_run done)⟩

/-- The only pending connection fails and stays in the list. -/
theorem onDisconnected_keeps :
    ¬∀ labels r a t c id, Run step free start labels r → r.step a = some t →
      t.disconnects = r.disconnects ++ [(c, id)] → Removed r t c id := by
  intro claim
  have trace : (exec step free start [.incoming, .accept]).bind (fun r =>
      (r.step (.readFails 0)).map fun t => (r.disconnects, t.disconnects, t.connections)) =
      some ([], [(0, [])], [some 0]) := by decide +kernel
  obtain ⟨r, done, rest⟩ := Option.bind_eq_some_iff.mp trace
  obtain ⟨t, taken, view⟩ := Option.map_eq_some_iff.mp rest
  obtain ⟨before, view⟩ := Prod.mk.inj view
  obtain ⟨after, listed⟩ := Prod.mk.inj view
  have removed := claim _ r _ t 0 [] (exec_run done) taken (by rw [before, after]; rfl)
  exact removed.unlisted (by simp [listed])

end Registry
end Asyncmsg
