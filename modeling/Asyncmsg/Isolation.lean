import Asyncmsg.RegistrySteps
import Asyncmsg.RoundTrip

namespace Asyncmsg
open Transition

namespace Registry
variable {r t : Registry} {a : Registry.Action}

/-- A mapped connection has the device id it is mapped under, a listed one has
none yet and stands in the list once. -/
structure Sound (r : Registry) : Prop where
  mapped : ∀ id c, r.find id = some c → r.deviceIdOf c = some id ∧ id ≠ []
  listed : ∀ c, some c ∈ r.connections → r.deviceIdOf c = some []
  once : ∀ c, r.connections.count (some c) ≤ 1

theorem start_sound : start.Sound where
  mapped _ _ found := by cases found
  listed _ member := by cases member
  once _ := Nat.zero_le _

theorem deviceIdOf_lt {c : Nat} {id : List UInt8} (own : r.deviceIdOf c = some id) : c < r.peers.length := by
  obtain ⟨_, found, _⟩ := Option.map_eq_some_iff.mp own
  exact (List.getElem?_eq_some_iff.mp found).1

/-- A connection without a device id is not mapped. -/
theorem Sound.ne_of_mapped (sound : r.Sound) {c d : Nat} {key : List UInt8} (own : r.deviceIdOf c = some [])
    (found : r.find key = some d) : c ≠ d := by
  rintro rfl
  obtain ⟨other, named⟩ := sound.mapped key c found
  cases own.symm.trans other
  exact named rfl

/-- A connection that is about to be accepted is not listed. -/
theorem Sound.fresh (sound : r.Sound) : some r.peers.length ∉ r.connections := fun member =>
  absurd (deviceIdOf_lt (sound.listed _ member)) (lt_irrefl _)

theorem Effect.sound (effect : Effect r t) (sound : r.Sound) : t.Sound := by
  cases effect with
  | quiet map list _ ids =>
    refine ⟨fun id c found => ?_, fun c member => ?_, fun c => ?_⟩
    · rw [ids]
      exact sound.mapped id c (by rwa [find, map] at found)
    · rw [ids]
      exact sound.listed c (list ▸ member)
    · rw [list]
      exact sound.once c
  | accepted map list _ ids =>
    refine ⟨fun id c found => ?_, fun c member => ?_, fun c => ?_⟩
    · obtain ⟨own, named⟩ := sound.mapped id c (by rwa [find, map] at found)
      rw [ids, if_neg (deviceIdOf_lt own).ne']
      exact ⟨own, named⟩
    · rw [list] at member
      rw [ids]
      split
      · rfl
      · rename_i other
        rcases List.mem_append.mp member with before | new
        · exact sound.listed c before
        · cases List.mem_singleton.mp new
          exact absurd rfl other
    · rw [list, List.count_append, List.count_singleton]
      split
      · rename_i here
        rw [← beq_iff_eq.mp here, List.count_eq_zero_of_not_mem sound.fresh]
      · exact sound.once c
  | @announced c id own named member map list _ ids =>
    have gone : some c ∉ t.connections := fun still => by
      have count := List.count_pos_iff.mpr (list ▸ still)
      have once := sound.once c
      rw [List.count_erase_self] at count
      omega
    refine ⟨fun key d found => ?_, fun d member' => ?_, fun d => ?_⟩
    · rw [find, map] at found
      by_cases same : key = id
      · subst same
        rw [AList.lookup_insert] at found
        cases found
        exact ⟨by rw [ids, if_pos rfl], named⟩
      · rw [AList.lookup_insert_ne same] at found
        rw [ids, if_neg (sound.ne_of_mapped own found)]
        exact sound.mapped key d found
    · have other : c ≠ d := fun here => gone (here ▸ member')
      rw [ids, if_neg other]
      exact sound.listed d (List.mem_of_mem_erase (list ▸ member'))
    · rw [list]
      exact (List.erase_sublist.count_le _).trans (sound.once d)
  | @unlisted c id absent map list _ own ids =>
    refine ⟨fun key d found => ?_, fun d member => ?_, fun d => ?_⟩
    · have found' : r.find key = some d := by rwa [find, map] at found
      rw [ids, if_neg (sound.ne_of_mapped own found')]
      exact sound.mapped key d found'
    · rw [list] at member
      have other : c ≠ d := fun here => absent (here ▸ member)
      rw [ids, if_neg other]
      exact sound.listed d member
    · rw [list]
      exact sound.once d
  | @disconnected c id own _ map list _ ids =>
    have fewer (d : Nat) : t.connections.count (some d) ≤ r.connections.count (some d) := by
      rw [list]
      exact RemoveIf.count_removeIf_le (Option.some_ne_none d)
    refine ⟨fun key d found => ?_, fun d member => ?_, fun d => (fewer d).trans (sound.once d)⟩
    · rw [ids]
      by_cases same : key = id
      · rw [find, map, same, AList.lookup_erase] at found
        cases found
      · rw [find, map, AList.lookup_erase_ne same] at found
        exact sound.mapped key d found
    · rw [ids]
      exact sound.listed d (List.count_pos_iff.mp ((List.count_pos_iff.mpr member).trans_le (fewer d)))
  | stopped map list _ ids =>
    refine ⟨fun id c found => ?_, fun c member => ?_, fun c => ?_⟩
    · rw [find, map] at found
      cases found
    · rw [list] at member
      cases member
    · rw [list]
      exact Nat.zero_le _

/-- Another connection stands in the map under this device id. -/
def Superseded (r : Registry) (c : Nat) (id : List UInt8) : Prop :=
  ∃ d, r.find id = some d ∧ d ≠ c

/-- A connection that is superseded under its device id is kept alive by the
calls that still use it, and by nothing else. -/
theorem Sound.held (sound : r.Sound) {c : Nat} {id : List UInt8} (own : r.deviceIdOf c = some id) (alive : r.Alive c)
    (superseded : r.Superseded c id) : ∃ peer ∈ r.peers[c]?, 0 < peer.holders := by
  obtain ⟨d, mapped, other⟩ := superseded
  rcases alive with listed | ⟨⟨key, c'⟩, member, rfl⟩ | held
  · cases own.symm.trans (sound.listed c listed)
    exact absurd rfl (sound.mapped _ d mapped).2
  · have entry := AList.mem_lookup_iff.mpr member
    cases own.symm.trans (sound.mapped key c' entry).1
    exact absurd (Option.some.inj (mapped.symm.trans entry)) other
  · exact held

/-- A call of `on_disconnected` leaves the entries of all other connections in
place exactly when its connection is not superseded; one that is superseded
calls it only because a pending call has kept it alive. -/
theorem onDisconnected_isolated_iff {labels : List Action} (run : Run step free start labels r)
    (taken : r.step a = some t) {c : Nat} {id : List UInt8} (called : t.disconnects = r.disconnects ++ [(c, id)]) :
    ((∀ key d, d ≠ c → r.find key = some d → t.find key = some d) ↔
        ¬r.Superseded c id) ∧
      (r.Superseded c id → ∃ peer ∈ r.peers[c]?, 0 < peer.holders) := by
  have sound : r.Sound := run.invariant start_sound fun _ _ _ sound _ taken => (effect_of_step taken).sound sound
  cases effect_of_step taken with
  | @disconnected c' id' own alive map _ disconnects =>
    cases List.singleton_injective (List.append_cancel_left (disconnects.symm.trans called))
    refine ⟨⟨fun isolated ⟨d, mapped, other⟩ => ?_, fun alone key d other mapped => ?_⟩, sound.held own alive⟩
    · have kept := isolated id d other mapped
      rw [find, map, AList.lookup_erase] at kept
      cases kept
    · have apart : key ≠ id := fun same => alone ⟨d, same ▸ mapped, other⟩
      rw [find, map, AList.lookup_erase_ne apart]
      exact mapped
  | quiet _ _ same => simp [same] at called
  | accepted _ _ same => simp [same] at called
  | announced _ _ _ _ _ same => simp [same] at called
  | unlisted _ _ _ same => simp [same] at called
  | stopped _ _ same => simp [same] at called

/-- Two connections with different device ids. -/
def twoPeers : List Action :=
  [.incoming, .accept, .incoming, .accept, .packet 0 ping, .packet 1 { ping with deviceId := [0x62] }]

theorem onDisconnected_isolated_twoPeers :
    ∃ r t, exec step free start twoPeers = some r ∧ r.step (.readFails 0) = some t ∧
      ((∀ key d, d ≠ 0 → r.find key = some d → t.find key = some d) ↔
        ¬r.Superseded 0 [0x61]) ∧
      (r.Superseded 0 [0x61] → ∃ peer ∈ r.peers[0]?, 0 < peer.holders) := by
  have trace : (exec step free start twoPeers).map (fun r =>
      (r.disconnects, (r.step (.readFails 0)).map disconnects)) = some ([], some [(0, [0x61])]) := by decide +kernel
  obtain ⟨r, done, view⟩ := Option.map_eq_some_iff.mp trace
  obtain ⟨before, after⟩ := Prod.mk.inj view
  obtain ⟨t, taken, called⟩ := Option.map_eq_some_iff.mp after
  exact ⟨r, t, done, taken, onDisconnected_isolated_iff (exec_run done) taken (by rw [before, called]; rfl)⟩

/-- A device reconnects while a call still uses its old connection. -/
def reconnect : List Action :=
  [.incoming, .accept, .packet 0 ping, .send [0x61], .incoming, .accept, .packet 1 ping]

/-- When the old connection fails, the entry of the new one is lost. -/
theorem onDisconnected_superseded :
    ¬∀ labels r a t c id, Run step free start labels r → r.step a = some t →
      t.disconnects = r.disconnects ++ [(c, id)] →
      ∀ key d, d ≠ c → r.find key = some d → t.find key = some d := by
  intro claim
  have before : (exec step free start reconnect).map (fun r => (r.disconnects, r.find [0x61])) =
      some ([], some 1) := by decide +kernel
  have after : (exec step free start reconnect).bind (fun r =>
      (r.step (.readFails 0)).map fun t => (t.disconnects, t.find [0x61])) = some ([(0, [0x61])], none) := by
    decide +kernel
  obtain ⟨r, done, view⟩ := Option.map_eq_some_iff.mp before
  obtain ⟨none, mapped⟩ := Prod.mk.inj view
  rw [done, Option.bind_some] at after
  obtain ⟨t, taken, view'⟩ := Option.map_eq_some_iff.mp after
  obtain ⟨called, lost⟩ := Prod.mk.inj view'
  have kept := claim _ r _ t 0 [0x61] (exec_run done) taken (by rw [none, called]; rfl) [0x61] 1 (by decide) mapped
  cases lost.symm.trans kept

end Registry
end Asyncmsg
