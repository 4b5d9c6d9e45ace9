import Asyncmsg.Listing

namespace Asyncmsg
open Transition

namespace Registry
variable {r t : Registry} {a : Registry.Action} {labels : List Registry.Action}

/-- The packets that a connection has decoded. -/
def decodedBy (c : Nat) (labels : List Action) : List Packet :=
  labels.filterMap fun
    | .packet d pack => if d = c then some pack else none
    | _ => none

/-- The first device id that a connection has decoded. -/
def firstId (c : Nat) (labels : List Action) : Option (List UInt8) :=
  ((decodedBy c labels).find? fun pack => pack.deviceId ≠ []).map Packet.deviceId

/-- The announcements of device ids, in their order: each connection announces
the first one that it decodes. -/
def announce (log : List (Nat × List UInt8)) : Action → List (Nat × List UInt8)
  | .packet c pack => if pack.deviceId ≠ [] ∧ ∀ entry ∈ log, entry.1 ≠ c then log ++ [(c, pack.deviceId)] else log
  | _ => log

def announcements (labels : List Action) : List (Nat × List UInt8) := labels.foldl announce []

/-- The connection has announced the device id, and none has after it. -/
def Latest (labels : List Action) (id : List UInt8) (c : Nat) : Prop :=
  ∃ before after, announcements labels = before ++ (c, id) :: after ∧ ∀ entry ∈ after, entry.2 ≠ id

theorem announcements_snoc (labels : List Action) (a : Action) :
    announcements (labels ++ [a]) = announce (announcements labels) a :=
  List.foldl_append ..

theorem firstId_packet (c d : Nat) (labels : List Action) (pack : Packet) :
    firstId c (labels ++ [.packet d pack]) =
      (firstId c labels).or (if d = c ∧ pack.deviceId ≠ [] then some pack.deviceId else none) := by
  have split : firstId c (labels ++ [.packet d pack]) =
      (firstId c labels).or (firstId c [.packet d pack]) := by
    rw [firstId, decodedBy, List.filterMap_append, List.find?_append, Option.map_or]
    rfl
  rw [split]
  congr 1
  by_cases here : d = c <;> by_cases empty : pack.deviceId = [] <;> simp [firstId, decodedBy, here, empty]

/-- Only packets count. -/
theorem firstId_other (c : Nat) (labels : List Action) (silent : ∀ d pack, a ≠ .packet d pack) :
    firstId c (labels ++ [a]) = firstId c labels := by
  have none : decodedBy c [a] = [] := by
    cases a with
    | packet d pack => exact absurd rfl (silent d pack)
    | _ => rfl
  rw [firstId, decodedBy, List.filterMap_append]
  change ((decodedBy c labels ++ decodedBy c [a]).find? _).map _ = _
  rw [none, List.append_nil]
  rfl

theorem mem_announcements {c : Nat} {id : List UInt8} :
    (c, id) ∈ announcements labels ↔ firstId c labels = some id := by
  induction labels using List.reverseRecOn generalizing c id with
  | nil => simp [announcements, firstId, decodedBy]
  | append_singleton labels a ih =>
    rw [announcements_snoc]
    cases a with
    | packet d pack =>
      have unknown : (∀ entry ∈ announcements labels, entry.1 ≠ d) ↔ firstId d labels = none := by
        constructor
        · intro absent
          exact Option.eq_none_iff_forall_ne_some.mpr fun key found => absent _ (ih.mpr found) rfl
        · rintro none ⟨_, key⟩ member rfl
          cases none.symm.trans (ih.mp member)
      rw [firstId_packet, announce]
      split
      · rename_i first
        rw [unknown] at first
        rw [List.mem_append, List.mem_singleton, ih, Prod.mk.injEq]
        by_cases here : d = c
        · subst here
          simp [first.1, first.2, eq_comm]
        · simp [here, Ne.symm here]
      · rename_i known
        rw [ih]
        by_cases own : d = c ∧ pack.deviceId ≠ []
        · obtain ⟨rfl, named⟩ := own
          cases found : firstId d labels with
          | none => exact absurd ⟨named, unknown.mpr found⟩ known
          | some key => simp
        · rw [if_neg own, Option.or_none]
    | _ =>
      rw [firstId_other c labels (by simp)]
      exact ih

/-- The step announces nothing: its packet has no device id, or its connection has one. -/
def Silent (r : Registry) (b : Action) : Prop :=
  ∀ c pack, b = .packet c pack → pack.deviceId = [] ∨ ∃ id, id ≠ [] ∧ r.deviceIdOf c = some id

/-- What a step says about device ids: a connection announces its own, or
nothing is announced and no entry added to the map. -/
inductive Speech (r t : Registry) : Action → Prop
  | announced {c : Nat} {pack : Packet} : pack.deviceId ≠ [] → r.deviceIdOf c = some [] → r.Alive c →
      (∀ d, t.deviceIdOf d = if c = d then some pack.deviceId else r.deviceIdOf d) →
      (some c ∈ r.connections → t.connectionMap = r.connectionMap.insert pack.deviceId c) →
      Speech r t (.packet c pack)
  | silent {b : Action} : r.Silent b →
      (∀ d id, id ≠ [] → (t.deviceIdOf d = some id ↔ r.deviceIdOf d = some id)) →
      (∀ id c, t.find id = some c → r.find id = some c) → Speech r t b

theorem speech_setPeer {b : Action} {c : Nat} {peer later : Peer} (found : r.peers[c]? = some peer)
    (same : later.deviceId = peer.deviceId) (silent : r.Silent b) : Speech r (r.setPeer c later) b :=
  .silent silent (fun d id _ => by rw [deviceIdOf_setPeer_same found same]) fun _ _ mapped => mapped

theorem speech_onDisconnected {b : Action} {c : Nat} {peer : Peer} (later : Peer) (found : r.peers[c]? = some peer)
    (same : later.deviceId = peer.deviceId) (silent : r.Silent b) (id : List UInt8) :
    Speech r ((r.setPeer c later).onDisconnected c id) b := by
  refine .silent silent (fun d key _ => ?_) fun key d mapped => ?_
  · exact Iff.of_eq (congrArg (· = some key) (deviceIdOf_setPeer_same found same d))
  · by_cases here : key = id
    · rw [find, onDisconnected, here, AList.lookup_erase] at mapped
      cases mapped
    · rwa [find, onDisconnected, AList.lookup_erase_ne here] at mapped

theorem speech_of_step (taken : r.step a = some t) : Speech r t a := by
  cases moves_of_step taken with
  | incoming => exact .silent (by simp [Silent]) (fun _ _ _ => Iff.rfl) fun _ _ mapped => mapped
  | accept =>
    refine .silent (by simp [Silent]) (fun d id named => ?_) fun _ _ mapped => mapped
    rw [deviceIdOf_of_append ⟨[], 0, true, true⟩ rfl]
    split
    · rename_i here
      have unknown : r.deviceIdOf d ≠ some id := fun own => (deviceIdOf_lt own).ne here.symm
      exact iff_of_false (fun empty => named (Option.some.inj empty).symm) unknown
    · exact Iff.rfl
  | @packet c pack peer found receiving alive =>
    have own : r.deviceIdOf c = some peer.deviceId := by rw [deviceIdOf, found]; rfl
    rcases r.process_cases receiving pack with ⟨quiet, same⟩ | ⟨first, named, same⟩ | ⟨bound, same⟩ <;> rw [same]
    · refine speech_setPeer found rfl ?_
      rintro _ _ ⟨⟩
      exact quiet.imp_right fun bound => ⟨_, bound, own⟩
    · rw [first] at own
      refine .announced named own alive (fun d => ?_) fun listed => ?_
      · unfold onGotDeviceId
        split <;> exact deviceIdOf_setPeer found _ d
      · rw [onGotDeviceId]
        exact congrArg connectionMap (if_pos listed)
    · refine speech_onDisconnected { peer with receiving := false } found rfl ?_ _
      rintro _ _ ⟨⟩
      exact Or.inr ⟨_, bound, own⟩
  | lost reason found _ same =>
    refine speech_onDisconnected _ found same ?_ _
    rintro _ _ rfl
    simp at reason
  | send _ found => exact speech_setPeer found rfl (by simp [Silent])
  | leave reason found same =>
    refine speech_setPeer found same ?_
    rintro _ _ rfl
    simp at reason
  | stop => exact .silent (by simp [Silent]) (fun _ _ _ => Iff.rfl) fun _ _ mapped => mapped
  | runStop => exact .silent (by simp [Silent]) (fun _ _ _ => Iff.rfl) fun _ _ mapped => by cases mapped

/-- The announcements of the run are what the connections and the map go by. -/
structure Logged (labels : List Action) (r : Registry) : Prop where
  ids : ∀ c id, id ≠ [] → (r.deviceIdOf c = some id ↔ (c, id) ∈ announcements labels)
  latest : ∀ id c, r.find id = some c → Latest labels id c

theorem start_logged : Logged [] start where
  ids c id _ := by simp [deviceIdOf, start, announcements]
  latest _ _ mapped := by cases mapped

theorem named_of_mem {c : Nat} {id : List UInt8} (member : (c, id) ∈ announcements labels) : id ≠ [] := by
  obtain ⟨pack, found, rfl⟩ := Option.map_eq_some_iff.mp (mem_announcements.mp member)
  simpa using List.find?_some found

theorem Latest.snoc {id key : List UInt8} {c d : Nat} (latest : Latest labels id c) (other : key ≠ id)
    {more : List Action} (grown : announcements more = announcements labels ++ [(d, key)]) : Latest more id c := by
  obtain ⟨before, after, split, last⟩ := latest
  refine ⟨before, after ++ [(d, key)], by rw [grown, split, List.append_assoc, List.cons_append], ?_⟩
  intro entry member
  rcases List.mem_append.mp member with old | new
  · exact last entry old
  · cases List.mem_singleton.mp new
    exact other

theorem Logged.step (logged : Logged labels r) (reachable : r.Reachable) (taken : r.step a = some t) :
    Logged (labels ++ [a]) t := by
  cases speech_of_step taken with
  | @announced c pack named first alive ids map =>
    have unknown : ∀ entry ∈ announcements labels, entry.1 ≠ c := by
      rintro ⟨_, key⟩ member rfl
      have own := (logged.ids _ key (named_of_mem member)).mpr member
      exact named_of_mem member (Option.some.inj (own.symm.trans first))
    have grown : announcements (labels ++ [.packet c pack]) = announcements labels ++ [(c, pack.deviceId)] := by
      rw [announcements_snoc, announce, if_pos ⟨named, unknown⟩]
    refine ⟨fun d id named' => ?_, fun id d mapped => ?_⟩
    · rw [ids, grown, List.mem_append, List.mem_singleton, Prod.mk.injEq, ← logged.ids d id named']
      split
      · rename_i here
        subst here
        simp [first, named', @eq_comm _ id]
      · rename_i other
        simp [Ne.symm other]
    · rw [find, map (reachable.listed_of_alive alive first)] at mapped
      by_cases same : id = pack.deviceId
      · rw [same, AList.lookup_insert] at mapped
        cases mapped
        exact ⟨announcements labels, [], by rw [grown, same], by simp⟩
      · rw [AList.lookup_insert_ne same] at mapped
        exact (logged.latest id d mapped).snoc (Ne.symm same) grown
  | silent quiet ids map =>
    have same : announcements (labels ++ [a]) = announcements labels := by
      rw [announcements_snoc]
      cases a with
      | packet c pack =>
        refine if_neg fun first => ?_
        rcases quiet c pack rfl with empty | ⟨id, named, own⟩
        · exact first.1 empty
        · exact first.2 _ ((logged.ids c id named).mp own) rfl
      | _ => rfl
    refine ⟨fun d id named => ?_, fun id d mapped => ?_⟩
    · rw [ids d id named, same]
      exact logged.ids d id named
    · obtain ⟨before, after, split⟩ := logged.latest id d (map id d mapped)
      exact ⟨before, after, same ▸ split⟩

theorem run_logged (run : Run step free start labels r) : Logged labels r := by
  induction run with
  | nil => exact start_logged
  | snoc before _ taken ih => exact ih.step (run_reachable before) taken

/-- The registry of a server routes by the device ids that its connections have
announced. -/
structure Routed (labels : List Action) (r : Registry) : Prop where
  mapped : ∀ id c, r.find id = some c →
    r.deviceIdOf c = some id ∧ firstId c labels = some id ∧ Latest labels id c
  listed : ∀ c, some c ∈ r.connections → r.deviceIdOf c = some []
  once : (r.connections.reduceOption ++ r.connectionMap.entries.map Sigma.snd).Nodup
  sent : ∀ id t, r.step (.send id) = some t → ∃ c peer, r.peers[c]? = some peer ∧
    t = r.setPeer c { peer with holders := peer.holders + 1 } ∧ Latest labels id c

/-- Routing soundness: in every reachable state an entry of the map leads to the
last connection that announced the device id, for which it was the first it
decoded, and so does every sending; the list holds the others, each once. -/
theorem registry_routed (run : Run step free start labels r) : Routed labels r := by
  have reachable := run_reachable run
  have logged := run_logged run
  refine ⟨fun id c mapped => ?_, reachable.listed, reachable.nodup_append, fun id t taken => ?_⟩
  · obtain ⟨own, named⟩ := reachable.mapped id c mapped
    have announced := (logged.ids c id named).mp own
    exact ⟨own, mem_announcements.mp announced, logged.latest id c mapped⟩
  · cases moves_of_step taken with
    | send mapped found => exact ⟨_, _, found, rfl, logged.latest id _ mapped⟩
    | lost reason => simp at reason
    | leave reason => simp at reason

theorem registry_routed_reconnect :
    ∃ r, exec step free start reconnect = some r ∧ Routed reconnect r := by
  have trace : (exec step free start reconnect).isSome := by decide +kernel
  obtain ⟨r, done⟩ := Option.isSome_iff_exists.mp trace
  exact ⟨r, done, registry_routed (exec_run done)⟩

end Registry
end Asyncmsg
