import Asyncmsg.ClientChannels

namespace Asyncmsg
open Transition

namespace Client
variable {c t : Client} {a : Client.Action} {seqGenerator : UInt32}

/-- Every arrival is acknowledged, for the device id of its connection. -/
theorem onReceiveRequest_acks_eq (c : Client) (i : Nat) (pack : Packet) (deviceId : List UInt8) :
    (c.onReceiveRequest i pack deviceId).acks =
      c.acks ++ [⟨i, (buildRspPacket c.seqGenerator pack.cmd pack.seq 0 deviceId .empty).1,
        (c.channelAt pack.cmd).isSome⟩] := by
  unfold onReceiveRequest
  dsimp only
  split
  · rfl
  · unfold trySend
    split
    · rfl
    · split <;> rfl

theorem onReceiveRequest_acks (c : Client) (i : Nat) (pack : Packet) (deviceId : List UInt8) :
    ∃ rsp, (c.onReceiveRequest i pack deviceId).acks = c.acks ++ [⟨i, rsp, (c.channelAt pack.cmd).isSome⟩] :=
  ⟨_, c.onReceiveRequest_acks_eq i pack deviceId⟩

/-- Every request that was acknowledged while its command had a channel has been
taken by the channel exactly once. -/
def Delivered (c : Client) : Prop :=
  ∀ ack ∈ c.acks, ack.awaited = true → c.accepted.count ack.request = 1

/-- A request that finds a channel is taken now, being unknown and finding room,
exactly if it has not been taken before. -/
def Admitted (c : Client) : Action → Prop
  | .arrive i _ => ∀ pack ∈ c.pushes[i]?, ∀ channel ∈ c.channelAt pack.cmd,
      (pack.id ∉ c.recentlyReceivedRequest.m ∧ channel.Accepts ↔ i ∉ c.accepted)
  | _ => True

/-- The requests that the server builds in this step. -/
def Action.built : Action → List Packet
  | .push pack => [pack]
  | _ => []

/-- Only the arrival of a request acknowledges anything, calls a channel's
`try_send`, fills a channel or touches the table of recent ones. -/
theorem step_quiet (taken : c.step a = some t) :
    (∃ i pack deviceId, a = .arrive i deviceId ∧ c.pushes[i]? = some pack ∧
        t = c.onReceiveRequest i pack deviceId) ∨
      t.acks = c.acks ∧ t.tried = c.tried ∧ t.accepted = c.accepted ∧ t.recentlyReceivedRequest = c.recentlyReceivedRequest ∧
        t.pushes = c.pushes ++ a.built ∧ ∀ i deviceId, a ≠ .arrive i deviceId := by
  have same : c.pushes = c.pushes ++ [] := (List.append_nil _).symm
  obtain ⟨_, taken⟩ := Option.ite_none_right_eq_some.mp taken
  cases a with
  | push pack =>
    cases taken
    exact Or.inr ⟨rfl, rfl, rfl, rfl, rfl, nofun⟩
  | arrive i deviceId =>
    obtain ⟨pack, found, rfl⟩ := Option.map_eq_some_iff.mp taken
    exact Or.inl ⟨i, pack, deviceId, rfl, found, rfl⟩
  | waitRequest cmd =>
    cases taken
    right
    unfold Client.waitRequest
    dsimp only
    split <;> split <;> exact ⟨rfl, rfl, rfl, rfl, same, nofun⟩
  | leave cmd =>
    obtain ⟨channel, _, taken⟩ := Option.bind_eq_some_iff.mp taken
    obtain ⟨_, done⟩ := Option.ite_none_right_eq_some.mp taken
    cases done
    exact Or.inr ⟨rfl, rfl, rfl, rfl, same, nofun⟩
  | stop force =>
    obtain ⟨_, done⟩ := Option.ite_none_left_eq_some.mp taken
    cases done
    exact Or.inr ⟨rfl, rfl, rfl, rfl, same, nofun⟩
  | runStop =>
    obtain ⟨_, _, done⟩ := Option.bind_eq_some_iff.mp taken
    cases done
    exact Or.inr ⟨rfl, rfl, rfl, rfl, same, nofun⟩

/-- No request has been taken twice, and every one acknowledged with a channel
has been taken. -/
structure Exact (c : Client) : Prop where
  once : c.accepted.Nodup
  taken : ∀ ack ∈ c.acks, ack.awaited = true → ack.request ∈ c.accepted

theorem start_exact : (start seqGenerator).Exact := ⟨List.nodup_nil, fun _ member => by cases member⟩

theorem Exact.delivered (exact : c.Exact) : c.Delivered := fun ack member awaited =>
  List.count_eq_one_of_mem exact.once (exact.taken ack member awaited)

section Arrival
variable {i : Nat} {pack rsp : Packet}

/-- The arrival of a request that the condition admits. -/
theorem Exact.arrive (exact : c.Exact) (receives : Receives c i pack t)
    (acks : t.acks = c.acks ++ [⟨i, rsp, (c.channelAt pack.cmd).isSome⟩])
    (admitted : ∀ channel ∈ c.channelAt pack.cmd,
      (pack.id ∉ c.recentlyReceivedRequest.m ∧ channel.Accepts ↔ i ∉ c.accepted)) : t.Exact := by
  have grows (own : (c.channelAt pack.cmd).isSome = true → i ∈ t.accepted)
      (others : ∀ j ∈ c.accepted, j ∈ t.accepted) :
      ∀ ack ∈ t.acks, ack.awaited = true → ack.request ∈ t.accepted := by
    intro ack member awaited
    rw [acks] at member
    rcases List.mem_append.mp member with old | new
    · exact others _ (exact.taken ack old awaited)
    · cases List.mem_singleton.mp new
      exact own awaited
  cases receives with
  | known known _ _ accepted =>
    refine ⟨accepted ▸ exact.once, grows (fun some => ?_) fun j member => accepted ▸ member⟩
    obtain ⟨channel, found⟩ := Option.isSome_iff_exists.mp some
    rw [accepted]
    exact not_not.mp fun fresh => ((admitted channel found).mpr fresh).1 known
  | broke _ missing _ accepted =>
    refine ⟨accepted ▸ exact.once, grows (fun some => ?_) fun j member => accepted ▸ member⟩
    rw [missing] at some
    cases some
  | refused _ found full _ _ accepted =>
    refine ⟨accepted ▸ exact.once, grows (fun some => ?_) fun j member => accepted ▸ member⟩
    rw [accepted]
    exact not_not.mp fun fresh => full ((admitted _ found).mpr fresh).2
  | took unknown found accepts _ _ accepted =>
    have fresh := (admitted _ found).mp ⟨unknown, accepts⟩
    refine ⟨?_, grows (fun _ => ?_) fun j member => ?_⟩
    · rw [accepted, ← List.concat_eq_append]
      exact exact.once.concat fresh
    · rw [accepted]
      exact List.mem_append_right _ (List.mem_singleton_self i)
    · rw [accepted]
      exact List.mem_append_left _ member

/-- An arrival that leaves every acknowledged request delivered once was admitted. -/
theorem admitted_of_delivered (receives : Receives c i pack t)
    (acks : t.acks = c.acks ++ [⟨i, rsp, (c.channelAt pack.cmd).isSome⟩]) (delivered : t.Delivered)
    (channel : RequestChannel) (found : channel ∈ c.channelAt pack.cmd) :
    (pack.id ∉ c.recentlyReceivedRequest.m ∧ channel.Accepts ↔ i ∉ c.accepted) := by
  have once : t.accepted.count i = 1 := by
    refine delivered ⟨i, rsp, (c.channelAt pack.cmd).isSome⟩ ?_ (Option.isSome_iff_exists.mpr ⟨channel, found⟩)
    rw [acks]
    exact List.mem_append_right _ (List.mem_singleton_self _)
  have member (same : t.accepted = c.accepted) : i ∈ c.accepted :=
    List.count_pos_iff.mp (by rw [← same, once]; exact Nat.one_pos)
  cases receives with
  | known known _ _ accepted => exact iff_of_false (fun new => new.1 known) (not_not.mpr (member accepted))
  | broke _ missing => cases missing.symm.trans found
  | refused _ found' full _ _ accepted =>
    cases found'.symm.trans found
    exact iff_of_false (fun new => full new.2) (not_not.mpr (member accepted))
  | took unknown found' accepts _ _ accepted =>
    cases found'.symm.trans found
    refine iff_of_true ⟨unknown, accepts⟩ fun twice => ?_
    have positive := List.count_pos_iff.mpr twice
    rw [accepted, List.count_append, List.count_singleton_self] at once
    omega

end Arrival

theorem Exact.step (exact : c.Exact) (admitted : c.Admitted a) (taken : c.step a = some t) : t.Exact := by
  rcases step_quiet taken with ⟨i, pack, deviceId, rfl, found, rfl⟩ | ⟨acks, _, accepted, _⟩
  · obtain ⟨rsp, acks⟩ := c.onReceiveRequest_acks i pack deviceId
    exact exact.arrive (receives_onReceiveRequest c i pack deviceId) acks (admitted pack found)
  · exact ⟨accepted ▸ exact.once, fun ack member awaited => accepted ▸ exact.taken ack (acks ▸ member) awaited⟩

/-- Acknowledged means delivered once: on every run that meets the condition
each acknowledged request has been taken by its channel exactly once, and a
further step keeps this exactly when it meets the condition too. -/
theorem acknowledged_delivered {labels : List Action} (run : Run Client.step Admitted (start seqGenerator) labels c) :
    c.Delivered ∧ ∀ a t, c.step a = some t → (t.Delivered ↔ c.Admitted a) := by
  have exact : c.Exact := run.invariant start_exact fun _ _ _ exact admitted taken => exact.step admitted taken
  refine ⟨exact.delivered, fun a t taken =>
    ⟨fun delivered => ?_, fun admitted => (exact.step admitted taken).delivered⟩⟩
  rcases step_quiet taken with ⟨i, pack, deviceId, rfl, found, rfl⟩ | ⟨_, _, _, _, _, other⟩
  · obtain ⟨rsp, acks⟩ := c.onReceiveRequest_acks i pack deviceId
    intro pack' found'
    cases found.symm.trans found'
    exact admitted_of_delivered (receives_onReceiveRequest c i pack deviceId) acks delivered
  · cases a with
    | arrive i deviceId => exact absurd rfl (other i deviceId)
    | _ => trivial

instance (c : Client) (a : Action) : Decidable (c.Admitted a) :=
  match a with
  | .arrive i _ => inferInstanceAs (Decidable (∀ pack ∈ c.pushes[i]?, ∀ channel ∈ c.channelAt pack.cmd,
      (pack.id ∉ c.recentlyReceivedRequest.m ∧ channel.Accepts ↔ i ∉ c.accepted)))
  | .push _ | .waitRequest _ | .leave _ | .stop _ | .runStop => inferInstanceAs (Decidable True)

theorem acknowledged_delivered_repeated :
    ∃ c, exec Client.step Admitted (start 0) repeated = some c ∧
      c.Delivered ∧ ∀ a t, c.step a = some t → (t.Delivered ↔ c.Admitted a) := by
  have trace : (exec Client.step Admitted (start 0) repeated).isSome := by decide +kernel
  obtain ⟨c, done⟩ := Option.isSome_iff_exists.mp trace
  exact ⟨c, done, acknowledged_delivered (exec_run done)⟩

/-- One receiver, and then one request more than the channel can hold. -/
def overflow : List Action :=
  .waitRequest 1 :: (List.range 66).flatMap fun i =>
    [.push { ping with seq := UInt32.ofNat (i + 1) }, .arrive i [0x61]]

/-- The last request is acknowledged and lost. -/
theorem acknowledged_lost :
    ¬∀ seqGenerator labels c, Run Client.step free (start seqGenerator) labels c → c.Delivered := by
  intro claim
  have trace : (exec Client.step free (start 0) overflow).map (fun c =>
      (c.acks.any fun ack => ack.request == 65 && ack.awaited, c.accepted.count 65)) = some (true, 0) := by
    decide +kernel
  obtain ⟨c, done, view⟩ := Option.map_eq_some_iff.mp trace
  obtain ⟨acknowledged, lost⟩ := Prod.mk.inj view
  obtain ⟨ack, member, found⟩ := List.any_eq_true.mp acknowledged
  obtain ⟨request, awaited⟩ := Bool.and_eq_true_iff.mp found
  have once := claim 0 overflow c (exec_run done) ack member awaited
  rw [beq_iff_eq.mp request, lost] at once
  cases once

/-- At most as many requests as the table of recent ones holds, with distinct
keys, and room for every one that is not known. -/
def Spaced (c : Client) : Action → Prop
  | .push pack => c.pushes.length < recentlyReceivedRequestCap ∧ ∀ other ∈ c.pushes, other.id ≠ pack.id
  | .arrive i _ => ∀ pack ∈ c.pushes[i]?, pack.id ∉ c.recentlyReceivedRequest.m →
      ∀ channel ∈ c.channelAt pack.cmd, channel.Accepts
  | _ => True

/-- The table knows exactly the requests that have been taken. -/
structure Remembers (c : Client) : Prop where
  cap : c.recentlyReceivedRequest.cap = recentlyReceivedRequestCap
  few : c.pushes.length ≤ recentlyReceivedRequestCap
  distinct : (c.pushes.map Packet.id).Nodup
  known : ∀ id ∈ c.recentlyReceivedRequest.m, id ∈ c.pushes.map Packet.id
  pushed : ∀ i ∈ c.accepted, i < c.pushes.length
  taken : c.broken = false →
    ∀ (i : Nat) (pack : Packet), c.pushes[i]? = some pack →
      (pack.id ∈ c.recentlyReceivedRequest.m ↔ i ∈ c.accepted)

theorem start_remembers : (start seqGenerator).Remembers where
  cap := rfl
  few := Nat.zero_le _
  distinct := List.nodup_nil
  known _ member := absurd member (AList.notMem_empty _)
  pushed _ member := by cases member
  taken _ _ _ found := by cases found

theorem trySend_pushes_recent (c : Client) (i : Nat) (pack : Packet) :
    (c.trySend i pack).pushes = c.pushes ∧
      (c.trySend i pack).recentlyReceivedRequest = c.recentlyReceivedRequest := by
  unfold trySend
  split
  · exact ⟨rfl, rfl⟩
  · split <;> exact ⟨rfl, rfl⟩

theorem onReceiveRequest_recent (c : Client) (i : Nat) (pack : Packet) (deviceId : List UInt8) :
    (c.onReceiveRequest i pack deviceId).pushes = c.pushes ∧
      (c.onReceiveRequest i pack deviceId).recentlyReceivedRequest =
        if (c.recentlyReceivedRequest.exist pack.id).1 then (c.recentlyReceivedRequest.exist pack.id).2
        else (c.recentlyReceivedRequest.exist pack.id).2.put pack.id := by
  unfold onReceiveRequest
  dsimp only
  split
  · rename_i known
    exact ⟨rfl, (if_pos known).symm⟩
  · rename_i unknown
    obtain ⟨pushes, recent⟩ := trySend_pushes_recent ({ c.acknowledge i pack deviceId with
      recentlyReceivedRequest := (c.recentlyReceivedRequest.exist pack.id).2.put pack.id }) i pack
    exact ⟨pushes, recent.trans (if_neg unknown).symm⟩

/-- As few requests as these all stay in the table. -/
theorem Remembers.mem_recent (remembers : c.Remembers) {i : Nat} {pack : Packet}
    (found : c.pushes[i]? = some pack) (deviceId : List UInt8) {id : UInt64} :
    id ∈ (c.onReceiveRequest i pack deviceId).recentlyReceivedRequest.m ↔
      id = pack.id ∨ id ∈ c.recentlyReceivedRequest.m := by
  rw [(c.onReceiveRequest_recent i pack deviceId).2]
  split
  · rename_i known
    rw [Lru.exist_m]
    exact ⟨Or.inr, fun either => either.elim (fun same => same ▸ Lru.exist_iff.mp known) fun member => member⟩
  · rw [Lru.mem_put_of_room, Lru.exist_m]
    have inside : ∀ key ∈ ((c.recentlyReceivedRequest.exist pack.id).2.m.insert pack.id
        (c.recentlyReceivedRequest.exist pack.id).2.next).keys, key ∈ c.pushes.map Packet.id := by
      intro key member
      rw [← AList.mem_keys, AList.mem_insert, Lru.exist_m] at member
      rcases member with rfl | before
      · exact List.mem_map_of_mem (List.mem_of_getElem? found)
      · exact remembers.known key before
    have bound := (List.subperm_of_subset (AList.keys_nodup _) inside).length_le
    rw [List.length_map] at bound
    rw [Lru.exist_cap, remembers.cap]
    exact bound.trans remembers.few

/-- The key tells the requests apart. -/
theorem Remembers.id_eq_iff (remembers : c.Remembers) {i j : Nat} {pack other : Packet}
    (found : c.pushes[i]? = some pack) (there : c.pushes[j]? = some other) : other.id = pack.id ↔ j = i := by
  constructor
  · intro same
    have left : (c.pushes.map Packet.id)[j]? = some other.id := by rw [List.getElem?_map, there]; rfl
    have right : (c.pushes.map Packet.id)[i]? = some pack.id := by rw [List.getElem?_map, found]; rfl
    obtain ⟨_, at_j⟩ := List.getElem?_eq_some_iff.mp left
    obtain ⟨_, at_i⟩ := List.getElem?_eq_some_iff.mp right
    exact (List.Nodup.getElem_inj_iff remembers.distinct).mp (at_j.trans (same.trans at_i.symm))
  · rintro rfl
    cases found.symm.trans there
    rfl

theorem Remembers.arrive (remembers : c.Remembers) {i : Nat} {pack : Packet}
    (found : c.pushes[i]? = some pack) (deviceId : List UInt8) (room : pack.id ∉ c.recentlyReceivedRequest.m →
      ∀ channel ∈ c.channelAt pack.cmd, channel.Accepts) (whole : c.broken = false) :
    (c.onReceiveRequest i pack deviceId).Remembers := by
  have recent (id : UInt64) : id ∈ (c.onReceiveRequest i pack deviceId).recentlyReceivedRequest.m ↔
      id = pack.id ∨ id ∈ c.recentlyReceivedRequest.m := remembers.mem_recent found deviceId
  obtain ⟨pushes, table⟩ := c.onReceiveRequest_recent i pack deviceId
  have receives := receives_onReceiveRequest c i pack deviceId
  generalize c.onReceiveRequest i pack deviceId = t at recent pushes table receives ⊢
  refine ⟨?_, pushes ▸ remembers.few, pushes ▸ remembers.distinct, fun id member => ?_, fun j member => ?_,
    fun whole' j other there => ?_⟩
  · rw [table]
    split <;> simp [remembers.cap]
  · rw [pushes]
    rcases (recent id).mp member with rfl | before
    · exact List.mem_map_of_mem (List.mem_of_getElem? found)
    · exact remembers.known id before
  · rw [pushes]
    cases receives with
    | took _ _ _ _ _ accepted =>
      rw [accepted] at member
      rcases List.mem_append.mp member with old | new
      · exact remembers.pushed j old
      · rw [List.mem_singleton.mp new]
        exact (List.getElem?_eq_some_iff.mp found).1
    | known _ _ _ accepted => exact remembers.pushed j (accepted ▸ member)
    | broke _ _ _ accepted => exact remembers.pushed j (accepted ▸ member)
    | refused _ _ _ _ _ accepted => exact remembers.pushed j (accepted ▸ member)
  · rw [pushes] at there
    have old := remembers.taken whole j other there
    have key := remembers.id_eq_iff found there
    rw [recent]
    cases receives with
    | known known _ _ accepted =>
      rw [accepted, ← old]
      refine or_iff_right_of_imp fun same => ?_
      rw [same]
      exact known
    | broke _ _ broken => cases broken.symm.trans whole'
    | refused unknown present full => exact absurd (room unknown _ present) full
    | took _ _ _ _ _ accepted =>
      rw [accepted, List.mem_append, List.mem_singleton, ← old, key]
      exact or_comm

theorem Remembers.push (remembers : c.Remembers) {pack : Packet}
    (room : c.pushes.length < recentlyReceivedRequestCap) (fresh : ∀ other ∈ c.pushes, other.id ≠ pack.id) :
    ({ c with pushes := c.pushes ++ [pack] } : Client).Remembers where
  cap := remembers.cap
  few := by
    rw [List.length_append]
    exact room
  distinct := by
    rw [List.map_append, List.map_singleton, ← List.concat_eq_append]
    refine remembers.distinct.concat fun member => ?_
    obtain ⟨other, inside, same⟩ := List.mem_map.mp member
    exact fresh other inside same
  known id member := by
    rw [List.map_append]
    exact List.mem_append_left _ (remembers.known id member)
  pushed i member := by
    rw [List.length_append]
    exact Nat.lt_succ_of_lt (remembers.pushed i member)
  taken whole i other found := by
    rw [List.getElem?_append] at found
    split at found
    · exact remembers.taken whole i other found
    · rename_i beyond
      rw [List.getElem?_singleton] at found
      split at found
      · cases found
        refine iff_of_false (fun known => ?_) fun taken => beyond (remembers.pushed i taken)
        obtain ⟨other, inside, same⟩ := List.mem_map.mp (remembers.known _ known)
        exact fresh other inside same
      · cases found

/-- What concerns neither the requests nor the table of recent ones. -/
theorem Remembers.congr (remembers : c.Remembers) (recent : t.recentlyReceivedRequest = c.recentlyReceivedRequest)
    (pushes : t.pushes = c.pushes) (accepted : t.accepted = c.accepted)
    (whole : t.broken = false → c.broken = false) : t.Remembers where
  cap := recent ▸ remembers.cap
  few := pushes ▸ remembers.few
  distinct := pushes ▸ remembers.distinct
  known := by
    rw [recent, pushes]
    exact remembers.known
  pushed := by
    rw [accepted, pushes]
    exact remembers.pushed
  taken unbroken := by
    rw [recent, pushes, accepted]
    exact remembers.taken (whole unbroken)

theorem Remembers.step (remembers : c.Remembers) (spaced : c.Spaced a) (taken : c.step a = some t) :
    t.Remembers := by
  obtain ⟨⟨_, unbroken⟩, _⟩ := Option.ite_none_right_eq_some.mp taken
  have whole : c.broken = false := by simpa using unbroken
  rcases step_quiet taken with ⟨i, pack, deviceId, rfl, found, rfl⟩ | ⟨_, _, accepted, recent, pushes, other⟩
  · exact remembers.arrive found deviceId (spaced pack found) whole
  · cases a with
    | push pack => exact (remembers.push spaced.1 spaced.2).congr recent pushes accepted fun _ => whole
    | arrive i deviceId => exact absurd rfl (other i deviceId)
    | _ => exact remembers.congr recent (pushes.trans (List.append_nil _)) accepted fun _ => whole

theorem Remembers.admitted (remembers : c.Remembers) (spaced : c.Spaced a) (taken : c.step a = some t) :
    c.Admitted a := by
  obtain ⟨⟨_, unbroken⟩, _⟩ := Option.ite_none_right_eq_some.mp taken
  have whole : c.broken = false := by simpa using unbroken
  cases a with
  | arrive i deviceId =>
    intro pack found channel present
    rw [← remembers.taken whole i pack found]
    exact and_iff_left_of_imp fun unknown => spaced pack found unknown channel present
  | _ => trivial

/-- As long as the table has room for all requests, only the room in the
channels decides whether they are delivered. -/
theorem run_admitted_of_spaced {labels : List Action} (run : Run Client.step Spaced (start seqGenerator) labels c) :
    Run Client.step Admitted (start seqGenerator) labels c :=
  run.weaken start_remembers (fun _ _ _ remembers spaced taken => remembers.step spaced taken)
    fun _ _ _ remembers spaced taken => remembers.admitted spaced taken

end Client
end Asyncmsg
