import Asyncmsg.ClientWindow
import Asyncmsg.Rpc

namespace Asyncmsg
open Transition

namespace Client
variable {c t : Client} {a : Client.Action} {i : Nat} {pack : Packet} {seqGenerator : UInt32} {cmd key : UInt32}

/-- The requests of a command that are in its channel. -/
def buffered (c : Client) (cmd : UInt32) : List Packet := (c.channelAt cmd).elim [] Channel.buffer

/-- Those that the application has got. -/
def receivedOf (c : Client) (cmd : UInt32) : List Packet := c.received.filter fun pack => pack.cmd = cmd

/-- Those that have been accepted, in the order in which they have been. -/
def acceptedOf (c : Client) (cmd : UInt32) : List Packet :=
  (c.accepted.filterMap fun i => c.pushes[i]?).filter fun pack => pack.cmd = cmd

/-- The channels hand over what they accept in order, and hold the rest. -/
structure InOrder (c : Client) : Prop where
  pushed : ∀ i ∈ c.accepted, i < c.pushes.length
  order : ∀ cmd, c.receivedOf cmd ++ c.buffered cmd = c.acceptedOf cmd

theorem start_inOrder : (start seqGenerator).InOrder := ⟨nofun, fun _ => rfl⟩

theorem channelAt_setChannel (entry : Option RequestChannel) :
    (c.setChannel cmd entry).channelAt key = if key = cmd then entry else c.channelAt key := by
  unfold channelAt setChannel
  split
  · rename_i same
    subst same
    rw [AList.lookup_insert]
    rfl
  · rename_i other
    rw [AList.lookup_insert_ne other]

theorem channelAt_cancelAll (c : Client) (cmd : UInt32) :
    c.cancelAll.channelAt cmd = (c.channelAt cmd).map Channel.cancel := by
  have mapped : c.cancelAll.channels.lookup cmd = (c.channels.lookup cmd).map (Option.map Channel.cancel) :=
    List.dlookup_map₂ (f := fun _ => Option.map Channel.cancel) cmd
  rw [channelAt, channelAt, mapped]
  cases c.channels.lookup cmd with
  | none => rfl
  | some entry => rfl

theorem InOrder.cmd_of_buffered (inOrder : c.InOrder) (held : pack ∈ c.buffered cmd) : pack.cmd = cmd := by
  have member : pack ∈ c.acceptedOf cmd := by
    rw [← inOrder.order]
    exact List.mem_append_right _ held
  exact of_decide_eq_true (List.mem_filter.mp member).2

/-- What leaves the requests and the contents of the channels alone. -/
theorem InOrder.congr (inOrder : c.InOrder) (pushes : t.pushes = c.pushes) (accepted : t.accepted = c.accepted)
    (received : t.received = c.received) (buffered : ∀ cmd, t.buffered cmd = c.buffered cmd) : t.InOrder where
  pushed := by
    rw [accepted, pushes]
    exact inOrder.pushed
  order cmd := by
    rw [receivedOf, received, buffered, acceptedOf, accepted, pushes]
    exact inOrder.order cmd

theorem InOrder.push (inOrder : c.InOrder) (pack : Packet) :
    ({ c with pushes := c.pushes ++ [pack] } : Client).InOrder where
  pushed i member := by
    rw [List.length_append]
    exact Nat.lt_add_right _ (inOrder.pushed i member)
  order cmd := by
    have same : (c.accepted.filterMap fun i => (c.pushes ++ [pack])[i]?) = c.accepted.filterMap fun i => c.pushes[i]? :=
      List.filterMap_congr fun i member => List.getElem?_append_left (inOrder.pushed i member)
    simp only [acceptedOf, same]
    exact inOrder.order cmd

/-- A request is accepted, and some of what its channel holds handed over. -/
theorem InOrder.accept (inOrder : c.InOrder) {handed : List Packet} (found : c.pushes[i]? = some pack)
    (pushes : t.pushes = c.pushes) (accepted : t.accepted = c.accepted ++ [i])
    (received : t.received = c.received ++ handed)
    (buffered : ∀ cmd, (handed.filter fun pack => pack.cmd = cmd) ++ t.buffered cmd =
      c.buffered cmd ++ [pack].filter fun pack => pack.cmd = cmd) : t.InOrder where
  pushed j member := by
    rw [pushes]
    rw [accepted] at member
    rcases List.mem_append.mp member with old | new
    · exact inOrder.pushed j old
    · rw [List.mem_singleton.mp new]
      exact (List.getElem?_eq_some_iff.mp found).1
  order cmd := by
    have more : ([i].filterMap fun j => c.pushes[j]?) = [pack] := by simp [found]
    rw [receivedOf, received, List.filter_append, List.append_assoc, buffered, ← List.append_assoc, acceptedOf, accepted,
      pushes, List.filterMap_append, more, List.filter_append]
    exact congrArg (· ++ _) (inOrder.order cmd)

theorem InOrder.trySend (inOrder : c.InOrder) (found : c.pushes[i]? = some pack) : (c.trySend i pack).InOrder := by
  unfold Client.trySend
  split
  · rename_i missing
    refine inOrder.congr rfl rfl rfl fun cmd => ?_
    change ((c.setChannel pack.cmd none).channelAt cmd).elim [] Channel.buffer = _
    rw [channelAt_setChannel, buffered]
    split
    · rename_i same
      rw [same, missing]
    · rfl
  · rename_i channel here
    split
    · exact inOrder.congr rfl rfl rfl fun _ => rfl
    · rename_i next sent
      have handed := Channel.trySend_handed sent
      have received : (if 0 < channel.waiters then c.received ++ [pack] else c.received) =
          c.received ++ (if 0 < channel.waiters then [pack] else []) := by
        split
        · rfl
        · exact (List.append_nil _).symm
      refine inOrder.accept found rfl rfl received fun cmd => ?_
      change _ ++ ((c.setChannel pack.cmd (some next)).channelAt cmd).elim [] Channel.buffer = _
      rw [channelAt_setChannel, buffered]
      by_cases same : cmd = pack.cmd
      · subst same
        have own : ((if 0 < channel.waiters then [pack] else []).filter fun other => other.cmd = pack.cmd) =
            if 0 < channel.waiters then [pack] else [] :=
          List.filter_eq_self.mpr fun other member => by
            split at member
            · rw [List.mem_singleton.mp member, decide_eq_true rfl]
            · cases member
        rw [if_pos rfl, own, here]
        exact handed.trans (congrArg (channel.buffer ++ ·) (by simp))
      · have others : ((if 0 < channel.waiters then [pack] else []).filter fun other => other.cmd = cmd) = [] :=
          List.filter_eq_nil_iff.mpr fun other member => by
            split at member
            · rw [List.mem_singleton.mp member]
              simpa using Ne.symm same
            · cases member
        rw [if_neg same, others]
        simp [Ne.symm same]

theorem InOrder.onReceiveRequest (inOrder : c.InOrder) (found : c.pushes[i]? = some pack) (deviceId : List UInt8) :
    (c.onReceiveRequest i pack deviceId).InOrder := by
  have acknowledged (recent : Lru UInt64) :
      ({ c.acknowledge i pack deviceId with recentlyReceivedRequest := recent } : Client).InOrder :=
    inOrder.congr rfl rfl rfl fun _ => rfl
  unfold Client.onReceiveRequest
  dsimp only
  split
  · exact inOrder.congr rfl rfl rfl fun _ => rfl
  · exact (acknowledged _).trySend found

theorem buffered_setChannel_empty (absent : c.channels.lookup cmd = none) (key : UInt32) :
    (c.setChannel cmd (some .empty)).buffered key = c.buffered key := by
  rw [buffered, channelAt_setChannel, buffered]
  split
  · rename_i same
    rw [same, channelAt, absent]
    rfl
  · rfl

theorem InOrder.receive (inOrder : c.InOrder) {channel : RequestChannel} (here : c.channelAt cmd = some channel) :
    ({ c.setChannel cmd (some channel.receive.2) with
      received := c.received ++ channel.receive.1.toList } : Client).InOrder := by
  have handed := channel.receive_handed
  have contents : c.buffered cmd = channel.buffer := by rw [buffered, here]; rfl
  have own : ∀ pack ∈ channel.receive.1.toList, pack.cmd = cmd := fun pack member =>
    inOrder.cmd_of_buffered (contents ▸ handed ▸ List.mem_append_left _ member)
  refine ⟨inOrder.pushed, fun key => ?_⟩
  change (c.received ++ channel.receive.1.toList).filter _ ++
    ((c.setChannel cmd (some channel.receive.2)).channelAt key).elim [] Channel.buffer = _
  rw [channelAt_setChannel, List.filter_append]
  by_cases same : key = cmd
  · subst same
    have all : (channel.receive.1.toList.filter fun pack => pack.cmd = key) = channel.receive.1.toList :=
      List.filter_eq_self.mpr fun pack member => decide_eq_true (own pack member)
    rw [if_pos rfl, all, List.append_assoc]
    change _ ++ (_ ++ channel.receive.2.buffer) = _
    rw [handed, ← contents]
    exact inOrder.order key
  · have none : (channel.receive.1.toList.filter fun pack => pack.cmd = key) = [] :=
      List.filter_eq_nil_iff.mpr fun pack member => by simpa [own pack member] using Ne.symm same
    rw [if_neg same, none, List.append_nil]
    exact inOrder.order key

theorem InOrder.waitRequest (inOrder : c.InOrder) (cmd : UInt32) : (c.waitRequest cmd).InOrder := by
  have made : (if (c.channels.lookup cmd).isNone then c.setChannel cmd (some .empty) else c).InOrder := by
    split
    · exact inOrder.congr rfl rfl rfl (buffered_setChannel_empty (Option.isNone_iff_eq_none.mp ‹_›))
    · exact inOrder
  unfold Client.waitRequest
  dsimp only
  generalize (if (c.channels.lookup cmd).isNone then c.setChannel cmd (some .empty) else c) = c' at made ⊢
  split
  · exact made.congr rfl rfl rfl fun _ => rfl
  · exact made.receive ‹_›

theorem InOrder.step (inOrder : c.InOrder) (taken : c.step a = some t) : t.InOrder := by
  obtain ⟨_, taken⟩ := Option.ite_none_right_eq_some.mp taken
  cases a with
  | push pack =>
    cases taken
    exact inOrder.push pack
  | arrive i deviceId =>
    obtain ⟨pack, found, rfl⟩ := Option.map_eq_some_iff.mp taken
    exact inOrder.onReceiveRequest found deviceId
  | waitRequest cmd =>
    cases taken
    exact inOrder.waitRequest cmd
  | leave cmd =>
    obtain ⟨channel, here, taken⟩ := Option.bind_eq_some_iff.mp taken
    obtain ⟨_, same⟩ := Option.ite_none_right_eq_some.mp taken
    cases same
    refine inOrder.congr rfl rfl rfl fun key => ?_
    rw [buffered, channelAt_setChannel, buffered]
    split
    · rename_i same
      rw [same, here]
      rfl
    · rfl
  | stop force =>
    obtain ⟨_, same⟩ := Option.ite_none_left_eq_some.mp taken
    cases same
    exact inOrder.congr rfl rfl rfl fun _ => rfl
  | runStop =>
    obtain ⟨_, _, same⟩ := Option.bind_eq_some_iff.mp taken
    cases same
    refine inOrder.congr rfl rfl rfl fun key => ?_
    change (c.cancelAll.channelAt key).elim [] Channel.buffer = _
    rw [channelAt_cancelAll, buffered]
    cases c.channelAt key with
    | none => rfl
    | some channel => rfl

theorem received_of_trySend (c : Client) (i : Nat) (pack : Packet) :
    ∃ more, (c.trySend i pack).received = c.received ++ more := by
  unfold trySend
  split
  · exact ⟨[], (List.append_nil _).symm⟩
  · split
    · exact ⟨[], (List.append_nil _).symm⟩
    · dsimp only
      split
      · exact ⟨[pack], rfl⟩
      · exact ⟨[], (List.append_nil _).symm⟩

/-- The application keeps what it has got. -/
theorem received_of_step (taken : c.step a = some t) : ∃ more, t.received = c.received ++ more := by
  obtain ⟨_, taken⟩ := Option.ite_none_right_eq_some.mp taken
  have same : ∃ more, c.received = c.received ++ more := ⟨[], (List.append_nil _).symm⟩
  cases a with
  | push pack =>
    cases taken
    exact same
  | arrive i deviceId =>
    obtain ⟨pack, _, rfl⟩ := Option.map_eq_some_iff.mp taken
    unfold onReceiveRequest
    dsimp only
    split
    · exact same
    · exact received_of_trySend _ i pack
  | waitRequest cmd =>
    cases taken
    unfold Client.waitRequest
    dsimp only
    split <;> split
    · exact same
    · exact same
    · exact ⟨_, rfl⟩
    · exact ⟨_, rfl⟩
  | leave cmd =>
    obtain ⟨_, _, taken⟩ := Option.bind_eq_some_iff.mp taken
    obtain ⟨_, done⟩ := Option.ite_none_right_eq_some.mp taken
    cases done
    exact same
  | stop force =>
    obtain ⟨_, done⟩ := Option.ite_none_left_eq_some.mp taken
    cases done
    exact same
  | runStop =>
    obtain ⟨_, _, done⟩ := Option.bind_eq_some_iff.mp taken
    cases done
    exact same

/-- The requests have keys of their own. One that comes again has not been
forgotten, and one that has not been taken yet finds room in its channel. -/
def Timely (c : Client) : Action → Prop
  | .push pack => ∀ other ∈ c.pushes, other.id ≠ pack.id
  | .arrive i _ => ∀ pack ∈ c.pushes[i]?,
      if i ∈ c.accepted then pack.id ∈ c.recentlyReceivedRequest.m
      else ∀ channel ∈ c.channelAt pack.cmd, channel.Accepts
  | _ => True

instance (c : Client) (a : Client.Action) : Decidable (c.Timely a) :=
  match a with
  | .push pack => inferInstanceAs (Decidable (∀ other ∈ c.pushes, other.id ≠ pack.id))
  | .arrive i _ => inferInstanceAs (Decidable (∀ pack ∈ c.pushes[i]?,
      if i ∈ c.accepted then pack.id ∈ c.recentlyReceivedRequest.m
      else ∀ channel ∈ c.channelAt pack.cmd, channel.Accepts))
  | .waitRequest _ | .leave _ | .stop _ | .runStop => inferInstanceAs (Decidable True)

/-- Every request that has come has been taken, and only once. -/
structure Kept (c : Client) : Prop where
  windowed : c.Windowed
  distinct : (c.pushes.map Packet.id).Nodup
  exact : c.Exact
  handled : c.broken = false → ∀ ack ∈ c.acks, ack.request ∈ c.accepted

theorem start_kept : (start seqGenerator).Kept :=
  ⟨start_windowed, List.nodup_nil, start_exact, fun _ _ member => by cases member⟩

/-- The table knows a request exactly if it has been taken. -/
theorem Kept.known_iff (kept : c.Kept) (whole : c.broken = false) (found : c.pushes[i]? = some pack)
    (timely : if i ∈ c.accepted then pack.id ∈ c.recentlyReceivedRequest.m
      else ∀ channel ∈ c.channelAt pack.cmd, channel.Accepts) :
    pack.id ∈ c.recentlyReceivedRequest.m ↔ i ∈ c.accepted := by
  refine ⟨fun known => ?_, fun taken => by rwa [if_pos taken] at timely⟩
  obtain ⟨ack, member, other, there, same⟩ := kept.windowed.acked_of_known known
  have first : (c.pushes.map Packet.id)[ack.request]? = some pack.id := by rw [List.getElem?_map, there, ← same]; rfl
  have second : (c.pushes.map Packet.id)[i]? = some pack.id := by rw [List.getElem?_map, found]; rfl
  obtain ⟨inside, _⟩ := List.getElem?_eq_some_iff.mp first
  rw [← (List.getElem?_inj inside kept.distinct).mp (first.trans second.symm)]
  exact kept.handled whole ack member

theorem Kept.arrive (kept : c.Kept) (whole : c.broken = false) (found : c.pushes[i]? = some pack)
    (timely : if i ∈ c.accepted then pack.id ∈ c.recentlyReceivedRequest.m
      else ∀ channel ∈ c.channelAt pack.cmd, channel.Accepts) (deviceId : List UInt8) :
    (c.onReceiveRequest i pack deviceId).Kept := by
  have known := kept.known_iff whole found timely
  have pushes := (c.onReceiveRequest_recent i pack deviceId).1
  obtain ⟨rsp, acks⟩ := c.onReceiveRequest_acks i pack deviceId
  have receives := receives_onReceiveRequest c i pack deviceId
  have exact : (c.onReceiveRequest i pack deviceId).Exact := by
    refine kept.exact.arrive receives acks fun channel here => ?_
    rw [known]
    refine and_iff_left_of_imp fun fresh => ?_
    rw [if_neg fresh] at timely
    exact timely channel here
  refine ⟨kept.windowed.arrive found deviceId, pushes ▸ kept.distinct, exact, fun whole' ack member => ?_⟩
  have own : i ∈ (c.onReceiveRequest i pack deviceId).accepted := by
    cases receives with
    | known old _ _ accepted => exact accepted ▸ known.mp old
    | broke _ _ broken => cases broken.symm.trans whole'
    | refused unknown here full =>
      rw [if_neg fun taken => unknown (known.mpr taken)] at timely
      exact absurd (timely _ here) full
    | took _ _ _ _ _ accepted => exact accepted ▸ List.mem_append_right _ (List.mem_singleton_self i)
  have others : ∀ j ∈ c.accepted, j ∈ (c.onReceiveRequest i pack deviceId).accepted := fun j member => by
    cases receives with
    | took _ _ _ _ _ accepted => exact accepted ▸ List.mem_append_left _ member
    | known _ _ _ accepted => exact accepted ▸ member
    | broke _ _ _ accepted => exact accepted ▸ member
    | refused _ _ _ _ _ accepted => exact accepted ▸ member
  rw [acks] at member
  rcases List.mem_append.mp member with old | new
  · exact others _ (kept.handled whole ack old)
  · cases List.mem_singleton.mp new
    exact own

theorem Kept.step (kept : c.Kept) (timely : c.Timely a) (taken : c.step a = some t) : t.Kept := by
  have windowed := kept.windowed.step taken
  obtain ⟨⟨_, unbroken⟩, _⟩ := Option.ite_none_right_eq_some.mp taken
  have whole : c.broken = false := by simpa using unbroken
  rcases step_quiet taken with ⟨i, pack, deviceId, rfl, found, rfl⟩ | ⟨acks, _, accepted, _, pushes, other⟩
  · exact kept.arrive whole found (timely pack found) deviceId
  · refine ⟨windowed, ?_, ⟨accepted ▸ kept.exact.once, by rw [acks, accepted]; exact kept.exact.taken⟩,
      fun _ => by rw [acks, accepted]; exact kept.handled whole⟩
    rw [pushes, List.map_append]
    cases a with
    | push pack =>
      rw [Action.built, List.map_singleton, ← List.concat_eq_append]
      refine kept.distinct.concat fun member => ?_
      obtain ⟨other, inside, same⟩ := List.mem_map.mp member
      exact timely other inside same
    | _ => simpa [Action.built] using kept.distinct

end Client

/-- What `wait_push` makes of a request. -/
def Protobuf.pushMessage {Message : Type*} (proto : Protobuf Message) (req : Packet) : Option Message :=
  match proto.parseBody req with
  | .ok message => some message
  | .error _ => none

/-- A client whose application calls `wait_push` for one rpc any number of times:
`ready` calls are about to call `wait_request`, others wait in it. The messages
stand in the order in which the calls have been given them. -/
structure PushClient (Message : Type*) where
  client : Client
  ready : Nat
  returned : List Message

namespace PushClient
variable {Message : Type*}

/-- Of the client's own steps the calls of `wait_request` are for other commands. -/
inductive Action
  | client (a : Client.Action)
  | call
  | request

def start (seqGenerator : UInt32) : PushClient Message := ⟨.start seqGenerator, 0, []⟩

variable (proto : Protobuf Message) (id : UInt32) (s : PushClient Message)

/-- The loop in `wait_push` goes on with a request: it returns a message, or
calls `wait_request` again. -/
def resume (req : Packet) : PushClient Message :=
  match proto.pushMessage req with
  | some message => { s with returned := s.returned ++ [message] }
  | none => { s with ready := s.ready + 1 }

/-- The client takes a step, and calls go on with the requests it hands over. -/
def advance (client : Client) : PushClient Message :=
  ((client.received.drop s.client.received.length).filter fun req => req.cmd = id).foldl (resume proto)
    { s with client := client }

def step (s : PushClient Message) : Action → Option (PushClient Message)
  | .client (.waitRequest cmd) =>
    if cmd = id then none else (s.client.step (.waitRequest cmd)).map (s.advance proto id)
  | .client a => (s.client.step a).map (s.advance proto id)
  | .call => some { s with ready := s.ready + 1 }
  | .request =>
    if 0 < s.ready then
      (s.client.step (.waitRequest id)).map fun client => ({ s with ready := s.ready - 1 }).advance proto id client
    else none

def Timely (s : PushClient Message) : Action → Prop
  | .client a => s.client.Timely a
  | _ => True

instance (s : PushClient Message) (a : Action) : Decidable (s.Timely a) :=
  match a with
  | .client a => inferInstanceAs (Decidable (s.client.Timely a))
  | .call | .request => inferInstanceAs (Decidable True)

variable {proto id s} {t : PushClient Message} {a : Action} {seqGenerator : UInt32}

theorem foldl_resume (proto : Protobuf Message) (s : PushClient Message) (reqs : List Packet) :
    (reqs.foldl (resume proto) s).client = s.client ∧
      (reqs.foldl (resume proto) s).returned = s.returned ++ reqs.filterMap proto.pushMessage := by
  induction reqs generalizing s with
  | nil => exact ⟨rfl, (List.append_nil _).symm⟩
  | cons req reqs ih =>
    rw [List.foldl_cons]
    obtain ⟨client, returned⟩ := ih (s.resume proto req)
    rw [client, returned, resume]
    cases parsed : proto.pushMessage req with
    | none => exact ⟨rfl, by rw [List.filterMap_cons_none parsed]⟩
    | some message => exact ⟨rfl, by rw [List.filterMap_cons_some parsed, List.append_assoc]; rfl⟩

theorem advance_client (client : Client) : (s.advance proto id client).client = client :=
  (foldl_resume proto { s with client := client } _).1

/-- What the calls do to their client is a step of the client. -/
theorem client_of_step (taken : s.step proto id a = some t) :
    t.client = s.client ∨ ∃ b, s.client.step b = some t.client ∧ (b = .waitRequest id ∨ a = .client b) := by
  have stepped (s' : PushClient Message) {b : Client.Action}
      (taken : (s.client.step b).map (s'.advance proto id) = some t) : s.client.step b = some t.client := by
    obtain ⟨client, moved, rfl⟩ := Option.map_eq_some_iff.mp taken
    rw [moved, advance_client]
  cases a with
  | client b =>
    refine Or.inr ⟨b, ?_, Or.inr rfl⟩
    cases b with
    | waitRequest cmd => exact stepped s (Option.ite_none_left_eq_some.mp taken).2
    | _ => exact stepped s taken
  | call =>
    cases taken
    exact Or.inl rfl
  | request =>
    have moved := (Option.ite_none_right_eq_some.mp taken).2
    exact Or.inr ⟨_, stepped { s with ready := s.ready - 1 } moved, Or.inl rfl⟩

/-- The channels are in order, and the calls have returned the messages in what
the client has handed over. -/
structure Handed (proto : Protobuf Message) (id : UInt32) (s : PushClient Message) : Prop where
  inOrder : s.client.InOrder
  returned : s.returned = (s.client.receivedOf id).filterMap proto.pushMessage

theorem start_handed : (start seqGenerator).Handed proto id := ⟨Client.start_inOrder, rfl⟩

theorem Handed.all (handed : s.Handed proto id) : s.returned ++ (s.client.buffered id).filterMap proto.pushMessage =
    (s.client.acceptedOf id).filterMap proto.pushMessage := by
  rw [handed.returned, ← List.filterMap_append, handed.inOrder.order]

theorem Handed.advance (handed : s.Handed proto id) {b : Client.Action} {client : Client}
    (taken : s.client.step b = some client) : (s.advance proto id client).Handed proto id := by
  obtain ⟨more, received⟩ := Client.received_of_step taken
  have returned := (foldl_resume proto { s with client := client }
    ((client.received.drop s.client.received.length).filter fun req => req.cmd = id)).2
  rw [← PushClient.advance] at returned
  refine ⟨?_, ?_⟩
  · rw [advance_client]
    exact handed.inOrder.step taken
  · rw [returned, advance_client]
    simp only [Client.receivedOf, received, List.drop_left, List.filter_append, List.filterMap_append]
    rw [handed.returned]
    rfl

theorem Handed.step (handed : s.Handed proto id) (taken : s.step proto id a = some t) : t.Handed proto id := by
  have stepped {s' : PushClient Message} {b : Client.Action} (handed : s'.Handed proto id)
      (taken : (s'.client.step b).map (s'.advance proto id) = some t) : t.Handed proto id := by
    obtain ⟨client, moved, rfl⟩ := Option.map_eq_some_iff.mp taken
    exact handed.advance moved
  have waiting (ready : Nat) : ({ s with ready := ready } : PushClient Message).Handed proto id :=
    ⟨handed.inOrder, handed.returned⟩
  cases a with
  | client b =>
    cases b with
    | waitRequest cmd => exact stepped handed (Option.ite_none_left_eq_some.mp taken).2
    | _ => exact stepped handed taken
  | call =>
    cases taken
    exact waiting _
  | request => exact stepped (waiting (s.ready - 1)) (Option.ite_none_right_eq_some.mp taken).2

theorem kept_of_step (kept : s.client.Kept) (timely : s.Timely a) (taken : s.step proto id a = some t) :
    t.client.Kept := by
  rcases client_of_step taken with same | ⟨b, moved, rfl | rfl⟩
  · rw [same]
    exact kept
  · exact kept.step (a := .waitRequest id) trivial moved
  · exact kept.step timely moved

/-- A message that has been pushed with the name is what `wait_push` makes of it. -/
theorem pushMessage_of_build {hasher : List UInt8 → UInt64} {gen gen' : UInt32} {rpcName deviceId : List UInt8}
    {message : Message} {pack : Packet}
    (built : proto.buildRequestPacket hasher gen rpcName message deviceId = some (pack, gen')) :
    pack.cmd = rpcId hasher rpcName ∧ proto.pushMessage pack = some message := by
  obtain ⟨b, written, same⟩ := Option.map_eq_some_iff.mp built
  have cmd : (buildReqPacket gen (rpcId hasher rpcName) b deviceId).1.cmd = rpcId hasher rpcName := by
    rw [buildReqPacket, Packet.construct]
    rfl
  have ec := Packet.construct_ec gen (rpcId hasher rpcName) false b deviceId 0 0
  have body := (Packet.construct_deviceId_body gen (rpcId hasher rpcName) false b deviceId 0 0).2
  rw [← buildReqPacket, same] at ec body
  rw [same] at cmd
  have parsed : proto.parseBody pack = .ok message :=
    Protobuf.parseBody_ok ec (by rw [body, (Protobuf.body_eq_some written).1, proto.parse_serialize])
  exact ⟨cmd, by rw [Protobuf.pushMessage, parsed]⟩

/-- Pushes reach `wait_push` in order and once. As long as no request is
forgotten before its last copy comes and the channels have room, the messages
that the calls have been given and those still in the channel are the messages of
the accepted requests, in the order of their acceptance; no request has been
accepted twice, and every one that has been acknowledged over a channel has been.
Where a call waits nothing is left in the channel. -/
theorem pushes_returned {labels : List Action}
    (run : Run (PushClient.step proto id) Timely (start seqGenerator) labels s) :
    s.returned ++ (s.client.buffered id).filterMap proto.pushMessage =
        (s.client.acceptedOf id).filterMap proto.pushMessage ∧
      s.client.accepted.Nodup ∧
      (∀ ack ∈ s.client.acks, ack.awaited = true → ack.request ∈ s.client.accepted) ∧
      ∀ channel, s.client.channelAt id = some channel → 0 < channel.waiters →
        s.returned = (s.client.acceptedOf id).filterMap proto.pushMessage := by
  have handed : s.Handed proto id :=
    run.invariant start_handed fun _ _ _ handed _ taken => handed.step taken
  have kept : s.client.Kept := run.invariant (I := fun s : PushClient Message => s.client.Kept) Client.start_kept
    fun _ _ _ kept timely taken => kept_of_step kept timely taken
  refine ⟨handed.all, kept.exact.once, kept.exact.taken, fun channel here waiting => ?_⟩
  have none : s.client.buffered id = [] := by
    rw [Client.buffered, here]
    exact channel.idle waiting
  rw [← handed.all, none, List.filterMap_nil, List.append_nil]

/-- A call is given a push that cannot be parsed, and then one of the default
message. -/
def skipped : List Action :=
  [.call, .request, .client (.push ping), .client (.arrive 0 [0x61]),
    .client (.push ⟨1, 2, false, 0, [0x61], .empty⟩), .client (.arrive 1 [0x61]), .request]

theorem pushes_returned_skipped :
    ∃ s, Run (PushClient.step boolMessage 1) Timely (start 0) skipped s ∧ s.returned = [false] ∧
      s.returned ++ (s.client.buffered 1).filterMap boolMessage.pushMessage =
        (s.client.acceptedOf 1).filterMap boolMessage.pushMessage ∧ s.client.accepted.Nodup := by
  have trace : (exec (PushClient.step boolMessage 1) Timely (start 0) skipped).map returned = some [false] := by
    decide +kernel
  obtain ⟨s, done, returned⟩ := Option.map_eq_some_iff.mp trace
  obtain ⟨order, once, _⟩ := pushes_returned (exec_run done)
  exact ⟨s, exec_run done, returned, order, once⟩

end PushClient
end Asyncmsg
