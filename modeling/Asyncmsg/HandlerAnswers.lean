import Asyncmsg.Routing
import Asyncmsg.RpcHandlers

namespace Asyncmsg
open Transition

namespace Protobuf
variable {Message : Type*} {proto : Protobuf Message}

variable (proto) in
/-- What the caller understands a result as: the code zero of an error stands for a success. -/
def understood : RpcResult Message → RpcResult Message
  | .error ec => if ec = 0 then .ok proto.default else .error ec
  | .ok message => .ok message

/-- A response carries what belongs to its request, and its caller reads the result from it. -/
theorem response_of_build {seqGenerator gen' : UInt32} {req rsp : Packet} {result : RpcResult Message}
    (fresh : req.seq ≠ 0) (built : proto.buildResponsePacket seqGenerator req result = some (rsp, gen')) :
    rsp.rsp = true ∧ rsp.deviceId = req.deviceId ∧ Sender.Matches rsp req ∧
      proto.parseBody rsp = proto.understood result := by
  cases result with
  | error ec =>
    simp only [buildResponsePacket, buildRspPacket, Packet.construct_of_ne_zero fresh, Option.some.injEq,
      Prod.mk.injEq] at built
    obtain ⟨rfl, _⟩ := built
    refine ⟨rfl, rfl, ⟨rfl, rfl⟩, ?_⟩
    rw [understood]
    split
    · rename_i zero
      exact parseBody_ok zero proto.parse_nil
    · exact parseBody_error ‹_›
  | ok message =>
    obtain ⟨body, written, same⟩ := Option.map_eq_some_iff.mp built
    simp only [buildRspPacket, Packet.construct_of_ne_zero fresh, Prod.mk.injEq] at same
    obtain ⟨rfl, _⟩ := same
    refine ⟨rfl, rfl, ⟨rfl, rfl⟩, parseBody_ok rfl ?_⟩
    rw [(body_eq_some written).1, proto.parse_serialize]

end Protobuf

theorem ServerRequests.arrivals_nodup {Caller : Type*} (cmd : UInt32) (a : ServerRequests.Action Caller) :
    (arrivals cmd [a]).Nodup := by
  unfold arrivals
  cases a with
  | receive pack => by_cases same : pack.cmd = cmd <;> simp [same]
  | _ => exact List.nodup_nil

namespace RpcServer
variable {Handler : Type*} {service : Service Handler} {Conn : Type} [DecidableEq Handler]
  {hasher : List UInt8 → UInt64} {ownId : Conn → List UInt8} {s t : RpcServer service Conn}
  {a : Action service Conn}

/-- Only `send_packet` gives a response to a connection: to the one that the
map has for its device id. -/
theorem sent_of_step (taken : s.step hasher a = some t) (h : Handler) :
    (t.tasks h).sent = (s.tasks h).sent ∨
      ∃ rsp conn, a = .send h ∧ (s.tasks h).phase = .sending rsp ∧ s.connectionMap rsp.deviceId = some conn ∧
        (t.tasks h).sent = (s.tasks h).sent ++ [(conn, rsp)] := by
  rcases passed_of_step taken h with ⟨_, same⟩ | ⟨rsp, sends, sending, grown⟩
  · exact Or.inl (by rw [HandlerTask.sent, same, HandlerTask.sent])
  · rw [HandlerTask.sent, grown, List.filterMap_append, ← HandlerTask.sent]
    split
    · exact Or.inl (List.append_nil _)
    · cases mapped : s.connectionMap rsp.deviceId with
      | none => exact Or.inl (List.append_nil _)
      | some conn => exact Or.inr ⟨rsp, conn, sends, sending, mapped, rfl⟩

theorem connectionMap_of_step (taken : s.step hasher a = some t) {deviceId : List UInt8} {conn : Conn}
    (mapped : t.connectionMap deviceId = some conn) :
    s.connectionMap deviceId = some conn ∨ a = .mapped deviceId (some conn) := by
  cases moves_of_step taken with
  | @mapped id conn' =>
    change Function.update s.connectionMap id conn' deviceId = _ at mapped
    rw [Function.update_apply] at mapped
    split at mapped
    · rename_i same
      exact Or.inr (by rw [same, mapped])
    · exact Or.inl mapped
  | runStop => cases mapped
  | arrive =>
    unfold wake at mapped
    split at mapped <;> exact Or.inl mapped
  | call =>
    unfold wake at mapped
    split at mapped <;> exact Or.inl mapped
  | _ => exact Or.inl mapped

/-- The requests of a command are those that have arrived. -/
theorem admitted_of_step (own : s.requests.Routed fun h cmd => cmd = rpcId hasher (service.rpcName h))
    (taken : s.step hasher a = some t) (cmd : UInt32) :
    (t.requests.admitted cmd).Sublist
      (s.requests.admitted cmd ++ ServerRequests.arrivals cmd (a.inner hasher).toList) := by
  rcases requests_of_step taken with ⟨none, same⟩ | ⟨b, inner, taken'⟩
  · rw [none, same]
    exact List.sublist_append_left _ _
  · rw [inner]
    exact (ServerRequests.sublist_of_step ⟨own.buffered, fun _ _ _ _ _ => trivial, fun _ _ => trivial,
      own.heartbeats⟩ taken' cmd).1

omit [DecidableEq Handler] in
theorem arrive_of_arrivals {cmd : UInt32} {pack : Packet}
    (member : pack ∈ ServerRequests.arrivals cmd (a.inner hasher).toList) : a = .arrive pack ∧ pack.cmd = cmd := by
  obtain ⟨inner, inside, found⟩ := List.mem_filterMap.mp member
  rw [Option.mem_toList] at inside
  cases a <;> cases inside <;> try cases found
  obtain ⟨same, equal⟩ := Option.ite_none_right_eq_some.mp found
  cases equal
  exact ⟨rfl, same⟩

variable (hasher ownId) in
/-- The handlers account for their requests, which are for their names, and
their responses go to connections with the device id of the response. -/
structure Serves (s : RpcServer service Conn) : Prop where
  sound : s.Sound hasher
  own : s.requests.Routed fun h cmd => cmd = rpcId hasher (service.rpcName h)
  mapped : ∀ deviceId conn, s.connectionMap deviceId = some conn → ownId conn = deviceId
  sent : ∀ h, ∀ entry ∈ (s.tasks h).sent, ownId entry.1 = entry.2.deviceId

theorem start_serves (seqGenerator : UInt32) : (start service Conn seqGenerator).Serves hasher ownId where
  sound := start_sound seqGenerator
  own := ServerRequests.start_routed seqGenerator
  mapped := nofun
  sent := nofun

theorem Serves.step (serves : s.Serves hasher ownId)
    (named : ∀ deviceId conn, a = .mapped deviceId (some conn) → ownId conn = deviceId)
    (taken : s.step hasher a = some t) : t.Serves hasher ownId where
  sound := serves.sound.step taken
  own := by
    rcases requests_of_step taken with ⟨_, same⟩ | ⟨b, inner, taken'⟩
    · rw [same]
      exact serves.own
    · refine serves.own.step ?_ taken'
      cases a <;> cases inner <;> trivial
  mapped deviceId conn found := by
    rcases connectionMap_of_step taken found with before | new
    · exact serves.mapped deviceId conn before
    · exact named deviceId conn new
  sent h entry member := by
    rcases sent_of_step taken h with same | ⟨rsp, conn, _, _, mapped, grown⟩
    · exact serves.sent h entry (same ▸ member)
    · rw [grown] at member
      rcases List.mem_append.mp member with old | new
      · exact serves.sent h entry old
      · rw [List.mem_singleton.mp new]
        exact serves.mapped _ _ mapped

/-- A response answers a request that its handler has been given, and is what
has been built from the result for the message of this request. -/
def Answers (s : RpcServer service Conn) (h : Handler) (rsp : Packet) (req : Packet) : Prop :=
  ∃ message result, (req, .answered message result rsp) ∈ (s.tasks h).record ∧
    (service.reqProto h).parseBody req = .ok message ∧
    ∃ seqGenerator gen', (service.rspProto h).buildResponsePacket seqGenerator req result = some (rsp, gen')

/-- The handler has its requests from the channel of its command. -/
theorem Serves.given (serves : s.Serves hasher ownId) {h : Handler} {req : Packet} (taken : req ∈ s.requests.takenBy h) :
    req.cmd = rpcId hasher (service.rpcName h) ∧ req ∈ s.requests.admitted req.cmd := by
  obtain ⟨entry, inside, rfl⟩ := List.mem_map.mp taken
  obtain ⟨member, mine⟩ := List.mem_filter.mp inside
  have own := serves.own.taken entry member
  rw [of_decide_eq_true mine] at own
  exact ⟨own, List.mem_append_left _ (List.mem_map_of_mem (List.mem_filter.mpr ⟨member, by simp⟩))⟩

theorem Serves.answers (serves : s.Serves hasher ownId) {h : Handler} {rsp : Packet}
    (built : rsp ∈ (s.tasks h).sent.map Prod.snd ++ (s.tasks h).phase.response.toList) :
    ∃ req, s.Answers h rsp req ∧ req ∈ s.requests.takenBy h := by
  have accounts := serves.sound.accounts h
  obtain ⟨⟨req, fate⟩, member, response⟩ := List.mem_filterMap.mp (accounts.sent_sublist.subset built)
  have right := accounts.right _ member
  cases fate <;> cases response
  refine ⟨req, ⟨_, _, member, right⟩, ?_⟩
  rw [← accounts.books]
  exact List.mem_append_left _ (List.mem_map_of_mem (f := Prod.fst) member)

end RpcServer
end Asyncmsg
