import Mathlib.Data.Fintype.Basic
import Asyncmsg.RpcTrace

namespace Asyncmsg
open Transition

namespace RpcSystem
variable {Handler : Type*} {service : Service Handler} {Conn : Type} [DecidableEq Handler]
  {hasher : List UInt8 → UInt64} {ownId : Conn → List UInt8} {seqGenerator : UInt32} {s : RpcSystem service Conn}
  {heard : Conn → List Event} {c : Conn}

/-- A response that a call returns answers this very call, on whatever connection
it has come: a handler for the command of the call has handled its packet, and
the response has been built from the result for its message. -/
theorem Traced.returned (traced : s.Traced hasher ownId seqGenerator heard) {call : Call}
    (member : call ∈ (s.up c).sender.calls) {rsp : Packet} (got : call.Got rsp) :
    ∃ h, s.server.Answers h rsp call.pack ∧ call.pack.cmd = rpcId hasher (service.rpcName h) ∧ call.pack.seq ≠ 0 := by
  obtain ⟨wait, received⟩ := traced.got c call member rsp got
  obtain ⟨request, ordinary⟩ := (traced.asks c).waits call member wait
  have matching := (traced.asks c).routed.answersMatch call member rsp got
  obtain ⟨_, heartbeat | ⟨h, sent⟩⟩ := traced.response received
  · exact absurd (matching.1.symm.trans heartbeat) ordinary
  · have built : rsp ∈ (s.server.tasks h).sent.map Prod.snd ++ (s.server.tasks h).phase.response.toList :=
      List.mem_append_left _ (List.mem_map_of_mem (f := Prod.snd) sent)
    obtain ⟨req, c', answers, own, seen⟩ := traced.answered built
    obtain ⟨request', named, _, fresh, _, j, other, found', rfl⟩ := traced.request seen
    obtain ⟨_, _, _, _, gen, gen', built⟩ := id answers
    obtain ⟨_, deviceId, matching', _⟩ := Protobuf.response_of_build fresh built
    -- both calls ask the same under one device id
    have sameId : ownId c = ownId c' := (traced.serves.sent h _ sent).trans (deviceId.trans named)
    obtain ⟨i, found⟩ := List.mem_iff_getElem?.mp member
    obtain ⟨rfl, rfl⟩ := traced.apart c c' i j call other sameId found found' request request'
      ⟨matching.1.symm.trans matching'.1, matching.2.symm.trans matching'.2⟩
    cases found.symm.trans found'
    exact ⟨h, answers, own, fresh⟩

/-- No request is handled twice. -/
theorem Traced.handled_once (traced : s.Traced hasher ownId seqGenerator heard) {h h' : Handler} {i j : Nat}
    {req : Packet} (handled : ((s.server.tasks h).record.map Prod.fst)[i]? = some req)
    (handled' : ((s.server.tasks h').record.map Prod.fst)[j]? = some req) : h = h' ∧ i = j := by
  have given (h : Handler) : (s.server.tasks h).record.map Prod.fst <+: s.server.requests.takenBy h :=
    ⟨_, (traced.serves.sound.accounts h).books⟩
  have entry {h : Handler} {i : Nat} (handled : ((s.server.tasks h).record.map Prod.fst)[i]? = some req) :
      (h, req) ∈ s.server.requests.takenFor req.cmd := by
    obtain ⟨entry, inside, same⟩ := List.mem_map.mp ((given h).subset (List.mem_of_getElem? handled))
    obtain ⟨member, mine⟩ := List.mem_filter.mp inside
    rw [← of_decide_eq_true mine, ← same]
    exact List.mem_filter.mpr ⟨member, by simp⟩
  have once : ((s.server.requests.takenFor req.cmd).map Prod.snd).Nodup := (traced.once req.cmd).of_append_left
  obtain ⟨rfl, _⟩ := Prod.mk.inj (List.inj_on_of_nodup_map once (entry handled) (entry handled') rfl)
  have nodup : (s.server.requests.takenBy h).Nodup :=
    (RpcServer.takenBy_sublist s.server.requests fun entry member mine =>
      mine ▸ traced.serves.own.taken entry member).nodup (traced.once _)
  have inside := (List.getElem?_eq_some_iff.mp handled).1
  exact ⟨rfl, (List.getElem?_inj inside ((given h).sublist.nodup nodup)).mp (handled.trans handled'.symm)⟩

/-- A response that a call of the server has got is the acknowledgement of its
packet, which has been handed on at the client's end of the connection. -/
theorem Traced.acknowledged (traced : s.Traced hasher ownId seqGenerator heard) {call : Call}
    (member : call ∈ (s.down c).sender.calls) {rsp : Packet} (got : call.Got rsp) :
    .request (ownId c) call.pack ∈ (s.down c).events ∧
      rsp = ⟨call.pack.cmd, call.pack.seq, true, 0, ownId c, .empty⟩ := by
  obtain ⟨wait, received, matching⟩ := traced.pushed.acked c call member rsp got
  obtain ⟨other, there, request, fresh, handed, ack⟩ := traced.ack received
  rw [clientAck_of_ne_zero fresh] at ack
  -- both packets have the pair of the acknowledgement
  have same : call.pack = other.pack := by
    refine traced.pushed.same c c rfl call member other there (traced.pushed.waits c call member wait) request ?_
    rw [ack] at matching
    exact ⟨matching.1.symm, matching.2.symm⟩
  obtain ⟨id, inside⟩ := mem_requestsOf.mp handed
  obtain ⟨_, _, named, rfl⟩ := (traced.down c).honest.request id other.pack inside
  have own := ((traced.down c).delivers.legal other there).id.resolve_left named
  rw [same, ← own]
  exact ⟨inside, ack⟩

section Example
variable [DecidableEq Conn] [Fintype Conn]

instance (ownId : Conn → List UInt8) (s : RpcSystem service Conn) (c : Conn) (a : Sender.Action) :
    Decidable (s.Fresh ownId c a) :=
  match a with
  | .send kind pack => inferInstanceAs (Decidable (pack.rsp = false ∧ pack.seq.toNat < 2 ^ 31 ∧
      (kind = .waitRsp → pack.cmd ≠ heartbeatCmd) ∧ ∀ other, ownId other = ownId c →
        ∀ call ∈ (s.up other).sender.calls, call.pack.rsp = false → ¬Sender.Matches pack call.pack))
  | .transfer _ _ | .runDetached _ | .failWrite _ | .writeDone _ | .response _ | .timeout _ | .cancel _ | .resume _
  | .destroy => inferInstanceAs (Decidable True)

instance (ownId : Conn → List UInt8) (s : RpcSystem service Conn) (c : Conn) (a : Sender.Action) :
    Decidable (s.Repeated ownId c a) :=
  match a with
  | .send _ pack => inferInstanceAs (Decidable (pack.rsp = false ∧ pack.seq.toNat < 2 ^ 31 ∧
      ∀ other, ownId other = ownId c → ∀ call ∈ (s.down other).sender.calls, call.pack.rsp = false →
        Sender.Matches pack call.pack → call.pack = pack))
  | .transfer _ _ | .runDetached _ | .failWrite _ | .writeDone _ | .response _ | .timeout _ | .cancel _ | .resume _
  | .destroy => inferInstanceAs (Decidable True)

instance (ownId : Conn → List UInt8) (s : RpcSystem service Conn) (a : Action service Conn) :
    Decidable (s.Fair ownId a) :=
  match a with
  | .client c a => inferInstanceAs (Decidable
      (a.Sends (Packet.Deliverable (ownId c)) ∧ (s.up c).sender.Serial a ∧ s.Fresh ownId c a))
  | .server c a => inferInstanceAs (Decidable
      (a.Sends (Packet.Deliverable (ownId c)) ∧ (s.down c).sender.Serial a ∧ s.Repeated ownId c a))
  | .respond h => inferInstanceAs (Decidable
      (∀ rsp ∈ (s.server.tasks h).phase.response, rsp.body.bytes.length ≤ maxBodyLength))
  | .toServer _ _ | .toClient _ _ | .serverLost _ _ | .clientLost _ _ | .inactive _ | .inside _ =>
    inferInstanceAs (Decidable True)

end Example

/-- A request of the client `a` with a flag that is set, and one of the server. -/
def flagReq : Packet := ⟨7, 1, false, 0, [0x61], ⟨[0x08, 0x01], by simp⟩⟩
def flagPush : Packet := ⟨9, 2, false, 0, [0x61], .empty⟩

/-- A call of the client, and a push whose first try times out. -/
def callAndPush : List (Action RpcServer.flagService Unit) :=
  [.inside (.call ()), .client () (.send .waitRsp flagReq), .client () (.transfer 0 89), .client () (.writeDone 0),
    .toServer () 89, .inside (.resume ()), .inside (.finish () 5 (.returned (.ok true))), .respond (),
    .server () (.transfer 0 89), .server () (.writeDone 0), .inside (.written ()), .toClient () 89,
    .client () (.resume 0), .server () (.send .waitRsp flagPush), .server () (.transfer 1 87),
    .server () (.writeDone 1), .server () (.timeout 1), .server () (.resume 1),
    .server () (.send .waitRsp flagPush), .server () (.transfer 2 87), .server () (.writeDone 2), .toClient () 174,
    .client () (.runDetached 1), .client () (.transfer 1 87), .client () (.writeDone 1), .toServer () 87,
    .server () (.resume 2)]

theorem callAndPush_runs : ∃ first s, start RpcServer.flagService Unit 0 = some first ∧
    Run (step fun _ => 7) (Fair fun _ => [0x61]) first callAndPush s ∧
      (∃ call ∈ (s.up ()).sender.calls, call.phase = .returned (some { flagReq with rsp := true })) ∧
      ∃ call ∈ (s.down ()).sender.calls, call.phase = .returned (some { flagPush with rsp := true }) := by
  have trace : ((start RpcServer.flagService Unit 0).bind fun first =>
      exec (step fun _ => 7) (Fair fun _ => [0x61]) first callAndPush).map (fun s =>
        ((s.up ()).sender.calls.map Call.phase, (s.down ()).sender.calls.map Call.phase)) =
      some ([.returned (some { flagReq with rsp := true }), .returned none, .queued],
        [.returned none, .threw .timeout, .returned (some { flagPush with rsp := true })]) := by decide +kernel
  obtain ⟨s, done, calls⟩ := Option.map_eq_some_iff.mp trace
  obtain ⟨first, started, done⟩ := Option.bind_eq_some_iff.mp done
  obtain ⟨up, down⟩ := Prod.mk.inj calls
  obtain ⟨call, member, answered⟩ := List.mem_map.mp (up ▸ List.mem_cons_self)
  obtain ⟨push, member', acknowledged⟩ := List.mem_map.mp
    (down ▸ List.mem_cons_of_mem _ (List.mem_cons_of_mem _ (List.mem_singleton_self _)))
  exact ⟨first, s, started, exec_run done, ⟨call, member, answered⟩, push, member', acknowledged⟩

section Runs
variable [DecidableEq Conn] {first : RpcSystem service Conn} {labels : List (Action service Conn)}

/-- Whatever a call has returned is the answer to it: some handler for its
command has taken exactly its packet, has been called with the message of its
body, and the response has been built from what the handler has returned, which
is what the caller makes of the response. A caller that has built its request
for this handler has had its own message handled. -/
theorem calls_answered (ids : ∀ c, (ownId c).length < deviceIdSize ∧ 0 ∉ ownId c)
    (started : start service Conn seqGenerator = some first) (run : Run (step hasher) (Fair ownId) first labels s)
    {call : Call} (member : call ∈ (s.up c).sender.calls) {rsp : Packet} (returned : call.phase = .returned (some rsp)) :
    ∃ h message result, call.pack.cmd = rpcId hasher (service.rpcName h) ∧
      (call.pack, .answered message result rsp) ∈ (s.server.tasks h).record ∧
      (service.reqProto h).parseBody call.pack = .ok message ∧
      (service.rspProto h).parseBody rsp = (service.rspProto h).understood result ∧
      ∀ own gen gen' deviceId, (service.reqProto h).buildRequestPacket hasher gen (service.rpcName h) own deviceId =
        some (call.pack, gen') → message = own := by
  obtain ⟨h, ⟨message, result, recorded, parsed, gen, gen', built⟩, cmd, fresh⟩ :=
    (run_traced ids started run).returned member (Or.inr returned)
  refine ⟨h, message, result, cmd, recorded, parsed, (Protobuf.response_of_build fresh built).2.2.2, ?_⟩
  intro own gen gen' deviceId request
  obtain ⟨body, written, same⟩ := Option.map_eq_some_iff.mp request
  obtain ⟨pack, _⟩ := Prod.mk.inj same
  have ec : call.pack.ec = 0 := by rw [← pack]
  have bytes : call.pack.body.bytes = (service.reqProto h).serialize own := by
    rw [← pack]
    exact (Protobuf.body_eq_some written).1
  have sent : (service.reqProto h).parseBody call.pack = .ok own :=
    Protobuf.parseBody_ok ec (by rw [bytes, (service.reqProto h).parse_serialize])
  exact Except.ok.inj (parsed.symm.trans sent)

theorem calls_answered_callAndPush :
    ∃ first s, Run (step fun _ => 7) (Fair fun _ => [0x61]) first callAndPush s ∧
      ∃ call ∈ (s.up ()).sender.calls, ∃ rsp, call.phase = .returned (some rsp) ∧
        ∃ h message result, call.pack.cmd = rpcId (fun _ => 7) (RpcServer.flagService.rpcName h) ∧
          (call.pack, .answered message result rsp) ∈ (s.server.tasks h).record ∧
          (RpcServer.flagService.reqProto h).parseBody call.pack = .ok message ∧
          (RpcServer.flagService.rspProto h).parseBody rsp = (RpcServer.flagService.rspProto h).understood result ∧
          ∀ own gen gen' deviceId, (RpcServer.flagService.reqProto h).buildRequestPacket (fun _ => 7) gen
            (RpcServer.flagService.rpcName h) own deviceId = some (call.pack, gen') → message = own := by
  obtain ⟨first, s, started, run, ⟨call, member, returned⟩, _⟩ := callAndPush_runs
  exact ⟨first, s, run, call, member, _, returned, calls_answered (by decide) started run member returned⟩

/-- Requests are handled at most once: not twice by one handler, nor by two of
one name, nor after the client has come back on another connection. And
handlers handle nothing but what clients ask for, under their own device ids. -/
theorem requests_handled_once (ids : ∀ c, (ownId c).length < deviceIdSize ∧ 0 ∉ ownId c)
    (started : start service Conn seqGenerator = some first) (run : Run (step hasher) (Fair ownId) first labels s) :
    (∀ (h h' : Handler) (i j : Nat) (req : Packet), ((s.server.tasks h).record.map Prod.fst)[i]? = some req →
        ((s.server.tasks h').record.map Prod.fst)[j]? = some req → h = h' ∧ i = j) ∧
      ∀ h, ∀ entry ∈ (s.server.tasks h).record, ∃ c, entry.1.deviceId = ownId c ∧
        ∃ call ∈ (s.up c).sender.calls, call.pack = entry.1 := by
  have traced := run_traced ids started run
  refine ⟨fun h h' i j req handled handled' => traced.handled_once handled handled', fun h entry member => ?_⟩
  have given : entry.1 ∈ s.server.requests.takenBy h := by
    rw [← (traced.serves.sound.accounts h).books]
    exact List.mem_append_left _ (List.mem_map_of_mem member)
  obtain ⟨c, seen⟩ := traced.seen _ _ (traced.serves.given given).2
  obtain ⟨_, own, _, _, _, i, call, found, same⟩ := traced.request seen
  exact ⟨c, own, call, List.mem_of_getElem? found, same⟩

theorem requests_handled_once_callAndPush :
    ∃ first s, Run (step fun _ => 7) (Fair fun _ => [0x61]) first callAndPush s ∧
      (∀ (h h' : Unit) (i j : Nat) (req : Packet), ((s.server.tasks h).record.map Prod.fst)[i]? = some req →
        ((s.server.tasks h').record.map Prod.fst)[j]? = some req → h = h' ∧ i = j) ∧
      ∀ h, ∀ entry ∈ (s.server.tasks h).record, ∃ c, entry.1.deviceId = [0x61] ∧
        ∃ call ∈ (s.up c).sender.calls, call.pack = entry.1 := by
  obtain ⟨first, s, started, run, _⟩ := callAndPush_runs
  exact ⟨first, s, run, requests_handled_once (by decide) started run⟩

/-- A push that has returned has come to the client on the connection that it
was sent on: the call returns the empty acknowledgement of its own packet, which
has been handed on there. Earlier tries of the same push do not confuse it. -/
theorem pushes_acknowledged (ids : ∀ c, (ownId c).length < deviceIdSize ∧ 0 ∉ ownId c)
    (started : start service Conn seqGenerator = some first) (run : Run (step hasher) (Fair ownId) first labels s)
    {call : Call} (member : call ∈ (s.down c).sender.calls) {rsp : Packet} (returned : call.phase = .returned (some rsp)) :
    .request (ownId c) call.pack ∈ (s.down c).events ∧
      rsp = ⟨call.pack.cmd, call.pack.seq, true, 0, ownId c, .empty⟩ :=
  (run_traced ids started run).acknowledged member (Or.inr returned)

theorem pushes_acknowledged_callAndPush :
    ∃ first s, Run (step fun _ => 7) (Fair fun _ => [0x61]) first callAndPush s ∧
      ∃ call ∈ (s.down ()).sender.calls, ∃ rsp, call.phase = .returned (some rsp) ∧
        .request [0x61] call.pack ∈ (s.down ()).events ∧
        rsp = ⟨call.pack.cmd, call.pack.seq, true, 0, [0x61], .empty⟩ := by
  obtain ⟨first, s, started, run, _, call, member, returned⟩ := callAndPush_runs
  exact ⟨first, s, run, call, member, _, returned, pushes_acknowledged (by decide) started run member returned⟩

end Runs

end RpcSystem
end Asyncmsg
