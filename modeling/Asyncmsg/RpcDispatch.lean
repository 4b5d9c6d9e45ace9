import Mathlib.Data.Fintype.Pigeonhole
import Asyncmsg.ServerRequests

namespace Asyncmsg
open Transition

/-- What `build_request_packet` makes for a name. -/
def RequestFor (hasher : List UInt8 → UInt64) (rpcName : List UInt8) (pack : Packet) : Prop :=
  ∃ seqGenerator body deviceId, pack = (buildReqPacket seqGenerator (rpcId hasher rpcName) body deviceId).1

theorem Protobuf.buildRequestPacket_requestFor {Message : Type*} {proto : Protobuf Message}
    {hasher : List UInt8 → UInt64} {seqGenerator gen' : UInt32} {rpcName deviceId : List UInt8} {message : Message}
    {pack : Packet} (built : proto.buildRequestPacket hasher seqGenerator rpcName message deviceId = some (pack, gen')) :
    RequestFor hasher rpcName pack := by
  obtain ⟨body, _, same⟩ := Option.map_eq_some_iff.mp built
  exact ⟨seqGenerator, body, deviceId, by rw [same]⟩

theorem RequestFor.cmd {hasher : List UInt8 → UInt64} {rpcName : List UInt8} {pack : Packet}
    (request : RequestFor hasher rpcName pack) : pack.cmd = rpcId hasher rpcName := by
  obtain ⟨seqGenerator, body, deviceId, rfl⟩ := request
  rfl

theorem exists_requestFor (hasher : List UInt8 → UInt64) (rpcName : List UInt8) :
    ∃ pack, RequestFor hasher rpcName pack :=
  ⟨_, 0, .empty, [], rfl⟩

namespace ServerRequests

section Routed
variable {Caller : Type*} {calls : Caller → UInt32 → Prop} {s t : ServerRequests Caller}

variable (calls) in
/-- Every `wait_request` is one that its caller makes. -/
def Calling (_ : ServerRequests Caller) : Action Caller → Prop
  | .waitRequest who cmd => calls who cmd
  | _ => True

variable (calls) in
/-- The requests and the calls of a channel are for its command, whoever has
taken a request has called for its command, and the heartbeats are heartbeats. -/
structure Routed (s : ServerRequests Caller) : Prop where
  buffered : ∀ cmd channel, s.At cmd channel → ∀ pack ∈ channel.buffer, pack.cmd = cmd
  waiting : ∀ cmd channel, s.At cmd channel → ∀ who ∈ channel.receivers, calls who cmd
  taken : ∀ entry ∈ s.taken, calls entry.1 entry.2.cmd
  heartbeats : ∀ entry ∈ s.heartbeats, entry.1.cmd = heartbeatCmd

theorem Routed.setChannel (routed : s.Routed calls) {cmd : UInt32}
    {channel : Rendezvous Packet Caller receivedPacketChannelSize} (buffered : ∀ pack ∈ channel.buffer, pack.cmd = cmd)
    (waiting : ∀ who ∈ channel.receivers, calls who cmd) : (s.setChannel cmd channel).Routed calls where
  buffered key other found := by
    rcases at_setChannel found with ⟨rfl, rfl⟩ | ⟨_, before⟩
    · exact buffered
    · exact routed.buffered key other before
  waiting key other found := by
    rcases at_setChannel found with ⟨rfl, rfl⟩ | ⟨_, before⟩
    · exact waiting
    · exact routed.waiting key other before
  taken := routed.taken
  heartbeats := routed.heartbeats

theorem Routed.take (routed : s.Routed calls) {who : Caller} {pack : Packet} (called : calls who pack.cmd) :
    ({ s with taken := s.taken ++ [(who, pack)] } : ServerRequests Caller).Routed calls where
  buffered := routed.buffered
  waiting := routed.waiting
  taken entry member := by
    rcases List.mem_append.mp member with old | new
    · exact routed.taken entry old
    · rw [List.mem_singleton] at new
      exact new ▸ called
  heartbeats := routed.heartbeats

theorem Routed.step [DecidableEq Caller] (routed : s.Routed calls) {a : Action Caller} (called : Calling calls s a)
    (taken : s.step a = some t) : t.Routed calls := by
  cases moves_of_step taken with
  | heartbeat heartbeat =>
    refine ⟨routed.buffered, routed.waiting, routed.taken, fun entry member => ?_⟩
    rcases List.mem_append.mp member with old | new
    · exact routed.heartbeats entry old
    · rw [List.mem_singleton] at new
      exact new ▸ heartbeat
  | ignored => exact routed
  | handed found waiting empty =>
    have called := routed.waiting _ _ found
    rw [waiting, List.forall_mem_cons] at called
    exact (routed.setChannel (by simp [empty]) called.2).take called.1
  | buffered found none behind =>
    refine routed.setChannel (fun pack member => ?_) (by simp [none])
    rw [behind] at member
    rcases List.mem_append.mp member with old | new
    · exact routed.buffered _ _ found pack old
    · rw [List.mem_singleton.mp new]
  | refused => exact routed
  | @fetched who cmd pack _ _ _ found messages same =>
    have buffered := routed.buffered _ _ found
    rw [messages, List.forall_mem_cons] at buffered
    exact (routed.setChannel buffered.2 (same ▸ routed.waiting _ _ found)).take (buffered.1 ▸ called)
  | waits _ found empty behind =>
    refine routed.setChannel (by simp [empty]) fun who member => ?_
    rw [behind] at member
    rcases List.mem_append.mp member with old | new
    · rcases found with found | rfl
      · exact routed.waiting _ _ found who old
      · cases old
    · rw [List.mem_singleton.mp new]
      exact called
  | leaves found =>
    refine routed.setChannel (fun pack member => ?_) fun who member => ?_
    · exact routed.buffered _ _ found pack member
    · exact routed.waiting _ _ found who (List.mem_of_mem_erase member)
  | stop => exact ⟨routed.buffered, routed.waiting, routed.taken, routed.heartbeats⟩
  | runStop =>
    refine ⟨fun cmd channel found => ?_, fun cmd channel found => ?_, routed.taken, routed.heartbeats⟩
    · obtain ⟨before, old, rfl⟩ := at_cancelAll found
      exact routed.buffered cmd before old
    · obtain ⟨before, old, rfl⟩ := at_cancelAll found
      exact fun who member => by cases member

theorem start_routed (seqGenerator : UInt32) : (start seqGenerator : ServerRequests Caller).Routed calls :=
  ⟨by simp [At, start], by simp [At, start], by simp [start], by simp [start]⟩

theorem routed_of_run [DecidableEq Caller] {seqGenerator : UInt32} {labels : List (Action Caller)}
    (run : Run step (Calling calls) (start seqGenerator) labels s) : s.Routed calls :=
  run.invariant (start_routed seqGenerator) fun _ _ _ routed called taken => routed.step called taken

end Routed

/-- The calls of the coroutines that `register_sync_handler` and
`register_async_handler` start: each waits for the command of its own name. -/
def handlerCalls (hasher : List UInt8 → UInt64) (names : List (List UInt8)) (rpcName : List UInt8) (cmd : UInt32) :
    Prop :=
  rpcName ∈ names ∧ cmd = rpcId hasher rpcName

/-- Whatever arrives and whenever the handlers call, a request for a registered
name is answered by no heartbeat response and taken by no other handler. -/
def DispatchesByName (hasher : List UInt8 → UInt64) (names : List (List UInt8)) : Prop :=
  ∀ seqGenerator labels s, Run step (Calling (handlerCalls hasher names)) (start seqGenerator) labels s →
    ∀ rpcName ∈ names, ∀ pack, RequestFor hasher rpcName pack →
      (∀ entry ∈ s.heartbeats, entry.1 ≠ pack) ∧ ∀ entry ∈ s.taken, entry.2 = pack → entry.1 = rpcName

variable {hasher : List UInt8 → UInt64} {names : List (List UInt8)}

theorem DispatchesByName.ne_heartbeat (dispatches : DispatchesByName hasher names) {rpcName : List UInt8}
    (registered : rpcName ∈ names) : rpcId hasher rpcName ≠ heartbeatCmd := by
  intro heartbeat
  obtain ⟨pack, request⟩ := exists_requestFor hasher rpcName
  have run : Run step (Calling (handlerCalls hasher names)) (start 0) [.receive pack] (onReceiveRequest (start 0) pack) :=
    .single trivial rfl
  have answered := (dispatches 0 _ _ run rpcName registered pack request).1
  rw [onReceiveRequest, if_pos (request.cmd.trans heartbeat)] at answered
  exact answered _ List.mem_cons_self rfl

theorem DispatchesByName.injective (dispatches : DispatchesByName hasher names) {rpcName other : List UInt8}
    (registered : rpcName ∈ names) (registered' : other ∈ names) (same : rpcId hasher other = rpcId hasher rpcName) :
    other = rpcName := by
  obtain ⟨pack, request⟩ := exists_requestFor hasher rpcName
  have run : Run step (Calling (handlerCalls hasher names)) (start 0)
      [.waitRequest other (rpcId hasher rpcName), .receive pack]
      (onReceiveRequest (waitRequest (start 0) other (rpcId hasher rpcName)) pack) :=
    .cons ⟨registered', same.symm⟩ rfl (.single trivial rfl)
  have answered := (dispatches 0 _ _ run rpcName registered pack request).2
  rw [onReceiveRequest, if_neg (request.cmd.trans_ne (dispatches.ne_heartbeat registered)), request.cmd] at answered
  simp only [waitRequest, start, Bool.false_eq_true, if_false, setChannel, AList.lookup_insert] at answered
  exact answered _ List.mem_cons_self rfl

/-- Requests are dispatched by name exactly if the commands of the registered
names are distinct and none of them is that of the heartbeat. -/
theorem dispatchesByName_iff (hasher : List UInt8 → UInt64) (names : List (List UInt8)) :
    DispatchesByName hasher names ↔
      (∀ rpcName ∈ names, rpcId hasher rpcName ≠ heartbeatCmd) ∧
        ∀ rpcName ∈ names, ∀ other ∈ names, rpcId hasher other = rpcId hasher rpcName → other = rpcName := by
  constructor
  · exact fun dispatches => ⟨fun _ registered => dispatches.ne_heartbeat registered,
      fun _ registered _ registered' => dispatches.injective registered registered'⟩
  · rintro ⟨distinct, injective⟩ seqGenerator labels s run rpcName registered pack request
    have routed := routed_of_run run
    constructor
    · rintro entry member rfl
      exact distinct rpcName registered (request.cmd ▸ routed.heartbeats entry member)
    · rintro entry member rfl
      obtain ⟨registered', cmd⟩ := routed.taken entry member
      exact injective rpcName registered _ registered' (cmd.symm.trans request.cmd)

/-- Whatever the hash is, two names share a command: there are more names than commands. -/
theorem not_dispatchesByName :
    ¬∃ hasher : List UInt8 → UInt64, ∀ names : List (List UInt8), names.Nodup → DispatchesByName hasher names := by
  rintro ⟨hasher, dispatches⟩
  have finite : Finite UInt32 := Finite.of_injective UInt32.toFin fun _ _ => UInt32.toFin_inj.mp
  obtain ⟨rpcName, other, distinct, same⟩ := Finite.exists_ne_map_eq_of_infinite (rpcId hasher)
  exact distinct ((dispatches [rpcName, other] (by simpa using distinct)).injective (by simp) (by simp) same)

end ServerRequests
end Asyncmsg
