import Mathlib.Logic.Function.Basic
import Asyncmsg.Codec
import Asyncmsg.Library.Transition

namespace Asyncmsg

inductive SendKind
  | packet
  | detach
  | waitRsp
  deriving DecidableEq

inductive SendError
  | write
  | invalidState
  | timeout
  | cancelled
  deriving DecidableEq

/-- How `async_receive || async_wait` has ended while its coroutine has not
been resumed yet: it ends with the first operand that does, since the
configuration makes `wait_for_one` of the condition `wait_for_one_success`. -/
inductive Outcome
  | pending
  | received (rsp : Packet)
  | expired
  | cancelled
  deriving DecidableEq

/-- Where a sending coroutine stands. A detached one is queued until it is run;
in `writing` the rest of the frame is still to be handed to the socket. -/
inductive Phase
  | queued
  | writing (rest : List UInt8)
  | waiting (outcome : Outcome)
  | returned (rsp : Option Packet)
  | threw (error : SendError)
  | dropped
  deriving DecidableEq

/-- Destroying a channel ends a receive that still waits on it. -/
def Phase.cancelWait : Phase → Phase
  | .waiting .pending => .waiting .cancelled
  | phase => phase

/-- A call of `send_packet`, `send_packet_detach` or `send_packet_and_wait_rsp`. -/
structure Call where
  kind : SendKind
  pack : Packet
  frame : List UInt8
  encoded : encodePacket pack = some frame
  phase : Phase

def Call.setPhase (call : Call) (phase : Phase) : Call := { call with phase := phase }

/-- A channel of capacity one. Only the call that has made it ever receives from it. -/
structure PacketChannel where
  owner : Nat
  buffered : Option Packet
  deriving DecidableEq

/-- The sending side of a connection: the bytes the socket has taken, the calls
by the order of their starts, and the table of the waiting requests. -/
structure Sender where
  alive : Bool
  wire : List UInt8
  calls : List Call
  requests : UInt64 → Option PacketChannel

namespace Sender

def start : Sender := ⟨true, [], [], fun _ => none⟩

/-- One step of a coroutine or of the outside world. `async_write` consists of
transfers of nonempty pieces and ends with `writeDone` or `failWrite`. -/
inductive Action
  | send (kind : SendKind) (pack : Packet)
  | runDetached (i : Nat)
  | transfer (i n : Nat)
  | failWrite (i : Nat)
  | writeDone (i : Nat)
  | response (pack : Packet)
  | timeout (i : Nat)
  | cancel (i : Nat)
  | resume (i : Nat)
  | destroy

variable (s : Sender)

def setPhase (i : Nat) (phase : Phase) : Sender :=
  { s with calls := s.calls.modify i (·.setPhase phase) }

def cancelWait (i : Nat) : Sender :=
  { s with calls := s.calls.modify i fun call => call.setPhase call.phase.cancelWait }

def setRequest (id : UInt64) (channel : Option PacketChannel) : Sender :=
  { s with requests := Function.update s.requests id channel }

/-- The channel under this key, if there is one, is destroyed. -/
def dropChannel (id : UInt64) : Sender :=
  match s.requests id with
  | some channel => s.cancelWait channel.owner
  | none => s

/-- `requests[id] = std::make_unique<packet_channel>(executor, 1)` and the
receive on the new channel. -/
def register (i : Nat) (id : UInt64) : Sender :=
  ((s.dropChannel id).setRequest id (some ⟨i, none⟩)).setPhase i (.waiting .pending)

/-- `requests.erase(id)` -/
def erase (id : UInt64) : Sender := (s.dropChannel id).setRequest id none

/-- `async_write` has ended well. -/
def afterWrite (i : Nat) (call : Call) : Sender :=
  match call.kind with
  | .waitRsp => if s.alive then s.register i call.pack.id else s.setPhase i (.threw .invalidState)
  | _ => s.setPhase i (.returned none)

/-- `try_send` on the channel of the response, if there is one: the message goes
to the waiting call or else into the buffer. -/
def lookUp (pack : Packet) : Sender :=
  match s.requests pack.id with
  | none => s
  | some channel =>
    if (s.calls[channel.owner]?).map Call.phase = some (.waiting .pending) then
      s.setPhase channel.owner (.waiting (.received pack))
    else if channel.buffered = none then
      s.setRequest pack.id (some { channel with buffered := some pack })
    else s

/-- The waiting coroutine goes on. -/
def afterWait (i : Nat) (call : Call) : Outcome → Option Sender
  | .pending => none
  | .received rsp => some ((if s.alive then s.erase call.pack.id else s).setPhase i (.returned (some rsp)))
  | .expired => some (s.setPhase i (.threw .timeout))
  | .cancelled => some (s.setPhase i (.threw .cancelled))

def step (s : Sender) : Action → Option Sender
  | .send kind pack =>
    match encoded : encodePacket pack with
    | none => none
    | some frame =>
      let phase := if kind = .detach then Phase.queued else .writing frame
      if s.alive then some { s with calls := s.calls ++ [⟨kind, pack, frame, encoded, phase⟩] } else none
  | .runDetached i => s.calls[i]?.bind fun call =>
    if call.phase = .queued then
      some (s.setPhase i (if s.alive then .writing call.frame else .dropped))
    else none
  | .transfer i n => s.calls[i]?.bind fun call =>
    match call.phase with
    | .writing rest =>
      if s.alive ∧ 0 < n ∧ n ≤ rest.length then
        some { s.setPhase i (.writing (rest.drop n)) with wire := s.wire ++ rest.take n }
      else none
    | _ => none
  | .failWrite i => s.calls[i]?.bind fun call =>
    match call.phase with
    | .writing rest => if rest ≠ [] then some (s.setPhase i (.threw .write)) else none
    | _ => none
  | .writeDone i => s.calls[i]?.bind fun call =>
    if call.phase = .writing [] then some (s.afterWrite i call) else none
  | .response pack => if s.alive ∧ pack.deviceId ≠ [] ∧ pack.rsp then some (s.lookUp pack) else none
  | .timeout i => s.calls[i]?.bind fun call =>
    if call.phase = .waiting .pending then some (s.setPhase i (.waiting .expired)) else none
  | .cancel i => s.calls[i]?.bind fun call =>
    if call.phase = .waiting .pending then some (s.setPhase i (.waiting .cancelled)) else none
  | .resume i => s.calls[i]?.bind fun call =>
    match call.phase with
    | .waiting outcome => s.afterWait i call outcome
    | _ => none
  | .destroy =>
    if s.alive then
      some ⟨false, s.wire, s.calls.map fun call => call.setPhase call.phase.cancelWait, fun _ => none⟩
    else none

end Sender
end Asyncmsg
