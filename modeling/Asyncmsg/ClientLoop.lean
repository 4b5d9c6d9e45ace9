import Asyncmsg.Codec
import Asyncmsg.Library.Transition

namespace Asyncmsg

/-- An operation that a coroutine awaits. What completes it is queued until the
coroutine is resumed. -/
inductive Completion
  | inFlight
  | success
  | failure
  deriving DecidableEq

namespace Completion

def ofBool (succeeds : Bool) : Completion := if succeeds then .success else .failure

/-- Only an operation that has not completed can be cancelled. -/
def cancel : Completion → Completion
  | .inFlight => .failure
  | done => done

end Completion

/-- Where `connect()` stands: the operation that it awaits. -/
inductive ConnectPhase
  | starting
  | resolving (resolve : Completion)
  | connecting (connect : Completion)
  | waiting (timer : Completion)
  | ended
  deriving DecidableEq

/-- The resolver takes no part in the cancellation of single operations. -/
def ConnectPhase.cancel : ConnectPhase → ConnectPhase
  | .connecting connect => .connecting connect.cancel
  | .waiting timer => .waiting timer.cancel
  | phase => phase

/-- Where `heartbeat()` stands; it writes `pack` to the connection `c`. -/
inductive HeartbeatPhase
  | starting
  | writing (c : Nat) (pack : Packet) (write : Completion)
  | waiting (timer : Completion)
  | ended
  deriving DecidableEq

namespace HeartbeatPhase

def cancel : HeartbeatPhase → HeartbeatPhase
  | .writing c pack write => .writing c pack write.cancel
  | .waiting timer => .waiting timer.cancel
  | phase => phase

/-- The connection is destroyed, and its socket with it. -/
def lose (lost : Nat) : HeartbeatPhase → HeartbeatPhase
  | .writing c pack write => .writing c pack (if c = lost then write.cancel else write)
  | phase => phase

end HeartbeatPhase

/-- Where the wait for `stop_signal` stands, which never expires. -/
inductive SignalPhase
  | starting
  | waiting (wait : Completion)
  | ended
  deriving DecidableEq

namespace SignalPhase

/-- The coroutine is cancelled: what it awaits now or first fails. -/
def cancel : SignalPhase → SignalPhase
  | .starting => .waiting .failure
  | .waiting wait => .waiting wait.cancel
  | .ended => .ended

/-- `stop_signal.cancel()` reaches nothing but a wait under way. -/
def cancelTimer : SignalPhase → SignalPhase
  | .waiting wait => .waiting wait.cancel
  | phase => phase

end SignalPhase

/-- The coroutines that `tcp_client::start` ties together by `||`, each with the
mark that it has been cancelled: from then on its next `co_await` throws.
Connections are named by the order in which they were made, `made` of them so far.
The generator of sequence numbers is the process-wide one. -/
structure ClientLoop where
  running : Bool
  stopped : Bool
  stopHandler : Option Bool
  seqGenerator : UInt32
  deviceId : List UInt8
  conn : Option Nat
  made : Nat
  connect : ConnectPhase
  connectCancelled : Bool
  heartbeat : HeartbeatPhase
  heartbeatCancelled : Bool
  signal : SignalPhase

namespace ClientLoop

def start (seqGenerator : UInt32) (deviceId : List UInt8) : ClientLoop where
  running := true
  stopped := false
  stopHandler := none
  seqGenerator := seqGenerator
  deviceId := deviceId
  conn := none
  made := 0
  connect := .starting
  connectCancelled := false
  heartbeat := .starting
  heartbeatCancelled := false
  signal := .starting

/-- Completions of the operations under way, resumptions of the coroutines, and
what happens to the client from outside. -/
inductive Action
  | resolved (succeeds : Bool)
  | connected (succeeds : Bool)
  | connectTimer
  | resumeConnect
  | written (succeeds : Bool)
  | checkTimer
  | resumeHeartbeat
  | resumeSignal
  | disconnected
  | nextSeq
  | stop (force : Bool)
  | runStop

variable (r : ClientLoop)

def cancelConnect : ClientLoop := { r with connect := r.connect.cancel, connectCancelled := true }
def cancelHeartbeat : ClientLoop := { r with heartbeat := r.heartbeat.cancel, heartbeatCancelled := true }

/-- `connect()` ends. That cancels `heartbeat()`; where both have ended, their
group has, and the wait for the signal is cancelled. -/
def endConnect : ClientLoop :=
  let r := { r with connect := .ended }
  if r.heartbeat = .ended then { r with signal := r.signal.cancel } else r.cancelHeartbeat

def endHeartbeat : ClientLoop :=
  let r := { r with heartbeat := .ended }
  if r.connect = .ended then { r with signal := r.signal.cancel } else r.cancelConnect

/-- `connect_timer` at the end of a round, outside of the `try` block. -/
def connectWait : ClientLoop :=
  if r.connectCancelled then r.endConnect else { r with connect := .waiting .inFlight }

/-- The head of the loop in `connect()`. Cancelled, it catches what the resolver
throws and ends on what the timer throws. -/
def connectHead : ClientLoop :=
  if r.stopped then r.endConnect
  else if r.conn = none ∧ ¬r.connectCancelled then { r with connect := .resolving .inFlight }
  else r.connectWait

def resumeConnect : Option ClientLoop :=
  match r.connect with
  | .starting | .waiting .success => some r.connectHead
  | .resolving .success =>
    some (if r.connectCancelled then r.connectWait else { r with connect := .connecting .inFlight })
  | .connecting .success => some { r with conn := some r.made, made := r.made + 1 }.connectWait
  | .resolving .failure | .connecting .failure => some r.connectWait
  | .waiting .failure => some r.endConnect
  | _ => none

def heartbeatWait : ClientLoop :=
  if r.heartbeatCancelled then r.endHeartbeat else { r with heartbeat := .waiting .inFlight }

/-- The head of the loop in `heartbeat()`. No state stands for a packet whose
encoding fails its assertion. -/
def heartbeatHead : Option ClientLoop :=
  if r.stopped then some r.endHeartbeat
  else
    match r.conn with
    | none => some r.heartbeatWait
    | some c =>
      let (pack, seqGenerator) := buildReqPacket r.seqGenerator heartbeatCmd .empty r.deviceId
      let r := { r with seqGenerator := seqGenerator }
      if r.heartbeatCancelled then some r.endHeartbeat
      else (encodePacket pack).map fun _ => { r with heartbeat := .writing c pack .inFlight }

/-- Unlike `connect()` this coroutine catches nothing. -/
def resumeHeartbeat : Option ClientLoop :=
  match r.heartbeat with
  | .starting | .waiting .success => r.heartbeatHead
  | .writing _ _ .success => some r.heartbeatWait
  | .writing _ _ .failure | .waiting .failure => some r.endHeartbeat
  | _ => none

def resumeSignal : Option ClientLoop :=
  match r.signal with
  | .starting => some { r with signal := .waiting .inFlight }
  | .waiting .failure => some { r with signal := .ended }.cancelConnect.cancelHeartbeat
  | _ => none

/-- `conn = nullptr`, the only `shared_ptr` to the connection. -/
def dropConn : ClientLoop :=
  match r.conn with
  | some c => { r with conn := none, heartbeat := r.heartbeat.lose c }
  | none => r

def step (r : ClientLoop) (a : Action) : Option ClientLoop :=
  if r.running then
    match a with
    | .resolved succeeds =>
      if r.connect = .resolving .inFlight then some { r with connect := .resolving (.ofBool succeeds) } else none
    | .connected succeeds =>
      if r.connect = .connecting .inFlight then some { r with connect := .connecting (.ofBool succeeds) } else none
    | .connectTimer =>
      if r.connect = .waiting .inFlight then some { r with connect := .waiting .success } else none
    | .resumeConnect => r.resumeConnect
    | .written succeeds =>
      match r.heartbeat with
      | .writing c pack .inFlight => some { r with heartbeat := .writing c pack (.ofBool succeeds) }
      | _ => none
    | .checkTimer =>
      if r.heartbeat = .waiting .inFlight then some { r with heartbeat := .waiting .success } else none
    | .resumeHeartbeat => r.resumeHeartbeat
    | .resumeSignal => r.resumeSignal
    | .disconnected => r.conn.map fun _ => r.dropConn
    | .nextSeq => some { r with seqGenerator := nextSeq r.seqGenerator }
    | .stop force => if r.stopped then none else some { r with stopped := true, stopHandler := some force }
    | .runStop => r.stopHandler.map fun force =>
      { r.dropConn with
        signal := r.signal.cancelTimer
        stopHandler := none
        running := !force }
  else none

end ClientLoop
end Asyncmsg
