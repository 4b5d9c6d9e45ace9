import Asyncmsg.ClientLoopSteps

namespace Asyncmsg
open Transition

namespace ClientLoop
variable {r t : ClientLoop} {a : ClientLoop.Action} {seqGenerator : UInt32} {deviceId : List UInt8}

/-- `connect()` has neither ended nor been cancelled. -/
structure Active (r : ClientLoop) : Prop where
  unended : r.connect ≠ .ended
  uncancelled : r.connectCancelled = false

/-- A cancelled `connect()` attempts nothing more: it ends with its next resumption. -/
theorem ended_of_cancelled (cancelled : r.connectCancelled = true) (taken : r.step .resumeConnect = some t) :
    t.connect = .ended := by
  have waited (r : ClientLoop) (cancelled : r.connectCancelled = true) : r.connectWait.connect = .ended := by
    rw [connectWait, if_pos cancelled]
    exact endConnect_ended r
  have head : r.connectHead.connect = .ended := by
    rw [connectHead]
    split
    · exact endConnect_ended r
    · rw [if_neg (fun fresh => fresh.2 cancelled)]
      exact waited r cancelled
  cases moves_of_step taken with
  | loops => exact head
  | connects _ uncancelled => cases uncancelled.symm.trans cancelled
  | installs => exact waited { r with conn := some r.made, made := r.made + 1 } cancelled
  | waits => exact waited r cancelled
  | ends => exact endConnect_ended r

/-- The write of a heartbeat has failed. -/
def HeartbeatFailed (r : ClientLoop) : Bool :=
  match r.heartbeat with
  | .writing _ _ .failure => true
  | _ => false

/-- Before `stop` has been called `heartbeat()` is not resumed from a write that has failed. -/
def Unbroken (r : ClientLoop) : Action → Prop
  | .resumeHeartbeat => r.stopped = false → r.HeartbeatFailed = false
  | _ => True

/-- None of the three coroutines has ended or been cancelled. -/
structure Undisturbed (r : ClientLoop) : Prop extends r.Active where
  running : r.running = true
  unhandled : r.stopHandler = none
  connectTimer : r.connect ≠ .waiting .failure
  heartbeat : r.heartbeat ≠ .ended
  checkTimer : r.heartbeat ≠ .waiting .failure
  heartbeatUncancelled : r.heartbeatCancelled = false
  signal : r.signal = .starting ∨ r.signal = .waiting .inFlight

theorem start_undisturbed : (start seqGenerator deviceId).Undisturbed where
  unended := by simp [start]
  uncancelled := rfl
  running := rfl
  unhandled := rfl
  connectTimer := by simp [start]
  heartbeat := by simp [start]
  checkTimer := by simp [start]
  heartbeatUncancelled := rfl
  signal := Or.inl rfl

/-- `connect()` goes on to an operation of its own. -/
theorem Undisturbed.setConnect (undisturbed : r.Undisturbed) (phase : ConnectPhase) (unended : phase ≠ .ended)
    (timer : phase ≠ .waiting .failure) : ({ r with connect := phase } : ClientLoop).Undisturbed :=
  { undisturbed with unended := unended, connectTimer := timer }

theorem Undisturbed.setHeartbeat (undisturbed : r.Undisturbed) (phase : HeartbeatPhase) (unended : phase ≠ .ended)
    (timer : phase ≠ .waiting .failure) : ({ r with heartbeat := phase } : ClientLoop).Undisturbed :=
  { undisturbed with heartbeat := unended, checkTimer := timer }

theorem Undisturbed.connectWait (undisturbed : r.Undisturbed) : r.connectWait.Undisturbed := by
  rw [ClientLoop.connectWait, if_neg (by simp [undisturbed.uncancelled])]
  exact undisturbed.setConnect _ (by simp) (by simp)

theorem Undisturbed.connectHead (undisturbed : r.Undisturbed) (unstopped : r.stopped = false) :
    r.connectHead.Undisturbed := by
  rw [ClientLoop.connectHead, if_neg (by simp [unstopped])]
  split
  · exact undisturbed.setConnect _ (by simp) (by simp)
  · exact undisturbed.connectWait

theorem Undisturbed.heartbeatWait (undisturbed : r.Undisturbed) : r.heartbeatWait.Undisturbed := by
  rw [ClientLoop.heartbeatWait, if_neg (by simp [undisturbed.heartbeatUncancelled])]
  exact undisturbed.setHeartbeat _ (by simp) (by simp)

theorem Undisturbed.heartbeatHead (undisturbed : r.Undisturbed) (unstopped : r.stopped = false)
    (taken : r.heartbeatHead = some t) : t.Undisturbed := by
  rw [ClientLoop.heartbeatHead, if_neg (by simp [unstopped])] at taken
  split at taken
  · cases taken
    exact undisturbed.heartbeatWait
  · simp only [undisturbed.heartbeatUncancelled, Bool.false_eq_true, if_false] at taken
    obtain ⟨frame, _, rfl⟩ := Option.map_eq_some_iff.mp taken
    exact { undisturbed with
      heartbeat := by simp
      checkTimer := by simp
      heartbeatUncancelled := rfl }

theorem Undisturbed.dropConn (undisturbed : r.Undisturbed) : r.dropConn.Undisturbed := by
  have unended (c : Nat) : r.heartbeat.lose c ≠ .ended := by
    have before := undisturbed.heartbeat
    cases phase : r.heartbeat <;> simp_all [HeartbeatPhase.lose]
  have timer (c : Nat) : r.heartbeat.lose c ≠ .waiting .failure := by
    have before := undisturbed.checkTimer
    cases phase : r.heartbeat <;> simp_all [HeartbeatPhase.lose]
  unfold ClientLoop.dropConn
  split
  · exact { undisturbed with heartbeat := unended _, checkTimer := timer _ }
  · exact undisturbed

/-- What a step of the condition leaves undisturbed. -/
theorem Undisturbed.step (undisturbed : r.Undisturbed) (unstopped : r.stopped = false) (met : r.Unbroken a)
    (taken : r.step a = some t) (still : t.stopped = false) : t.Undisturbed := by
  cases moves_of_step taken with
  | resolved => exact undisturbed.setConnect _ (by simp) (by simp)
  | connected => exact undisturbed.setConnect _ (by simp) (by simp)
  | connectTimer => exact undisturbed.setConnect _ (by simp) (by simp)
  | loops => exact undisturbed.connectHead unstopped
  | connects => exact undisturbed.setConnect _ (by simp) (by simp)
  | installs => exact Undisturbed.connectWait { undisturbed with }
  | waits => exact undisturbed.connectWait
  | ends failed => exact absurd failed undisturbed.connectTimer
  | written => exact undisturbed.setHeartbeat _ (by simp) (by simp)
  | checkTimer => exact undisturbed.setHeartbeat _ (by simp) (by simp)
  | beats _ head => exact undisturbed.heartbeatHead unstopped head
  | rests => exact undisturbed.heartbeatWait
  | stopsBeating failed =>
    rcases failed with ⟨c, pack, failed⟩ | failed
    · have intact := met unstopped
      simp [HeartbeatFailed, failed] at intact
    · exact absurd failed undisturbed.checkTimer
  | signalWaits => exact { undisturbed with signal := Or.inr rfl }
  | signalled failed =>
    rcases undisturbed.signal with starting | waiting
    · cases starting.symm.trans failed
    · cases waiting.symm.trans failed
  | dropped => exact undisturbed.dropConn
  | nextSeq => exact { undisturbed with }
  | stop => cases still
  | runStop handler => cases undisturbed.unhandled.symm.trans handler

/-- A step that breaks the condition ends `heartbeat()`, which cancels `connect()`. -/
theorem Undisturbed.cancelled_of_failed (undisturbed : r.Undisturbed) (failed : r.HeartbeatFailed = true)
    (taken : r.step .resumeHeartbeat = some t) : t.connectCancelled = true := by
  obtain ⟨_, taken⟩ := Option.ite_none_right_eq_some.mp taken
  unfold HeartbeatFailed at failed
  split at failed
  · rename_i writing
    simp only [resumeHeartbeat, writing] at taken
    cases taken
    rw [endHeartbeat, if_neg undisturbed.unended]
    rfl
  · cases failed

/-- `connect()` is on its way to a connection. -/
def Attempting (r : ClientLoop) : Prop :=
  (∃ resolve, r.connect = .resolving resolve) ∨ ∃ connect, r.connect = .connecting connect

/-- `connect()` can go on by itself to another attempt. -/
def Attempts (r : ClientLoop) : Prop :=
  ∃ labels t, Run step free r labels t ∧ t.connect = .resolving .inFlight ∧
    ∀ a ∈ labels, a = .connectTimer ∨ a = .resumeConnect

/-- At the head of its loop `connect()` begins to resolve. -/
theorem Undisturbed.resolves (undisturbed : r.Undisturbed) (unstopped : r.stopped = false)
    (disconnected : r.conn = none) (ready : r.connect = .starting ∨ r.connect = .waiting .success) :
    ∃ t, r.step .resumeConnect = some t ∧ t.connect = .resolving .inFlight := by
  refine ⟨r.connectHead, ?_, ?_⟩
  · rcases ready with phase | phase <;> simp [ClientLoop.step, undisturbed.running, resumeConnect, phase]
  · rw [ClientLoop.connectHead, if_neg (by simp [unstopped]),
      if_pos ⟨disconnected, by simp [undisturbed.uncancelled]⟩]

theorem Undisturbed.attempts (undisturbed : r.Undisturbed) (unstopped : r.stopped = false)
    (disconnected : r.conn = none) : r.Attempting ∨ r.Attempts := by
  have resumed (ready : r.connect = .starting ∨ r.connect = .waiting .success) : r.Attempts := by
    obtain ⟨t, taken, resolving⟩ := undisturbed.resolves unstopped disconnected ready
    exact ⟨[.resumeConnect], t, .single trivial taken, resolving, by simp⟩
  cases phase : r.connect with
  | starting => exact Or.inr (resumed (Or.inl phase))
  | resolving resolve => exact Or.inl (Or.inl ⟨resolve, phase⟩)
  | connecting connect => exact Or.inl (Or.inr ⟨connect, phase⟩)
  | waiting timer =>
    cases timer with
    | inFlight =>
      -- The timer has to expire first.
      have expired := undisturbed.setConnect (.waiting .success) (by simp) (by simp)
      obtain ⟨t, taken, resolving⟩ := expired.resolves unstopped disconnected (Or.inr rfl)
      have expires : r.step .connectTimer = some { r with connect := .waiting .success } := by
        simp [ClientLoop.step, undisturbed.running, phase]
      exact Or.inr ⟨[.connectTimer, .resumeConnect], t,
        Run.cons trivial expires (.single trivial taken), resolving, by simp⟩
    | success => exact Or.inr (resumed (Or.inr phase))
    | failure => exact absurd phase undisturbed.connectTimer
  | ended => exact absurd phase undisturbed.unended

/-- Reconnection: on every run that meets the condition `connect()` is active as
long as `stop` has not been called, and then without a connection it attempts
one or goes on to; a further step keeps it active exactly when it meets the
condition too. -/
theorem connect_active {labels : List Action} (run : Run step Unbroken (start seqGenerator deviceId) labels r)
    (unstopped : r.stopped = false) :
    r.Active ∧ (r.conn = none → r.Attempting ∨ r.Attempts) ∧
      ∀ a t, r.step a = some t → t.stopped = false → (t.Active ↔ r.Unbroken a) := by
  have kept : r.stopped = false → r.Undisturbed := by
    refine run.invariant (I := fun r => r.stopped = false → r.Undisturbed) (fun _ => start_undisturbed) ?_
    intro s a t before met taken still
    have earlier := (shared_of_step taken).unstopped still
    exact (before earlier).step earlier met taken still
  have undisturbed := kept unstopped
  refine ⟨undisturbed.toActive, undisturbed.attempts unstopped, fun a t taken still =>
    ⟨fun active => ?_, fun met => (undisturbed.step unstopped met taken still).toActive⟩⟩
  cases a with
  | resumeHeartbeat =>
    intro _
    refine Bool.eq_false_iff.mpr fun failed => ?_
    cases active.uncancelled.symm.trans (undisturbed.cancelled_of_failed failed taken)
  | _ => trivial

instance (r : ClientLoop) (a : Action) : Decidable (r.Unbroken a) := by
  cases a <;> unfold Unbroken <;> infer_instance

/-- A connection is made and a heartbeat written to it. -/
def established : List Action :=
  [.resumeConnect, .resolved true, .resumeConnect, .connected true, .resumeConnect, .resumeHeartbeat]

theorem connect_active_reconnecting :
    ∃ r, exec step Unbroken (start 0 [0x61])
        (established ++ [.written true, .resumeHeartbeat, .disconnected]) = some r ∧
      r.Active ∧ (r.conn = none → r.Attempting ∨ r.Attempts) ∧
        ∀ a t, r.step a = some t → t.stopped = false → (t.Active ↔ r.Unbroken a) := by
  have trace : (exec step Unbroken (start 0 [0x61])
      (established ++ [.written true, .resumeHeartbeat, .disconnected])).map stopped = some false := by
    decide +kernel
  obtain ⟨r, done, unstopped⟩ := Option.map_eq_some_iff.mp trace
  exact ⟨r, done, connect_active (exec_run done) unstopped⟩

/-- A disconnect under the write of a heartbeat takes `connect()` along. -/
theorem connect_cancelled :
    ¬∀ seqGenerator deviceId labels r, Run step free (start seqGenerator deviceId) labels r → r.stopped = false →
      r.Active := by
  intro claim
  have trace : (exec step free (start 0 [0x61]) (established ++ [.disconnected, .resumeHeartbeat])).map
      (fun r => (r.stopped, r.connectCancelled)) = some (false, true) := by decide +kernel
  obtain ⟨r, done, view⟩ := Option.map_eq_some_iff.mp trace
  obtain ⟨unstopped, cancelled⟩ := Prod.mk.inj view
  cases cancelled.symm.trans (claim 0 [0x61] _ r (exec_run done) unstopped).uncancelled

end ClientLoop
end Asyncmsg
