import Asyncmsg.ClientLoopSteps

namespace Asyncmsg
open Transition

namespace ClientLoop
variable {r t : ClientLoop} {a : ClientLoop.Action} {seqGenerator : UInt32} {deviceId : List UInt8}

/-- `connect()` is on its way to a connection: neither the operation it awaits
has failed, nor will the next one. -/
def Underway (r : ClientLoop) : Prop :=
  match r.connect with
  | .resolving resolve => resolve ≠ .failure ∧ r.connectCancelled = false
  | .connecting connect => connect ≠ .failure
  | _ => False

theorem not_underway_of_ended (ended : r.connect = .ended) : ¬r.Underway := by
  simp [Underway, ended]

theorem cancelConnect_not_underway (idle : ¬r.Underway) : ¬r.cancelConnect.Underway := by
  unfold Underway at idle ⊢
  cases phase : r.connect <;> simp_all [cancelConnect, ConnectPhase.cancel, Completion.cancel]

theorem connectWait_not_underway (r : ClientLoop) : ¬r.connectWait.Underway := by
  unfold connectWait
  split
  · exact not_underway_of_ended (endConnect_ended r)
  · exact id

theorem endHeartbeat_not_underway (idle : ¬r.Underway) : ¬r.endHeartbeat.Underway := by
  unfold endHeartbeat
  dsimp only
  split
  · exact idle
  · exact cancelConnect_not_underway (r := { r with heartbeat := .ended }) idle

theorem heartbeatWait_not_underway (idle : ¬r.Underway) : ¬r.heartbeatWait.Underway := by
  unfold heartbeatWait
  split
  · exact endHeartbeat_not_underway idle
  · exact idle

theorem heartbeatHead_not_underway (idle : ¬r.Underway) (taken : r.heartbeatHead = some t) : ¬t.Underway := by
  unfold heartbeatHead at taken
  split at taken
  · cases taken
    exact endHeartbeat_not_underway idle
  · split at taken
    · cases taken
      exact heartbeatWait_not_underway idle
    · dsimp only at taken
      split at taken
      · cases taken
        exact endHeartbeat_not_underway (r := { r with
          seqGenerator := (buildReqPacket r.seqGenerator heartbeatCmd .empty r.deviceId).2 }) idle
      · obtain ⟨_, _, rfl⟩ := Option.map_eq_some_iff.mp taken
        exact idle

theorem dropConn_underway (r : ClientLoop) : r.dropConn.Underway ↔ r.Underway := by
  unfold dropConn
  split <;> exact Iff.rfl

/-- Once the client is stopped `connect()` sets out for no other connection. -/
theorem step_not_underway (stopped : r.stopped = true) (idle : ¬r.Underway) (taken : r.step a = some t) :
    ¬t.Underway := by
  cases moves_of_step taken with
  | resolved inFlight => simp_all [Underway]
  | connected inFlight => simp_all [Underway]
  | connectTimer => exact id
  | loops =>
    rw [connectHead, if_pos stopped]
    exact not_underway_of_ended (endConnect_ended r)
  | connects success uncancelled => simp [Underway, success, uncancelled] at idle
  | installs => exact connectWait_not_underway _
  | waits => exact connectWait_not_underway r
  | ends => exact not_underway_of_ended (endConnect_ended r)
  | beats _ head => exact heartbeatHead_not_underway idle head
  | rests => exact heartbeatWait_not_underway idle
  | stopsBeating => exact endHeartbeat_not_underway idle
  | signalled => exact cancelConnect_not_underway (r := { r with signal := .ended }) idle
  | dropped => exact mt (dropConn_underway r).mp idle
  | stop unstopped => cases unstopped.symm.trans stopped
  | runStop => exact mt (dropConn_underway r).mp idle
  | _ => exact idle

/-- A client without a connection that has stopped and makes no other. -/
structure Halted (r : ClientLoop) : Prop where
  stopped : r.stopped = true
  disconnected : r.conn = none
  idle : ¬r.Underway

theorem Halted.step (halted : r.Halted) (taken : r.step a = some t) : t.Halted := by
  have idle := step_not_underway halted.stopped halted.idle taken
  cases shared_of_step taken with
  | kept kept => exact ⟨kept.stopped.trans halted.stopped, kept.conn.trans halted.disconnected, idle⟩
  | installed success =>
    refine absurd ?_ halted.idle
    simp [Underway, success]
  | dropped => exact ⟨by simp [halted.stopped], by simp, idle⟩
  | stop => exact ⟨rfl, halted.disconnected, idle⟩
  | runStop => exact ⟨by simp [halted.stopped], by simp, idle⟩

/-- A connection under way can still be made. -/
theorem Underway.installs (underway : r.Underway) (running : r.running = true) :
    ∃ labels t, Run step free r labels t ∧ t.conn ≠ none := by
  have installed {r : ClientLoop} (success : r.connect = .connecting .success) (running : r.running = true) :
      ∃ labels t, Run step free r labels t ∧ t.conn ≠ none := by
    refine ⟨[.resumeConnect], _, .single trivial (by simp [step, running, resumeConnect, success]; rfl), ?_⟩
    rw [(connectWait_kept _).conn]
    exact Option.some_ne_none _
  have connected {r : ClientLoop} (inFlight : r.connect = .connecting .inFlight) (running : r.running = true) :
      ∃ labels t, Run step free r labels t ∧ t.conn ≠ none := by
    have taken : r.step (.connected true) = some { r with connect := .connecting .success } := by
      simp [step, running, inFlight, Completion.ofBool]
    obtain ⟨labels, t, run, some⟩ := installed (r := { r with connect := .connecting .success }) rfl running
    exact ⟨_, t, .cons trivial taken run, some⟩
  have resumed {r : ClientLoop} (success : r.connect = .resolving .success) (uncancelled : r.connectCancelled = false)
      (running : r.running = true) : ∃ labels t, Run step free r labels t ∧ t.conn ≠ none := by
    have taken : r.step .resumeConnect = some { r with connect := .connecting .inFlight } := by
      simp [step, running, resumeConnect, success, uncancelled]
    obtain ⟨labels, t, run, some⟩ := connected (r := { r with connect := .connecting .inFlight }) rfl running
    exact ⟨_, t, .cons trivial taken run, some⟩
  unfold Underway at underway
  split at underway
  · rename_i resolve phase
    obtain ⟨unfailed, uncancelled⟩ := underway
    cases resolve with
    | inFlight =>
      have taken : r.step (.resolved true) = some { r with connect := .resolving .success } := by
        simp [step, running, phase, Completion.ofBool]
      obtain ⟨labels, t, run, some⟩ :=
        resumed (r := { r with connect := .resolving .success }) rfl uncancelled running
      exact ⟨_, t, .cons trivial taken run, some⟩
    | success => exact resumed phase uncancelled running
    | failure => exact absurd rfl unfailed
  · rename_i connect phase
    cases connect with
    | inFlight => exact connected phase running
    | success => exact installed phase running
    | failure => exact absurd rfl underway
  · exact underway.elim

/-- Whoever has posted the stop handler has set the flag. -/
theorem stopped_of_handler {labels : List Action} (run : Run step free (start seqGenerator deviceId) labels r) :
    r.stopHandler ≠ none → r.stopped = true := by
  refine run.invariant (I := fun r => r.stopHandler ≠ none → r.stopped = true) (absurd rfl) ?_
  intro s a t before _ taken posted
  cases shared_of_step taken with
  | kept kept => exact kept.stopped.trans (before (kept.stopHandler ▸ posted))
  | installed _ kept => exact kept.stopped.trans (before (kept.stopHandler ▸ posted))
  | dropped => simpa using before (by simpa using posted)
  | stop => rfl
  | runStop => exact absurd rfl posted

/-- The stop of a client is final: from the stop handler on the client stays
without a connection, whatever happens, exactly if the handler ends the event
loop or `connect()` is not on its way to a connection when it runs. -/
theorem runStop_disconnects_iff {labels : List Action} (run : Run step free (start seqGenerator deviceId) labels r)
    (taken : r.step .runStop = some t) :
    (∀ more u, Run step free t more u → u.conn = none) ↔ r.stopHandler = some true ∨ ¬r.Underway := by
  obtain ⟨_, handled⟩ := Option.ite_none_right_eq_some.mp taken
  obtain ⟨force, handler, rfl⟩ := Option.map_eq_some_iff.mp handled
  have stopped : r.stopped = true := stopped_of_handler run (by simp [handler])
  have underway_iff := dropConn_underway r
  constructor
  · intro final
    cases force with
    | true => exact Or.inl handler
    | false =>
      refine Or.inr fun underway => ?_
      obtain ⟨more, u, rest, some⟩ := Underway.installs (r := { r.dropConn with
        signal := r.signal.cancelTimer, stopHandler := none, running := !false }) (underway_iff.mpr underway) rfl
      exact some (final more u rest)
  · rintro (forced | idle) more u rest
    · cases forced.symm.trans handler
      rw [rest.stuck fun a => by simp [step]]
      exact dropConn_conn r
    · refine (rest.invariant (I := Halted) ?_ fun _ _ _ halted _ taken => halted.step taken).disconnected
      exact ⟨by simpa using stopped, dropConn_conn r, mt underway_iff.mp idle⟩

/-- Stopped between two rounds of `connect()`. -/
def stoppedWaiting : List Action :=
  [.resumeConnect, .resolved true, .resumeConnect, .connected true, .resumeConnect, .stop false]

theorem runStop_disconnects_waiting :
    ∃ r t, exec step free (start 0 [0x61]) stoppedWaiting = some r ∧ r.step .runStop = some t ∧
      ((∀ more u, Run step free t more u → u.conn = none) ↔ r.stopHandler = some true ∨ ¬r.Underway) := by
  have trace : ((exec step free (start 0 [0x61]) stoppedWaiting).bind fun r => r.step .runStop).isSome := by
    decide +kernel
  obtain ⟨t, whole⟩ := Option.isSome_iff_exists.mp trace
  obtain ⟨r, done, taken⟩ := Option.bind_eq_some_iff.mp whole
  exact ⟨r, t, done, taken, runStop_disconnects_iff (exec_run done) taken⟩

/-- Stopped while the success of `async_connect` is queued: the connection is
installed after the stop handler has run. -/
theorem runStop_reconnects :
    ¬∀ seqGenerator deviceId labels r t more u, Run step free (start seqGenerator deviceId) labels r →
      r.stopHandler = some false → r.step .runStop = some t → Run step free t more u → u.conn = none := by
  intro claim
  have trace : (exec step free (start 0 [0x61])
      [.resumeConnect, .resolved true, .resumeConnect, .connected true, .stop false]).bind (fun r =>
        (r.step .runStop).bind fun t => (t.step .resumeConnect).map fun u => (r.stopHandler, u.conn)) =
      some (some false, some 0) := by decide +kernel
  obtain ⟨r, done, rest⟩ := Option.bind_eq_some_iff.mp trace
  obtain ⟨t, taken, rest⟩ := Option.bind_eq_some_iff.mp rest
  obtain ⟨u, resumed, view⟩ := Option.map_eq_some_iff.mp rest
  obtain ⟨handler, conn⟩ := Prod.mk.inj view
  cases conn.symm.trans (claim 0 [0x61] _ r t _ u (exec_run done) handler taken (.single trivial resumed))

end ClientLoop
end Asyncmsg
