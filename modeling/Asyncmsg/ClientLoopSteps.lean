import Asyncmsg.ClientLoop

namespace Asyncmsg

namespace ClientLoop
variable {r t : ClientLoop} {a : ClientLoop.Action}

/-- What a step does, by the action that names it. -/
inductive Moves (r : ClientLoop) : Action → ClientLoop → Prop
  | resolved {succeeds : Bool} : r.connect = .resolving .inFlight →
      Moves r (.resolved succeeds) { r with connect := .resolving (.ofBool succeeds) }
  | connected {succeeds : Bool} : r.connect = .connecting .inFlight →
      Moves r (.connected succeeds) { r with connect := .connecting (.ofBool succeeds) }
  | connectTimer : r.connect = .waiting .inFlight → Moves r .connectTimer { r with connect := .waiting .success }
  | loops : r.connect = .starting ∨ r.connect = .waiting .success → Moves r .resumeConnect r.connectHead
  | connects : r.connect = .resolving .success → r.connectCancelled = false →
      Moves r .resumeConnect { r with connect := .connecting .inFlight }
  | installs : r.connect = .connecting .success →
      Moves r .resumeConnect { r with conn := some r.made, made := r.made + 1 }.connectWait
  | waits : r.connect = .resolving .success ∧ r.connectCancelled = true ∨ r.connect = .resolving .failure ∨
      r.connect = .connecting .failure → Moves r .resumeConnect r.connectWait
  | ends : r.connect = .waiting .failure → Moves r .resumeConnect r.endConnect
  | written {c : Nat} {pack : Packet} {succeeds : Bool} : r.heartbeat = .writing c pack .inFlight →
      Moves r (.written succeeds) { r with heartbeat := .writing c pack (.ofBool succeeds) }
  | checkTimer : r.heartbeat = .waiting .inFlight → Moves r .checkTimer { r with heartbeat := .waiting .success }
  | beats {t : ClientLoop} : r.heartbeat = .starting ∨ r.heartbeat = .waiting .success →
      r.heartbeatHead = some t → Moves r .resumeHeartbeat t
  | rests {c : Nat} {pack : Packet} : r.heartbeat = .writing c pack .success →
      Moves r .resumeHeartbeat r.heartbeatWait
  | stopsBeating : (∃ c pack, r.heartbeat = .writing c pack .failure) ∨ r.heartbeat = .waiting .failure →
      Moves r .resumeHeartbeat r.endHeartbeat
  | signalWaits : r.signal = .starting → Moves r .resumeSignal { r with signal := .waiting .inFlight }
  | signalled : r.signal = .waiting .failure →
      Moves r .resumeSignal { r with signal := .ended }.cancelConnect.cancelHeartbeat
  | dropped {c : Nat} : r.conn = some c → Moves r .disconnected r.dropConn
  | nextSeq : Moves r .nextSeq { r with seqGenerator := nextSeq r.seqGenerator }
  | stop {force : Bool} : r.stopped = false →
      Moves r (.stop force) { r with stopped := true, stopHandler := some force }
  | runStop {force : Bool} : r.stopHandler = some force → Moves r .runStop { r.dropConn with
      signal := r.signal.cancelTimer
      stopHandler := none
      running := !force }

theorem moves_of_resumeConnect (taken : r.resumeConnect = some t) : Moves r .resumeConnect t := by
  unfold resumeConnect at taken
  split at taken <;> cases taken
  · exact .loops (Or.inl ‹_›)
  · exact .loops (Or.inr ‹_›)
  · split
    · exact .waits (Or.inl ⟨‹_›, ‹_›⟩)
    · exact .connects ‹_› (Bool.eq_false_iff.mpr ‹_›)
  · exact .installs ‹_›
  · exact .waits (Or.inr (Or.inl ‹_›))
  · exact .waits (Or.inr (Or.inr ‹_›))
  · exact .ends ‹_›

theorem moves_of_resumeHeartbeat (taken : r.resumeHeartbeat = some t) : Moves r .resumeHeartbeat t := by
  unfold resumeHeartbeat at taken
  split at taken
  · exact .beats (Or.inl ‹_›) taken
  · exact .beats (Or.inr ‹_›) taken
  · cases taken
    exact .rests ‹_›
  · cases taken
    exact .stopsBeating (Or.inl ⟨_, _, ‹_›⟩)
  · cases taken
    exact .stopsBeating (Or.inr ‹_›)
  · cases taken

theorem moves_of_step (taken : r.step a = some t) : Moves r a t := by
  obtain ⟨_, taken⟩ := Option.ite_none_right_eq_some.mp taken
  cases a with
  | resolved succeeds =>
    obtain ⟨inFlight, same⟩ := Option.ite_none_right_eq_some.mp taken
    cases same
    exact .resolved inFlight
  | connected succeeds =>
    obtain ⟨inFlight, same⟩ := Option.ite_none_right_eq_some.mp taken
    cases same
    exact .connected inFlight
  | connectTimer =>
    obtain ⟨inFlight, same⟩ := Option.ite_none_right_eq_some.mp taken
    cases same
    exact .connectTimer inFlight
  | resumeConnect => exact moves_of_resumeConnect taken
  | written succeeds =>
    dsimp only at taken
    split at taken <;> cases taken
    exact .written ‹_›
  | checkTimer =>
    obtain ⟨inFlight, same⟩ := Option.ite_none_right_eq_some.mp taken
    cases same
    exact .checkTimer inFlight
  | resumeHeartbeat => exact moves_of_resumeHeartbeat taken
  | resumeSignal =>
    simp only [resumeSignal] at taken
    split at taken <;> cases taken
    · exact .signalWaits ‹_›
    · exact .signalled ‹_›
  | disconnected =>
    obtain ⟨c, connected, rfl⟩ := Option.map_eq_some_iff.mp taken
    exact .dropped connected
  | nextSeq =>
    cases taken
    exact .nextSeq
  | stop force =>
    obtain ⟨unstopped, same⟩ := Option.ite_none_left_eq_some.mp taken
    cases same
    exact .stop (Bool.eq_false_iff.mpr unstopped)
  | runStop =>
    obtain ⟨force, handler, rfl⟩ := Option.map_eq_some_iff.mp taken
    exact .runStop handler

/-- What the ends and the timers of the coroutines leave alone. -/
structure Kept (r t : ClientLoop) : Prop where
  running : t.running = r.running
  stopped : t.stopped = r.stopped
  stopHandler : t.stopHandler = r.stopHandler
  conn : t.conn = r.conn
  deviceId : t.deviceId = r.deviceId

theorem endConnect_kept (r : ClientLoop) : Kept r r.endConnect := by
  unfold endConnect
  dsimp only
  split <;> exact ⟨rfl, rfl, rfl, rfl, rfl⟩

theorem endConnect_ended (r : ClientLoop) : r.endConnect.connect = .ended := by
  unfold endConnect
  dsimp only
  split <;> rfl

theorem endHeartbeat_kept (r : ClientLoop) : Kept r r.endHeartbeat := by
  unfold endHeartbeat
  dsimp only
  split <;> exact ⟨rfl, rfl, rfl, rfl, rfl⟩

theorem connectWait_kept (r : ClientLoop) : Kept r r.connectWait := by
  unfold connectWait
  split
  · exact endConnect_kept r
  · exact ⟨rfl, rfl, rfl, rfl, rfl⟩

theorem connectHead_kept (r : ClientLoop) : Kept r r.connectHead := by
  unfold connectHead
  split
  · exact endConnect_kept r
  · split
    · exact ⟨rfl, rfl, rfl, rfl, rfl⟩
    · exact connectWait_kept r

theorem heartbeatWait_kept (r : ClientLoop) : Kept r r.heartbeatWait := by
  unfold heartbeatWait
  split
  · exact endHeartbeat_kept r
  · exact ⟨rfl, rfl, rfl, rfl, rfl⟩

theorem heartbeatHead_kept (taken : r.heartbeatHead = some t) : Kept r t := by
  unfold heartbeatHead at taken
  split at taken
  · cases taken
    exact endHeartbeat_kept r
  · split at taken
    · cases taken
      exact heartbeatWait_kept r
    · dsimp only at taken
      split at taken
      · cases taken
        obtain ⟨running, stopped, stopHandler, conn, deviceId⟩ := endHeartbeat_kept { r with
          seqGenerator := (buildReqPacket r.seqGenerator heartbeatCmd .empty r.deviceId).2 }
        exact ⟨running, stopped, stopHandler, conn, deviceId⟩
      · obtain ⟨_, _, rfl⟩ := Option.map_eq_some_iff.mp taken
        exact ⟨rfl, rfl, rfl, rfl, rfl⟩

/-- What a step does to the state that the coroutines share. -/
inductive Shared (r : ClientLoop) : Action → ClientLoop → Prop
  | kept {b : Action} {u : ClientLoop} : Kept r u → Shared r b u
  | installed {u : ClientLoop} : r.connect = .connecting .success →
      Kept { r with conn := some r.made, made := r.made + 1 } u → Shared r .resumeConnect u
  | dropped : Shared r .disconnected r.dropConn
  | stop {force} : r.stopped = false →
      Shared r (.stop force) { r with stopped := true, stopHandler := some force }
  | runStop {force} : r.stopHandler = some force →
      Shared r .runStop { r.dropConn with
        signal := r.signal.cancelTimer
        stopHandler := none
        running := !force }

theorem shared_of_step (taken : r.step a = some t) : Shared r a t := by
  cases moves_of_step taken with
  | loops => exact .kept (connectHead_kept r)
  | installs success => exact .installed success (connectWait_kept _)
  | waits => exact .kept (connectWait_kept r)
  | ends => exact .kept (endConnect_kept r)
  | beats _ head => exact .kept (heartbeatHead_kept head)
  | rests => exact .kept (heartbeatWait_kept r)
  | stopsBeating => exact .kept (endHeartbeat_kept r)
  | dropped => exact .dropped
  | stop unstopped => exact .stop unstopped
  | runStop handler => exact .runStop handler
  | _ => exact .kept ⟨rfl, rfl, rfl, rfl, rfl⟩

@[simp] theorem dropConn_stopped (r : ClientLoop) : r.dropConn.stopped = r.stopped := by
  unfold dropConn
  split <;> rfl

@[simp] theorem dropConn_stopHandler (r : ClientLoop) : r.dropConn.stopHandler = r.stopHandler := by
  unfold dropConn
  split <;> rfl

@[simp] theorem dropConn_conn (r : ClientLoop) : r.dropConn.conn = none := by
  unfold dropConn
  split
  · rfl
  · assumption

@[simp] theorem dropConn_deviceId (r : ClientLoop) : r.dropConn.deviceId = r.deviceId := by
  unfold dropConn
  split <;> rfl

/-- A client keeps its device id. -/
theorem Shared.deviceId (shared : Shared r a t) : t.deviceId = r.deviceId := by
  cases shared with
  | kept kept => exact kept.deviceId
  | installed _ kept => exact kept.deviceId
  | dropped => exact dropConn_deviceId r
  | stop => rfl
  | runStop => exact dropConn_deviceId r

/-- Stopped is for ever. -/
theorem Shared.unstopped (shared : Shared r a t) (still : t.stopped = false) : r.stopped = false := by
  cases shared with
  | kept kept => exact kept.stopped.symm.trans still
  | installed _ kept => exact kept.stopped.symm.trans still
  | dropped => simpa using still
  | stop unstopped => exact unstopped
  | runStop => simpa using still

end ClientLoop
end Asyncmsg
