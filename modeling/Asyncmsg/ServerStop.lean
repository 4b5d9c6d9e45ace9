import Asyncmsg.RegistrySteps
import Asyncmsg.RoundTrip

namespace Asyncmsg
open Transition

namespace Registry
variable {r t : Registry} {a : Registry.Action}

/-- The server holds no connection and accepts none. -/
structure Shut (r : Registry) : Prop where
  connections : r.connections = []
  connectionMap : r.connectionMap = ∅
  acceptor : r.acceptor = .ended

theorem Shut.onDisconnected (shut : r.Shut) (c : Nat) (deviceId : List UInt8) : (r.onDisconnected c deviceId).Shut where
  connections := by rw [Registry.onDisconnected, shut.connections]; rfl
  connectionMap := by
    rw [Registry.onDisconnected, shut.connectionMap]
    rfl
  acceptor := shut.acceptor

theorem Shut.setPeer (shut : r.Shut) (c : Nat) (peer : Peer) : (r.setPeer c peer).Shut :=
  ⟨shut.connections, shut.connectionMap, shut.acceptor⟩

theorem Shut.process (shut : r.Shut) {c : Nat} {peer : Peer} (receiving : peer.receiving = true) (pack : Packet) :
    (r.process c peer pack).Shut := by
  rcases r.process_cases receiving pack with ⟨_, same⟩ | ⟨_, _, same⟩ | ⟨_, same⟩ <;> rw [same]
  · exact shut.setPeer c peer
  · rw [onGotDeviceId, if_neg]
    · exact shut.setPeer c _
    · rw [(shut.setPeer c _).connections]
      exact List.not_mem_nil
  · exact (shut.setPeer c _).onDisconnected c _

/-- A server that accepts nothing more gets no connection any more. -/
theorem Shut.step (shut : r.Shut) (taken : r.step a = some t) : t.Shut := by
  cases moves_of_step taken with
  | incoming pending => cases shut.acceptor.symm.trans pending
  | accept ready => cases shut.acceptor.symm.trans ready
  | packet _ receiving => exact shut.process receiving _
  | lost => exact (shut.setPeer _ _).onDisconnected _ _
  | send => exact shut.setPeer _ _
  | leave => exact shut.setPeer _ _
  | stop => exact ⟨shut.connections, shut.connectionMap, shut.acceptor⟩
  | runStop =>
    refine ⟨rfl, rfl, ?_⟩
    rw [shut.acceptor]
    rfl

/-- A queued accept is carried out. -/
theorem accepts_of_ready (running : r.running = true) (ready : r.acceptor = .ready) :
    ∃ t, r.step .accept = some t ∧ t.connections ≠ [] ∧ t.acceptor = .pending := by
  refine ⟨{ r with
    acceptor := .pending
    peers := r.peers ++ [⟨[], 0, true, true⟩]
    connections := r.connections ++ [some r.peers.length] }, ?_, by simp, rfl⟩
  simp [step, running, ready]

/-- The stop of a server is final: from the stop handler on the server adds no
connection and issues no `async_accept`, whatever happens, exactly if the
handler ends the event loop or no accepted socket waits for `accept()`. -/
theorem runStop_final_iff (taken : r.step .runStop = some t) :
    (∀ more u, Run step free t more u → u.connections = [] ∧ u.connectionMap = ∅ ∧ u.acceptor ≠ .pending) ↔
      r.stopHandler = some true ∨ r.acceptor ≠ .ready := by
  obtain ⟨_, handled⟩ := Option.ite_none_right_eq_some.mp taken
  obtain ⟨force, handler, same⟩ := Option.bind_eq_some_iff.mp handled
  cases same
  constructor
  · intro final
    by_contra either
    obtain ⟨unforced, ready⟩ := not_or.mp either
    rw [not_not] at ready
    cases force with
    | true => exact unforced handler
    | false =>
      obtain ⟨u, accepted, added, _⟩ := accepts_of_ready (r := { r with
        acceptor := if r.acceptor = .pending then .ended else r.acceptor
        connectionMap := ∅
        connections := []
        stopHandler := none
        running := !false }) rfl (by simp [ready])
      exact added (final [.accept] u (.single trivial accepted)).1
  · rintro (forced | idle) more u rest
    · cases forced.symm.trans handler
      rw [rest.stuck fun a => by simp [step]]
      refine ⟨rfl, rfl, ?_⟩
      dsimp only
      split
      · simp
      · assumption
    · have shut : u.Shut := by
        refine rest.invariant (I := Shut) ⟨rfl, rfl, ?_⟩ fun _ _ _ shut _ taken => shut.step taken
        cases acceptor : r.acceptor <;> simp_all
      exact ⟨shut.connections, shut.connectionMap, by simp [shut.acceptor]⟩

/-- Stopped while `accept()` waits for a connection. -/
def stoppedPending : List Action := [.incoming, .accept, .packet 0 ping, .stop false]

theorem runStop_final_pending :
    ∃ r t, exec step free start stoppedPending = some r ∧ r.step .runStop = some t ∧
      ((∀ more u, Run step free t more u → u.connections = [] ∧ u.connectionMap = ∅ ∧ u.acceptor ≠ .pending) ↔
        r.stopHandler = some true ∨ r.acceptor ≠ .ready) := by
  have trace : ((exec step free start stoppedPending).bind fun r => r.step .runStop).isSome := by decide +kernel
  obtain ⟨t, whole⟩ := Option.isSome_iff_exists.mp trace
  obtain ⟨r, done, taken⟩ := Option.bind_eq_some_iff.mp whole
  exact ⟨r, t, done, taken, runStop_final_iff taken⟩

/-- Stopped while the completion of an accept is queued: it brings a connection
and the next `async_accept`. -/
theorem runStop_accepts :
    ¬∀ labels r t more u, Run step free start labels r → r.stopHandler = some false → r.step .runStop = some t →
      Run step free t more u → u.connections = [] ∧ u.connectionMap = ∅ ∧ u.acceptor ≠ .pending := by
  intro claim
  have trace : (exec step free start [.incoming, .stop false]).bind (fun r =>
      (r.step .runStop).bind fun t => (t.step .accept).map fun u =>
        (r.stopHandler, u.connections, decide (u.acceptor = .pending))) = some (some false, [some 0], true) := by
    decide +kernel
  obtain ⟨r, done, rest⟩ := Option.bind_eq_some_iff.mp trace
  obtain ⟨t, taken, rest⟩ := Option.bind_eq_some_iff.mp rest
  obtain ⟨u, accepted, view⟩ := Option.map_eq_some_iff.mp rest
  obtain ⟨handler, listed⟩ := Prod.mk.inj view
  have final := (claim _ r t _ u (exec_run done) handler taken (.single trivial accepted)).1
  rw [final] at listed
  cases (Prod.mk.inj listed).1

end Registry
end Asyncmsg
