import Asyncmsg.ServerRequests

namespace Asyncmsg
open Transition

namespace Client
variable {c d : Client} {a : Client.Action}

/-- No `wait_request` is suspended on a channel of the table. -/
def Quiet (c : Client) : Prop :=
  ∀ cmd channel, c.channels.lookup cmd = some (some channel) → channel.waiters = 0

/-- A `wait_request` finds a channel with a request in it. -/
def Answered (c : Client) : Action → Prop
  | .waitRequest cmd => ∃ entry, c.channels.lookup cmd = some entry ∧ ∀ channel ∈ entry, channel.buffer ≠ []
  | _ => True

theorem Quiet.setChannel (quiet : c.Quiet) (cmd : UInt32) {entry : Option RequestChannel}
    (idle : ∀ channel ∈ entry, channel.waiters = 0) : (c.setChannel cmd entry).Quiet := by
  intro key channel found
  by_cases same : key = cmd
  · subst same
    rw [Client.setChannel, AList.lookup_insert] at found
    exact idle channel (Option.some.inj found)
  · rw [Client.setChannel, AList.lookup_insert_ne same] at found
    exact quiet key channel found

theorem Quiet.channelAt (quiet : c.Quiet) {cmd : UInt32} {channel : RequestChannel}
    (found : c.channelAt cmd = some channel) : channel.waiters = 0 := by
  rw [Client.channelAt] at found
  cases entry : c.channels.lookup cmd with
  | none => simp [entry] at found
  | some there => exact quiet cmd channel (by rw [entry]; simpa [entry] using found)

theorem Quiet.trySend (quiet : c.Quiet) (i : Nat) (pack : Packet) : (c.trySend i pack).Quiet := by
  unfold Client.trySend
  split
  · exact quiet.setChannel pack.cmd (by simp)
  · rename_i channel found
    split
    · exact quiet
    · rename_i next sent
      have fewer := Channel.trySend_waiters sent
      rw [quiet.channelAt found] at fewer
      exact quiet.setChannel pack.cmd (by simpa using fewer)

theorem Quiet.onReceiveRequest (quiet : c.Quiet) (i : Nat) (pack : Packet) (deviceId : List UInt8) :
    (c.onReceiveRequest i pack deviceId).Quiet := by
  have acknowledged : (c.acknowledge i pack deviceId).Quiet := quiet
  unfold Client.onReceiveRequest
  dsimp only
  split
  · exact acknowledged
  · refine Quiet.trySend ?_ i pack
    exact acknowledged

theorem cancelAll_quiet (c : Client) : c.cancelAll.Quiet := by
  intro cmd channel found
  obtain ⟨⟨key, entry⟩, _, same⟩ := List.mem_map.mp (AList.mem_lookup_iff.mp found)
  rw [Sigma.mk.inj_iff] at same
  obtain ⟨before, _, rfl⟩ := Option.map_eq_some_iff.mp (eq_of_heq same.2)
  rfl

/-- A call leaves a client quiet exactly if it finds a request. -/
theorem Quiet.waitRequest_iff (quiet : c.Quiet) (cmd : UInt32) :
    (c.waitRequest cmd).Quiet ↔ Answered c (.waitRequest cmd) := by
  cases entry : c.channels.lookup cmd with
  | none =>
    refine iff_of_false (fun waits => ?_) (by simp [Answered, entry])
    have waiting := waits cmd (Channel.receive .empty).2 (by simp [waitRequest, entry, Client.setChannel, Client.channelAt])
    cases waiting
  | some there =>
    cases there with
    | none =>
      have same : (c.waitRequest cmd).channels = c.channels := by simp [waitRequest, entry, Client.channelAt]
      exact iff_of_true (by rw [Quiet, same]; exact quiet) (by simp [Answered, entry])
    | some channel =>
      have served : (c.waitRequest cmd).channels = c.channels.insert cmd (some channel.receive.2) := by
        simp [waitRequest, entry, Client.setChannel, Client.channelAt]
      have idle := quiet cmd channel entry
      have waiters := channel.receive_waiters
      by_cases empty : channel.buffer = []
      · refine iff_of_false (fun waits => ?_) (by simp [Answered, entry, empty])
        have waiting := waits cmd channel.receive.2 (by rw [served, AList.lookup_insert])
        rw [if_pos empty] at waiters
        omega
      · rw [if_neg empty, idle] at waiters
        refine iff_of_true ?_ (by simp [Answered, entry, empty])
        have kept := @Quiet.setChannel c quiet cmd (some channel.receive.2) (by simpa using waiters)
        exact fun key next found => kept key next (by rwa [served] at found)

/-- What a step leaves quiet. -/
theorem Quiet.step_iff (quiet : c.Quiet) (taken : c.step a = some d) : d.Quiet ↔ Answered c a := by
  obtain ⟨_, taken⟩ := Option.ite_none_right_eq_some.mp taken
  cases a with
  | push pack =>
    cases taken
    exact iff_of_true quiet trivial
  | arrive i deviceId =>
    obtain ⟨pack, _, rfl⟩ := Option.map_eq_some_iff.mp taken
    exact iff_of_true (quiet.onReceiveRequest i pack deviceId) trivial
  | waitRequest cmd =>
    cases taken
    exact quiet.waitRequest_iff cmd
  | leave cmd =>
    obtain ⟨channel, found, taken⟩ := Option.bind_eq_some_iff.mp taken
    obtain ⟨waiting, _⟩ := Option.ite_none_right_eq_some.mp taken
    exact absurd (quiet.channelAt found) waiting.ne'
  | stop force =>
    obtain ⟨_, same⟩ := Option.ite_none_left_eq_some.mp taken
    cases same
    exact iff_of_true quiet trivial
  | runStop =>
    obtain ⟨force, _, same⟩ := Option.bind_eq_some_iff.mp taken
    cases same
    exact iff_of_true c.cancelAll_quiet trivial

theorem runStop_quiet (taken : c.step .runStop = some d) : d.Quiet := by
  obtain ⟨_, taken⟩ := Option.ite_none_right_eq_some.mp taken
  obtain ⟨force, _, same⟩ := Option.bind_eq_some_iff.mp taken
  cases same
  exact c.cancelAll_quiet

end Client

namespace ServerRequests
variable {Caller : Type*} [DecidableEq Caller] {s t : ServerRequests Caller} {a : Action Caller}

/-- No `wait_request` is suspended on a channel of the table. -/
def Quiet (s : ServerRequests Caller) : Prop := ∀ cmd channel, s.At cmd channel → channel.receivers = []

omit [DecidableEq Caller] in
theorem Quiet.setChannel (quiet : s.Quiet) {cmd : UInt32}
    {channel : Rendezvous Packet Caller receivedPacketChannelSize} (idle : channel.receivers = []) :
    (s.setChannel cmd channel).Quiet := by
  intro key other found
  rcases at_setChannel found with ⟨_, rfl⟩ | ⟨_, before⟩
  · exact idle
  · exact quiet key other before

/-- A server that is stopped lets nobody wait. -/
theorem Quiet.step (quiet : s.Quiet) (stopped : s.stopped = true) (taken : s.step a = some t) :
    t.Quiet ∧ t.stopped = true := by
  cases moves_of_step taken with
  | heartbeat => exact ⟨quiet, stopped⟩
  | ignored => exact ⟨quiet, stopped⟩
  | handed found waiting => cases (quiet _ _ found).symm.trans waiting
  | buffered _ none => exact ⟨quiet.setChannel none, stopped⟩
  | refused => exact ⟨quiet, stopped⟩
  | fetched accepting => cases accepting.symm.trans stopped
  | waits accepting => cases accepting.symm.trans stopped
  | leaves found => exact ⟨quiet.setChannel (by simp [Rendezvous.leave, quiet _ _ found]), stopped⟩
  | stop accepting => cases accepting.symm.trans stopped
  | runStop =>
    refine ⟨fun cmd channel found => ?_, stopped⟩
    obtain ⟨_, _, rfl⟩ := at_cancelAll found
    rfl

/-- Whoever has posted the stop handler has set the flag. -/
theorem stopped_of_handler {seqGenerator : UInt32} {labels : List (Action Caller)}
    (run : Run step free (start seqGenerator) labels s) : s.stopHandler ≠ none → s.stopped = true := by
  refine run.invariant (I := fun s => s.stopHandler ≠ none → s.stopped = true) (absurd rfl) ?_
  intro s a t before _ taken
  cases moves_of_step taken with
  | stop => exact fun _ => rfl
  | runStop => exact absurd rfl
  | _ => exact before

theorem runStop_quiet (stopped : s.stopped = true) (taken : s.step .runStop = some t) : t.Quiet ∧ t.stopped = true := by
  cases moves_of_step taken with
  | runStop =>
    refine ⟨fun cmd channel found => ?_, stopped⟩
    obtain ⟨_, _, rfl⟩ := at_cancelAll found
    rfl

end ServerRequests

/-- Once the handler posted by `stop(false)` has run, no `wait_request` of a
server is ever suspended, and none of a client exactly as long as each call
that it makes finds a request in its channel. -/
theorem stop_leaves_none_waiting {Caller : Type*} [DecidableEq Caller] :
    (∀ seqGenerator labels (c d : Client), Run Client.step free (.start seqGenerator) labels c →
        c.stopHandler = some false → c.step .runStop = some d → ∀ more e, Run Client.step free d more e →
        ((∀ before after u, more = before ++ after → Run Client.step free d before u → u.Quiet) ↔
          Run Client.step Client.Answered d more e)) ∧
      ∀ seqGenerator labels (s t : ServerRequests Caller), Run ServerRequests.step free (.start seqGenerator) labels s →
        s.stopHandler = some false → s.step .runStop = some t →
        ∀ more u, Run ServerRequests.step free t more u → u.Quiet := by
  constructor
  · intro seqGenerator labels c d _ _ taken more e run
    exact run.always_iff (Client.runStop_quiet taken) fun _ _ _ quiet taken => quiet.step_iff taken
  · intro seqGenerator labels s t run handler taken more u rest
    have stopped := ServerRequests.stopped_of_handler run (by simp [handler])
    exact (rest.invariant (I := fun s => s.Quiet ∧ s.stopped = true) (ServerRequests.runStop_quiet stopped taken)
      fun _ _ _ kept _ taken => kept.1.step kept.2 taken).1

/-- Two requests for a call that waits: the second one is kept, and found by a
call behind the stop handler. -/
theorem stop_leaves_none_waiting_kept :
    ∃ c d e, exec Client.step free (.start 0) [.waitRequest 1, .push ping, .push { ping with seq := 2 },
        .arrive 0 [0x61], .arrive 1 [0x61], .stop false] = some c ∧ c.step .runStop = some d ∧
      d.step (.waitRequest 1) = some e ∧ Client.Quiet e := by
  have trace : (exec Client.step free (.start 0) [.waitRequest 1, .push ping, .push { ping with seq := 2 },
      .arrive 0 [0x61], .arrive 1 [0x61], .stop false]).bind (fun c => (c.step .runStop).bind fun d =>
        (d.step (.waitRequest 1)).map fun _ =>
          (c.stopHandler, (d.channels.lookup 1).map fun entry => entry.map fun channel => channel.buffer.length)) =
      some (some false, some (some 1)) := by
    decide +kernel
  obtain ⟨c, done, rest⟩ := Option.bind_eq_some_iff.mp trace
  obtain ⟨d, taken, rest⟩ := Option.bind_eq_some_iff.mp rest
  obtain ⟨e, found, view⟩ := Option.map_eq_some_iff.mp rest
  obtain ⟨handler, kept⟩ := Prod.mk.inj view
  obtain ⟨entry, there, kept⟩ := Option.map_eq_some_iff.mp kept
  obtain ⟨channel, rfl, count⟩ := Option.map_eq_some_iff.mp kept
  have answered : d.Answered (.waitRequest 1) := by
    refine ⟨_, there, fun other member => ?_⟩
    cases member
    exact List.ne_nil_of_length_eq_add_one count
  have always := ((@stop_leaves_none_waiting Nat _).1 0 _ c d (exec_run done) handler taken _ e
    (.single trivial found)).mpr (.single answered found)
  exact ⟨c, d, e, done, taken, found, always _ [] e (List.append_nil _).symm (.single trivial found)⟩

/-- A client that waits for a request behind its stop waits for ever. -/
theorem stop_leaves_client_waiting :
    ¬∀ seqGenerator labels (c d : Client) more e, Run Client.step free (.start seqGenerator) labels c →
      c.stopHandler = some false → c.step .runStop = some d → Run Client.step free d more e → e.Quiet := by
  intro claim
  have trace : (exec Client.step free (.start 0) [.stop false]).bind (fun c =>
      (c.step .runStop).bind fun d => (d.step (.waitRequest 5)).map fun e =>
        (c.stopHandler, (e.channels.lookup 5).map fun entry => entry.map Channel.waiters)) =
      some (some false, some (some 1)) := by
    decide +kernel
  obtain ⟨c, done, rest⟩ := Option.bind_eq_some_iff.mp trace
  obtain ⟨d, taken, rest⟩ := Option.bind_eq_some_iff.mp rest
  obtain ⟨e, waits, view⟩ := Option.map_eq_some_iff.mp rest
  obtain ⟨handler, waiting⟩ := Prod.mk.inj view
  obtain ⟨entry, found, waiting⟩ := Option.map_eq_some_iff.mp waiting
  obtain ⟨channel, rfl, waiting⟩ := Option.map_eq_some_iff.mp waiting
  have quiet := claim 0 _ c d _ e (exec_run done) handler taken (.single trivial waits) 5 channel found
  omega

end Asyncmsg
