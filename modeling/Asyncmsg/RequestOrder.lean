import Asyncmsg.RpcDispatch

namespace Asyncmsg
open Transition

namespace ServerRequests
variable {Caller : Type*} {s t : ServerRequests Caller} {cmd : UInt32}

/-- The requests with this command, among those that have arrived. -/
def arrivals (cmd : UInt32) (labels : List (Action Caller)) : List Packet :=
  labels.filterMap fun
    | .receive pack => if pack.cmd = cmd then some pack else none
    | _ => none

/-- Those who have called `wait_request` for this command. -/
def callers (cmd : UInt32) (labels : List (Action Caller)) : List Caller :=
  labels.filterMap fun
    | .waitRequest who key => if key = cmd then some who else none
    | _ => none

def channelOf (s : ServerRequests Caller) (cmd : UInt32) : Rendezvous Packet Caller receivedPacketChannelSize :=
  (s.channels.lookup cmd).getD .empty

def takenFor (s : ServerRequests Caller) (cmd : UInt32) : List (Caller × Packet) :=
  s.taken.filter fun entry => entry.2.cmd = cmd

/-- The requests that the channel of this command has taken, the oldest first. -/
def admitted (s : ServerRequests Caller) (cmd : UInt32) : List Packet :=
  (s.takenFor cmd).map Prod.snd ++ (s.channelOf cmd).buffer

/-- Those who have got a request from this channel or wait for one, by the order of their calls. -/
def queued (s : ServerRequests Caller) (cmd : UInt32) : List Caller :=
  (s.takenFor cmd).map Prod.fst ++ (s.channelOf cmd).receivers

/-- A request with this command arrives when its channel is there and has a
receiver or room for it. -/
def Admits (cmd : UInt32) (s : ServerRequests Caller) : Action Caller → Prop
  | .receive pack => pack.cmd = cmd → ∃ channel, s.At cmd channel ∧ channel.Accepts
  | _ => True

theorem channelOf_of_at {channel : Rendezvous Packet Caller receivedPacketChannelSize} (found : s.At cmd channel) :
    s.channelOf cmd = channel := by
  rw [channelOf, found, Option.getD_some]

theorem channelOf_setChannel (key : UInt32) (next : Rendezvous Packet Caller receivedPacketChannelSize) :
    (s.setChannel key next).channelOf cmd = if key = cmd then next else s.channelOf cmd := by
  unfold channelOf setChannel
  split
  · rename_i same
    rw [same, AList.lookup_insert, Option.getD_some]
  · rename_i other
    rw [AList.lookup_insert_ne (Ne.symm other)]

theorem channelOf_cancelAll (s : ServerRequests Caller) (cmd : UInt32) :
    (s.cancelAll.channelOf cmd).buffer = (s.channelOf cmd).buffer ∧ (s.cancelAll.channelOf cmd).receivers = [] := by
  cases found : s.cancelAll.channels.lookup cmd with
  | some channel =>
    obtain ⟨before, old, rfl⟩ := at_cancelAll found
    rw [channelOf_of_at found, channelOf_of_at old]
    exact ⟨rfl, rfl⟩
  | none =>
    have absent : s.channels.lookup cmd = none := by
      rw [AList.lookup_eq_none] at found ⊢
      intro there
      refine found ?_
      rw [AList.mem_keys, AList.keys] at there ⊢
      simpa [cancelAll, List.keys] using there
    rw [channelOf, found, channelOf, absent]
    exact ⟨rfl, rfl⟩

/-- A channel is exchanged and requests with its command are handed over. -/
def serve (s : ServerRequests Caller) (key : UInt32) (next : Rendezvous Packet Caller receivedPacketChannelSize)
    (more : List (Caller × Packet)) : ServerRequests Caller :=
  { s.setChannel key next with taken := s.taken ++ more }

theorem takenFor_serve {key : UInt32} {next : Rendezvous Packet Caller receivedPacketChannelSize}
    {more : List (Caller × Packet)} (own : ∀ entry ∈ more, entry.2.cmd = key) (cmd : UInt32) :
    (s.serve key next more).takenFor cmd = s.takenFor cmd ++ if key = cmd then more else [] := by
  have same : ((s.serve key next more).takenFor cmd) = s.takenFor cmd ++ more.filter fun entry => entry.2.cmd = cmd :=
    List.filter_append ..
  rw [same]
  split
  · rename_i here
    rw [List.filter_eq_self.mpr fun entry member => by simpa [here] using own entry member]
  · rename_i other
    rw [List.filter_eq_nil_iff.mpr fun entry member => by simpa [own entry member] using other]

theorem channelOf_serve (key : UInt32) (next : Rendezvous Packet Caller receivedPacketChannelSize)
    (more : List (Caller × Packet)) (cmd : UInt32) :
    (s.serve key next more).channelOf cmd = if key = cmd then next else s.channelOf cmd :=
  channelOf_setChannel key next

/-- What one channel has admitted and whom it serves after it has been exchanged. -/
theorem serve_order (key : UInt32) (next : Rendezvous Packet Caller receivedPacketChannelSize)
    (more : List (Caller × Packet)) (own : ∀ entry ∈ more, entry.2.cmd = key) (arrived : List Packet)
    (called : List Caller) (buffer : more.map Prod.snd ++ next.buffer = (s.channelOf key).buffer ++ arrived)
    (receivers : more.map Prod.fst ++ next.receivers = (s.channelOf key).receivers ++ called) (cmd : UInt32) :
    ((s.serve key next more).admitted cmd = s.admitted cmd ++ if key = cmd then arrived else []) ∧
      (s.serve key next more).queued cmd = s.queued cmd ++ if key = cmd then called else [] := by
  unfold admitted queued
  rw [takenFor_serve own, channelOf_serve]
  split
  · rename_i here
    subst here
    simp only [List.map_append, List.append_assoc, buffer, receivers, and_self]
  · simp

theorem trySend_eq_serve {pack : Packet} {channel next : Rendezvous Packet Caller receivedPacketChannelSize}
    {taker : Option Caller} (sent : channel.trySend pack = some (taker, next)) :
    s.trySend pack channel = s.serve pack.cmd next (taker.toList.map fun who => (who, pack)) := by
  rw [trySend, sent]
  rfl

/-- A request is admitted behind the others of its command, and only if its
channel accepts it. The waiting calls are served by their order. -/
theorem receive_order {pack : Packet} (other : pack.cmd ≠ heartbeatCmd) (cmd : UInt32) :
    (Admits cmd s (.receive pack) ∧
        (s.onReceiveRequest pack).admitted cmd = s.admitted cmd ++ (if pack.cmd = cmd then [pack] else []) ∨
      ¬Admits cmd s (.receive pack) ∧ pack.cmd = cmd ∧ (s.onReceiveRequest pack).admitted cmd = s.admitted cmd) ∧
      (s.onReceiveRequest pack).queued cmd = s.queued cmd := by
  rw [onReceiveRequest, if_neg other]
  cases found : s.channels.lookup pack.cmd with
  | none =>
    refine ⟨?_, rfl⟩
    by_cases same : pack.cmd = cmd
    · refine Or.inr ⟨fun admits => ?_, same, rfl⟩
      obtain ⟨channel, there, _⟩ := admits same
      rw [← same, At, found] at there
      cases there
    · exact Or.inl ⟨fun same' => absurd same' same, by rw [if_neg same, List.append_nil]⟩
  | some channel =>
    cases sent : channel.trySend pack with
    | none =>
      have refused : ¬channel.Accepts := by
        rw [← Rendezvous.trySend_isSome_iff channel pack, sent]
        exact Bool.false_ne_true
      have unchanged : s.trySend pack channel = s := by rw [trySend, sent]
      dsimp only
      rw [unchanged]
      refine ⟨?_, rfl⟩
      by_cases same : pack.cmd = cmd
      · refine Or.inr ⟨fun admits => ?_, same, rfl⟩
        obtain ⟨channel', there, accepts⟩ := admits same
        rw [← same, At, found] at there
        cases there
        exact refused accepts
      · exact Or.inl ⟨fun same' => absurd same' same, by rw [if_neg same, List.append_nil]⟩
    | some result =>
      obtain ⟨taker, next⟩ := result
      have accepts : channel.Accepts := by
        rw [← Rendezvous.trySend_isSome_iff channel pack, sent]
        rfl
      obtain ⟨buffer, receivers⟩ := Rendezvous.trySend_order sent
      have here : s.channelOf pack.cmd = channel := channelOf_of_at found
      obtain ⟨admitted, queued⟩ := serve_order (s := s) pack.cmd next (taker.toList.map fun who => (who, pack))
        (by simp) [pack] [] (by simpa [here, Function.comp_def] using buffer)
        (by simpa [here, Function.comp_def] using receivers) cmd
      dsimp only
      rw [trySend_eq_serve sent]
      refine ⟨Or.inl ⟨fun same => ⟨channel, same ▸ found, accepts⟩, ?_⟩, ?_⟩
      · exact admitted
      · rw [queued, ite_self, List.append_nil]

/-- A call of `wait_request` takes the oldest request, or queues behind the
calls that wait. -/
theorem waitRequest_order (routed : s.Routed fun _ _ => True) (who : Caller) (key cmd : UInt32) :
    (s.waitRequest who key).admitted cmd = s.admitted cmd ∧
      ((s.waitRequest who key).queued cmd).Sublist (s.queued cmd ++ if key = cmd then [who] else []) := by
  rw [waitRequest]
  split
  · exact ⟨rfl, List.sublist_append_left _ _⟩
  · obtain ⟨buffer, receivers⟩ := Rendezvous.receive_order (s.channelOf key) who
    have own : ∀ pack ∈ ((s.channelOf key).receive who).1, pack.cmd = key := by
      intro pack given
      have first : pack ∈ (s.channelOf key).buffer := by
        rw [← buffer, Option.mem_def.mp given]
        exact List.mem_cons_self
      cases found : s.channels.lookup key with
      | none =>
        rw [channelOf, found] at first
        cases first
      | some channel => exact routed.buffered key channel found pack (channelOf_of_at found ▸ first)
    obtain ⟨admitted, queued⟩ := serve_order key ((s.channelOf key).receive who).2
      (((s.channelOf key).receive who).1.toList.map fun pack => (who, pack)) (by simpa using own) [] [who]
      (by simpa [Function.comp_def] using buffer)
      (by simpa [Function.comp_def] using receivers) cmd
    refine ⟨admitted.trans ?_, ?_⟩
    · rw [ite_self, List.append_nil]
    · rw [← queued]
      exact List.Sublist.refl _

theorem leave_order [DecidableEq Caller] {key : UInt32}
    {channel : Rendezvous Packet Caller receivedPacketChannelSize} (found : s.At key channel) (who : Caller)
    (cmd : UInt32) :
    (s.setChannel key (channel.leave who)).admitted cmd = s.admitted cmd ∧
      ((s.setChannel key (channel.leave who)).queued cmd).Sublist (s.queued cmd) := by
  unfold admitted queued
  rw [channelOf_setChannel]
  split
  · rename_i here
    subst here
    rw [channelOf_of_at found]
    exact ⟨rfl, List.erase_sublist.append_left _⟩
  · exact ⟨rfl, List.Sublist.refl _⟩

/-- What a step does to the record of one command: it admits what arrives, in
this order, unless the channel cannot take it, and lets nobody in between those
who wait. Heartbeats go elsewhere. -/
theorem order_of_step [DecidableEq Caller] {a : Action Caller} (routed : s.Routed fun _ _ => True)
    (other : ∀ pack, a = .receive pack → pack.cmd ≠ heartbeatCmd) (taken : s.step a = some t) (cmd : UInt32) :
    (Admits cmd s a ∧ t.admitted cmd = s.admitted cmd ++ arrivals cmd [a] ∨
        ¬Admits cmd s a ∧ arrivals cmd [a] ≠ [] ∧ t.admitted cmd = s.admitted cmd) ∧
      (t.queued cmd).Sublist (s.queued cmd ++ callers cmd [a]) := by
  obtain ⟨_, done⟩ := Option.ite_none_right_eq_some.mp taken
  cases a with
  | receive pack =>
    cases done
    rw [show callers cmd [.receive pack] = ([] : List Caller) from rfl, List.append_nil]
    obtain ⟨admitted, queued⟩ := receive_order (s := s) (other pack rfl) cmd
    have arrived : arrivals cmd [(.receive pack : Action Caller)] = if pack.cmd = cmd then [pack] else [] := by
      unfold arrivals
      split <;> simp_all
    rw [queued, arrived]
    refine ⟨admitted.imp_right fun ⟨refused, same, kept⟩ => ⟨refused, ?_, kept⟩, List.Sublist.refl _⟩
    simp [same]
  | waitRequest who key =>
    cases done
    obtain ⟨admitted, queued⟩ := waitRequest_order routed who key cmd
    have called : callers cmd [.waitRequest who key] = if key = cmd then [who] else [] := by
      unfold callers
      split <;> simp_all
    rw [called, show arrivals cmd [(.waitRequest who key : Action Caller)] = [] from rfl, List.append_nil]
    exact ⟨Or.inl ⟨trivial, admitted⟩, queued⟩
  | leave who key =>
    obtain ⟨channel, found, done⟩ := Option.bind_eq_some_iff.mp done
    obtain ⟨_, same⟩ := Option.ite_none_right_eq_some.mp done
    cases same
    obtain ⟨admitted, queued⟩ := leave_order found who cmd
    rw [show callers cmd [.leave who key] = [] from rfl, List.append_nil]
    exact ⟨Or.inl ⟨trivial, admitted.trans (List.append_nil _).symm⟩, queued⟩
  | stop force =>
    obtain ⟨_, same⟩ := Option.ite_none_left_eq_some.mp done
    cases same
    exact ⟨Or.inl ⟨trivial, (List.append_nil _).symm⟩, List.sublist_append_left _ _⟩
  | runStop =>
    obtain ⟨force, _, same⟩ := Option.bind_eq_some_iff.mp done
    cases same
    obtain ⟨buffer, receivers⟩ := channelOf_cancelAll s cmd
    refine ⟨Or.inl ⟨trivial, ?_⟩, ?_⟩
    · exact (congrArg ((s.takenFor cmd).map Prod.snd ++ ·) buffer).trans (List.append_nil _).symm
    · refine List.Sublist.trans ?_ (List.sublist_append_left _ _)
      refine List.Sublist.append_left ?_ _
      change (s.cancelAll.channelOf cmd).receivers.Sublist _
      rw [receivers]
      exact List.nil_sublist _

/-- A heartbeat touches no channel. -/
theorem heartbeat_order [DecidableEq Caller] {pack : Packet} (heartbeat : pack.cmd = heartbeatCmd)
    (taken : s.step (.receive pack) = some t) (cmd : UInt32) :
    t.admitted cmd = s.admitted cmd ∧ t.queued cmd = s.queued cmd := by
  obtain ⟨_, done⟩ := Option.ite_none_right_eq_some.mp taken
  cases done
  rw [onReceiveRequest, if_pos heartbeat]
  exact ⟨rfl, rfl⟩

/-- Requests and calls keep their order in every step. -/
theorem sublist_of_step [DecidableEq Caller] {a : Action Caller} (routed : s.Routed fun _ _ => True)
    (taken : s.step a = some t) (cmd : UInt32) :
    (t.admitted cmd).Sublist (s.admitted cmd ++ arrivals cmd [a]) ∧
      (t.queued cmd).Sublist (s.queued cmd ++ callers cmd [a]) := by
  by_cases heartbeat : ∃ pack, a = .receive pack ∧ pack.cmd = heartbeatCmd
  · obtain ⟨pack, rfl, heartbeat⟩ := heartbeat
    obtain ⟨admitted, queued⟩ := heartbeat_order heartbeat taken cmd
    rw [admitted, queued]
    exact ⟨List.sublist_append_left _ _, List.sublist_append_left _ _⟩
  · obtain ⟨admitted, queued⟩ :=
      order_of_step routed (fun pack same other => heartbeat ⟨pack, same, other⟩) taken cmd
    refine ⟨?_, queued⟩
    rcases admitted with ⟨_, same⟩ | ⟨_, _, same⟩
    · rw [same]
    · rw [same]
      exact List.sublist_append_left _ _

theorem arrivals_append (labels : List (Action Caller)) (a : Action Caller) :
    arrivals cmd (labels ++ [a]) = arrivals cmd labels ++ arrivals cmd [a] := List.filterMap_append

theorem callers_append (labels : List (Action Caller)) (a : Action Caller) :
    callers cmd (labels ++ [a]) = callers cmd labels ++ callers cmd [a] := List.filterMap_append

theorem free_routed [DecidableEq Caller] {seqGenerator : UInt32} {labels : List (Action Caller)}
    (run : Run step free (start seqGenerator) labels s) : s.Routed fun _ _ => True :=
  run.invariant (start_routed seqGenerator) fun _ a _ routed _ taken =>
    routed.step (a := a) (by cases a <;> trivial) taken

theorem sublist_of_run [DecidableEq Caller] {seqGenerator : UInt32} {labels : List (Action Caller)}
    (run : Run step free (start seqGenerator) labels s) (cmd : UInt32) :
    (s.admitted cmd).Sublist (arrivals cmd labels) ∧ (s.queued cmd).Sublist (callers cmd labels) := by
  induction run with
  | nil => exact ⟨List.Sublist.refl _, List.Sublist.refl _⟩
  | snoc before _ taken ih =>
    obtain ⟨admitted, queued⟩ := sublist_of_step (free_routed before) taken cmd
    rw [arrivals_append, callers_append]
    exact ⟨admitted.trans (ih.1.append (List.Sublist.refl _)), queued.trans (ih.2.append (List.Sublist.refl _))⟩

/-- First in, first out: the requests of a command that have been handed over,
followed by those in its channel, are requests that have arrived, in the order
of their arrival and each once. They are all of them exactly if every one found
its channel with a receiver or with room. -/
theorem admitted_in_order [DecidableEq Caller] {seqGenerator : UInt32} {labels : List (Action Caller)}
    (run : Run step free (start seqGenerator) labels s) (other : cmd ≠ heartbeatCmd) :
    (s.admitted cmd).Sublist (arrivals cmd labels) ∧
      (s.admitted cmd = arrivals cmd labels ↔ Run step (Admits cmd) (start seqGenerator) labels s) := by
  refine ⟨(sublist_of_run run cmd).1, ?_⟩
  induction run with
  | nil => exact ⟨fun _ => .nil, fun _ => rfl⟩
  | @snoc labels s a t before _ taken all =>
    have inOrder := (sublist_of_run before cmd).1
    by_cases heartbeat : ∃ pack, a = .receive pack ∧ pack.cmd = heartbeatCmd
    · obtain ⟨pack, rfl, heartbeat⟩ := heartbeat
      have different : pack.cmd ≠ cmd := fun same => other (same.symm.trans heartbeat)
      have arrived : arrivals cmd [(.receive pack : Action Caller)] = [] := by simp [arrivals, different]
      rw [(heartbeat_order heartbeat taken cmd).1, arrivals_append, arrived, List.append_nil, all]
      refine ⟨fun guarded => .snoc guarded (fun same => absurd same different) taken, fun guarded => ?_⟩
      obtain ⟨_, before', _, _⟩ := guarded.snoc_inv
      cases before'.unique before
      exact before'
    · rw [arrivals_append]
      rcases (order_of_step (free_routed before) (fun pack same other => heartbeat ⟨pack, same, other⟩) taken cmd).1 with
        ⟨admits, admitted⟩ | ⟨refused, some, admitted⟩
      · rw [admitted]
        refine ⟨fun same => .snoc (all.mp (List.append_cancel_right same)) admits taken, fun guarded => ?_⟩
        obtain ⟨_, before', _, _⟩ := guarded.snoc_inv
        cases before'.unique before
        rw [all.mpr before']
      · rw [admitted]
        refine ⟨fun same => ?_, fun guarded => ?_⟩
        -- a request that has been refused is missed for good
        · have shorter := inOrder.length_le
          rw [same, List.length_append] at shorter
          exact absurd (List.length_eq_zero_iff.mp (by omega)) some
        · obtain ⟨_, before', admits, _⟩ := guarded.snoc_inv
          cases before'.unique before
          exact absurd admits refused

/-- A call that waits for the first of three requests, and one for the second. -/
def overtaken : List (Action Nat) :=
  [.waitRequest 7 1, .receive ping, .receive { ping with seq := 2 }, .receive { ping with seq := 3 }, .waitRequest 8 1]

theorem overtaken_runs : ∃ s, exec step free (start 0) overtaken = some s :=
  Option.isSome_iff_exists.mp (by decide +kernel)

theorem admitted_in_order_overtaken :
    ∃ s, Run step free (start 0) overtaken s ∧ (s.admitted 1).Sublist (arrivals 1 overtaken) ∧
      (s.admitted 1 = arrivals 1 overtaken ↔ Run step (Admits 1) (start 0) overtaken s) := by
  obtain ⟨s, done⟩ := overtaken_runs
  exact ⟨s, exec_run done, admitted_in_order (exec_run done) (by decide)⟩

/-- No call of `wait_request` is served twice or out of its turn: those that
have got a request of the command, by the order in which they got it, and then
those that still wait have called in this order. -/
theorem queued_in_order [DecidableEq Caller] {seqGenerator : UInt32} {labels : List (Action Caller)}
    (run : Run step free (start seqGenerator) labels s) (cmd : UInt32) : (s.queued cmd).Sublist (callers cmd labels) :=
  (sublist_of_run run cmd).2

theorem queued_in_order_overtaken :
    ∃ s, Run step free (start 0) overtaken s ∧ (s.queued 1).Sublist (callers 1 overtaken) := by
  obtain ⟨s, done⟩ := overtaken_runs
  exact ⟨s, exec_run done, queued_in_order (exec_run done) 1⟩

end ServerRequests
end Asyncmsg
