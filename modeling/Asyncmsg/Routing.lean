import Asyncmsg.Requests
import Asyncmsg.RoundTrip

namespace Asyncmsg
open Transition

namespace Sender
variable {s t : Sender} {a : Action}

/-- A response changes no call but the one that waits on the channel under its key. -/
theorem lookUp_other {pack : Packet} {i : Nat} (other : s.owner pack.id ≠ some i) :
    (s.lookUp pack).calls[i]? = s.calls[i]? := by
  rcases s.lookUp_cases pack with same | ⟨channel, _, entry, _, _, same⟩ | ⟨_, _, same⟩ <;> rw [same]
  · rw [getElem?_setPhase, if_neg]
    exact fun owns => other (by rw [owner, entry, ← owns]; rfl)
  · rfl

theorem lookUp_pending {pack : Packet} {i : Nat} {call : Call} (owns : s.owner pack.id = some i)
    (found : s.calls[i]? = some call) (pending : call.phase = .waiting .pending) :
    s.lookUp pack = s.setPhase i (.waiting (.received pack)) := by
  obtain ⟨channel, entry, rfl⟩ := Option.map_eq_some_iff.mp owns
  simp [lookUp, entry, found, pending]

/-- A response that is looked up when its request is written and neither
answered nor given up is what the call returns, whatever happens next, if and
only if the call has put its channel into the table by then. -/
theorem response_returned_iff {labels : List Action} (run : Run step free start labels s) {rsp : Packet}
    (taken : s.step (.response rsp) = some t) {i : Nat} {call : Call} (found : s.calls[i]? = some call)
    (key : call.pack.id = rsp.id) (progress : call.phase = .writing [] ∨ call.phase = .waiting .pending) :
    (∀ more u, Run step free t more u → u.Returns i rsp) ↔ s.owner call.pack.id = some i := by
  cases moves_of_step taken
  rw [key]
  constructor
  · intro always
    by_contra other
    have kept : (s.lookUp rsp).calls[i]? = some call := (lookUp_other other).trans found
    rcases always [] _ .nil with ⟨later, found', returned⟩ | ⟨_, resumed, _⟩
    · cases kept.symm.trans found'
      rcases progress with writing | pending
      · cases writing.symm.trans returned
      · cases pending.symm.trans returned
    · rcases progress with writing | pending
      · simp [step, kept, writing] at resumed
      · simp [step, kept, pending, afterWait] at resumed
  · intro owns more u later
    obtain ⟨_, found', _, _, written⟩ := (run_consistent run).owned _ _ owns
    cases found.symm.trans found'
    have pending : call.phase = .waiting .pending := progress.resolve_left fun writing => by
      rw [writing] at written
      exact written
    have first : (s.lookUp rsp).Answered i rsp := by
      rw [lookUp_pending owns found pending]
      refine ⟨call.setPhase (.waiting (.received rsp)), ?_, Or.inl rfl⟩
      rw [getElem?_setPhase, if_pos rfl, found]
      rfl
    exact (later.invariant first fun _ _ _ answered _ taken => (moves_of_step taken).answered answered).returns

/-- The response to `ping`. -/
def pingRsp : Packet := { ping with rsp := true }

/-- `ping` is written and its channel is in the table. -/
def registered : List Action := [.send .waitRsp ping, .transfer 0 88, .writeDone 0]

theorem response_returned_registered :
    ∃ s t, exec step free start registered = some s ∧ s.step (.response pingRsp) = some t ∧
      ((∀ more u, Run step free t more u → u.Returns 0 pingRsp) ↔ s.owner ping.id = some 0) := by
  have trace : (exec step free start registered).map (fun s =>
      (s.calls.map fun call => (call.pack, call.phase), (s.step (.response pingRsp)).isSome)) =
      some ([(ping, .waiting .pending)], true) := by decide +kernel
  obtain ⟨s, done, view⟩ := Option.map_eq_some_iff.mp trace
  obtain ⟨calls, enabled⟩ := Prod.mk.inj view
  obtain ⟨call, only, same⟩ := List.map_eq_singleton_iff.mp calls
  obtain ⟨pack, pending⟩ := Prod.mk.inj same
  obtain ⟨t, taken⟩ := Option.isSome_iff_exists.mp enabled
  have found : s.calls[0]? = some call := by rw [only]; rfl
  have key : call.pack.id = pingRsp.id := by rw [pack]; rfl
  have iff := response_returned_iff (exec_run done) taken found key (Or.inr pending)
  rw [pack] at iff
  exact ⟨s, t, done, taken, iff⟩

/-- All of `ping` is written, but its call has not been told so yet. -/
def unregistered : List Action := [.send .waitRsp ping, .transfer 0 88]

/-- The response is looked up first: the call registers behind it and times out. -/
theorem response_lost :
    ¬∀ labels s t rsp i call, Run step free start labels s → s.step (.response rsp) = some t →
      s.calls[i]? = some call → call.kind = .waitRsp → rsp.cmd = call.pack.cmd → rsp.seq = call.pack.seq →
      call.phase = .writing [] ∨ call.phase = .waiting .pending →
      ∀ more u, Run step free t more u → u.Returns i rsp := by
  intro claim
  have trace : (exec step free start unregistered).map (fun s =>
      (s.calls.map fun call => (call.kind, call.pack, call.phase),
        (s.step (.response pingRsp)).bind fun t =>
          (exec step free t [.writeDone 0, .timeout 0, .resume 0]).map fun u => u.calls.map Call.phase)) =
      some ([(.waitRsp, ping, .writing [])], some [.threw .timeout]) := by decide +kernel
  obtain ⟨s, done, view⟩ := Option.map_eq_some_iff.mp trace
  obtain ⟨calls, after⟩ := Prod.mk.inj view
  obtain ⟨call, only, same⟩ := List.map_eq_singleton_iff.mp calls
  obtain ⟨kind, rest⟩ := Prod.mk.inj same
  obtain ⟨pack, writing⟩ := Prod.mk.inj rest
  obtain ⟨t, taken, after⟩ := Option.bind_eq_some_iff.mp after
  obtain ⟨u, later, ended⟩ := Option.map_eq_some_iff.mp after
  obtain ⟨last, onlyLast, timedOut⟩ := List.map_eq_singleton_iff.mp ended
  have found : u.calls[0]? = some last := by rw [onlyLast]; rfl
  have wrong := claim _ s t pingRsp 0 call (exec_run done) taken (by rw [only]; rfl) kind (by rw [pack]; rfl)
    (by rw [pack]; rfl) (Or.inl writing) _ u (exec_run later)
  rcases wrong with ⟨other, found', returned⟩ | ⟨_, resumed, _⟩
  · cases found.symm.trans found'
    cases timedOut.symm.trans returned
  · simp [step, found, timedOut] at resumed

/-- The response answers the packet: it carries its command and sequence number. -/
def Matches (rsp pack : Packet) : Prop := rsp.cmd = pack.cmd ∧ rsp.seq = pack.seq

/-- Whatever a call has got is a response to its own packet. -/
def AnswersMatch (s : Sender) : Prop :=
  ∀ call ∈ s.calls, ∀ rsp, call.phase = .waiting (.received rsp) ∨ call.phase = .returned (some rsp) →
    Matches rsp call.pack

/-- No entry of the table is replaced or erased by another call than its own. -/
def EntriesKept (s : Sender) (a : Action) (t : Sender) : Prop :=
  ∀ id i, s.owner id = some i → t.owner id = some i ∨ a = .resume i ∨ a = .destroy

/-- The key tells the waiting calls apart: a call registers under a free key,
and a call that waits under the key of a response is the one it answers. -/
def Keyed (s : Sender) : Action → Prop
  | .writeDone i => ∀ call ∈ s.calls[i]?, call.kind = .waitRsp → s.alive = true → s.owner call.pack.id = none
  | .response rsp => ∀ call ∈ s.calls, call.phase = .waiting .pending → call.pack.id = rsp.id → Matches rsp call.pack
  | _ => True

/-- A call that has been answered but not resumed still has its channel in the table. -/
def AnsweredOwned (s : Sender) : Prop :=
  ∀ (i : Nat) (call : Call) rsp, s.calls[i]? = some call → call.phase = .waiting (.received rsp) → s.alive = true →
    s.owner call.pack.id = some i

/-- What becomes of an entry where the keys tell the calls apart. -/
theorem Moves.entry (moves : Moves s a t) (keyed : s.Keyed a) (answered : s.AnsweredOwned)
    {id : UInt64} {i : Nat} (owns : s.owner id = some i) :
    t.owner id = some i ∨
      (a = .resume i ∧ ∃ call rsp, t.calls[i]? = some call ∧ call.phase = .returned (some rsp)) ∨
      a = .destroy ∧ t.alive = false := by
  rcases moves.owner with same | ⟨j, call, rfl, found, kind, alive, _, table⟩ |
    ⟨j, call, rsp, rfl, found, phase, alive, after, table⟩ | ⟨rfl, dead, _⟩
  · exact Or.inl ((same id).trans owns)
  · refine Or.inl ?_
    rw [table, if_neg, owns]
    rintro rfl
    cases owns.symm.trans (keyed call found kind alive)
  · by_cases key : id = call.pack.id
    · subst key
      cases owns.symm.trans (answered j call rsp found phase alive)
      exact Or.inr (Or.inl ⟨rfl, _, rsp, after, rfl⟩)
    · exact Or.inl (by rw [table, if_neg key, owns])
  · exact Or.inr (Or.inr ⟨rfl, dead⟩)

/-- Where a call that has been answered comes from. -/
theorem Moves.received_origin (moves : Moves s a t) {i : Nat} {later : Call} {rsp : Packet}
    (found : t.calls[i]? = some later) (received : later.phase = .waiting (.received rsp)) :
    ∃ call, s.calls[i]? = some call ∧ call.pack = later.pack ∧
      (call.phase = .waiting (.received rsp) ∨ a = .response rsp ∧ call.phase = .waiting .pending) := by
  rcases moves.found found with ⟨call, before, phase, rfl, steps⟩ | ⟨_, _, queued | writing⟩
  · refine ⟨call, before, rfl, ?_⟩
    cases received
    generalize was : call.phase = phase at steps
    cases steps with
    | refl => exact Or.inl rfl
    | single step =>
      cases step with
      | received response => exact Or.inr ⟨response, rfl⟩
  · cases queued.symm.trans received
  · cases writing.symm.trans received

theorem Moves.answeredOwned (moves : Moves s a t) (keyed : s.Keyed a) (pending : s.PendingOwned)
    (answered : s.AnsweredOwned) : t.AnsweredOwned := by
  intro i later rsp found received alive
  obtain ⟨call, before, pack, phase⟩ := moves.received_origin found received
  have owns : s.owner later.pack.id = some i := by
    rw [← pack]
    rcases phase with received | ⟨_, waiting⟩
    · exact answered i call rsp before received (moves.alive alive)
    · exact (pending i call before waiting).2.2
  rcases moves.entry keyed answered owns with kept | ⟨_, other, rsp', found', returned⟩ | ⟨_, dead⟩
  · exact kept
  · cases found.symm.trans found'
    cases received.symm.trans returned
  · cases dead.symm.trans alive

theorem Moves.entriesKept (moves : Moves s a t) (keyed : s.Keyed a) (answered : s.AnsweredOwned) :
    s.EntriesKept a t := by
  intro id i owns
  rcases moves.entry keyed answered owns with kept | ⟨own, _⟩ | ⟨gone, _⟩
  · exact Or.inl kept
  · exact Or.inr (Or.inl own)
  · exact Or.inr (Or.inr gone)

/-- The call that a response is handed to waits under the key of the response. -/
theorem received_key (owned : s.Owned) {i : Nat} {call later : Call} {rsp : Packet} (found : s.calls[i]? = some call)
    (found' : (s.lookUp rsp).calls[i]? = some later) (changed : later.phase ≠ call.phase) :
    call.pack.id = rsp.id := by
  by_cases owns : s.owner rsp.id = some i
  · obtain ⟨_, there, _, key, _⟩ := owned _ _ owns
    cases found.symm.trans there
    exact key
  · rw [lookUp_other owns, found] at found'
    cases found'
    exact absurd rfl changed

theorem Moves.answersMatch (moves : Moves s a t) (keyed : s.Keyed a) (consistent : s.Consistent)
    (answersMatch : s.AnswersMatch) : t.AnswersMatch := by
  intro later member rsp got
  obtain ⟨i, found⟩ := List.mem_iff_getElem?.mp member
  rcases moves.found found with ⟨call, before, phase, rfl, steps⟩ | ⟨_, _, queued | writing⟩
  · have inside := List.mem_of_getElem? before
    have old := answersMatch call inside
    generalize was : call.phase = first at steps
    cases steps with
    | refl => exact old rsp (was ▸ got)
    | single step =>
      cases step with
      | received response =>
        subst response
        rcases got with same | same
        · cases same
          have key : call.pack.id = rsp.id := by
            cases moves
            exact received_key consistent.owned before found (by simp [was, Call.setPhase])
          exact keyed call inside was key
        · cases same
      | answered =>
        rcases got with same | same
        · cases same
        · cases same
          exact old _ (Or.inl was)
      | _ => rcases got with same | same <;> cases same
  · simp [queued] at got
  · simp [writing] at got

structure Routed (s : Sender) : Prop where
  consistent : s.Consistent
  answeredOwned : s.AnsweredOwned
  answersMatch : s.AnswersMatch

theorem start_routed : start.Routed where
  consistent := start_consistent
  answeredOwned _ _ _ found := by cases found
  answersMatch _ member := by cases member

theorem Moves.routed (moves : Moves s a t) (keyed : s.Keyed a) (routed : s.Routed) : t.Routed where
  consistent := ⟨moves.owned routed.consistent.owned, moves.pendingOwned routed.consistent.pending⟩
  answeredOwned := moves.answeredOwned keyed routed.consistent.pending routed.answeredOwned
  answersMatch := moves.answersMatch keyed routed.consistent routed.answersMatch

/-- A step that keeps the entries and the answers right has met the guard. -/
theorem Moves.keyed (moves : Moves s a t) (consistent : s.Consistent) (kept : s.EntriesKept a t)
    (right : t.AnswersMatch) : s.Keyed a := by
  cases moves with
  | @writeDone i call found done =>
    intro same there kind alive
    cases found.symm.trans there
    by_contra taken
    obtain ⟨j, owns⟩ := Option.ne_none_iff_exists'.mp taken
    have after : s.afterWrite i call = s.register i call.pack.id := by simp [afterWrite, kind, alive]
    rcases kept _ j owns with still | same | same
    · rw [after, owner_register, if_pos rfl] at still
      cases still
      obtain ⟨_, found', _, _, written⟩ := consistent.owned _ _ owns
      cases found.symm.trans found'
      rw [done] at written
      exact written
    · cases same
    · cases same
  | @response rsp =>
    intro call member pending key
    obtain ⟨i, found⟩ := List.mem_iff_getElem?.mp member
    have owns := (consistent.pending i call found pending).2.2
    have after : s.lookUp rsp = s.setPhase i (.waiting (.received rsp)) := lookUp_pending (key ▸ owns) found pending
    refine right (call.setPhase (.waiting (.received rsp))) (List.mem_of_getElem? (i := i) ?_) rsp (Or.inl rfl)
    rw [after, getElem?_setPhase, if_pos rfl, found]
    rfl
  | _ => trivial

/-- Response routing: as long as the keys tell the waiting calls apart, every
call that has a response has one to its own packet, and a further step keeps
this and every other call's entry exactly when it meets the condition too. -/
theorem responses_routed {labels : List Action} (run : Run step Keyed start labels s) :
    s.AnswersMatch ∧ ∀ a t, s.step a = some t → (s.EntriesKept a t ∧ t.AnswersMatch ↔ s.Keyed a) := by
  have routed : s.Routed := run.invariant start_routed fun _ _ _ routed keyed taken =>
    (moves_of_step taken).routed keyed routed
  refine ⟨routed.answersMatch, fun a t taken => ⟨fun ⟨kept, right⟩ => ?_, fun keyed => ⟨?_, ?_⟩⟩⟩
  · exact (moves_of_step taken).keyed routed.consistent kept right
  · exact (moves_of_step taken).entriesKept keyed routed.answeredOwned
  · exact ((moves_of_step taken).routed keyed routed).answersMatch

instance (rsp pack : Packet) : Decidable (Matches rsp pack) :=
  inferInstanceAs (Decidable (rsp.cmd = pack.cmd ∧ rsp.seq = pack.seq))

/-- Calls that wait for a response carry pairwise distinct pairs of a command
and a sequence number. -/
def DistinctPairs (s : Sender) : Action → Prop
  | .send kind pack => kind = .waitRsp →
      pack.seq ≠ 0 ∧ ∀ call ∈ s.calls, call.kind = .waitRsp → ¬Matches pack call.pack
  | _ => True

instance (s : Sender) (a : Action) : Decidable (s.DistinctPairs a) :=
  match a with
  | .send kind pack => inferInstanceAs (Decidable (kind = .waitRsp →
      pack.seq ≠ 0 ∧ ∀ call ∈ s.calls, call.kind = .waitRsp → ¬Matches pack call.pack))
  | .transfer _ _ | .runDetached _ | .failWrite _ | .writeDone _ | .response _ | .timeout _ | .cancel _ | .resume _
  | .destroy => inferInstanceAs (Decidable True)

instance (s : Sender) (a : Action) : Decidable (s.Keyed a) :=
  match a with
  | .writeDone i => inferInstanceAs (Decidable (∀ call ∈ s.calls[i]?, call.kind = .waitRsp → s.alive = true →
      s.owner call.pack.id = none))
  | .response rsp => inferInstanceAs (Decidable (∀ call ∈ s.calls, call.phase = .waiting .pending →
      call.pack.id = rsp.id → Matches rsp call.pack))
  | .transfer _ _ | .runDetached _ | .failWrite _ | .send _ _ | .timeout _ | .cancel _ | .resume _
  | .destroy => inferInstanceAs (Decidable True)

/-- Two requests with one key: 3 * 2^31 + 5. -/
def odd : Packet := ⟨3, 5, false, 0, [0x61], .empty⟩
def even : Packet := ⟨2, 0x80000005, false, 0, [0x61], .empty⟩

/-- Two calls that are answered in reverse order. -/
def reversed : List Action :=
  [.send .waitRsp odd, .send .waitRsp ping, .transfer 0 87, .transfer 1 88, .writeDone 1, .writeDone 0,
    .response { odd with rsp := true }, .response pingRsp, .resume 0]

theorem responses_routed_reversed :
    ∃ s, exec step Keyed start reversed = some s ∧
      s.AnswersMatch ∧ ∀ a t, s.step a = some t → (s.EntriesKept a t ∧ t.AnswersMatch ↔ s.Keyed a) := by
  have trace : (exec step Keyed start reversed).isSome := by decide +kernel
  obtain ⟨s, done⟩ := Option.isSome_iff_exists.mp trace
  exact ⟨s, done, responses_routed (exec_run done)⟩

/-- Both requests are written and registered, then the first is answered. -/
def collision : List Action :=
  [.send .waitRsp odd, .transfer 0 87, .writeDone 0, .send .waitRsp even, .transfer 1 87, .writeDone 1,
    .response { odd with rsp := true }, .resume 1]

/-- The second call takes the first one's entry and returns its response. -/
theorem responses_misrouted :
    ¬∀ labels s, Run step DistinctPairs start labels s →
      s.AnswersMatch ∧ ∀ a t, s.DistinctPairs a → s.step a = some t → s.EntriesKept a t := by
  intro claim
  have trace : (exec step DistinctPairs start collision).map (fun s =>
      s.calls.map fun call => (call.pack, call.phase)) =
      some [(odd, .waiting .cancelled), (even, .returned (some { odd with rsp := true }))] := by decide +kernel
  obtain ⟨s, done, calls⟩ := Option.map_eq_some_iff.mp trace
  obtain ⟨call, member, same⟩ := List.mem_map.mp (calls ▸ List.mem_cons_of_mem _ (List.mem_singleton_self _))
  obtain ⟨pack, returned⟩ := Prod.mk.inj same
  have wrong := ((claim _ s (exec_run done)).1 call member _ (Or.inr returned)).1
  rw [pack] at wrong
  exact absurd wrong (by decide)

/-- As `DistinctPairs`, with sequence numbers below 2^31 wherever keys are compared. -/
def SmallPairs (s : Sender) : Action → Prop
  | .send kind pack => kind = .waitRsp →
      pack.seq.toNat < 2 ^ 31 ∧ ∀ call ∈ s.calls, call.kind = .waitRsp → ¬Matches pack call.pack
  | .response rsp => rsp.seq.toNat < 2 ^ 31
  | _ => True

/-- The waiting calls carry small sequence numbers and distinct pairs. -/
structure Distinct (s : Sender) : Prop where
  consistent : s.Consistent
  small : ∀ call ∈ s.calls, call.kind = .waitRsp → call.pack.seq.toNat < 2 ^ 31
  pairs : ∀ (i j : Nat) (first second : Call), s.calls[i]? = some first → s.calls[j]? = some second →
    first.kind = .waitRsp → second.kind = .waitRsp → Matches first.pack second.pack → i = j

theorem Moves.distinct (moves : Moves s a t) (guard : s.SmallPairs a) (distinct : s.Distinct) : t.Distinct where
  consistent := ⟨moves.owned distinct.consistent.owned, moves.pendingOwned distinct.consistent.pending⟩
  small later member kind := by
    obtain ⟨i, found⟩ := List.mem_iff_getElem?.mp member
    rcases moves.found found with ⟨call, before, advances⟩ | ⟨rfl, _⟩
    · rw [advances.same.2]
      exact distinct.small call (List.mem_of_getElem? before) (advances.same.1 ▸ kind)
    · exact (guard kind).1
  pairs := moves.apart (fun _ _ same => ⟨same.1.symm, same.2.symm⟩)
    (fun pack send => by
      subst send
      exact (guard rfl).2) distinct.pairs

theorem Distinct.keyed (distinct : s.Distinct) (guard : s.SmallPairs a) (moves : Moves s a t) : s.Keyed a := by
  cases moves with
  | @writeDone i call found done =>
    intro same there kind _
    cases found.symm.trans there
    by_contra taken
    obtain ⟨j, owns⟩ := Option.ne_none_iff_exists'.mp taken
    obtain ⟨other, found', kind', key, written⟩ := distinct.consistent.owned _ _ owns
    have pair := packetId_injective_of_lt (distinct.small other (List.mem_of_getElem? found') kind')
      (distinct.small call (List.mem_of_getElem? found) kind) key
    cases distinct.pairs _ _ _ _ found' found kind' kind pair
    cases found.symm.trans found'
    rw [done] at written
    exact written
  | @response rsp =>
    intro call member pending key
    obtain ⟨i, found⟩ := List.mem_iff_getElem?.mp member
    have kind := (distinct.consistent.pending i call found pending).2.1
    obtain ⟨cmd, seq⟩ := packetId_injective_of_lt (distinct.small call member kind) guard key
    exact ⟨cmd.symm, seq.symm⟩
  | _ => trivial

theorem start_distinct : start.Distinct where
  consistent := start_consistent
  small _ member := by cases member
  pairs _ _ _ _ found := by cases found

/-- Below 2^31 the keys tell the calls apart: there the routing is right on every run. -/
theorem run_keyed_of_small {labels : List Action} (run : Run step SmallPairs start labels s) :
    Run step Keyed start labels s :=
  run.weaken start_distinct (fun _ _ _ distinct guard taken => (moves_of_step taken).distinct guard distinct)
    fun _ _ _ distinct guard taken => distinct.keyed guard (moves_of_step taken)

end Sender
end Asyncmsg
