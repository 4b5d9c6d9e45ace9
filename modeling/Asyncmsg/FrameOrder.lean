import Mathlib.Data.List.Permutation
import Asyncmsg.CallProgress
import Asyncmsg.Library.Turns
import Asyncmsg.RoundTrip

namespace Asyncmsg
open Transition Turns

namespace Phase

/-- The bytes of the frame that the socket has taken. -/
def sent (frame : List UInt8) : Phase → List UInt8
  | .queued | .dropped => []
  | .writing rest => frame.take (frame.length - rest.length)
  | _ => frame

/-- Some of the frame is written, but not all of it. -/
def Partway (frame : List UInt8) : Phase → Prop
  | .writing rest => rest ≠ [] ∧ rest.length < frame.length
  | _ => False

/-- What is still to be written is the end of the frame. -/
def Tidy (frame : List UInt8) (phase : Phase) : Prop := ∀ rest, phase = .writing rest → rest <:+ frame

theorem Next.silent {a : Sender.Action} (silent : a.usesSocket = false) {frame : List UInt8} {phase next : Phase}
    (step : Next a frame phase next) :
    next.sent frame = phase.sent frame ∧ (next.Partway frame ↔ phase.Partway frame) := by
  cases step with
  | wrote socket =>
    cases socket
    cases silent
  | failed socket =>
    cases socket
    cases silent
  | _ => simp [Phase.sent, Partway]

theorem Next.tidy {a : Sender.Action} {frame : List UInt8} {phase next : Phase} (step : Next a frame phase next)
    (tidy : phase.Tidy frame) : next.Tidy frame := by
  intro rest writing
  cases step with
  | run =>
    cases writing
    exact List.suffix_refl _
  | wrote =>
    cases writing
    exact (List.drop_suffix _ _).trans (tidy _ rfl)
  | _ => cases writing

end Phase

instance (frame : List UInt8) (phase : Phase) : Decidable (phase.Partway frame) :=
  match phase with
  | .writing rest => inferInstanceAs (Decidable (rest ≠ [] ∧ rest.length < frame.length))
  | .queued | .waiting _ | .returned _ | .threw _ | .dropped => inferInstanceAs (Decidable False)

namespace Call

def sent (call : Call) : List UInt8 := call.phase.sent call.frame

def Partway (call : Call) : Prop := call.phase.Partway call.frame

instance (call : Call) : Decidable call.Partway := inferInstanceAs (Decidable (call.phase.Partway call.frame))

theorem Advances.silent {a : Sender.Action} (silent : a.usesSocket = false) {call later : Call}
    (advances : call.Advances a later) :
    later.sent = call.sent ∧ (later.Partway ↔ call.Partway) :=
  advances.preserves (P := fun frame phase => phase.sent frame = call.sent ∧ (phase.Partway frame ↔ call.Partway))
    (fun _ _ _ step same => ⟨(step.silent silent).1.trans same.1, (step.silent silent).2.trans same.2⟩)
    ⟨rfl, Iff.rfl⟩

end Call

namespace Sender
variable {s t : Sender} {a : Action}

/-- A transfer is taken only while no other call is partway through its frame. -/
def Unsplit (s : Sender) : Action → Prop
  | .transfer i _ => ∀ j call, j ≠ i → s.calls[j]? = some call → ¬call.Partway
  | _ => True

instance (s : Sender) (a : Action) : Decidable (s.Unsplit a) :=
  match a with
  | .transfer i _ => decidable_of_iff (∀ call ∈ s.calls.eraseIdx i, ¬call.Partway) <| by
      simp only [List.mem_eraseIdx_iff_getElem?, Unsplit]
      exact ⟨fun whole j call other found => whole call ⟨j, other, found⟩,
        fun whole call ⟨j, other, found⟩ => whole j call other found⟩
  | .send _ _ | .runDetached _ | .failWrite _ | .writeDone _ | .response _ | .timeout _ | .cancel _ | .resume _
  | .destroy => inferInstanceAs (Decidable True)

def sentBy (s : Sender) (i : Nat) : List UInt8 := (s.calls[i]?).elim [] Call.sent

def PartwayAt (s : Sender) (i : Nat) : Prop := ∃ call, s.calls[i]? = some call ∧ call.Partway

theorem Moves.silent (moves : Moves s a t) (silent : a.usesSocket = false) (i : Nat) :
    t.sentBy i = s.sentBy i ∧ (t.PartwayAt i ↔ s.PartwayAt i) := by
  unfold sentBy PartwayAt
  cases found : t.calls[i]? with
  | none =>
    have before : s.calls[i]? = none := by
      by_contra there
      obtain ⟨call, there⟩ := Option.ne_none_iff_exists'.mp there
      obtain ⟨later, found', _⟩ := moves.advances i call there
      cases found.symm.trans found'
    simp [before]
  | some later =>
    rcases moves.found found with ⟨call, before, advances⟩ | ⟨_, rfl, fresh⟩
    · simp [before, advances.silent silent]
    · rcases fresh with queued | writing
      · simp [Call.sent, Call.Partway, queued, Phase.sent, Phase.Partway]
      · simp [Call.sent, Call.Partway, writing, Phase.sent, Phase.Partway]

/-- What holds as long as no write has failed. -/
structure Orderly (s : Sender) : Prop where
  tidy : ∀ call ∈ s.calls, call.phase.Tidy call.frame
  turns : (∃ call ∈ s.calls, call.phase = .threw .write) ∨ ∃ order, InOrder s.wire s.sentBy s.PartwayAt order

theorem Moves.tidy (moves : Moves s a t) (tidy : ∀ call ∈ s.calls, call.phase.Tidy call.frame) :
    ∀ call ∈ t.calls, call.phase.Tidy call.frame := by
  intro later member
  obtain ⟨j, found⟩ := List.mem_iff_getElem?.mp member
  rcases moves.found found with ⟨call, before, advances⟩ | ⟨_, _, queued | writing⟩
  · exact advances.preserves (fun _ _ _ step => step.tidy) (tidy call (List.mem_of_getElem? before))
  · rw [queued]
    exact fun rest same => by cases same
  · rw [writing]
    exact fun rest same => by cases same; exact List.suffix_refl _

theorem Moves.failed (moves : Moves s a t) (failed : ∃ call ∈ s.calls, call.phase = .threw .write) :
    ∃ call ∈ t.calls, call.phase = .threw .write := by
  obtain ⟨call, member, failed⟩ := failed
  obtain ⟨j, found⟩ := List.mem_iff_getElem?.mp member
  obtain ⟨later, found', advances⟩ := moves.advances j call found
  refine ⟨later, List.mem_of_getElem? found', ?_⟩
  refine advances.preserves (P := fun _ phase => phase = .threw .write) (fun _ _ _ step same => ?_) failed
  subst same
  cases step

theorem sentBy_of_found {i : Nat} {call : Call} (found : s.calls[i]? = some call) : s.sentBy i = call.sent := by
  rw [sentBy, found]
  rfl

/-- Where the phase of one call is set, the others have written what they had. -/
theorem others_setPhase {i j : Nat} (other : j ≠ i) (phase : Phase) :
    (s.setPhase i phase).sentBy j = s.sentBy j ∧ ((s.setPhase i phase).PartwayAt j ↔ s.PartwayAt j) := by
  have same : (s.setPhase i phase).calls[j]? = s.calls[j]? := by
    rw [getElem?_setPhase, if_neg other.symm]
  simp only [sentBy, PartwayAt, same, true_and]

/-- A transfer that splits no frame. -/
theorem transfer_inOrder {order : List Nat} (inOrder : InOrder s.wire s.sentBy s.PartwayAt order) {i n : Nat}
    {call : Call} {rest : List UInt8} (found : s.calls[i]? = some call) (writing : call.phase = .writing rest)
    (tidy : rest <:+ call.frame) (positive : 0 < n) (within : n ≤ rest.length) (unsplit : s.Unsplit (.transfer i n)) :
    ∃ order', InOrder (s.wire ++ rest.take n) (s.setPhase i (.writing (rest.drop n))).sentBy
      (s.setPhase i (.writing (rest.drop n))).PartwayAt order' := by
  obtain ⟨before, whole⟩ := tidy
  have set : (s.setPhase i (.writing (rest.drop n))).calls[i]? = some (call.setPhase (.writing (rest.drop n))) := by
    rw [getElem?_setPhase, if_pos rfl, found]
    rfl
  have was : s.sentBy i = before := by
    rw [sentBy_of_found found, Call.sent, writing, Phase.sent, ← whole, List.length_append, Nat.add_sub_cancel,
      List.take_left]
  have now : (s.setPhase i (.writing (rest.drop n))).sentBy i = before ++ rest.take n := by
    rw [sentBy_of_found set]
    simp only [Call.sent, Call.setPhase, Phase.sent, ← whole, List.length_append, List.length_drop]
    rw [show before.length + rest.length - (rest.length - n) = before.length + n by omega,
      List.take_length_add_append]
  refine inOrder.write (i := i) ?_ ?_ ?_ rfl (now.trans (was ▸ rfl))
    (fun j other => (others_setPhase other _).1) (fun j other => (others_setPhase other _).2)
  · by_cases first : before = []
    · exact Or.inl (was.trans first)
    · refine Or.inr ⟨call, found, ?_⟩
      rw [Call.Partway, writing, Phase.Partway, ← whole, List.length_append, ← List.length_pos_iff]
      have some := List.length_pos_iff.mpr first
      omega
  · rintro j other ⟨call', found', partway⟩
    exact unsplit j call' other found' partway
  · rw [← List.length_pos_iff, List.length_take]
    omega

theorem Moves.orderly (moves : Moves s a t) (unsplit : s.Unsplit a) (orderly : s.Orderly) : t.Orderly := by
  refine ⟨moves.tidy orderly.tidy, ?_⟩
  rcases orderly.turns with failed | ⟨order, inOrder⟩
  · exact Or.inl (moves.failed failed)
  · cases silent : a.usesSocket with
    | false =>
      refine Or.inr ⟨order, ?_⟩
      rw [moves.wire silent]
      exact inOrder.congr (fun i => (moves.silent silent i).1) (fun i => (moves.silent silent i).2)
    | true =>
      cases moves with
      | @transfer i n call rest found writing _ positive within =>
        have tidy := orderly.tidy call (List.mem_of_getElem? found) rest writing
        exact Or.inr (transfer_inOrder inOrder found writing tidy positive within unsplit)
      | @failWrite i call rest found =>
        refine Or.inl ⟨call.setPhase (.threw .write), ?_, rfl⟩
        refine List.mem_of_getElem? (i := i) ?_
        rw [getElem?_setPhase, if_pos rfl, found]
        rfl
      | _ => cases silent

theorem start_orderly : start.Orderly where
  tidy := by simp [start]
  turns := by
    refine Or.inr ⟨[], ?_⟩
    exact InOrder.nil.congr (fun i => rfl) fun i => Iff.rfl

/-- All writes so far have succeeded: none has failed, none is partway. -/
def WritesOver (s : Sender) : Prop := ∀ call ∈ s.calls, call.phase ≠ .threw .write ∧ ¬call.Partway

instance (s : Sender) : Decidable s.WritesOver :=
  inferInstanceAs (Decidable (∀ call ∈ s.calls, call.phase ≠ .threw .write ∧ ¬call.Partway))

/-- The calls that have written anything. -/
def written (s : Sender) : List Call := s.calls.filter fun call => call.sent != []

end Sender

/-- The calls behind a list of indices. -/
theorem filterMap_range_getElem? {α : Type} (xs : List α) : (List.range xs.length).filterMap (xs[·]?) = xs := by
  have indexed : (List.range xs.length).map (xs[·]?) = xs.map some := List.ext_getElem (by simp) fun i _ _ => by simp
  calc (List.range xs.length).filterMap (xs[·]?)
    _ = ((List.range xs.length).map (xs[·]?)).filterMap id := by rw [List.filterMap_map]; rfl
    _ = xs := by rw [indexed, List.filterMap_map]; exact List.filterMap_some

theorem encodeStream_calls (calls : List Call) :
    encodeStream (calls.map Call.pack) = some (calls.map Call.frame).flatten := by
  induction calls with
  | nil => rfl
  | cons call calls ih => simp [encodeStream, call.encoded, ih]

theorem Call.sent_eq_frame {call : Call} (tidy : call.phase.Tidy call.frame) (started : call.sent ≠ [])
    (whole : ¬call.Partway) : call.sent = call.frame := by
  rcases call with ⟨kind, pack, frame, encoded, phase⟩
  cases phase with
  | queued => exact absurd rfl started
  | dropped => exact absurd rfl started
  | writing rest =>
    obtain ⟨before, rfl⟩ := tidy rest rfl
    simp only [Call.sent, Call.Partway, Phase.sent, Phase.Partway, List.length_append, Nat.add_sub_cancel,
      List.take_left] at started whole ⊢
    have some := List.length_pos_iff.mpr started
    have done : rest = [] := by
      by_contra more
      exact whole ⟨more, by omega⟩
    rw [done, List.append_nil]
  | _ => rfl

namespace Sender
variable {s : Sender}

/-- Frame atomicity: as long as no transfer splits a frame, what the socket has
taken when all writes have succeeded is the encoding of the packets written, in
some order. -/
theorem wire_encodes_written {labels : List Action} (run : Run step Unsplit start labels s)
    (ended : s.WritesOver) : ∃ packs, encodeStream packs = some s.wire ∧ packs.Perm (s.written.map Call.pack) := by
  have orderly : s.Orderly := run.invariant start_orderly fun _ _ _ orderly unsplit taken =>
    (moves_of_step taken).orderly unsplit orderly
  obtain ⟨order, inOrder⟩ := orderly.turns.resolve_left fun ⟨call, member, failed⟩ => (ended call member).1 failed
  have ends : ∀ call ∈ s.calls, call.sent ≠ [] → call.sent = call.frame := fun call member started =>
    call.sent_eq_frame (orderly.tidy call member) started (ended call member).2
  have found : order.map s.sentBy = (order.filterMap (s.calls[·]?)).map Call.frame := by
    have started : ∀ i ∈ order, s.sentBy i ≠ [] := fun i => (inOrder.started i).mp
    clear inOrder
    induction order with
    | nil => rfl
    | cons i order ih =>
      obtain ⟨first, rest⟩ := List.forall_mem_cons.mp started
      cases there : s.calls[i]? with
      | none => exact absurd (by rw [sentBy, there]; rfl) first
      | some call =>
        rw [sentBy_of_found there] at first
        rw [List.map_cons, List.filterMap_cons_some there, List.map_cons, ih rest, sentBy_of_found there,
          ends call (List.mem_of_getElem? there) first]
  refine ⟨(order.filterMap (s.calls[·]?)).map Call.pack, ?_, ?_⟩
  · rw [encodeStream_calls, inOrder.wire, found]
  · have inside : ∀ i, s.sentBy i ≠ [] → i ∈ List.range s.calls.length := fun i started => by
      by_contra beyond
      rw [List.mem_range, not_lt, ← List.getElem?_eq_none_iff] at beyond
      exact started (by rw [sentBy, beyond]; rfl)
    have perm := (inOrder.perm List.nodup_range inside).filterMap (s.calls[·]?)
    refine (perm.trans (.of_eq ?_)).map Call.pack
    rw [List.filterMap_filter, written]
    conv_rhs => rw [← filterMap_range_getElem? s.calls, List.filter_filterMap]
    refine List.filterMap_congr fun i _ => ?_
    cases there : s.calls[i]? with
    | none => simp
    | some call => simp [sentBy_of_found there, Option.filter]

/-- A request in two pieces and a response behind it. -/
def turns : List Action :=
  [.send .waitRsp ping, .send .packet pong, .transfer 0 40, .transfer 0 48, .transfer 1 87, .writeDone 1]

theorem wire_encodes_turns :
    ∃ s, exec step Unsplit start turns = some s ∧
      ∃ packs, encodeStream packs = some s.wire ∧ packs.Perm (s.written.map Call.pack) := by
  obtain ⟨s, done, ended⟩ : ∃ s, exec step Unsplit start turns = some s ∧ s.WritesOver := by
    simpa using (Option.any_eq_true (fun s : Sender => decide s.WritesOver) _).mp
      (by decide +kernel : (exec step Unsplit start turns).any _ = true)
  exact ⟨s, done, wire_encodes_written (exec_run done) ended⟩

/-- The response goes out between the pieces of the request. -/
def splitFrame : List Action :=
  [.send .waitRsp ping, .send .packet pong, .transfer 0 40, .transfer 1 87, .transfer 0 48, .writeDone 1]

theorem splitFrame_not_encoded :
    ¬∀ labels s, Run step free start labels s → s.WritesOver →
      ∃ packs, encodeStream packs = some s.wire ∧ packs.Perm (s.written.map Call.pack) := by
  intro claim
  obtain ⟨s, done, ended, split⟩ : ∃ s, exec step free start splitFrame = some s ∧ s.WritesOver ∧
      ∀ packs ∈ (s.written.map Call.pack).permutations', encodeStream packs ≠ some s.wire := by
    simpa using (Option.any_eq_true (fun s : Sender => decide (s.WritesOver ∧
        ∀ packs ∈ (s.written.map Call.pack).permutations', encodeStream packs ≠ some s.wire)) _).mp
      (by decide +kernel : (exec step free start splitFrame).any _ = true)
  obtain ⟨packs, encoded, perm⟩ := claim _ _ (exec_run done) ended
  exact split packs (List.mem_permutations'.mpr perm) encoded

end Sender
end Asyncmsg
