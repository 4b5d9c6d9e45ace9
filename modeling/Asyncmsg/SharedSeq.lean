import Asyncmsg.Library.Transition
import Asyncmsg.Packet

namespace Asyncmsg
open Transition

/-- What a call of `next_seq` has to do next. -/
inductive NextSeq
  | reset
  | increment
  | returned
  deriving DecidableEq

/-- The generator that all threads share, with the calls of `next_seq` that have
begun, and the numbers that they have returned in the order of their increments. -/
structure SharedSeq where
  seqGenerator : UInt32
  calls : List NextSeq
  returned : List (Nat × UInt32)

namespace SharedSeq

def start (seqGenerator : UInt32) : SharedSeq := ⟨seqGenerator, [], []⟩

/-- The atomic operations of `next_seq`. A call begins with its comparison load. -/
inductive Action
  | load
  | store (i : Nat)
  | increment (i : Nat)

def step (s : SharedSeq) : Action → Option SharedSeq
  | .load => some { s with calls := s.calls ++ [if s.seqGenerator = 0xffffffff then .reset else .increment] }
  | .store i =>
    if s.calls[i]? = some .reset then some { s with seqGenerator := 0, calls := s.calls.set i .increment } else none
  | .increment i =>
    if s.calls[i]? = some .increment then
      some ⟨s.seqGenerator + 1, s.calls.set i .returned, s.returned ++ [(i, s.seqGenerator + 1)]⟩
    else none

variable {s t : SharedSeq} {a : Action} {first : UInt32} {labels : List Action}

/-- No call has returned zero, and two calls have returned the same number only
if so many others have made their increments between theirs. -/
structure Sound (s : SharedSeq) : Prop where
  nonzero : ∀ i seq, (i, seq) ∈ s.returned → seq ≠ 0
  apart : ∀ before i seq between j after, s.returned = before ++ (i, seq) :: between ++ (j, seq) :: after →
    2 ^ 32 - 2 ≤ between.length

/-- A reset finds the generator still at its largest value, or just reset by
another call, and an increment does not find it at its largest value. -/
def Timely (s : SharedSeq) : Action → Prop
  | .load => True
  | .store _ => s.seqGenerator = 0xffffffff ∨ s.seqGenerator = 0
  | .increment _ => s.seqGenerator ≠ 0xffffffff

instance (s : SharedSeq) : (a : Action) → Decidable (s.Timely a)
  | .load => inferInstanceAs (Decidable True)
  | .store _ => inferInstanceAs (Decidable (_ ∨ _))
  | .increment _ => inferInstanceAs (Decidable (_ ≠ _))

inductive Moves (s : SharedSeq) : Action → SharedSeq → Prop
  | load : Moves s .load { s with calls := s.calls ++ [if s.seqGenerator = 0xffffffff then .reset else .increment] }
  | store {i : Nat} : s.calls[i]? = some .reset →
      Moves s (.store i) { s with seqGenerator := 0, calls := s.calls.set i .increment }
  | increment {i : Nat} : s.calls[i]? = some .increment →
      Moves s (.increment i) ⟨s.seqGenerator + 1, s.calls.set i .returned, s.returned ++ [(i, s.seqGenerator + 1)]⟩

theorem moves_of_step (taken : s.step a = some t) : s.Moves a t := by
  cases a with
  | load =>
    cases taken
    exact .load
  | store i =>
    obtain ⟨found, done⟩ := Option.ite_none_right_eq_some.mp taken
    cases done
    exact .store found
  | increment i =>
    obtain ⟨found, done⟩ := Option.ite_none_right_eq_some.mp taken
    cases done
    exact .increment found

theorem reset_mem_set {i : Nat} {phase : NextSeq} (other : phase ≠ .reset) (member : .reset ∈ s.calls.set i phase) :
    .reset ∈ s.calls :=
  (List.mem_or_eq_of_mem_set member).resolve_right fun same => other same.symm

theorem reset_mem_load (member : .reset ∈ s.calls ++ [if s.seqGenerator = 0xffffffff then .reset else .increment]) :
    .reset ∈ s.calls ∨ s.seqGenerator = 0xffffffff := by
  rw [List.mem_append, List.mem_singleton] at member
  refine member.imp_right fun fresh => ?_
  by_contra below
  rw [if_neg below] at fresh
  cases fresh

/-- Every call that has returned has returned once. -/
structure Logged (s : SharedSeq) : Prop where
  once : (s.returned.map Prod.fst).Nodup
  returned : ∀ i, i ∈ s.returned.map Prod.fst ↔ s.calls[i]? = some .returned

theorem Logged.step (logged : s.Logged) (taken : s.step a = some t) : t.Logged := by
  cases moves_of_step taken with
  | load =>
    refine ⟨logged.once, fun i => (logged.returned i).trans ?_⟩
    rw [List.getElem?_append]
    split
    · rfl
    · rename_i beyond
      rw [List.getElem?_eq_none (not_lt.mp beyond)]
      refine iff_of_false (by rintro ⟨⟩) fun found => ?_
      have phase := List.mem_singleton.mp (List.mem_of_getElem? found)
      split at phase <;> cases phase
  | @store i found =>
    refine ⟨logged.once, fun j => (logged.returned j).trans ?_⟩
    by_cases same : i = j
    · subst same
      rw [found, List.getElem?_set_self (List.getElem?_eq_some_iff.mp found).1]
      exact iff_of_false (by rintro ⟨⟩) (by rintro ⟨⟩)
    · rw [List.getElem?_set_ne same]
  | @increment i found =>
    have fresh : i ∉ s.returned.map Prod.fst := fun member => by
      cases found.symm.trans ((logged.returned i).mp member)
    refine ⟨?_, fun j => ?_⟩
    · rw [List.map_append, List.map_singleton, ← List.concat_eq_append]
      exact logged.once.concat fresh
    · rw [List.map_append, List.mem_append, List.map_singleton, List.mem_singleton, logged.returned]
      by_cases same : i = j
      · subst same
        exact iff_of_true (Or.inr rfl) (List.getElem?_set_self (List.getElem?_eq_some_iff.mp found).1)
      · rw [List.getElem?_set_ne same]
        exact or_iff_left (Ne.symm same)

theorem run_logged {guard : SharedSeq → Action → Prop} (run : Run SharedSeq.step guard (start first) labels s) :
    s.Logged :=
  run.invariant ⟨List.nodup_nil, fun i => by simp [start]⟩ fun _ _ _ logged _ taken => logged.step taken

theorem nextSeq_of_ne (below : s.seqGenerator ≠ 0xffffffff) : nextSeq s.seqGenerator = s.seqGenerator + 1 := by
  rw [nextSeq, if_neg below]

theorem toNat_increment (below : s.seqGenerator ≠ 0xffffffff) :
    (s.seqGenerator + 1).toNat = s.seqGenerator.toNat + 1 := by
  rw [← nextSeq_of_ne below, toNat_nextSeq, Nat.mod_eq_of_lt (toNat_lt_of_ne below)]

theorem increment_last (seqGenerator : UInt32) (calls : List NextSeq) (returned : List (Nat × UInt32)) :
    SharedSeq.step ⟨seqGenerator, calls ++ [.increment], returned⟩ (.increment calls.length) =
      some ⟨seqGenerator + 1, calls ++ [.returned], returned ++ [(calls.length, seqGenerator + 1)]⟩ := by
  simp [SharedSeq.step]

/-- A call that nobody disturbs does what `build_req_packet` does by itself. -/
theorem undisturbed (s : SharedSeq) (cmd : UInt32) (body : Ibuffer) (deviceId : List UInt8) :
    ∃ labels t, Run SharedSeq.step Timely s labels t ∧
      t.seqGenerator = (buildReqPacket s.seqGenerator cmd body deviceId).2 ∧
      t.returned = s.returned ++ [(s.calls.length, (buildReqPacket s.seqGenerator cmd body deviceId).1.seq)] := by
  have built : (buildReqPacket s.seqGenerator cmd body deviceId).1.seq = nextSeq s.seqGenerator ∧
    (buildReqPacket s.seqGenerator cmd body deviceId).2 = nextSeq s.seqGenerator := ⟨rfl, rfl⟩
  rw [built.1, built.2]
  by_cases top : s.seqGenerator = 0xffffffff
  · have loaded : s.step .load = some ⟨s.seqGenerator, s.calls ++ [.reset], s.returned⟩ := by
      rw [SharedSeq.step, if_pos top]
    have stored : SharedSeq.step ⟨s.seqGenerator, s.calls ++ [.reset], s.returned⟩ (.store s.calls.length) =
        some ⟨0, s.calls ++ [.increment], s.returned⟩ := by simp [SharedSeq.step]
    have run : Run SharedSeq.step Timely s [.load, .store s.calls.length, .increment s.calls.length]
        ⟨0 + 1, s.calls ++ [.returned], s.returned ++ [(s.calls.length, 0 + 1)]⟩ := by
      refine .cons trivial loaded (.cons ?_ stored (.single ?_ (increment_last ..)))
      · exact Or.inl top
      · exact (by decide : (0 : UInt32) ≠ 0xffffffff)
    have next : nextSeq s.seqGenerator = 0 + 1 := by rw [nextSeq, if_pos top]
    rw [next]
    exact ⟨_, _, run, rfl, rfl⟩
  · have loaded : s.step .load = some ⟨s.seqGenerator, s.calls ++ [.increment], s.returned⟩ := by
      rw [SharedSeq.step, if_neg top]
    have run : Run SharedSeq.step Timely s [.load, .increment s.calls.length]
        ⟨s.seqGenerator + 1, s.calls ++ [.returned], s.returned ++ [(s.calls.length, s.seqGenerator + 1)]⟩ := by
      refine .cons trivial loaded (.single ?_ (increment_last ..))
      exact top
    rw [nextSeq_of_ne top]
    exact ⟨_, _, run, rfl, rfl⟩

/-- The calls return what they would return one after the other, in the order of
their increments. -/
structure Numbered (first : UInt32) (s : SharedSeq) : Prop where
  upcoming : nextSeq s.seqGenerator = nextSeq^[s.returned.length + 1] first
  numbers : s.returned.map Prod.snd = (List.range s.returned.length).map fun k => nextSeq^[k + 1] first
  resets : .reset ∈ s.calls → s.seqGenerator = 0xffffffff ∨ s.seqGenerator.toNat ≤ s.returned.length

theorem start_numbered : (start first).Numbered first where
  upcoming := rfl
  numbers := rfl
  resets member := by cases member

theorem Numbered.step (numbered : s.Numbered first) (timely : s.Timely a) (taken : s.step a = some t) :
    t.Numbered first := by
  cases moves_of_step taken with
  | load =>
    exact ⟨numbered.upcoming, numbered.numbers, fun member => (reset_mem_load member).elim numbered.resets Or.inl⟩
  | store found =>
    refine ⟨?_, numbered.numbers, fun _ => Or.inr (Nat.zero_le _)⟩
    rw [← numbered.upcoming]
    rcases timely with top | zero
    · rw [top]
      rfl
    · rw [zero]
  | @increment i found =>
    have drawn : s.seqGenerator + 1 = nextSeq^[s.returned.length + 1] first :=
      (nextSeq_of_ne timely).symm.trans numbered.upcoming
    refine ⟨?_, ?_, fun member => ?_⟩
    · rw [List.length_append, List.length_singleton, Function.iterate_succ_apply', drawn]
    · rw [List.map_append, numbered.numbers, List.length_append, List.length_singleton, List.range_succ,
        List.map_append, List.map_singleton, List.map_singleton, drawn]
    · have within := (numbered.resets (reset_mem_set (by rintro ⟨⟩) member)).resolve_left timely
      right
      rw [toNat_increment timely, List.length_append, List.length_singleton]
      exact Nat.succ_le_succ within

theorem run_numbered (run : Run SharedSeq.step Timely (start first) labels s) : s.Numbered first :=
  run.invariant start_numbered fun _ _ _ numbered timely taken => numbered.step timely taken

theorem Numbered.getElem? (numbered : s.Numbered first) {k i : Nat} {seq : UInt32}
    (found : s.returned[k]? = some (i, seq)) : seq = nextSeq^[k + 1] first := by
  have inside := (List.getElem?_eq_some_iff.mp found).1
  have there : (s.returned.map Prod.snd)[k]? = some seq := by rw [List.getElem?_map, found, Option.map_some]
  rw [numbered.numbers, List.getElem?_map, List.getElem?_range inside] at there
  exact (Option.some.inj there).symm

theorem Numbered.sound (numbered : s.Numbered first) : s.Sound where
  nonzero i seq member := by
    obtain ⟨k, found⟩ := List.getElem?_of_mem member
    rw [numbered.getElem? found, Function.iterate_succ_apply']
    exact nextSeq_ne_zero _
  apart before i seq between j after split := by
    have here : s.returned[before.length]? = some (i, seq) := by simp [split]
    have there : s.returned[before.length + (between.length + 1)]? = some (j, seq) := by simp [split]
    have same := congrArg UInt32.toNat ((numbered.getElem? here).symm.trans (numbered.getElem? there))
    rw [toNat_iterate_nextSeq, toNat_iterate_nextSeq] at same
    omega

/-- A stale reset sends the generator back behind numbers that it has just given. -/
theorem Numbered.exists_first (numbered : s.Numbered first) (below : s.seqGenerator ≠ 0xffffffff)
    (positive : s.seqGenerator ≠ 0) (within : s.seqGenerator.toNat ≤ s.returned.length) :
    ∃ before i between, s.returned = before ++ (i, 1) :: between ∧ between.length < 2 ^ 32 - 2 := by
  have bound := toNat_lt_of_ne below
  have zero : s.seqGenerator.toNat ≠ 0 := fun same => positive (UInt32.toNat_inj.mp same)
  have upcoming := congrArg UInt32.toNat numbered.upcoming
  rw [toNat_nextSeq, toNat_iterate_nextSeq] at upcoming
  obtain ⟨k, back⟩ : ∃ k, k + s.seqGenerator.toNat = s.returned.length := ⟨_, Nat.sub_add_cancel within⟩
  have inside : k < s.returned.length := by omega
  have number : s.returned[k].2 = nextSeq^[k + 1] first := numbered.getElem? (List.getElem?_eq_getElem inside)
  have one : s.returned[k].2 = 1 := by
    rw [number, ← UInt32.toNat_inj, toNat_iterate_nextSeq, UInt32.toNat_one]
    omega
  refine ⟨s.returned.take k, s.returned[k].1, s.returned.drop (k + 1), ?_, ?_⟩
  · rw [← one, List.getElem_cons_drop, List.take_append_drop]
  · rw [List.length_drop]
    omega

/-- A step that is not timely returns zero, or it is a reset, and the call that has
made it goes on to return a number that has been returned not long ago. -/
theorem Numbered.exists_unsound (numbered : s.Numbered first) (taken : s.step a = some t) (late : ¬s.Timely a) :
    ¬t.Sound ∨ ∃ i u, a = .store i ∧ t.step (.increment i) = some u ∧ ¬u.Sound := by
  cases moves_of_step taken with
  | load => exact absurd trivial late
  | @store i found =>
    obtain ⟨below, positive⟩ := not_or.mp late
    have within := (numbered.resets (List.mem_of_getElem? found)).resolve_left below
    obtain ⟨before, j, between, split, near⟩ := numbered.exists_first below positive within
    have inside := (List.getElem?_eq_some_iff.mp found).1
    have again : (s.calls.set i .increment)[i]? = some .increment := List.getElem?_set_self inside
    refine Or.inr ⟨i, _, rfl, if_pos again, fun sound => ?_⟩
    have repeated : s.returned ++ [(i, 1)] = before ++ (j, 1) :: between ++ (i, 1) :: [] := by rw [split]
    exact absurd (sound.apart before j 1 between i [] repeated) (not_le.mpr near)
  | @increment i found =>
    have wrapped : s.seqGenerator + 1 = 0 := by
      rw [not_not.mp late]
      rfl
    refine Or.inl fun sound => ?_
    exact sound.nonzero i _ (List.mem_append_right _ List.mem_cons_self) wrapped

/-- In every run whose steps are all timely the numbers returned are not zero and
far enough apart; a step that is not timely ends this, at the latest with the
increment of the call that has made it. -/
theorem sound_of_timely (run : Run SharedSeq.step Timely (start first) labels s) :
    s.Sound ∧ ∀ a t, s.step a = some t → ¬s.Timely a →
      ¬t.Sound ∨ ∃ i u, a = .store i ∧ t.step (.increment i) = some u ∧ ¬u.Sound :=
  have numbered := run_numbered run
  ⟨numbered.sound, fun _ _ taken late => numbered.exists_unsound taken late⟩

/-- As long as the generator has not gone round every step is timely. -/
structure Unwrapped (first : UInt32) (s : SharedSeq) : Prop where
  generator : s.seqGenerator.toNat = first.toNat + s.returned.length ∨
    s.seqGenerator = 0 ∧ first.toNat + s.returned.length = 4294967295
  resets : .reset ∈ s.calls → first.toNat + s.returned.length = 4294967295

theorem Unwrapped.step (unwrapped : s.Unwrapped first) (taken : s.step a = some t)
    (few : first.toNat + t.returned.length ≤ 4294967295) : s.Timely a ∧ t.Unwrapped first := by
  have whole : s.seqGenerator = 0xffffffff → first.toNat + s.returned.length = 4294967295 := fun top => by
    rcases unwrapped.generator with exact | ⟨zero, _⟩
    · rw [← exact, top]
      rfl
    · rw [zero] at top
      cases top
  cases moves_of_step taken with
  | load => exact ⟨trivial, unwrapped.generator, fun member => (reset_mem_load member).elim unwrapped.resets whole⟩
  | store found =>
    have full := unwrapped.resets (List.mem_of_getElem? found)
    refine ⟨?_, Or.inr ⟨rfl, full⟩, fun _ => full⟩
    rcases unwrapped.generator with exact | ⟨zero, _⟩
    · exact Or.inl (UInt32.toNat_inj.mp (exact.trans full))
    · exact Or.inr zero
  | increment found =>
    rw [List.length_append, List.length_singleton] at few
    have below : s.seqGenerator ≠ 0xffffffff := fun top => by
      have full := whole top
      omega
    have exact := unwrapped.generator.resolve_right fun wrapped => by omega
    refine ⟨below, Or.inl ?_, fun member => ?_⟩
    · rw [toNat_increment below, exact, List.length_append, List.length_singleton, Nat.add_assoc]
    · have full := unwrapped.resets (reset_mem_set (by rintro ⟨⟩) member)
      omega

theorem timely_of_few (run : Run SharedSeq.step free (start first) labels s)
    (few : first.toNat + s.returned.length ≤ 4294967295) :
    Run SharedSeq.step Timely (start first) labels s ∧ s.Unwrapped first := by
  induction run with
  | nil => exact ⟨.nil, Or.inl rfl, fun member => by cases member⟩
  | @snoc labels s a t before _ taken ih =>
    have grown : s.returned.length ≤ t.returned.length := by
      cases moves_of_step taken with
      | increment => exact (List.length_append ▸ Nat.le_add_right ..)
      | _ => exact le_rfl
    obtain ⟨timely, unwrapped⟩ := ih ((Nat.add_le_add_left grown _).trans few)
    obtain ⟨met, next⟩ := unwrapped.step taken few
    exact ⟨.snoc timely met taken, next⟩

/-- The generator goes round while two calls have found it at its largest value. -/
def goneRound : List Action :=
  [.load, .increment 0, .load, .load, .store 1, .store 2, .increment 1, .increment 2]

theorem sound_of_timely_goneRound :
    ∃ s, exec SharedSeq.step Timely (start 0xfffffffe) goneRound = some s ∧
      s.returned = [(0, 0xffffffff), (1, 1), (2, 2)] ∧ s.Sound := by
  obtain ⟨s, done, returned⟩ : ∃ s, exec SharedSeq.step Timely (start 0xfffffffe) goneRound = some s ∧
    s.returned = [(0, 0xffffffff), (1, 1), (2, 2)] := ⟨_, rfl, rfl⟩
  exact ⟨s, done, returned, (sound_of_timely (exec_run done)).1⟩

/-- Two calls that compare before either increments return zero, and two that
reset one after the other return the same number. -/
theorem stale_comparisons :
    (¬∀ first labels s, Run SharedSeq.step free (start first) labels s → ∀ i seq, (i, seq) ∈ s.returned → seq ≠ 0) ∧
      ¬∀ first labels s, Run SharedSeq.step free (start first) labels s → s.Sound := by
  constructor
  · intro claim
    have done : exec SharedSeq.step free (start 0xfffffffe) [.load, .load, .increment 0, .increment 1] =
        some ⟨0, [.returned, .returned], [(0, 0xffffffff), (1, 0)]⟩ := rfl
    exact claim _ _ _ (exec_run done) 1 0 (by decide) rfl
  · intro claim
    have done : exec SharedSeq.step free (start 0xffffffff)
        [.load, .load, .store 0, .increment 0, .store 1, .increment 1] =
        some ⟨1, [.returned, .returned], [(0, 1), (1, 1)]⟩ := rfl
    exact absurd ((claim _ _ _ (exec_run done)).apart [] 0 1 [] 1 [] rfl) (by decide)

end SharedSeq
end Asyncmsg
