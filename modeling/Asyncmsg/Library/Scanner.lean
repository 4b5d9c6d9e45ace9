import Mathlib.Data.List.Basic
import Mathlib.Tactic.Common

namespace Scanning

/-- What a resynchronising scanner decides about the head of its input:
drop some elements, ask for more input, or cut a complete frame. -/
inductive Verdict
  | skip (count : Nat)
  | wait
  | frame (size : Nat)
  deriving DecidableEq, Repr

/-- A scanner that never revises a decision: once it skips or cuts, longer
input leads to the same verdict. Every non-waiting verdict consumes something. -/
structure Scanner (α : Type*) where
  classify : List α → Verdict
  skip_bound {xs n} : classify xs = .skip n → 0 < n ∧ n ≤ xs.length
  frame_bound {xs n} : classify xs = .frame n → 0 < n ∧ n ≤ xs.length
  stable {xs} (ys) : classify xs ≠ .wait → classify (xs ++ ys) = classify xs

namespace Scanner
variable {α : Type*} (S : Scanner α)

/-- The number of elements dropped before the first frame or the first wait. -/
def seek (xs : List α) : Nat :=
  match _ : S.classify xs with
  | .skip n => n + seek (xs.drop n)
  | .wait => 0
  | .frame _ => 0
termination_by xs.length
decreasing_by
  have bound := S.skip_bound ‹_›
  simp only [List.length_drop]
  omega

/-- All frames of the input, in order. -/
def frames (xs : List α) : List (List α) :=
  match _ : S.classify xs with
  | .skip n => frames (xs.drop n)
  | .wait => []
  | .frame n => xs.take n :: frames (xs.drop n)
termination_by xs.length
decreasing_by
  · have bound := S.skip_bound ‹_›
    simp only [List.length_drop]
    omega
  · have bound := S.frame_bound ‹_›
    simp only [List.length_drop]
    omega

/-- What remains of the input once every frame has been cut. -/
def residue (xs : List α) : List α :=
  match _ : S.classify xs with
  | .skip n => residue (xs.drop n)
  | .wait => xs
  | .frame n => residue (xs.drop n)
termination_by xs.length
decreasing_by
  · have bound := S.skip_bound ‹_›
    simp only [List.length_drop]
    omega
  · have bound := S.frame_bound ‹_›
    simp only [List.length_drop]
    omega

variable {S}

theorem seek_skip {xs : List α} {n : Nat} (verdict : S.classify xs = .skip n) :
    S.seek xs = n + S.seek (xs.drop n) := by
  rw [seek]
  split <;> simp_all

theorem seek_settled {xs : List α} (verdict : ∀ n, S.classify xs ≠ .skip n) : S.seek xs = 0 := by
  rw [seek]
  split <;> simp_all

theorem frames_skip {xs : List α} {n : Nat} (verdict : S.classify xs = .skip n) :
    S.frames xs = S.frames (xs.drop n) := by
  rw [frames]
  split <;> simp_all

theorem frames_wait {xs : List α} (verdict : S.classify xs = .wait) : S.frames xs = [] := by
  rw [frames]
  split <;> simp_all

theorem frames_frame {xs : List α} {n : Nat} (verdict : S.classify xs = .frame n) :
    S.frames xs = xs.take n :: S.frames (xs.drop n) := by
  rw [frames]
  split <;> simp_all

theorem residue_skip {xs : List α} {n : Nat} (verdict : S.classify xs = .skip n) :
    S.residue xs = S.residue (xs.drop n) := by
  rw [residue]
  split <;> simp_all

theorem residue_wait {xs : List α} (verdict : S.classify xs = .wait) : S.residue xs = xs := by
  rw [residue]
  split <;> simp_all

theorem residue_frame {xs : List α} {n : Nat} (verdict : S.classify xs = .frame n) :
    S.residue xs = S.residue (xs.drop n) := by
  rw [residue]
  split <;> simp_all

/-- Induction along the decisions the scanner takes on an input. -/
@[elab_as_elim]
theorem scan_induction {motive : List α → Prop} (xs : List α)
    (skip : ∀ xs n, S.classify xs = .skip n → motive (xs.drop n) → motive xs)
    (wait : ∀ xs, S.classify xs = .wait → motive xs)
    (frame : ∀ xs n, S.classify xs = .frame n → motive (xs.drop n) → motive xs) : motive xs := by
  induction size : xs.length using Nat.strongRecOn generalizing xs with
  | _ size ih =>
    cases verdict : S.classify xs with
    | wait => exact wait xs verdict
    | skip n =>
      have bound := S.skip_bound verdict
      exact skip xs n verdict (ih _ (by simp only [List.length_drop]; omega) _ rfl)
    | frame n =>
      have bound := S.frame_bound verdict
      exact frame xs n verdict (ih _ (by simp only [List.length_drop]; omega) _ rfl)

theorem classify_residue (xs : List α) : S.classify (S.residue xs) = .wait := by
  induction xs using scan_induction (S := S) with
  | skip xs n verdict ih => rwa [residue_skip verdict]
  | wait xs verdict => rwa [residue_wait verdict]
  | frame xs n verdict ih => rwa [residue_frame verdict]

theorem stable_skip {xs : List α} {n : Nat} (verdict : S.classify xs = .skip n) (ys : List α) :
    S.classify (xs ++ ys) = .skip n ∧ (xs ++ ys).drop n = xs.drop n ++ ys := by
  refine ⟨?_, List.drop_append_of_le_length (S.skip_bound verdict).2⟩
  rw [S.stable ys (by simp [verdict]), verdict]

theorem stable_frame {xs : List α} {n : Nat} (verdict : S.classify xs = .frame n) (ys : List α) :
    S.classify (xs ++ ys) = .frame n ∧ (xs ++ ys).take n = xs.take n ∧
      (xs ++ ys).drop n = xs.drop n ++ ys := by
  have within := (S.frame_bound verdict).2
  refine ⟨?_, List.take_append_of_le_length within, List.drop_append_of_le_length within⟩
  rw [S.stable ys (by simp [verdict]), verdict]

/-- Nothing is decided about the beginning of a frame. -/
theorem classify_take {xs : List α} {n k : Nat} (verdict : S.classify xs = .frame n) (short : k < n) :
    S.classify (xs.take k) = .wait := by
  by_contra decided
  have same := S.stable (xs.drop k) decided
  rw [List.take_append_drop, verdict] at same
  have within := (S.frame_bound same.symm).2
  rw [List.length_take] at within
  omega

/-- The frames of a longer input are those already cut, followed by those
the residue yields with the new elements behind it. -/
theorem frames_append (xs ys : List α) :
    S.frames (xs ++ ys) = S.frames xs ++ S.frames (S.residue xs ++ ys) := by
  induction xs using scan_induction (S := S) with
  | skip xs n verdict ih =>
    obtain ⟨same, rest⟩ := stable_skip verdict ys
    rw [frames_skip same, rest, ih, frames_skip verdict, residue_skip verdict]
  | wait xs verdict => rw [frames_wait verdict, residue_wait verdict, List.nil_append]
  | frame xs n verdict ih =>
    obtain ⟨same, head, rest⟩ := stable_frame verdict ys
    rw [frames_frame same, head, rest, ih, frames_frame verdict, residue_frame verdict, List.cons_append]

theorem residue_append (xs ys : List α) : S.residue (xs ++ ys) = S.residue (S.residue xs ++ ys) := by
  induction xs using scan_induction (S := S) with
  | skip xs n verdict ih =>
    obtain ⟨same, rest⟩ := stable_skip verdict ys
    rw [residue_skip same, rest, ih, residue_skip verdict]
  | wait xs verdict => rw [residue_wait verdict]
  | frame xs n verdict ih =>
    obtain ⟨same, _, rest⟩ := stable_frame verdict ys
    rw [residue_frame same, rest, ih, residue_frame verdict]

/-- Seeking stops at a position whose verdict is to wait or to cut a frame. -/
theorem classify_seek (xs : List α) (n : Nat) : S.classify (xs.drop (S.seek xs)) ≠ .skip n := by
  induction xs using scan_induction (S := S) with
  | skip xs k verdict ih => rwa [seek_skip verdict, ← List.drop_drop]
  | wait xs verdict => simp [seek_settled, verdict]
  | frame xs k verdict ih => simp [seek_settled, verdict]

theorem seek_le (xs : List α) : S.seek xs ≤ xs.length := by
  induction xs using scan_induction (S := S) with
  | skip xs n verdict ih =>
    have bound := S.skip_bound verdict
    rw [seek_skip verdict]
    rw [List.length_drop] at ih
    omega
  | wait xs verdict => simp [seek_settled, verdict]
  | frame xs n verdict ih => simp [seek_settled, verdict]

theorem frames_seek (xs : List α) : S.frames (xs.drop (S.seek xs)) = S.frames xs := by
  induction xs using scan_induction (S := S) with
  | skip xs n verdict ih => rw [seek_skip verdict, ← List.drop_drop, ih, frames_skip verdict]
  | wait xs verdict => simp [seek_settled, verdict]
  | frame xs n verdict ih => simp [seek_settled, verdict]

theorem residue_seek (xs : List α) : S.residue (xs.drop (S.seek xs)) = S.residue xs := by
  induction xs using scan_induction (S := S) with
  | skip xs n verdict ih => rw [seek_skip verdict, ← List.drop_drop, ih, residue_skip verdict]
  | wait xs verdict => simp [seek_settled, verdict]
  | frame xs n verdict ih => simp [seek_settled, verdict]

/-- A frame stands in the input where the scanner has cut it. -/
theorem exists_of_mem_frames {xs frame : List α} (member : frame ∈ S.frames xs) :
    ∃ p n, S.classify (xs.drop p) = .frame n ∧ frame = (xs.drop p).take n := by
  induction xs using scan_induction (S := S) with
  | skip xs n verdict ih =>
    rw [frames_skip verdict] at member
    obtain ⟨p, k, cut, same⟩ := ih member
    rw [List.drop_drop] at cut same
    exact ⟨n + p, k, cut, same⟩
  | wait xs verdict =>
    rw [frames_wait verdict] at member
    cases member
  | frame xs n verdict ih =>
    rw [frames_frame verdict] at member
    rcases List.mem_cons.mp member with rfl | later
    · exact ⟨0, n, by simpa using verdict, by simp⟩
    · obtain ⟨p, k, cut, same⟩ := ih later
      rw [List.drop_drop] at cut same
      exact ⟨n + p, k, cut, same⟩

variable (S) in
/-- The positions at which a verdict is asked for, up to the one that settles. -/
inductive Visited (xs : List α) : Nat → Prop
  | start : Visited xs 0
  | skip {p n} : Visited xs p → S.classify (xs.drop p) = .skip n → Visited xs (p + n)

theorem Visited.of_drop {xs : List α} {n p : Nat} (verdict : S.classify xs = .skip n)
    (visited : S.Visited (xs.drop n) p) : S.Visited xs (n + p) := by
  induction visited with
  | start => simpa using Visited.skip .start (by simpa using verdict)
  | skip _ next ih =>
    rw [← Nat.add_assoc]
    exact .skip ih (by rwa [List.drop_drop] at next)

/-- Every position in front of the one that settles has been skipped from a
visited one. -/
theorem exists_visited {xs : List α} {q : Nat} (before : q < S.seek xs) :
    ∃ p n, S.Visited xs p ∧ S.classify (xs.drop p) = .skip n ∧ p ≤ q ∧ q < p + n := by
  induction xs using scan_induction (S := S) generalizing q with
  | skip xs n verdict ih =>
    by_cases first : q < n
    · exact ⟨0, n, .start, by simpa using verdict, Nat.zero_le _, by omega⟩
    · rw [seek_skip verdict] at before
      obtain ⟨p, k, visited, next, lower, upper⟩ := ih (q := q - n) (by omega)
      exact ⟨n + p, k, visited.of_drop verdict, by rwa [List.drop_drop] at next, by omega, by omega⟩
  | wait xs verdict => simp [seek_settled, verdict] at before
  | frame xs n verdict => simp [seek_settled, verdict] at before

end Scanner

section Consumer
variable {σ β : Type*} (f : σ → β → σ × Bool)

/-- Hand items to a consumer until it refuses one; the flag tells whether
it is still willing. -/
def consume (s : σ) : List β → σ × Bool
  | [] => (s, true)
  | b :: bs =>
    match f s b with
    | (t, true) => consume t bs
    | (t, false) => (t, false)

@[simp] theorem consume_nil (s : σ) : consume f s [] = (s, true) := rfl

theorem consume_cons (s : σ) (b : β) (bs : List β) :
    consume f s (b :: bs) = if (f s b).2 then consume f (f s b).1 bs else ((f s b).1, false) := by
  rw [consume]
  split <;> simp_all

theorem consume_append (s : σ) (bs cs : List β) :
    consume f s (bs ++ cs) =
      if (consume f s bs).2 then consume f (consume f s bs).1 cs else ((consume f s bs).1, false) := by
  induction bs generalizing s with
  | nil => simp
  | cons b bs ih =>
    rw [List.cons_append, consume_cons, consume_cons]
    by_cases willing : (f s b).2
    · simp only [willing, if_true]
      exact ih _
    · simp [willing]

variable {f} in
/-- A refusal is the consumer's own answer to one of the items. -/
theorem consume_refused {s t : σ} {bs : List β} (refused : consume f s bs = (t, false)) :
    ∃ r b, f r b = (t, false) := by
  induction bs generalizing s with
  | nil => cases refused
  | cons b bs ih =>
    rcases head : f s b with ⟨next, _ | _⟩
    · rw [consume, head] at refused
      exact ⟨s, b, head.trans refused⟩
    · rw [consume, head] at refused
      exact ih refused

end Consumer

/-- A consumer fed through a scanner: still reading, with the elements no
frame has claimed yet, or closed by a refusal. -/
inductive Session (σ α : Type*)
  | live (state : σ) (pending : List α)
  | closed (state : σ)

namespace Session
variable {σ α : Type*}

/-- One chunk of input: scan it behind the pending elements and hand every
frame to the consumer. A closed session reads nothing. -/
def feed (S : Scanner α) (f : σ → List α → σ × Bool) : Session σ α → List α → Session σ α
  | live s pending, chunk =>
    match consume f s (S.frames (pending ++ chunk)) with
    | (t, true) => live t (S.residue (pending ++ chunk))
    | (t, false) => closed t
  | closed s, _ => closed s

/-- The session that a whole input leads to, read in one piece. -/
def whole (S : Scanner α) (f : σ → List α → σ × Bool) (s : σ) (xs : List α) : Session σ α :=
  match consume f s (S.frames xs) with
  | (t, true) => live t (S.residue xs)
  | (t, false) => closed t

variable {S : Scanner α} {f : σ → List α → σ × Bool}

/-- Segmentation independence: a chunk fed behind an input leads where the input
with the chunk does, read in one piece. -/
theorem feed_whole (s : σ) (xs chunk : List α) :
    feed S f (whole S f s xs) chunk = whole S f s (xs ++ chunk) := by
  rcases first : consume f s (S.frames xs) with ⟨t, willing⟩
  cases willing with
  | true =>
    simp only [whole, first, feed, Scanner.frames_append (S := S) xs chunk, consume_append, if_true,
      Scanner.residue_append (S := S) xs chunk]
  | false =>
    simp only [whole, first, feed, Scanner.frames_append (S := S) xs chunk, consume_append,
      Bool.false_eq_true, if_false]

end Session

end Scanning
