import Mathlib.Data.List.Basic
import Mathlib.Data.List.Count
import Mathlib.Tactic.Common

namespace RemoveIf
variable {α : Type*} (p : α → Bool) (moved : α)

/-- The part of `remove_if` behind the first match: `slots` are the places from
the next one to be written up to the one being read. A kept element moves to
the first of them and leaves `moved` behind. -/
def shift : List α → List α → List α
  | slots, [] => slots
  | slots, x :: rest => if p x then shift (slots ++ [x]) rest else x :: shift (slots.tail ++ [moved]) rest

/-- `std::remove_if` without the erasure that is to follow it. -/
def removeIf : List α → List α
  | [] => []
  | x :: rest => if p x then shift p moved [x] rest else x :: removeIf rest

variable {p moved}

/-- Without a match nothing moves. -/
theorem removeIf_of_forall {xs : List α} (kept : ∀ x ∈ xs, p x = false) : removeIf p moved xs = xs := by
  induction xs with
  | nil => rfl
  | cons x rest ih =>
    rw [removeIf, kept x List.mem_cons_self, if_neg Bool.false_ne_true,
      ih fun y member => kept y (List.mem_cons_of_mem x member)]

theorem length_shift {slots rest : List α} (started : slots ≠ []) :
    (shift p moved slots rest).length = slots.length + rest.length := by
  induction rest generalizing slots with
  | nil => rfl
  | cons x rest ih =>
    have positive : 0 < slots.length := List.length_pos_iff.mpr started
    rw [shift]
    split
    · rw [ih (by simp), List.length_append, List.length_singleton, List.length_cons]
      omega
    · rw [List.length_cons, ih (by simp), List.length_append, List.length_tail, List.length_singleton,
        List.length_cons]
      omega

/-- The list keeps its length. -/
@[simp] theorem length_removeIf (xs : List α) : (removeIf p moved xs).length = xs.length := by
  induction xs with
  | nil => rfl
  | cons x rest ih =>
    rw [removeIf]
    split
    · rw [length_shift (by simp), List.length_singleton, List.length_cons]
      omega
    · rw [List.length_cons, ih, List.length_cons]

variable [BEq α] [LawfulBEq α]

theorem count_shift_le {slots rest : List α} {x : α} (kept : x ≠ moved) :
    (shift p moved slots rest).count x ≤ slots.count x + rest.count x := by
  induction rest generalizing slots with
  | nil => exact Nat.le_refl _
  | cons y rest ih =>
    rw [shift]
    split
    · refine Nat.le_trans ih ?_
      rw [List.count_append, List.count_cons, List.count_cons, List.count_nil]
      omega
    · rw [List.count_cons, List.count_cons]
      have tail : slots.tail.count x ≤ slots.count x := (List.tail_sublist slots).count_le x
      have bound : (shift p moved (slots.tail ++ [moved]) rest).count x ≤
          (slots.tail ++ [moved]).count x + rest.count x := ih
      rw [List.count_append, List.count_singleton, if_neg (by simpa using kept.symm)] at bound
      omega

/-- No element is duplicated. -/
theorem count_removeIf_le {xs : List α} {x : α} (kept : x ≠ moved) :
    (removeIf p moved xs).count x ≤ xs.count x := by
  induction xs with
  | nil => exact Nat.le_refl _
  | cons y rest ih =>
    rw [removeIf]
    split
    · refine Nat.le_trans (count_shift_le kept) ?_
      rw [List.count_cons, List.count_cons, List.count_nil]
      omega
    · rw [List.count_cons, List.count_cons]
      omega

/-- A value that stands in the list once is left in it only from the last
place, where nothing is moved onto it. -/
theorem mem_removeIf_self_iff {xs : List α} {x : α} (kept : x ≠ moved) (once : xs.count x ≤ 1) :
    x ∈ removeIf (· == x) moved xs ↔ xs.getLast? = some x := by
  induction xs with
  | nil => simp [removeIf]
  | cons y rest ih =>
    rw [List.count_cons] at once
    rw [removeIf]
    by_cases here : y = x
    · subst here
      have absent : rest.count y = 0 := by
        rw [beq_self_eq_true, if_pos rfl] at once
        omega
      rw [beq_self_eq_true, if_pos rfl]
      cases rest with
      | nil => simp [shift]
      | cons z rest =>
        have other : (z == y) = false := by
          by_contra same
          rw [Bool.not_eq_false, beq_iff_eq] at same
          simp [same] at absent
        have bound := @count_shift_le _ (· == y) _ _ _ [moved] rest y kept
        have later : rest.count y = 0 := by
          rw [List.count_cons] at absent
          omega
        rw [later, List.count_singleton, if_neg (by simpa using kept.symm), Nat.add_zero, Nat.le_zero] at bound
        rw [shift, other, if_neg Bool.false_ne_true]
        refine ⟨fun member => ?_, fun last => ?_⟩
        · rcases List.mem_cons.mp member with rfl | member
          · simp at other
          · exact absurd member (List.count_eq_zero.mp bound)
        · rw [List.getLast?_cons_cons] at last
          exact absurd (List.mem_of_getLast? last) (List.count_eq_zero.mp absent)
    · have other : (y == x) = false := beq_eq_false_iff_ne.mpr here
      rw [other, if_neg Bool.false_ne_true] at once ⊢
      rw [List.mem_cons, ih once]
      cases rest with
      | nil => simp [here, Ne.symm here]
      | cons z rest => simp [List.getLast?_cons_cons, Ne.symm here]

end RemoveIf
