import Mathlib.Data.Finset.Card
import Mathlib.Data.List.Basic
import Mathlib.Data.List.DropRight

namespace Recency
variable {α : Type*} {xs history before since : List α} {v w : α}

theorem mem_take_append {front back : List α} (fresh : v ∉ front) (n : Nat) :
    v ∈ (front ++ v :: back).take n ↔ front.length < n := by
  rw [List.take_append, List.mem_append]
  constructor
  · rintro (early | late)
    · exact absurd (List.mem_of_mem_take early) fresh
    · by_contra beyond
      rw [Nat.sub_eq_zero_of_le (not_lt.mp beyond)] at late
      cases late
  · intro room
    obtain ⟨k, left⟩ := Nat.exists_eq_succ_of_ne_zero (Nat.sub_ne_zero_of_lt room)
    rw [left, List.take_succ_cons]
    exact Or.inr List.mem_cons_self

/-- What has come has come for the last time somewhere. -/
theorem exists_last (member : v ∈ history) : ∃ before since, history = before ++ v :: since ∧ v ∉ since := by
  obtain ⟨since, before, split, last⟩ := List.eq_append_cons_of_mem (List.mem_reverse.mpr member)
  refine ⟨before.reverse, since.reverse, ?_, mt List.mem_reverse.mp last⟩
  rw [← List.reverse_reverse history, split]
  simp

variable [DecidableEq α]

/-- An element is moved or put in front of all others. -/
def touch (xs : List α) (v : α) : List α := v :: xs.erase v

theorem mem_touch : w ∈ touch xs v ↔ w = v ∨ w ∈ xs := by
  rw [touch, List.mem_cons]
  by_cases same : w = v
  · simp [same]
  · rw [List.mem_erase_of_ne same]

theorem nodup_touch (nodup : xs.Nodup) : (touch xs v).Nodup :=
  List.nodup_cons.mpr ⟨nodup.not_mem_erase, nodup.erase v⟩

theorem length_touch_of_mem (member : v ∈ xs) : (touch xs v).length = xs.length := by
  have positive := List.length_pos_of_mem member
  rw [touch, List.length_cons, List.length_erase_of_mem member]
  omega

theorem take_erase_take (xs : List α) (v : α) (n : Nat) :
    ((xs.take (n + 1)).erase v).take n = (xs.erase v).take n := by
  induction xs generalizing n with
  | nil => simp
  | cons x xs ih =>
    rw [List.take_succ_cons, List.erase_cons, List.erase_cons]
    split
    · rw [List.take_take, min_self]
    · cases n with
      | zero => rfl
      | succ n => rw [List.take_succ_cons, List.take_succ_cons, ih]

/-- What is beyond the bound never comes back by touching another element. -/
theorem take_touch_take (xs : List α) (v : α) (n : Nat) :
    (touch (xs.take n) v).take n = (touch xs v).take n := by
  cases n with
  | zero => rfl
  | succ n => rw [touch, touch, List.take_succ_cons, List.take_succ_cons, take_erase_take]

/-- The distinct elements of a history, the most recent ones first. -/
def recency (history : List α) : List α := history.foldl touch []

theorem recency_append (history : List α) (v : α) : recency (history ++ [v]) = touch (recency history) v := by
  rw [recency, List.foldl_append]
  rfl

theorem mem_recency : v ∈ recency history ↔ v ∈ history := by
  induction history using List.reverseRecOn with
  | nil => rfl
  | append_singleton history w ih => rw [recency_append, mem_touch, ih, List.mem_append, List.mem_singleton, or_comm]

theorem nodup_recency (history : List α) : (recency history).Nodup := by
  induction history using List.reverseRecOn with
  | nil => exact List.nodup_nil
  | append_singleton history w ih =>
    rw [recency_append]
    exact nodup_touch ih

theorem length_recency (history : List α) : (recency history).length = history.toFinset.card := by
  rw [← List.toFinset_card_of_nodup (nodup_recency history)]
  congr 1
  ext v
  rw [List.mem_toFinset, List.mem_toFinset, mem_recency]

/-- In front of an element stands what has come since it was there last. -/
theorem recency_since (before : List α) (last : v ∉ since) :
    ∃ older, recency (before ++ v :: since) = recency since ++ v :: older := by
  induction since using List.reverseRecOn with
  | nil => exact ⟨_, recency_append before v⟩
  | append_singleton since w ih =>
    rw [List.mem_append, List.mem_singleton, not_or] at last
    obtain ⟨older, split⟩ := ih last.1
    rw [← List.cons_append, ← List.append_assoc, recency_append, split, recency_append, touch, touch]
    by_cases member : w ∈ recency since
    · exact ⟨older, by rw [List.erase_append_left _ member, List.cons_append]⟩
    · refine ⟨older.erase w, ?_⟩
      rw [List.erase_append_right _ member, List.erase_of_not_mem member,
        List.erase_cons_tail (by simpa using last.2), List.cons_append]

/-- An element is among the `n` most recent ones as long as fewer than `n` others
have come since it was there last. -/
theorem mem_take_recency (before : List α) (last : v ∉ since) (n : Nat) :
    v ∈ (recency (before ++ v :: since)).take n ↔ since.toFinset.card < n := by
  obtain ⟨older, split⟩ := recency_since before last
  rw [split, mem_take_append (mt mem_recency.mp last), length_recency]

/-- What has come since an element was there last. -/
theorem rtakeWhile_since (before : List α) (last : v ∉ since) :
    (before ++ v :: since).rtakeWhile (· != v) = since := by
  induction since using List.reverseRecOn with
  | nil => exact List.rtakeWhile_concat_neg _ _ _ (by simp)
  | append_singleton since w ih =>
    rw [List.mem_append, List.mem_singleton, not_or] at last
    rw [← List.cons_append, ← List.append_assoc, List.rtakeWhile_concat_pos _ _ _ (by simpa using Ne.symm last.2),
      ih last.1]

theorem mem_take_recency_iff {n : Nat} :
    v ∈ (recency history).take n ↔ v ∈ history ∧ (history.rtakeWhile (· != v)).toFinset.card < n := by
  by_cases member : v ∈ history
  · obtain ⟨before, since, rfl, last⟩ := exists_last member
    rw [mem_take_recency before last, rtakeWhile_since before last, and_iff_right member]
  · exact iff_of_false (fun recent => member (mem_recency.mp (List.mem_of_mem_take recent))) fun both => member both.1

end Recency
