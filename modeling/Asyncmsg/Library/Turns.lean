import Mathlib.Data.List.Nodup
import Mathlib.Data.List.Perm.Basic
import Mathlib.Tactic.Common

namespace Turns
variable {ι α : Type*} {wire wire' : List α} {sent sent' : ι → List α} {partway partway' : ι → Prop}
  {order : List ι}

/-- What several writers have put on one wire, as long as they take turns: the
pieces stand one writer after the other, and only the last of these writers
can be partway through what it has to write. -/
structure InOrder (wire : List α) (sent : ι → List α) (partway : ι → Prop) (order : List ι) : Prop where
  nodup : order.Nodup
  started : ∀ i, i ∈ order ↔ sent i ≠ []
  wire : wire = (order.map sent).flatten
  whole : ∀ i ∈ order.dropLast, ¬partway i

theorem InOrder.nil : InOrder [] (fun _ : ι => ([] : List α)) partway [] :=
  ⟨List.nodup_nil, by simp, rfl, by simp⟩

/-- A writer puts more on the wire while no other one is partway. -/
theorem InOrder.write (inOrder : InOrder wire sent partway order) {i : ι} {more : List α}
    (unfinished : sent i = [] ∨ partway i) (others : ∀ j, j ≠ i → ¬partway j) (positive : more ≠ [])
    (grown : wire' = wire ++ more) (own : sent' i = sent i ++ more) (kept : ∀ j, j ≠ i → sent' j = sent j)
    (still : ∀ j, j ≠ i → (partway' j ↔ partway j)) : ∃ order', InOrder wire' sent' partway' order' := by
  by_cases member : i ∈ order
  · obtain ⟨before, after, rfl⟩ := List.append_of_mem member
    have middle := unfinished.resolve_left ((inOrder.started i).mp member)
    -- nobody has begun after a writer that is partway
    have last : after = [] := by
      by_contra later
      have inner : i ∈ (before ++ i :: after).dropLast := by
        rw [List.dropLast_append_of_ne_nil (List.cons_ne_nil _ _), List.dropLast_cons_of_ne_nil later]
        exact List.mem_append_right _ List.mem_cons_self
      exact inOrder.whole i inner middle
    subst last
    have fresh : ∀ j ∈ before, j ≠ i := fun j inside same =>
      (List.nodup_append.mp inOrder.nodup).2.2 j inside i List.mem_cons_self same
    have same : before.map sent' = before.map sent := List.map_congr_left fun j inside => kept j (fresh j inside)
    refine ⟨before ++ [i], inOrder.nodup, fun j => ?_, ?_, fun j inside => ?_⟩
    · rw [inOrder.started]
      by_cases it : j = i
      · subst it
        have already := (inOrder.started j).mp member
        simp [own, already]
      · rw [kept j it]
    · rw [grown, inOrder.wire, List.map_append, List.map_append, same]
      simp [own]
    · rw [List.dropLast_concat] at inside
      rw [still j (fresh j inside)]
      exact others j (fresh j inside)
  · have none : sent i = [] := not_not.mp fun some => member ((inOrder.started i).mpr some)
    have fresh : ∀ j ∈ order, j ≠ i := fun j inside same => member (same ▸ inside)
    have same : order.map sent' = order.map sent := List.map_congr_left fun j inside => kept j (fresh j inside)
    refine ⟨order ++ [i], ?_, fun j => ?_, ?_, fun j inside => ?_⟩
    · simpa only [List.concat_eq_append] using inOrder.nodup.concat member
    · rw [List.mem_append, List.mem_singleton]
      by_cases it : j = i
      · subst it
        simp [own, none, positive]
      · rw [kept j it, ← inOrder.started]
        simp [it]
    · rw [grown, inOrder.wire, List.map_append, same]
      simp [own, none]
    · rw [List.dropLast_concat] at inside
      rw [still j (fresh j inside)]
      exact others j (fresh j inside)

theorem InOrder.congr (inOrder : InOrder wire sent partway order) (kept : ∀ i, sent' i = sent i)
    (still : ∀ i, partway' i ↔ partway i) : InOrder wire sent' partway' order where
  nodup := inOrder.nodup
  started i := by rw [kept, inOrder.started]
  wire := by rw [inOrder.wire, funext kept]
  whole i member := by
    rw [still]
    exact inOrder.whole i member

/-- Of a list of writers those that have written stand in the order, up to a
permutation. -/
theorem InOrder.perm (inOrder : InOrder wire sent partway order) {writers : List ι} (distinct : writers.Nodup)
    (all : ∀ i, sent i ≠ [] → i ∈ writers) [DecidablePred fun i => sent i ≠ []] :
    order.Perm (writers.filter fun i => sent i ≠ []) := by
  refine (List.perm_ext_iff_of_nodup inOrder.nodup (distinct.filter _)).mpr fun i => ?_
  rw [inOrder.started, List.mem_filter, decide_eq_true_iff]
  exact ⟨fun written => ⟨all i written, written⟩, And.right⟩

end Turns
