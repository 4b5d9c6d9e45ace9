import Asyncmsg.LruOrder

namespace Asyncmsg
open Recency

namespace Lru

inductive Call (α : Type)
  | exist (v : α)
  | put (v : α)
  deriving DecidableEq

variable {α : Type} [DecidableEq α] {c : Lru α} {v : α} {cap : Nat} {calls : List (Call α)}

def step (c : Lru α) : Call α → Lru α
  | .exist v => (c.exist v).2
  | .put v => c.put v

/-- A fresh table after some calls. -/
def after (cap : Nat) (calls : List (Call α)) : Lru α := calls.foldl step (ofCap cap)

/-- What a call touches: the value that it puts in, or the one that it finds. -/
def touchedBy (c : Lru α) : Call α → List α
  | .exist v => if (c.exist v).1 then [v] else []
  | .put v => [v]

/-- The values touched by the calls, in their order. -/
def touched (c : Lru α) : List (Call α) → List α
  | [] => []
  | a :: calls => c.touchedBy a ++ (c.step a).touched calls

theorem after_concat (cap : Nat) (calls : List (Call α)) (a : Call α) :
    after cap (calls ++ [a]) = (after cap calls).step a := List.foldl_concat ..

theorem touched_concat (c : Lru α) (calls : List (Call α)) (a : Call α) :
    c.touched (calls ++ [a]) = c.touched calls ++ (calls.foldl step c).touchedBy a := by
  induction calls generalizing c with
  | nil => exact List.append_nil _
  | cons b calls ih => rw [List.cons_append, touched, touched, ih, List.append_assoc, List.foldl_cons]

theorem touched_after (cap : Nat) (calls : List (Call α)) (a : Call α) :
    (ofCap cap).touched (calls ++ [a]) = (ofCap cap).touched calls ++ (after cap calls).touchedBy a :=
  touched_concat (ofCap cap) calls a

theorem touchedBy_exist : c.touchedBy (.exist v) = if v ∈ c.m then [v] else [] := if_congr exist_iff rfl rfl

/-- A call brings what it touches to the front, as far as the capacity goes. -/
theorem WellFormed.step (wellFormed : c.WellFormed) (a : Call α) :
    (c.step a).WellFormed ∧ (c.step a).cap = c.cap ∧
      (c.step a).values = ((c.touchedBy a).foldl touch c.values).take c.cap := by
  cases a with
  | exist v =>
    rw [touchedBy_exist]
    by_cases known : v ∈ c.m
    · have touched := wellFormed.touched v
      rw [if_pos (exist_iff.mpr known)] at touched
      rw [if_pos known]
      exact ⟨touched.1, exist_cap, touched.2⟩
    · have same : c.step (.exist v) = c := exist_of_not_mem known
      have short : c.values.length ≤ c.cap := by
        rw [values, List.length_map]
        exact wellFormed.within
      rw [if_neg known, same]
      exact ⟨wellFormed, rfl, (List.take_of_length_le short).symm⟩
  | put v =>
    obtain ⟨after, values⟩ := wellFormed.put v
    exact ⟨after, put_cap, values⟩

/-- The table holds the values touched most recently, up to its capacity. -/
theorem after_values (cap : Nat) (calls : List (Call α)) :
    (after cap calls).WellFormed ∧ (after cap calls).cap = cap ∧
      (after cap calls).values = (recency ((ofCap cap).touched calls)).take cap := by
  induction calls using List.reverseRecOn with
  | nil => exact ⟨ofCap_wellFormed cap, rfl, List.take_nil.symm⟩
  | append_singleton calls a ih =>
    obtain ⟨wellFormed, same, values⟩ := ih
    obtain ⟨next, kept, moved⟩ := wellFormed.step a
    rw [after_concat, touched_after]
    refine ⟨next, kept.trans same, ?_⟩
    rw [moved, same, values]
    cases a with
    | exist v =>
      rw [touchedBy_exist]
      split
      · rw [recency_append]
        exact take_touch_take _ v cap
      · rw [List.append_nil, List.foldl_nil, List.take_take, min_self]
    | put v =>
      rw [touchedBy, recency_append]
      exact take_touch_take _ v cap

/-- What has been touched has been put in before. -/
theorem mem_touched : v ∈ (ofCap cap).touched calls ↔ .put v ∈ calls := by
  induction calls using List.reverseRecOn with
  | nil => exact iff_of_false List.not_mem_nil List.not_mem_nil
  | append_singleton calls a ih =>
    rw [touched_after, List.mem_append, List.mem_append, List.mem_singleton, ih]
    refine or_congr_right' fun fresh => ?_
    cases a with
    | exist w =>
      refine iff_of_false (fun found => fresh ?_) (by rintro ⟨⟩)
      obtain ⟨wellFormed, _, values⟩ := after_values cap calls
      rw [touchedBy_exist] at found
      split at found
      · rename_i known
        cases List.mem_singleton.mp found
        rw [wellFormed.mem, values] at known
        exact ih.mp (mem_recency.mp (List.mem_of_mem_take known))
      · cases found
    | put w => rw [touchedBy, List.mem_singleton, Call.put.injEq]

/-- The list and the map are two views of the same distinct values, at most as
many as the capacity, and a value is there if it has been put in and fewer
others than the capacity have been touched since its last touch. -/
theorem after_represents (cap : Nat) (calls : List (Call α)) :
    (after cap calls).values.Nodup ∧ ((after cap calls).l.map Prod.fst).Nodup ∧
      (∀ v, v ∈ (after cap calls).m ↔ v ∈ (after cap calls).values) ∧
      (∀ v it, (after cap calls).m.lookup v = some it ↔ (it, v) ∈ (after cap calls).l) ∧
      (after cap calls).l.length ≤ cap ∧ (after cap calls).m.entries.length ≤ cap ∧
      ∀ v, ((after cap calls).exist v).1 = true ↔
        .put v ∈ calls ∧ (((ofCap cap).touched calls).rtakeWhile (· != v)).toFinset.card < cap := by
  obtain ⟨wellFormed, same, values⟩ := after_values cap calls
  have within : (after cap calls).l.length ≤ cap := wellFormed.within.trans_eq same
  refine ⟨wellFormed.linked.values, wellFormed.linked.nodes, fun _ => wellFormed.mem, wellFormed.linked.found, within,
    wellFormed.linked.length.trans_le within, fun v => ?_⟩
  rw [exist_iff, wellFormed.mem, values, mem_take_recency_iff, mem_touched]

end Lru
end Asyncmsg
