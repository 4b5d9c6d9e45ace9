import Mathlib.Data.List.AList

namespace Asyncmsg

/-- The list's nodes, each with the identity that an iterator to it keeps, and
the iterators by value. -/
structure Lru (α : Type) [DecidableEq α] where
  cap : Nat
  l : List (Nat × α)
  m : AList fun _ : α => Nat
  next : Nat

namespace Lru
variable {α : Type} [DecidableEq α]

def ofCap (cap : Nat) : Lru α := ⟨cap, [], ∅, 0⟩

variable (c : Lru α) (v : α)

def exist : Bool × Lru α :=
  match c.m.lookup v with
  | none => (false, c)
  | some it => (true, { c with l := c.l.filter (·.1 == it) ++ c.l.filter (·.1 != it) })

def put : Lru α :=
  let l := match c.m.lookup v with
    | none => c.l
    | some it => c.l.filter (·.1 != it)
  let m := c.m.insert v c.next
  if c.cap < m.entries.length then
    let back := ((c.next, v) :: l).getLast (List.cons_ne_nil _ _)
    ⟨c.cap, ((c.next, v) :: l).dropLast, m.erase back.2, c.next + 1⟩
  else ⟨c.cap, (c.next, v) :: l, m, c.next + 1⟩

variable {c v}

theorem exist_iff : (c.exist v).1 = true ↔ v ∈ c.m := by
  rw [← AList.lookup_isSome]
  unfold exist
  split
  · rename_i missing
    simp [missing]
  · rename_i it found
    simp [found]

@[simp] theorem exist_m : (c.exist v).2.m = c.m := by
  unfold exist
  split <;> rfl

@[simp] theorem exist_cap : (c.exist v).2.cap = c.cap := by
  unfold exist
  split <;> rfl

@[simp] theorem put_cap : (c.put v).cap = c.cap := by
  unfold put
  dsimp only
  split <;> rfl

/-- As long as there is room nothing is forgotten. -/
theorem mem_put_of_room (room : (c.m.insert v c.next).keys.length ≤ c.cap) {w : α} :
    w ∈ (c.put v).m ↔ w = v ∨ w ∈ c.m := by
  rw [AList.keys, List.keys, List.length_map] at room
  rw [put]
  dsimp only
  rw [if_neg (Nat.not_lt.mpr room), AList.mem_insert]

end Lru
end Asyncmsg
