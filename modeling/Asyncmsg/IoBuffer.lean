import Mathlib.Data.List.Basic
import Mathlib.Tactic.Common

namespace Asyncmsg

/-- `io_buffer_view` over its storage: the unread bytes stand between `head`
and `tail`. -/
structure IoBuffer where
  buffer : List UInt8
  head : Nat
  tail : Nat

/-- The part of the storage offered to a read. -/
structure Slab where
  data : Nat
  size : Nat

namespace IoBuffer

def ofSize (size : Nat) : IoBuffer := ⟨List.replicate size 0, 0, 0⟩

def length (b : IoBuffer) : Nat := b.buffer.length
def size (b : IoBuffer) : Nat := b.tail - b.head
def capacity (b : IoBuffer) : Nat := b.length - b.size
def freeSize (b : IoBuffer) : Nat := b.length - b.tail

/-- The bytes at `read_head()`, `size()` of them. -/
def pending (b : IoBuffer) : List UInt8 := (b.buffer.drop b.head).take b.size

/-- The move to the front that makes as much room as there can be. -/
def compact (b : IoBuffer) : IoBuffer :=
  { buffer := b.pending ++ b.buffer.drop b.size, head := 0, tail := b.size }

def prepare (b : IoBuffer) (n : Nat) : IoBuffer × Slab :=
  let b := if b.freeSize < n then b.compact else b
  (b, ⟨b.tail, min n b.capacity⟩)

/-- A read of the socket stores its bytes at the front of the slab. -/
def fill (b : IoBuffer) (slab : Slab) (bs : List UInt8) : IoBuffer :=
  { b with buffer := b.buffer.take slab.data ++ bs ++ b.buffer.drop (slab.data + bs.length) }

def commit (b : IoBuffer) (n : Nat) : IoBuffer := { b with tail := b.tail + n }

def consume (b : IoBuffer) (n : Nat) : IoBuffer :=
  if b.tail ≤ b.head + n then { b with head := 0, tail := 0 } else { b with head := b.head + n }

/-- The positions are in order and inside the storage. -/
structure WellFormed (b : IoBuffer) : Prop where
  head_le : b.head ≤ b.tail
  tail_le : b.tail ≤ b.length

variable {b : IoBuffer}

theorem ofSize_wellFormed (size : Nat) : (ofSize size).WellFormed := ⟨Nat.le_refl _, Nat.zero_le _⟩

@[simp] theorem ofSize_pending (size : Nat) : (ofSize size).pending = [] := by
  simp [ofSize, pending, IoBuffer.size]

@[simp] theorem ofSize_length (size : Nat) : (ofSize size).length = size := List.length_replicate

theorem WellFormed.pending_length (wf : b.WellFormed) : b.pending.length = b.size := by
  obtain ⟨ordered, inside⟩ := wf
  simp only [length] at inside
  simp only [pending, size, List.length_take, List.length_drop]
  omega

theorem WellFormed.size_le (wf : b.WellFormed) : b.size ≤ b.length := by
  have inside := wf.tail_le
  simp only [size]
  omega

theorem WellFormed.compact (wf : b.WellFormed) :
    b.compact.WellFormed ∧ b.compact.pending = b.pending ∧ b.compact.length = b.length := by
  have count := wf.pending_length
  have fits := wf.size_le
  have same : b.compact.length = b.length := by
    simp only [length] at fits ⊢
    simp only [IoBuffer.compact, List.length_append, List.length_drop, count]
    omega
  refine ⟨⟨Nat.zero_le _, same ▸ fits⟩, ?_, same⟩
  rw [pending, IoBuffer.compact, size, List.drop_zero, Nat.sub_zero, ← count, List.take_left]

/-- Preparing a read moves bytes but loses none, and offers room that lies
directly behind the unread bytes and inside the storage. -/
theorem WellFormed.prepare (wf : b.WellFormed) (n : Nat) :
    (b.prepare n).1.WellFormed ∧ (b.prepare n).1.pending = b.pending ∧
      (b.prepare n).1.length = b.length ∧ (b.prepare n).2.data = (b.prepare n).1.tail ∧
      (b.prepare n).2.size = min n b.capacity ∧
      (b.prepare n).2.data + (b.prepare n).2.size ≤ b.length := by
  obtain ⟨ordered, inside⟩ := wf
  obtain ⟨wf', same, length⟩ := WellFormed.compact ⟨ordered, inside⟩
  have fits := WellFormed.size_le ⟨ordered, inside⟩
  unfold IoBuffer.prepare
  by_cases crowded : b.freeSize < n
  · have capacity : b.compact.capacity = b.length - b.size := by
      rw [IoBuffer.capacity, length]
      rfl
    have room : b.compact.tail = b.size := rfl
    rw [if_pos crowded]
    refine ⟨wf', same, length, rfl, congrArg (min n) capacity, ?_⟩
    simp only [capacity, room]
    omega
  · rw [if_neg crowded]
    refine ⟨⟨ordered, inside⟩, rfl, rfl, rfl, rfl, ?_⟩
    simp only [freeSize] at crowded
    simp only
    omega

theorem length_fill {slab : Slab} {bs : List UInt8} (within : slab.data + bs.length ≤ b.length) :
    (b.fill slab bs).length = b.length := by
  simp only [length] at within ⊢
  simp only [fill, List.length_append, List.length_take, List.length_drop]
  omega

/-- Storing a read and committing it appends its bytes to the unread ones. -/
theorem WellFormed.fill_commit (wf : b.WellFormed) {slab : Slab} {bs : List UInt8} (start : slab.data = b.tail)
    (within : slab.data + bs.length ≤ b.length) :
    ((b.fill slab bs).commit bs.length).WellFormed ∧
      ((b.fill slab bs).commit bs.length).pending = b.pending ++ bs ∧
      ((b.fill slab bs).commit bs.length).length = b.length := by
  obtain ⟨ordered, inside⟩ := wf
  have length := length_fill within
  rw [start] at within
  refine ⟨⟨Nat.le_trans ordered (Nat.le_add_right _ _), ?_⟩, ?_, length⟩
  · change b.tail + bs.length ≤ (b.fill slab bs).length
    omega
  · simp only [IoBuffer.length] at inside
    simp only [pending, commit, fill, size, start, List.append_assoc]
    rw [List.drop_append_of_le_length (by rw [List.length_take]; omega), List.drop_take,
      show b.tail + bs.length - b.head = (b.tail - b.head) + bs.length by omega, ← List.append_assoc]
    exact List.take_left' (by simp only [List.length_append, List.length_take, List.length_drop]; omega)

/-- Consuming drops unread bytes from the front. -/
theorem WellFormed.consume (wf : b.WellFormed) (n : Nat) :
    (b.consume n).WellFormed ∧ (b.consume n).pending = b.pending.drop n ∧
      (b.consume n).length = b.length := by
  obtain ⟨ordered, inside⟩ := wf
  have count := WellFormed.pending_length ⟨ordered, inside⟩
  simp only [IoBuffer.consume]
  split
  · rename_i emptied
    refine ⟨⟨Nat.le_refl _, Nat.zero_le _⟩, ?_, rfl⟩
    rw [List.drop_eq_nil_of_le (by rw [count, size]; omega)]
    simp [pending, size]
  · rename_i left
    refine ⟨⟨by simp only; omega, inside⟩, ?_, rfl⟩
    simp only [pending, size, List.drop_take, List.drop_drop]
    congr 1
    omega

theorem size_consume_lt {n : Nat} (some : 0 < n) (left : 0 < b.size) : (b.consume n).size < b.size := by
  simp only [size] at left ⊢
  simp only [IoBuffer.consume]
  split
  · simp only
    omega
  · simp only
    omega

end IoBuffer

end Asyncmsg
