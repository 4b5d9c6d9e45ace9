import Asyncmsg.IoBuffer
import Asyncmsg.Library.Transition

namespace Asyncmsg
open Transition

def IoBuffer.clear (b : IoBuffer) : IoBuffer := { b with head := 0, tail := 0 }

/-- An `io_buffer` and the slab that its user has prepared and not used yet.
Consuming may move the place of the next byte, so the slab is void then. -/
structure IoSession where
  buffer : IoBuffer
  slab : Option Slab

namespace IoSession

/-- `commit` stores bytes in the slab first. -/
inductive Action
  | prepare (n : Nat)
  | commit (bs : List UInt8)
  | consume (n : Nat)
  | clear

def start (size : Nat) : IoSession := ⟨.ofSize size, none⟩

def step (s : IoSession) : Action → Option IoSession
  | .prepare n => some ⟨(s.buffer.prepare n).1, (s.buffer.prepare n).2⟩
  | .commit bs => s.slab.bind fun slab =>
    if bs.length ≤ slab.size then some ⟨(s.buffer.fill slab bs).commit bs.length, none⟩ else none
  | .consume n => some ⟨s.buffer.consume n, none⟩
  | .clear => some ⟨s.buffer.clear, none⟩

/-- The bytes that the steps have put in. -/
def stored (labels : List Action) : List UInt8 :=
  labels.flatMap fun a => match a with
    | .commit bs => bs
    | _ => []

end IoSession

/-- What the buffer is for: a queue of bytes with room for `size` of them. It
remembers what has been taken out, and how much it has offered to take in. -/
structure ByteQueue (size : Nat) where
  taken : List UInt8
  bytes : List UInt8
  offered : Option Nat
  fits : bytes.length ≤ size
  room : ∀ most ∈ offered, bytes.length + most ≤ size

namespace ByteQueue
variable {size : Nat}

def empty : ByteQueue size := ⟨[], [], none, Nat.zero_le size, nofun⟩

def offer (q : ByteQueue size) (n : Nat) : ByteQueue size :=
  { q with
    offered := some (min n (size - q.bytes.length))
    room := fun most offered => by
      have fits := q.fits
      cases offered
      omega }

def put (q : ByteQueue size) (bs : List UInt8) (fits : ∃ most ∈ q.offered, bs.length ≤ most) : ByteQueue size where
  taken := q.taken
  bytes := q.bytes ++ bs
  offered := none
  fits := by
    obtain ⟨most, offered, enough⟩ := fits
    have room := q.room most offered
    rw [List.length_append]
    omega
  room := nofun

def take (q : ByteQueue size) (n : Nat) : ByteQueue size where
  taken := q.taken ++ q.bytes.take n
  bytes := q.bytes.drop n
  offered := none
  fits := by
    have fits := q.fits
    rw [List.length_drop]
    omega
  room := nofun

def step (q : ByteQueue size) : IoSession.Action → Option (ByteQueue size)
  | .prepare n => some (q.offer n)
  | .commit bs => if fits : ∃ most ∈ q.offered, bs.length ≤ most then some (q.put bs fits) else none
  | .consume n => some (q.take n)
  | .clear => some (q.take q.bytes.length)

end ByteQueue

namespace IoSession
variable {size : Nat} {s t : IoSession} {q : ByteQueue size} {labels : List Action}

/-- The buffer holds the bytes of the queue, and the slab it has offered begins
behind them, is as large as the queue says, and ends inside the storage. -/
structure Represents (s : IoSession) (q : ByteQueue size) : Prop where
  wellFormed : s.buffer.WellFormed
  length : s.buffer.length = size
  pending : s.buffer.pending = q.bytes
  offered : s.slab.map Slab.size = q.offered
  slab : ∀ slab ∈ s.slab, slab.data = s.buffer.tail ∧ slab.data + slab.size ≤ size

namespace Represents

theorem start : (start size).Represents (.empty : ByteQueue size) :=
  ⟨IoBuffer.ofSize_wellFormed size, IoBuffer.ofSize_length size, IoBuffer.ofSize_pending size, rfl, nofun⟩

variable (represents : s.Represents q)
include represents

theorem size_eq : s.buffer.size = q.bytes.length := by
  rw [← represents.wellFormed.pending_length, represents.pending]

theorem capacity_eq : s.buffer.capacity = size - q.bytes.length := by
  rw [IoBuffer.capacity, represents.length, represents.size_eq]

theorem prepare (n : Nat) :
    (⟨(s.buffer.prepare n).1, (s.buffer.prepare n).2⟩ : IoSession).Represents (q.offer n) := by
  obtain ⟨wf, pending, length, data, room, inside⟩ := represents.wellFormed.prepare n
  refine ⟨wf, length.trans represents.length, pending.trans represents.pending, ?_, fun slab offered => ?_⟩
  · rw [represents.capacity_eq] at room
    exact congrArg some room
  · cases offered
    exact ⟨data, represents.length ▸ inside⟩

theorem commit {slab : Slab} {bs : List UInt8} (offered : s.slab = some slab) (fits : bs.length ≤ slab.size)
    (room : ∃ most ∈ q.offered, bs.length ≤ most) :
    (⟨(s.buffer.fill slab bs).commit bs.length, none⟩ : IoSession).Represents (q.put bs room) := by
  obtain ⟨data, inside⟩ := represents.slab slab offered
  rw [← represents.length] at inside
  have within : slab.data + bs.length ≤ s.buffer.length := Nat.le_trans (Nat.add_le_add_left fits _) inside
  obtain ⟨wf, pending, length⟩ := represents.wellFormed.fill_commit data within
  refine ⟨wf, length.trans represents.length, ?_, rfl, nofun⟩
  rw [pending, represents.pending]
  rfl

theorem consume (n : Nat) : (⟨s.buffer.consume n, none⟩ : IoSession).Represents (q.take n) := by
  obtain ⟨wf, pending, length⟩ := represents.wellFormed.consume n
  refine ⟨wf, length.trans represents.length, ?_, rfl, nofun⟩
  rw [pending, represents.pending]
  rfl

theorem clear : (⟨s.buffer.clear, none⟩ : IoSession).Represents (q.take q.bytes.length) := by
  refine ⟨⟨Nat.le_refl _, Nat.zero_le _⟩, represents.length, ?_, rfl, nofun⟩
  have emptied : (q.take q.bytes.length).bytes = [] := List.drop_length
  rw [emptied, IoBuffer.pending, IoBuffer.size]
  exact List.take_zero

/-- The buffer does what the queue does, and nothing else. -/
theorem step (a : Action) : Option.Rel Represents (s.step a) (q.step a) := by
  cases a with
  | prepare n => exact .some (represents.prepare n)
  | commit bs =>
    have offered := represents.offered
    cases slab : s.slab with
    | none =>
      rw [slab] at offered
      have void : ¬∃ most ∈ q.offered, bs.length ≤ most := by
        rw [← offered]
        nofun
      rw [IoSession.step, slab, ByteQueue.step, dif_neg void]
      exact .none
    | some slab' =>
      rw [slab] at offered
      have room : (∃ most ∈ q.offered, bs.length ≤ most) ↔ bs.length ≤ slab'.size := by
        rw [← offered]
        simp
      rw [IoSession.step, slab, Option.bind_some, ByteQueue.step]
      by_cases fits : bs.length ≤ slab'.size
      · rw [if_pos fits, dif_pos (room.mpr fits)]
        exact .some (represents.commit slab fits (room.mpr fits))
      · rw [if_neg fits, dif_neg (mt room.mp fits)]
        exact .none
  | consume n => exact .some (represents.consume n)
  | clear => exact .some represents.clear

end Represents

end IoSession
end Asyncmsg
