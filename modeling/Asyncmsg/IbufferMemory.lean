import Asyncmsg.Library.Ownership
import Asyncmsg.Library.Transition
import Asyncmsg.RoundTrip

namespace Asyncmsg
open Transition Ownership Function

/-- The objects of class `ibuffer` by their own addresses, each with its `buf_`
and `len_`, and the arrays that they have allocated. -/
abbrev IbufferMemory := Store Nat Nat (List UInt8) UInt32

namespace IbufferMemory

/-- What is done to the object at `x`. Where memory is allocated the allocator
has returned `p`. -/
inductive Action
  | blank (x p : Nat) (garbage : Ibuffer)
  | construct (x p : Nat) (len : UInt32) (buf : List UInt8)
  | copy (x p y : Nat)
  | move (x y : Nat)
  | assign (x p y : Nat)
  | moveAssign (x y : Nat)
  | write (x offset : Nat) (bs : List UInt8)
  | destroy (x : Nat)

variable (m : IbufferMemory)

/-- `construct`, when `bytes` are in the new array in the end. -/
def construct (x p : Nat) (len : UInt32) (bytes : List UInt8) : IbufferMemory :=
  if 0 < len then (m.fill p (some bytes)).point x (some ⟨some p, len⟩) else m.point x (some ⟨none, len⟩)

/-- What `construct` copies from another object. No result stands for a read
outside of an array. -/
def source (other : Handle Nat UInt32) : Option (List UInt8) :=
  match other.pointer with
  | some p => (m.heap p).bind fun block =>
    if other.tag.toNat ≤ block.length then some (block.take other.tag.toNat) else none
  | none => if other.tag = 0 then some [] else none

/-- No result stands for a `delete[]` of what is not allocated. -/
def destruct (x : Nat) (this : Handle Nat UInt32) : Option IbufferMemory :=
  match this.pointer with
  | some p => if (m.heap p).isSome then some ((m.fill p none).point x (some ⟨none, 0⟩)) else none
  | none => some (m.point x (some ⟨none, 0⟩))

/-- The two swaps of a move into an object without an array. -/
def swap (x y : Nat) (other : Handle Nat UInt32) : IbufferMemory :=
  (m.point x (some other)).point y (some ⟨none, 0⟩)

/-- Nothing is done to an object that does not exist, and none is constructed in
the place of another; otherwise no result stands for a fault. -/
def step : Action → Option IbufferMemory
  | .blank x p garbage =>
    if (m.handle x).isNone then some (m.construct x p garbage.size garbage.bytes) else none
  | .construct x p len buf =>
    if (m.handle x).isNone ∧ len.toNat ≤ buf.length then some (m.construct x p len (buf.take len.toNat)) else none
  | .copy x p y =>
    if (m.handle x).isNone then
      (m.handle y).bind fun other => (m.source other).map fun bytes => m.construct x p other.tag bytes
    else none
  | .move x y => if (m.handle x).isNone then (m.handle y).map fun other => m.swap x y other else none
  | .assign x p y => (m.handle x).bind fun this => (m.handle y).bind fun other =>
    if x = y then some m
    else (m.destruct x this).bind fun m => (m.source other).map fun bytes => m.construct x p other.tag bytes
  | .moveAssign x y => (m.handle x).bind fun this => (m.handle y).bind fun other =>
    if x = y then some m else (m.destruct x this).map fun m => m.swap x y other
  | .write x offset bs => (m.handle x).bind fun this =>
    if offset + bs.length ≤ this.tag.toNat then
      match this.pointer with
      | some p =>
        (m.heap p).map fun block => m.fill p (some (block.take offset ++ bs ++ block.drop (offset + bs.length)))
      | none => if bs = [] then some m else none
    else none
  | .destroy x => (m.handle x).bind fun this => (m.destruct x this).map fun m => m.point x none

/-- The allocator returns no array that is in use. In an assignment the old one
may come again. -/
def Unused : Action → Prop
  | .blank _ p _ | .construct _ p _ _ | .copy _ p _ => m.heap p = none
  | .assign x p _ => m.heap p = none ∨ (m.handle x).bind Handle.pointer = some p
  | .move .. | .moveAssign .. | .write .. | .destroy .. => True

instance (a : Action) : Decidable (m.Unused a) :=
  match a with
  | .blank _ p _ | .construct _ p _ _ | .copy _ p _ => inferInstanceAs (Decidable (m.heap p = none))
  | .assign x p _ =>
    inferInstanceAs (Decidable (m.heap p = none ∨ (m.handle x).bind Handle.pointer = some p))
  | .move .. | .moveAssign .. | .write .. | .destroy .. => inferInstanceAs (Decidable True)

end IbufferMemory

/-- Other bytes in the middle. -/
def Ibuffer.splice (b : Ibuffer) (offset : Nat) (bs : List UInt8) (fits : offset + bs.length ≤ b.bytes.length) :
    Ibuffer where
  bytes := b.bytes.take offset ++ bs ++ b.bytes.drop (offset + bs.length)
  size_lt := by
    have small := b.size_lt
    simp only [List.length_append, List.length_take, List.length_drop]
    omega

/-- Buffers as values: what the objects are meant to be. -/
abbrev IbufferValues := Nat → Option Ibuffer

namespace IbufferValues
open IbufferMemory

def step (v : IbufferValues) : Action → Option IbufferValues
  | .blank x _ garbage => if (v x).isNone then some (update v x (some garbage)) else none
  | .construct x _ len buf =>
    if (v x).isNone ∧ len.toNat ≤ buf.length then some (update v x (some (.copy len buf))) else none
  | .copy x _ y => if (v x).isNone then (v y).map fun b => update v x (some b) else none
  | .move x y => if (v x).isNone then (v y).map fun b => update (update v x (some b)) y (some .empty) else none
  | .assign x _ y => (v x).bind fun _ => (v y).map fun b => update v x (some b)
  | .moveAssign x y => (v x).bind fun _ => (v y).map fun b =>
    if x = y then v else update (update v x (some b)) y (some .empty)
  | .write x offset bs => (v x).bind fun b =>
    if fits : offset + bs.length ≤ b.bytes.length then some (update v x (some (b.splice offset bs fits))) else none
  | .destroy x => (v x).map fun _ => update v x none

end IbufferValues

namespace Ibuffer

/-- A buffer as an object holds it: an array unless it is empty, and its length. -/
def stored (b : Ibuffer) : Option (List UInt8) × UInt32 := (if b.bytes = [] then none else some b.bytes, b.size)

theorem size_pos (b : Ibuffer) : 0 < b.size ↔ b.bytes ≠ [] := by
  rw [UInt32.lt_iff_toNat_lt, b.size_toNat, UInt32.toNat_zero, List.length_pos_iff]

theorem stored_of_ne_nil {b : Ibuffer} (nonempty : b.bytes ≠ []) : b.stored = (some b.bytes, b.size) := by
  rw [stored, if_neg nonempty]

theorem stored_empty : empty.stored = (none, 0) := rfl

theorem eq_empty {b : Ibuffer} (nil : b.bytes = []) : b = empty := Ibuffer.ext nil

@[simp] theorem splice_length (b : Ibuffer) (offset : Nat) (bs : List UInt8)
    (fits : offset + bs.length ≤ b.bytes.length) : (b.splice offset bs fits).bytes.length = b.bytes.length := by
  simp only [splice, List.length_append, List.length_take, List.length_drop]
  omega

theorem copy_size {len : UInt32} {buf : List UInt8} (enough : len.toNat ≤ buf.length) : (copy len buf).size = len := by
  rw [← UInt32.toNat_inj, size_toNat, copy, List.length_take, Nat.min_eq_left enough]

end Ibuffer

namespace IbufferMemory
variable {m t : IbufferMemory} {v : IbufferValues} {x y p offset : Nat} {h : Handle Nat UInt32} {b : Ibuffer}

/-- Every array has one owner, and the objects hold the buffers. -/
structure Represents (m : IbufferMemory) (v : IbufferValues) : Prop where
  sound : m.Sound
  contents : m.contents = fun x => (v x).map Ibuffer.stored

namespace Represents

theorem empty : Represents .empty fun _ => none := ⟨Store.empty_sound, rfl⟩

theorem update (sound : t.Sound) (represents : m.Represents v)
    (contents : t.contents = Function.update m.contents x (some b.stored)) :
    t.Represents (Function.update v x (some b)) := by
  refine ⟨sound, ?_⟩
  rw [contents, represents.contents]
  funext y
  by_cases same : y = x
  · subst same
    simp
  · simp [same]

variable (represents : m.Represents v)
include represents

theorem handle_eq_none : m.handle x = none ↔ v x = none := by
  have same := congrFun represents.contents x
  rw [Store.contents] at same
  rw [← Option.map_eq_none_iff, same, Option.map_eq_none_iff]

/-- Object by object: there is neither, or both. -/
theorem view (x : Nat) : m.handle x = none ∧ v x = none ∨ ∃ h b, m.handle x = some h ∧ v x = some b := by
  rcases held : m.handle x with _ | h
  · exact Or.inl ⟨rfl, represents.handle_eq_none.mp held⟩
  · rcases here : v x with _ | b
    · rw [represents.handle_eq_none.mpr here] at held
      cases held
    · exact Or.inr ⟨h, b, rfl, rfl⟩

theorem isNone_iff : (m.handle x).isNone ↔ (v x).isNone := by
  rw [Option.isNone_iff_eq_none, Option.isNone_iff_eq_none, represents.handle_eq_none]

/-- An object has an array with the bytes of its buffer, unless that is empty. -/
theorem pointer (held : m.handle x = some h) (here : v x = some b) :
    h.tag = b.size ∧
      (h.pointer = none ∧ b.bytes = [] ∨ ∃ p, h.pointer = some p ∧ m.heap p = some b.bytes ∧ b.bytes ≠ []) := by
  have same := congrFun represents.contents x
  simp only [Store.contents_of_handle held, here, Option.map_some, Option.some.injEq] at same
  obtain ⟨bytes, size⟩ := Prod.mk.inj same
  refine ⟨size, ?_⟩
  cases pointer : h.pointer with
  | none =>
    rw [pointer, Option.bind_none] at bytes
    split at bytes
    · exact Or.inl ⟨rfl, ‹_›⟩
    · cases bytes
  | some p =>
    rw [pointer, Option.bind_some] at bytes
    split at bytes
    · exact absurd bytes (represents.sound.allocated x p ⟨h, held, pointer⟩)
    · exact Or.inr ⟨p, rfl, bytes, ‹_›⟩

/-- Copying from an object reads exactly its buffer. -/
theorem source (held : m.handle x = some h) (here : v x = some b) : h.tag = b.size ∧ m.source h = some b.bytes := by
  obtain ⟨size, ⟨pointer, nil⟩ | ⟨p, pointer, block, _⟩⟩ := represents.pointer held here
  · refine ⟨size, ?_⟩
    have zero : b.size = 0 := by rw [Ibuffer.eq_empty nil]; rfl
    rw [IbufferMemory.source, pointer, size, zero, nil]
    rfl
  · refine ⟨size, ?_⟩
    rw [IbufferMemory.source, pointer]
    simp only [block, Option.bind_some, size, Ibuffer.size_toNat, Nat.le_refl, if_true, List.take_length]

theorem construct (idle : m.Idle x) (unused : m.heap p = none) :
    (m.construct x p b.size b.bytes).Represents (Function.update v x (some b)) := by
  unfold IbufferMemory.construct
  split
  · rename_i positive
    obtain ⟨sound, contents⟩ := represents.sound.alloc idle unused b.bytes b.size
    rw [← Ibuffer.stored_of_ne_nil (b.size_pos.mp positive)] at contents
    exact update sound represents contents
  · rename_i zero
    have nil : b.bytes = [] := by_contra fun nonempty => zero (b.size_pos.mpr nonempty)
    have stored : b.stored = (none, b.size) := by rw [Ibuffer.stored, if_pos nil]
    obtain ⟨sound, contents⟩ := represents.sound.clear (h := some ⟨none, b.size⟩) idle rfl
    exact update sound represents (contents.trans (congrArg (Function.update m.contents x ∘ some) stored.symm))

/-- What is deleted is allocated, and no other object loses its array. -/
theorem destruct (held : m.handle x = some h) :
    ∃ t, m.destruct x h = some t ∧ t.Represents (Function.update v x (some .empty)) ∧
      t.handle = Function.update m.handle x (some ⟨none, 0⟩) ∧
      ∀ p, m.heap p = none ∨ h.pointer = some p → t.heap p = none := by
  obtain ⟨gone, _⟩ | ⟨_, b, held', here⟩ := represents.view x
  · rw [gone] at held
    cases held
  obtain ⟨_, ⟨pointer, _⟩ | ⟨p, pointer, block, _⟩⟩ := represents.pointer held here
  · have idle : m.Idle x := Store.idle_of_null held pointer
    obtain ⟨sound, contents⟩ := represents.sound.clear (h := some ⟨none, 0⟩) idle rfl
    refine ⟨m.point x (some ⟨none, 0⟩), by rw [IbufferMemory.destruct, pointer], update sound represents contents, rfl,
      fun q unused => ?_⟩
    rcases unused with unused | own
    · exact unused
    · rw [pointer] at own
      cases own
  · obtain ⟨sound, contents⟩ := represents.sound.free ⟨h, held, pointer⟩ 0
    refine ⟨(m.fill p none).point x (some ⟨none, 0⟩), ?_, update sound represents contents, rfl, fun q unused => ?_⟩
    · rw [IbufferMemory.destruct, pointer]
      simp only [block, Option.isSome_some, if_true]
    · rw [Store.point_heap, Store.fill_heap]
      by_cases same : q = p
      · rw [same, update_self]
      · rw [update_of_ne same]
        exact unused.resolve_right fun own => same (Option.some.inj (own.symm.trans pointer))

theorem swap (idle : m.Idle x) (held : m.handle y = some h) (here : v y = some b) (other : x ≠ y) :
    (m.swap x y h).Represents (Function.update (Function.update v x (some b)) y (some .empty)) := by
  obtain ⟨sound, contents⟩ := represents.sound.move idle held other 0
  refine ⟨sound, ?_⟩
  have given : m.contents y = some b.stored := by simp only [represents.contents, here, Option.map_some]
  rw [IbufferMemory.swap, contents, given, represents.contents]
  funext z
  by_cases source : z = y
  · subst source
    simp [Ibuffer.stored_empty]
  · by_cases new : z = x
    · subst new
      simp [source]
    · simp [source, new]

/-- `memcpy` into an object, inside of its length. -/
theorem splice (held : m.handle x = some h) (here : v x = some b) {bs : List UInt8}
    (fits : offset + bs.length ≤ b.bytes.length) :
    Option.Rel Represents
      (match h.pointer with
        | some p =>
          (m.heap p).map fun block => m.fill p (some (block.take offset ++ bs ++ block.drop (offset + bs.length)))
        | none => if bs = [] then some m else none)
      (some (Function.update v x (some (b.splice offset bs fits)))) := by
  obtain ⟨size, ⟨pointer, nil⟩ | ⟨p, pointer, block, nonempty⟩⟩ := represents.pointer held here
  · have nothing : bs = [] := by
      rw [nil, List.length_nil] at fits
      exact List.length_eq_zero_iff.mp (by omega)
    have still : b.splice offset bs fits = b := by
      subst nothing
      ext1
      simp [Ibuffer.splice]
    simp only [pointer, still, ← here, update_eq_self, if_pos nothing]
    exact .some represents
  · have nonempty' : (b.splice offset bs fits).bytes ≠ [] := by
      rw [← List.length_pos_iff, Ibuffer.splice_length, List.length_pos_iff]
      exact nonempty
    have size' : h.tag = (b.splice offset bs fits).size := by
      rw [size, ← UInt32.toNat_inj, Ibuffer.size_toNat, Ibuffer.size_toNat, Ibuffer.splice_length]
    obtain ⟨sound, contents⟩ := represents.sound.write held pointer (b.splice offset bs fits).bytes
    rw [size', ← Ibuffer.stored_of_ne_nil nonempty'] at contents
    simp only [pointer, block, Option.map_some]
    exact .some (update sound represents contents)

/-- The objects do what the buffers do. -/
theorem step (a : Action) (unused : m.Unused a) : Option.Rel Represents (m.step a) (v.step a) := by
  have absent (x : Nat) := represents.isNone_iff (x := x)
  cases a with
  | blank x p garbage =>
    simp only [IbufferMemory.step, IbufferValues.step, absent]
    split
    · rename_i new
      have idle := Store.idle_of_none (represents.handle_eq_none.mpr (Option.isNone_iff_eq_none.mp new))
      exact .some (represents.construct idle unused)
    · exact .none
  | construct x p len buf =>
    simp only [IbufferMemory.step, IbufferValues.step, absent]
    split
    · rename_i new
      have idle := Store.idle_of_none (represents.handle_eq_none.mpr (Option.isNone_iff_eq_none.mp new.1))
      have constructed := represents.construct (b := .copy len buf) idle unused
      rw [Ibuffer.copy_size new.2] at constructed
      exact .some constructed
    · exact .none
  | copy x p y =>
    simp only [IbufferMemory.step, IbufferValues.step, absent]
    split
    · rename_i new
      have idle := Store.idle_of_none (represents.handle_eq_none.mpr (Option.isNone_iff_eq_none.mp new))
      obtain ⟨gone, gone'⟩ | ⟨other, b, held, here⟩ := represents.view y
      · rw [gone, gone']
        exact .none
      · obtain ⟨size, read⟩ := represents.source held here
        rw [held, here, Option.bind_some, read, size]
        exact .some (represents.construct idle unused)
    · exact .none
  | move x y =>
    simp only [IbufferMemory.step, IbufferValues.step, absent]
    split
    · rename_i new
      have idle := Store.idle_of_none (represents.handle_eq_none.mpr (Option.isNone_iff_eq_none.mp new))
      obtain ⟨gone, gone'⟩ | ⟨other, b, held, here⟩ := represents.view y
      · rw [gone, gone']
        exact .none
      · rw [held, here]
        refine .some (represents.swap idle held here ?_)
        rintro rfl
        rw [here] at new
        cases new
    · exact .none
  | assign x p y =>
    simp only [IbufferMemory.step, IbufferValues.step]
    obtain ⟨gone, gone'⟩ | ⟨this, old, held, here⟩ := represents.view x
    · rw [gone, gone']
      exact .none
    obtain ⟨gone, gone'⟩ | ⟨other, b, held', here'⟩ := represents.view y
    · rw [gone, gone', held, here]
      exact .none
    rw [held, held', here, here']
    simp only [Option.bind_some, Option.map_some]
    split
    · rename_i same
      subst same
      rw [← here', update_eq_self]
      exact .some represents
    · rename_i apart
      obtain ⟨t, deleted, represents', handle, free⟩ := represents.destruct held
      have null : t.handle x = some ⟨none, 0⟩ := by rw [handle, update_self]
      have kept : t.handle y = some other := by rw [handle, update_of_ne (Ne.symm apart), held']
      have kept' : Function.update v x (some .empty) y = some b := by rw [update_of_ne (Ne.symm apart), here']
      obtain ⟨size, read⟩ := represents'.source kept kept'
      have constructed := represents'.construct (b := b) (Store.idle_of_null null rfl)
        (free p (unused.imp_right fun own => by rwa [held] at own))
      rw [update_idem] at constructed
      rw [deleted, Option.bind_some, read, size]
      exact .some constructed
  | moveAssign x y =>
    simp only [IbufferMemory.step, IbufferValues.step]
    obtain ⟨gone, gone'⟩ | ⟨this, old, held, here⟩ := represents.view x
    · rw [gone, gone']
      exact .none
    obtain ⟨gone, gone'⟩ | ⟨other, b, held', here'⟩ := represents.view y
    · rw [gone, gone', held, here]
      exact .none
    rw [held, held', here, here']
    simp only [Option.bind_some, Option.map_some]
    split
    · exact .some represents
    · rename_i apart
      obtain ⟨t, deleted, represents', handle, _⟩ := represents.destruct held
      have null : t.handle x = some ⟨none, 0⟩ := by rw [handle, update_self]
      have kept : t.handle y = some other := by rw [handle, update_of_ne (Ne.symm apart), held']
      have kept' : Function.update v x (some .empty) y = some b := by rw [update_of_ne (Ne.symm apart), here']
      have swapped := represents'.swap (Store.idle_of_null null rfl) kept kept' apart
      rw [update_idem] at swapped
      rw [deleted, Option.map_some]
      exact .some swapped
  | write x offset bs =>
    simp only [IbufferMemory.step, IbufferValues.step]
    obtain ⟨gone, gone'⟩ | ⟨this, b, held, here⟩ := represents.view x
    · rw [gone, gone']
      exact .none
    have length := (represents.source held here).1
    rw [held, here]
    simp only [Option.bind_some, length, Ibuffer.size_toNat]
    by_cases fits : offset + bs.length ≤ b.bytes.length
    · rw [if_pos fits, dif_pos fits]
      exact represents.splice held here fits
    · rw [if_neg fits, dif_neg fits]
      exact .none
  | destroy x =>
    simp only [IbufferMemory.step, IbufferValues.step]
    obtain ⟨gone, gone'⟩ | ⟨this, b, held, here⟩ := represents.view x
    · rw [gone, gone']
      exact .none
    obtain ⟨t, deleted, represents', handle, _⟩ := represents.destruct held
    have null : t.handle x = some ⟨none, 0⟩ := by rw [handle, update_self]
    obtain ⟨sound, contents⟩ := represents'.sound.clear (h := none) (Store.idle_of_null null rfl) rfl
    rw [held, here, Option.bind_some, deleted]
    refine .some ⟨sound, ?_⟩
    rw [contents, represents'.contents]
    funext y
    by_cases same : y = x
    · subst same
      simp
    · simp [same]

theorem blank (new : v x = none) (unused : m.heap p = none) (garbage : Ibuffer) :
    ∃ t, m.step (.blank x p garbage) = some t ∧ t.Represents (Function.update v x (some garbage)) := by
  have absent := represents.handle_eq_none.mpr new
  refine ⟨m.construct x p garbage.size garbage.bytes, ?_, represents.construct (Store.idle_of_none absent) unused⟩
  rw [IbufferMemory.step, absent]
  rfl

theorem write_of_fits (here : v x = some b) {bs : List UInt8} (fits : offset + bs.length ≤ b.bytes.length) :
    ∃ t, m.step (.write x offset bs) = some t ∧
      t.Represents (Function.update v x (some (b.splice offset bs fits))) := by
  have both := represents.step (.write x offset bs) trivial
  simp only [IbufferValues.step, here, Option.bind_some, dif_pos fits] at both
  generalize m.step (.write x offset bs) = next at both
  cases both with
  | some represents' => exact ⟨_, rfl, represents'⟩

theorem write_of_not_fits (here : v x = some b) {bs : List UInt8} (beyond : ¬offset + bs.length ≤ b.bytes.length) :
    m.step (.write x offset bs) = none := by
  have both := represents.step (.write x offset bs) trivial
  simp only [IbufferValues.step, here, Option.bind_some, dif_neg beyond] at both
  generalize m.step (.write x offset bs) = next at both
  cases both with
  | none => rfl

/-- What is read from the object is its buffer. -/
theorem read (here : v x = some b) : (m.handle x).bind m.source = some b.bytes := by
  obtain ⟨_, gone⟩ | ⟨h, _, held, here'⟩ := represents.view x
  · rw [gone] at here
    cases here
  · rw [held, Option.bind_some, (represents.source held here).2]

end Represents

/-- An `ibuffer` is a value: however objects are constructed, copied, moved,
assigned, written to and destroyed, wherever the allocator puts their arrays,
each holds the bytes that it has as a value of its own. Nothing is deleted twice
or read after its deletion, what a value allows no object fails to do, and with
the last object the last array is gone. -/
theorem value_semantics {labels : List Action} (run : Run IbufferMemory.step Unused .empty labels m) :
    ∃ v : IbufferValues, Run IbufferValues.step free (fun _ => none) labels v ∧ m.Represents v ∧
      (∀ a, m.Unused a → ((m.step a).isSome ↔ (v.step a).isSome)) ∧
      ((∀ x, v x = none) → ∀ p, m.heap p = none) := by
  obtain ⟨v, run', represents⟩ := run.lockstep Represents.empty fun _ a _ represents => represents.step a
  refine ⟨v, run', represents, fun a unused => ?_, fun gone => ?_⟩
  · have both := represents.step a unused
    generalize m.step a = next at both ⊢
    generalize IbufferValues.step v a = next' at both ⊢
    cases both with
    | none => rfl
    | some => rfl
  · exact represents.sound.released fun x => represents.handle_eq_none.mpr (gone x)

/-- A copy that is written to, moved back, and copied twice into one array. -/
def copies : List Action :=
  [.construct 0 100 2 [1, 2, 3], .copy 1 101 0, .write 1 1 [9], .moveAssign 0 1, .assign 1 100 0, .assign 1 100 0]

theorem value_semantics_copies :
    ∃ m v, Run IbufferMemory.step Unused .empty copies m ∧ Run IbufferValues.step free (fun _ => none) copies v ∧
      (m.heap 100, m.heap 101) = (some [1, 9], some [1, 9]) ∧ m.Represents v ∧
      (∀ a, m.Unused a → ((m.step a).isSome ↔ (v.step a).isSome)) ∧
      ((∀ x, v x = none) → ∀ p, m.heap p = none) := by
  have trace : (exec IbufferMemory.step Unused .empty copies).map (fun m => (m.heap 100, m.heap 101)) =
      some (some [1, 9], some [1, 9]) := by decide
  obtain ⟨m, done, arrays⟩ := Option.map_eq_some_iff.mp trace
  obtain ⟨v, run, represents, same, released⟩ := value_semantics (exec_run done)
  exact ⟨m, v, exec_run done, run, arrays, represents, same, released⟩

/-- What `encode_packet` does to its buffer, whose memory comes with any bytes.
An empty body is not copied. -/
def encodeWrites (pack : Packet) (short : pack.deviceId.length < deviceIdSize) (x p : Nat) (garbage : Ibuffer) :
    List Action :=
  [.blank x p garbage, .write x 0 (pack.sealedHeader short).bytes, .write x headerLength pack.body.bytes]

/-- Header and body fill the buffer. -/
theorem splice_frame {pack : Packet} (short : pack.deviceId.length < deviceIdSize) {garbage header : Ibuffer}
    (size : garbage.bytes.length = headerLength + pack.body.bytes.length)
    (first : header.bytes = (pack.sealedHeader short).bytes ++ garbage.bytes.drop headerLength)
    (fits : headerLength + pack.body.bytes.length ≤ header.bytes.length) :
    (header.splice headerLength pack.body.bytes fits).bytes = pack.frame short := by
  have front : (pack.sealedHeader short).bytes.length = headerLength := PacketHeader.bytes_length _
  have length : header.bytes.length = headerLength + pack.body.bytes.length := by
    rw [first, List.length_append, List.length_drop, front]
    omega
  simp only [Ibuffer.splice]
  rw [List.drop_eq_nil_of_le length.le, List.append_nil, first, List.take_left' front, Packet.frame]

/-- The encoder at work: in a buffer of the 32-bit length that it computes its
copies stay inside exactly if the encoding is defined, and then they leave the
encoded packet and nothing of what was in the memory before. -/
theorem encode_written (represents : m.Represents v) (new : v x = none) (unused : m.heap p = none) {pack : Packet}
    (short : pack.deviceId.length < deviceIdSize) {garbage : Ibuffer}
    (size : garbage.size = UInt32.ofNat headerLength + pack.body.size) :
    (exec IbufferMemory.step Unused m (encodeWrites pack short x p garbage)).bind
      (fun t => (t.handle x).bind t.source) = encodePacket pack := by
  have front : (pack.sealedHeader short).bytes.length = headerLength := PacketHeader.bytes_length _
  have wrapped : garbage.bytes.length = (headerLength + pack.body.bytes.length) % 2 ^ 32 := by
    rw [← garbage.size_toNat, size, UInt32.toNat_add, Ibuffer.size_toNat]
    rfl
  obtain ⟨m₁, allocated, represents₁⟩ := represents.blank new unused garbage
  have here₁ : Function.update v x (some garbage) x = some garbage := update_self ..
  rw [encodeWrites, exec_cons (show m.Unused (.blank x p garbage) from unused) allocated]
  by_cases small : pack.body.bytes.length < 2 ^ 32 - headerLength
  · have length : garbage.bytes.length = headerLength + pack.body.bytes.length := by
      rw [wrapped]
      exact Nat.mod_eq_of_lt (by simp only [headerLength] at small ⊢; omega)
    have fits : 0 + (pack.sealedHeader short).bytes.length ≤ garbage.bytes.length := by
      rw [front, length, Nat.zero_add]
      exact Nat.le_add_right _ _
    obtain ⟨m₂, copied, represents₂⟩ := represents₁.write_of_fits here₁ fits
    have header : (garbage.splice 0 (pack.sealedHeader short).bytes fits).bytes =
        (pack.sealedHeader short).bytes ++ garbage.bytes.drop headerLength := by
      simp only [Ibuffer.splice, List.take_zero, List.nil_append, Nat.zero_add, front]
    have fits' : headerLength + pack.body.bytes.length ≤
        (garbage.splice 0 (pack.sealedHeader short).bytes fits).bytes.length := by
      rw [Ibuffer.splice_length, length]
    obtain ⟨m₃, copied', represents₃⟩ := represents₂.write_of_fits (update_self ..) fits'
    rw [exec_cons trivial copied, exec_cons trivial copied', exec, Option.bind_some, represents₃.read (update_self ..),
      splice_frame short length header fits', encodePacket_eq_some.mpr ⟨short, small, rfl⟩]
  · have undefined : encodePacket pack = none := by
      rcases encoded : encodePacket pack with _ | bs
      · rfl
      · exact absurd (encodePacket_eq_some.mp encoded).2.1 small
    have bound := pack.body.size_lt
    have beyond : ¬headerLength + pack.body.bytes.length ≤ garbage.bytes.length := by
      simp only [headerLength] at small wrapped ⊢
      omega
    rw [undefined]
    by_cases fits : 0 + (pack.sealedHeader short).bytes.length ≤ garbage.bytes.length
    · obtain ⟨m₂, copied, represents₂⟩ := represents₁.write_of_fits here₁ fits
      have stuck := represents₂.write_of_not_fits (update_self ..) (show ¬headerLength + pack.body.bytes.length ≤ _ by
        rwa [Ibuffer.splice_length])
      rw [exec_cons trivial copied, exec_stuck stuck, Option.bind_none]
    · rw [exec_stuck (represents₁.write_of_not_fits here₁ fits), Option.bind_none]

theorem encode_written_ping :
    (exec IbufferMemory.step Unused .empty
      (encodeWrites ping (by decide) 0 100 ⟨List.replicate 88 0xff, by decide⟩)).bind
        (fun t => (t.handle 0).bind t.source) = encodePacket ping :=
  encode_written Represents.empty rfl rfl (by decide) (by decide)

end IbufferMemory
end Asyncmsg
