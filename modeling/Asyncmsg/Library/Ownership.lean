import Mathlib.Logic.Function.Basic
import Mathlib.Tactic.Common

namespace Ownership
variable {ν α β δ : Type*}

/-- A pointer, null or to a block, and what its object keeps beside it. -/
structure Handle (α δ : Type*) where
  pointer : Option α
  tag : δ

/-- Blocks of memory by their addresses, and handles by the names of the objects
that have them. -/
structure Store (ν α β δ : Type*) where
  heap : α → Option β
  handle : ν → Option (Handle α δ)

namespace Store

def empty : Store ν α β δ := ⟨fun _ => none, fun _ => none⟩

variable (s t : Store ν α β δ)

def Holds (x : ν) (p : α) : Prop := ∃ h, s.handle x = some h ∧ h.pointer = some p

/-- What an object stands for: the block it points to, and the tag. -/
def contents (x : ν) : Option (Option β × δ) := (s.handle x).map fun h => (h.pointer.bind s.heap, h.tag)

/-- Every pointer is to a block, no two to one, and no block is lost. -/
structure Sound : Prop where
  allocated : ∀ x p, s.Holds x p → s.heap p ≠ none
  unique : ∀ x y p, s.Holds x p → s.Holds y p → x = y
  owned : ∀ p, s.heap p ≠ none → ∃ x, s.Holds x p

/-- There is no such object, or its pointer is null. -/
def Idle (x : ν) : Prop := ∀ p, ¬s.Holds x p

variable {s t} {x y z : ν} {p q : α} {block : β} {h : Handle α δ} {tag : δ}

theorem empty_sound : (empty : Store ν α β δ).Sound where
  allocated _ _ holds := by obtain ⟨_, held, _⟩ := holds; cases held
  unique _ _ _ holds := by obtain ⟨_, held, _⟩ := holds; cases held
  owned _ used := absurd rfl used

/-- Where no object is left, no block is. -/
theorem Sound.released (sound : s.Sound) (gone : ∀ x, s.handle x = none) (p : α) : s.heap p = none := by
  by_contra left
  obtain ⟨x, h, held, _⟩ := sound.owned p left
  rw [gone x] at held
  cases held

theorem idle_of_none (absent : s.handle x = none) : s.Idle x := fun _ ⟨_, held, _⟩ => by
  rw [absent] at held
  cases held

theorem idle_of_null (held : s.handle x = some h) (null : h.pointer = none) : s.Idle x := fun _ ⟨_, held', here⟩ => by
  cases held.symm.trans held'
  rw [null] at here
  cases here

theorem holds_of_handle (held : s.handle x = some h) : s.Holds x p ↔ h.pointer = some p := by
  rw [Holds, held]
  simp

theorem contents_of_handle (held : s.handle x = some h) : s.contents x = some (h.pointer.bind s.heap, h.tag) := by
  rw [contents, held, Option.map_some]

/-- An object stands for the same where its handle and its block have not changed. -/
theorem contents_congr (same : t.handle x = s.handle x) (kept : ∀ p, s.Holds x p → t.heap p = s.heap p) :
    t.contents x = s.contents x := by
  unfold contents
  rw [same]
  rcases held : s.handle x with _ | ⟨_ | p, tag⟩
  · rfl
  · rfl
  · simp only [Option.map_some, Option.bind_some, kept p ⟨_, held, rfl⟩]

open Function

section Point
variable [DecidableEq ν]

/-- Another handle under the name, whatever was there. -/
def point (s : Store ν α β δ) (x : ν) (h : Option (Handle α δ)) : Store ν α β δ :=
  { s with handle := update s.handle x h }

variable {h : Option (Handle α δ)}

@[simp] theorem point_heap : (s.point x h).heap = s.heap := rfl
@[simp] theorem point_handle : (s.point x h).handle = update s.handle x h := rfl

theorem point_holds : (s.point x h).Holds y q ↔ y = x ∧ h.bind Handle.pointer = some q ∨ y ≠ x ∧ s.Holds y q := by
  by_cases same : y = x
  · subst same
    simp [Holds, Option.bind_eq_some_iff]
  · simp [Holds, same]

/-- No block is lost with a handle that has none. -/
theorem Sound.clear (sound : s.Sound) (idle : s.Idle x) (null : h.bind Handle.pointer = none) :
    (s.point x h).Sound ∧ (s.point x h).contents = update s.contents x (h.map fun h => (none, h.tag)) := by
  have holds : ∀ y q, (s.point x h).Holds y q ↔ s.Holds y q := fun y q => by
    rw [point_holds, null]
    simp only [reduceCtorEq, and_false, false_or, and_iff_right_iff_imp]
    exact fun old same => idle q (same ▸ old)
  refine ⟨⟨fun y q held => ?_, fun y z q held held' => ?_, fun q used => ?_⟩, funext fun y => ?_⟩
  · exact sound.allocated y q ((holds y q).mp held)
  · exact sound.unique y z q ((holds y q).mp held) ((holds z q).mp held')
  · obtain ⟨y, old⟩ := sound.owned q used
    exact ⟨y, (holds y q).mpr old⟩
  · by_cases same : y = x
    · subst same
      rw [update_self, contents, point_handle, update_self]
      rcases h with _ | ⟨_ | p, tag⟩
      · rfl
      · rfl
      · cases null
    · rw [update_of_ne same]
      exact contents_congr (update_of_ne same _ _) fun _ _ => rfl

/-- A handle is handed over: what was worth `y` is worth `x`. -/
theorem Sound.move (sound : s.Sound) (idle : s.Idle x) {h : Handle α δ} (held : s.handle y = some h) (other : x ≠ y)
    (tag : δ) :
    ((s.point x (some h)).point y (some ⟨none, tag⟩)).Sound ∧
      ((s.point x (some h)).point y (some ⟨none, tag⟩)).contents =
        update (update s.contents x (s.contents y)) y (some (none, tag)) := by
  have holds : ∀ z q, ((s.point x (some h)).point y (some ⟨none, tag⟩)).Holds z q ↔
      z = x ∧ s.Holds y q ∨ z ≠ x ∧ z ≠ y ∧ s.Holds z q := fun z q => by
    rw [point_holds, point_holds, holds_of_handle held]
    by_cases new : z = x
    · simp [new, other]
    · simp [new]
  refine ⟨⟨fun z q here => ?_, fun z w q here here' => ?_, fun q used => ?_⟩, funext fun z => ?_⟩
  · rcases (holds z q).mp here with ⟨_, old⟩ | ⟨_, _, old⟩
    · exact sound.allocated y q old
    · exact sound.allocated z q old
  · rcases (holds z q).mp here with ⟨rfl, old⟩ | ⟨_, notSource, old⟩ <;>
      rcases (holds w q).mp here' with ⟨rfl, old'⟩ | ⟨_, notSource', old'⟩
    · rfl
    · exact absurd (sound.unique w y q old' old) notSource'
    · exact absurd (sound.unique z y q old old') notSource
    · exact sound.unique z w q old old'
  · obtain ⟨z, old⟩ := sound.owned q used
    by_cases source : z = y
    · exact ⟨x, (holds x q).mpr (Or.inl ⟨rfl, source ▸ old⟩)⟩
    · exact ⟨z, (holds z q).mpr (Or.inr ⟨fun same => idle q (same ▸ old), source, old⟩)⟩
  · by_cases source : z = y
    · subst source
      simp [contents]
    · rw [update_of_ne source]
      by_cases new : z = x
      · subst new
        simp [contents, held, source]
      · rw [update_of_ne new]
        refine contents_congr ?_ fun _ _ => rfl
        rw [point_handle, update_of_ne source, point_handle, update_of_ne new]

end Point

section Fill
variable [DecidableEq α]

/-- Another block at the address, or none. -/
def fill (s : Store ν α β δ) (p : α) (block : Option β) : Store ν α β δ := { s with heap := update s.heap p block }

variable {block : Option β}

@[simp] theorem fill_heap : (s.fill p block).heap = update s.heap p block := rfl
@[simp] theorem fill_handle : (s.fill p block).handle = s.handle := rfl
@[simp] theorem fill_holds : (s.fill p block).Holds x q ↔ s.Holds x q := Iff.rfl

end Fill

variable [DecidableEq ν] [DecidableEq α]

/-- A block at an address that is not in use, for one handle. -/
theorem Sound.alloc (sound : s.Sound) (idle : s.Idle x) (fresh : s.heap p = none) (block : β) (tag : δ) :
    ((s.fill p (some block)).point x (some ⟨some p, tag⟩)).Sound ∧
      ((s.fill p (some block)).point x (some ⟨some p, tag⟩)).contents =
        update s.contents x (some (some block, tag)) := by
  have apart : ∀ y q, s.Holds y q → q ≠ p := fun y q holds same => sound.allocated y q holds (same ▸ fresh)
  have holds : ∀ y q, ((s.fill p (some block)).point x (some ⟨some p, tag⟩)).Holds y q ↔
      y = x ∧ p = q ∨ y ≠ x ∧ s.Holds y q := fun y q => by
    rw [point_holds, fill_holds, Option.bind_some, Option.some.injEq]
  refine ⟨⟨fun y q held => ?_, fun y z q held held' => ?_, fun q used => ?_⟩, funext fun y => ?_⟩
  · rw [point_heap, fill_heap]
    rcases (holds y q).mp held with ⟨_, rfl⟩ | ⟨_, old⟩
    · simp
    · rw [update_of_ne (apart y q old)]
      exact sound.allocated y q old
  · rcases (holds y q).mp held with ⟨rfl, rfl⟩ | ⟨_, old⟩ <;>
      rcases (holds z _).mp held' with ⟨rfl, same⟩ | ⟨_, old'⟩
    · rfl
    · exact absurd rfl (apart z _ old')
    · exact absurd same.symm (apart y q old)
    · exact sound.unique y z q old old'
  · by_cases new : q = p
    · exact ⟨x, (holds x q).mpr (Or.inl ⟨rfl, new.symm⟩)⟩
    · rw [point_heap, fill_heap, update_of_ne new] at used
      obtain ⟨y, old⟩ := sound.owned q used
      exact ⟨y, (holds y q).mpr (Or.inr ⟨fun same => idle q (same ▸ old), old⟩)⟩
  · by_cases same : y = x
    · subst same
      simp [contents]
    · rw [update_of_ne same]
      exact contents_congr (update_of_ne same _ _) fun q old => update_of_ne (apart y q old) _ _

/-- A block goes together with its handle. -/
theorem Sound.free (sound : s.Sound) (holds : s.Holds x p) (tag : δ) :
    ((s.fill p none).point x (some ⟨none, tag⟩)).Sound ∧
      ((s.fill p none).point x (some ⟨none, tag⟩)).contents = update s.contents x (some (none, tag)) := by
  have apart : ∀ y q, y ≠ x → s.Holds y q → q ≠ p := fun y q other old same =>
    other (sound.unique y x p (same ▸ old) holds)
  have holds' : ∀ y q, ((s.fill p none).point x (some ⟨none, tag⟩)).Holds y q ↔ y ≠ x ∧ s.Holds y q := fun y q => by
    rw [point_holds, fill_holds]
    simp
  refine ⟨⟨fun y q held => ?_, fun y z q held held' => ?_, fun q used => ?_⟩, funext fun y => ?_⟩
  · obtain ⟨other, old⟩ := (holds' y q).mp held
    rw [point_heap, fill_heap, update_of_ne (apart y q other old)]
    exact sound.allocated y q old
  · exact sound.unique y z q ((holds' y q).mp held).2 ((holds' z q).mp held').2
  · have other : q ≠ p := by
      rintro rfl
      simp at used
    rw [point_heap, fill_heap, update_of_ne other] at used
    obtain ⟨y, old⟩ := sound.owned q used
    refine ⟨y, (holds' y q).mpr ⟨?_, old⟩⟩
    rintro rfl
    obtain ⟨h, held, here⟩ := holds
    exact other (Option.some.inj (((holds_of_handle held).mp old).symm.trans here))
  · by_cases same : y = x
    · subst same
      simp [contents]
    · rw [update_of_ne same]
      exact contents_congr (update_of_ne same _ _) fun q old => update_of_ne (apart y q same old) _ _

/-- Writing to a block shows through its own handle only. -/
theorem Sound.write (sound : s.Sound) (held : s.handle x = some h) (here : h.pointer = some p) (block : β) :
    (s.fill p (some block)).Sound ∧
      (s.fill p (some block)).contents = update s.contents x (some (some block, h.tag)) := by
  have holds : s.Holds x p := ⟨h, held, here⟩
  refine ⟨⟨fun y q old => ?_, sound.unique, fun q used => ?_⟩, funext fun y => ?_⟩
  · rw [fill_heap]
    by_cases same : q = p
    · simp [same]
    · rw [update_of_ne same]
      exact sound.allocated y q old
  · by_cases same : q = p
    · exact ⟨x, same ▸ holds⟩
    · rw [fill_heap, update_of_ne same] at used
      exact sound.owned q used
  · by_cases same : y = x
    · subst same
      rw [update_self, contents, fill_handle, held, Option.map_some, here]
      simp
    · rw [update_of_ne same]
      refine contents_congr rfl fun q old => update_of_ne ?_ _ _
      rintro rfl
      exact same (sound.unique y x q old holds)

end Store
end Ownership
