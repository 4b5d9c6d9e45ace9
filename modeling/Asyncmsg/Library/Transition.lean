import Mathlib.Data.List.Induction
import Mathlib.Tactic.Common

namespace Transition
variable {S A : Type*}

/-- Runs of a partial labelled step from a fixed start, recorded by their
labels. Every step taken meets the guard, a condition on the label and on
the state it is taken in. -/
inductive Run (step : S → A → Option S) (guard : S → A → Prop) (start : S) : List A → S → Prop
  | nil : Run step guard start [] start
  | snoc {labels s a t} : Run step guard start labels s → guard s a → step s a = some t →
      Run step guard start (labels ++ [a]) t

/-- The guard that every step meets. -/
def free (_ : S) (_ : A) : Prop := True

instance (s : S) (a : A) : Decidable (free s a) := inferInstanceAs (Decidable True)

variable {step : S → A → Option S} {guard other : S → A → Prop} {start s t : S} {labels : List A}

/-- What holds at the start and survives every guarded step holds at the end. -/
theorem Run.invariant {I : S → Prop} (run : Run step guard start labels s) (first : I start)
    (preserve : ∀ s a t, I s → guard s a → step s a = some t → I t) : I s := by
  induction run with
  | nil => exact first
  | snoc _ met taken ih => exact preserve _ _ _ ih met taken

/-- A guard may be exchanged for one that follows from it in every state
the run can be in. -/
theorem Run.weaken {I : S → Prop} (run : Run step guard start labels s) (first : I start)
    (preserve : ∀ s a t, I s → guard s a → step s a = some t → I t)
    (implied : ∀ s a t, I s → guard s a → step s a = some t → other s a) : Run step other start labels s := by
  induction run with
  | nil => exact .nil
  | snoc before met taken ih =>
    exact .snoc ih (implied _ _ _ (before.invariant first preserve) met taken) taken

/-- Which guard the steps have met may be forgotten. -/
theorem Run.unguarded (run : Run step guard start labels s) : Run step free start labels s := by
  induction run with
  | nil => exact .nil
  | snoc _ _ taken ih => exact .snoc ih trivial taken

/-- A forward simulation: what one machine does under its guard another does
under the same labels. -/
theorem Run.simulate {T : Type*} {R : S → T → Prop} {step' : T → A → Option T} {guard' : T → A → Prop} {start' : T}
    (run : Run step guard start labels s) (first : R start start')
    (simulates : ∀ s a t u, R s u → guard s a → step s a = some t → ∃ w, guard' u a ∧ step' u a = some w ∧ R t w) :
    ∃ u, Run step' guard' start' labels u ∧ R s u := by
  induction run with
  | nil => exact ⟨start', .nil, first⟩
  | snoc _ met taken ih =>
    obtain ⟨u, before, related⟩ := ih
    obtain ⟨w, met', taken', related'⟩ := simulates _ _ _ _ related met taken
    exact ⟨w, .snoc before met' taken', related'⟩

/-- Machines in lockstep: under one label both take a step or neither does. -/
theorem Run.lockstep {T : Type*} {R : S → T → Prop} {step' : T → A → Option T} {start' : T}
    (run : Run step guard start labels s) (first : R start start')
    (lock : ∀ s a u, R s u → guard s a → Option.Rel R (step s a) (step' u a)) :
    ∃ u, Run step' free start' labels u ∧ R s u :=
  run.simulate first fun s a t u related met taken => by
    have both := lock s a u related met
    rw [taken] at both
    generalize step' u a = next at both
    cases both with
    | some related' => exact ⟨_, trivial, rfl, related'⟩

theorem Run.trans {more : List A} (first : Run step guard start labels s)
    (second : Run step guard s more t) : Run step guard start (labels ++ more) t := by
  induction second with
  | nil => simpa using first
  | snoc _ met taken ih =>
    rw [← List.append_assoc]
    exact .snoc ih met taken

theorem Run.single {a : A} (met : guard s a) (taken : step s a = some t) : Run step guard s [a] t :=
  .snoc .nil met taken

theorem Run.cons {a : A} (met : guard s a) (taken : step s a = some t) {u : S} (run : Run step guard t labels u) :
    Run step guard s (a :: labels) u :=
  (Run.single met taken).trans run

/-- Nothing happens any more. -/
theorem Run.stuck (run : Run step guard start labels s) (stuck : ∀ a, step start a = none) : s = start :=
  run.invariant (I := fun s => s = start) rfl fun s a t same _ taken => by
    rw [same, stuck] at taken
    cases taken

theorem Run.nil_inv (run : Run step guard start [] s) : s = start := by
  generalize none : ([] : List A) = labels at run
  cases run with
  | nil => rfl
  | snoc => simp at none

theorem Run.snoc_inv {a : A} (run : Run step guard start (labels ++ [a]) t) :
    ∃ s, Run step guard start labels s ∧ guard s a ∧ step s a = some t := by
  generalize whole : labels ++ [a] = all at run
  cases run with
  | nil => simp at whole
  | snoc before met taken =>
    obtain ⟨rfl, rfl⟩ := List.append_inj' whole rfl |>.imp id fun same => (List.cons.inj same).1
    exact ⟨_, before, met, taken⟩

/-- The labels determine the run. -/
theorem Run.unique (run : Run step guard start labels s) (run' : Run step other start labels t) : s = t := by
  induction run generalizing t with
  | nil => exact run'.nil_inv.symm
  | snoc _ _ taken ih =>
    obtain ⟨_, before, _, taken'⟩ := run'.snoc_inv
    cases ih before
    exact Option.some.inj (taken.symm.trans taken')

theorem Run.split {more : List A} (run : Run step guard start (labels ++ more) t) :
    ∃ s, Run step guard start labels s ∧ Run step guard s more t := by
  induction more using List.reverseRecOn generalizing t with
  | nil => exact ⟨t, by simpa using run, .nil⟩
  | append_singleton more a ih =>
    rw [← List.append_assoc] at run
    obtain ⟨_, before, met, taken⟩ := run.snoc_inv
    obtain ⟨s, first, second⟩ := ih before
    exact ⟨s, first, .snoc second met taken⟩

/-- A property that a step keeps exactly if it meets the guard holds all along
a run exactly if every step of the run meets the guard. -/
theorem Run.always_iff {I : S → Prop} (run : Run step free start labels s) (first : I start)
    (exact : ∀ s a t, I s → step s a = some t → (I t ↔ guard s a)) :
    (∀ before after t, labels = before ++ after → Run step free start before t → I t) ↔
      Run step guard start labels s := by
  constructor
  · intro always
    induction run with
    | nil => exact .nil
    | @snoc labels s a t before met taken ih =>
      have earlier := ih fun before after t split => always before (after ++ [a]) t (by simp [split])
      have here := always labels [a] s rfl before
      have there := always (labels ++ [a]) [] t (by simp) (.snoc before met taken)
      exact .snoc earlier ((exact s a t here taken).mp there) taken
  · rintro guarded before after t rfl reached
    obtain ⟨middle, run', _⟩ := guarded.split
    cases reached.unique run'
    exact run'.invariant first fun s a t holds met taken => (exact s a t holds taken).mpr met

/-- A partial step repeated over a list keeps what each of its steps keeps. -/
theorem foldlM_invariant {act : S → A → Option S} {I : S → Prop} (first : I s)
    (preserve : ∀ a ∈ labels, ∀ s t, I s → act s a = some t → I t) (done : labels.foldlM act s = some t) : I t := by
  induction labels generalizing s with
  | nil =>
    cases done
    exact first
  | cons a labels ih =>
    obtain ⟨middle, taken, rest⟩ := Option.bind_eq_some_iff.mp done
    obtain ⟨here, later⟩ := List.forall_mem_cons.mp preserve
    exact ih (here _ _ first taken) later rest

section Execution
variable [∀ s a, Decidable (guard s a)]

variable (step guard) in
/-- Take the labelled steps one after the other, checking every guard. -/
def exec (s : S) : List A → Option S
  | [] => some s
  | a :: labels => if guard s a then (step s a).bind fun t => exec t labels else none

theorem exec_cons {a : A} (met : guard s a) (taken : step s a = some t) :
    exec step guard s (a :: labels) = exec step guard t labels := by
  rw [exec, if_pos met, taken, Option.bind_some]

theorem exec_stuck {a : A} (stuck : step s a = none) : exec step guard s (a :: labels) = none := by
  rw [exec, stuck, Option.bind_none, ite_self]

theorem exec_run (done : exec step guard s labels = some t) : Run step guard s labels t := by
  induction labels generalizing s with
  | nil =>
    cases Option.some.inj done
    exact .nil
  | cons a labels ih =>
    rw [exec] at done
    split at done
    · rename_i met
      obtain ⟨middle, taken, rest⟩ := Option.bind_eq_some_iff.mp done
      exact .cons met taken (ih rest)
    · cases done

end Execution

end Transition
