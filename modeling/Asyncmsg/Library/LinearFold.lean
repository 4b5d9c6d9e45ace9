import Mathlib.Data.List.Basic

namespace LinearFold
variable {α β : Type*} {op : α → α → α} {step : α → α} {zero : α}

/-- A checksum takes in one word after the other and steps behind each. -/
def fold (op : α → α → α) (step : α → α) (acc : α) (xs : List α) : α :=
  xs.foldl (fun acc x => step (op acc x)) acc

@[simp] theorem fold_nil (acc : α) : fold op step acc [] = acc := rfl

@[simp] theorem fold_cons (acc x : α) (xs : List α) :
    fold op step acc (x :: xs) = fold op step (step (op acc x)) xs := rfl

theorem fold_append (acc : α) (xs ys : List α) :
    fold op step acc (xs ++ ys) = fold op step (fold op step acc xs) ys :=
  List.foldl_append

/-- A linear step makes the whole checksum linear in its start and its words. -/
theorem fold_zipWith [Std.Associative op] [Std.Commutative op]
    (linear : ∀ a b, step (op a b) = op (step a) (step b)) {xs ys : List α} (same : xs.length = ys.length)
    (a b : α) :
    fold op step (op a b) (List.zipWith op xs ys) = op (fold op step a xs) (fold op step b ys) := by
  induction xs generalizing ys a b with
  | nil =>
    cases List.length_eq_zero_iff.mp same.symm
    rfl
  | cons x xs ih =>
    cases ys with
    | nil => cases same
    | cons y ys =>
      have exchange : op (op a b) (op x y) = op (op a x) (op b y) := by ac_rfl
      rw [List.zipWith_cons_cons, fold_cons, fold_cons, fold_cons, exchange, linear]
      exact ih (Nat.succ.inj same) _ _

/-- A map that the step does not see takes the checksum to the fold of the
words' images. -/
theorem map_fold {f : α → β} {add : β → β → β} (hom : ∀ a b, f (op a b) = add (f a) (f b))
    (blind : ∀ a, f (step a) = f a) (acc : α) (xs : List α) :
    f (fold op step acc xs) = xs.foldl (fun b x => add b (f x)) (f acc) := by
  induction xs generalizing acc with
  | nil => rfl
  | cons x xs ih => rw [fold_cons, ih, blind, hom, List.foldl_cons]

variable [Std.LawfulIdentity op zero]

/-- Zero words neither bring a checksum to zero nor take it away from there. -/
theorem fold_zeros (kernel : ∀ a, step a = zero ↔ a = zero) {xs : List α} (zeros : ∀ x ∈ xs, x = zero)
    (acc : α) : fold op step acc xs = zero ↔ acc = zero := by
  induction xs generalizing acc with
  | nil => rfl
  | cons x xs ih =>
    rw [fold_cons, ih fun y member => zeros y (List.mem_cons_of_mem x member), kernel,
      zeros x List.mem_cons_self, @Std.LawfulRightIdentity.right_id _ _ op zero]

/-- Two words among zeros cancel out only against each other. -/
theorem fold_pair (kernel : ∀ a, step a = zero ↔ a = zero) {front back : List α}
    (front_zeros : ∀ x ∈ front, x = zero) (back_zeros : ∀ x ∈ back, x = zero) (a b : α) :
    fold op step zero (front ++ a :: b :: back) = zero ↔ op (step a) b = zero := by
  have start : fold op step zero front = zero := (fold_zeros kernel front_zeros zero).mpr rfl
  rw [fold_append, start, fold_cons, fold_cons, fold_zeros kernel back_zeros, kernel,
    @Std.LawfulLeftIdentity.left_id _ _ op zero]

end LinearFold
