import Mathlib.Data.List.Forall2

/-!
Results that may be errors. A sequence of steps ends with its first error. Reading a list element by
element succeeds with the results of its elements, each in its place, or fails with the error of the
first element that cannot be read.
-/

namespace OneTwo

variable {α β ε δ : Type}

theorem bind_eq_ok_iff {x : Except ε α} {f : α → Except ε β} {y : β} :
    x >>= f = .ok y ↔ ∃ a, x = .ok a ∧ f a = .ok y := by
  cases x <;> simp [bind, Except.bind]

theorem map_eq_ok_iff {x : Except ε α} {f : α → β} {y : β} :
    f <$> x = .ok y ↔ ∃ a, x = .ok a ∧ f a = y := by
  cases x <;> simp [Functor.map, Except.map]

theorem map_eq_error_iff {x : Except ε α} {f : α → β} {error : ε} :
    f <$> x = .error error ↔ x = .error error := by
  cases x <;> simp [Functor.map, Except.map]

section MapError

variable {failure : ε → δ} {x : Except ε α} {cause : δ}

theorem mapError_eq_error_iff :
    x.mapError failure = .error cause ↔ ∃ error, x = .error error ∧ failure error = cause := by
  cases x <;> simp [Except.mapError]

theorem mapError_bind_iff {f : α → Except δ β} (P : Except δ β → Prop) :
    P (x.mapError failure >>= f) ↔
      (∃ error, x = .error error ∧ P (.error (failure error))) ∨
        ∃ value, x = .ok value ∧ P (f value) := by
  cases x <;> simp [Except.mapError, bind, Except.bind]

theorem mapError_bind_eq_error_iff {f : α → Except δ β} :
    x.mapError failure >>= f = .error cause ↔
      (∃ error, x = .error error ∧ failure error = cause) ∨
        ∃ value, x = .ok value ∧ f value = .error cause := by
  rw [mapError_bind_iff (· = .error cause)]
  simp only [Except.error.injEq]

end MapError

theorem mapM_eq_ok_iff {f : α → Except ε β} {xs : List α} {ys : List β} :
    xs.mapM f = .ok ys ↔ List.Forall₂ (fun x y => f x = .ok y) xs ys := by
  induction xs generalizing ys with
  | nil => cases ys <;> simp [pure, Except.pure]
  | cons x xs ih =>
    rw [List.mapM_cons]
    cases first : f x with
    | error error => cases ys <;> simp [bind, Except.bind, first]
    | ok y =>
      cases others : xs.mapM f with
      | error error => cases ys <;> simp [bind, Except.bind, first, others, ← ih]
      | ok rest => cases ys <;> simp [bind, Except.bind, pure, Except.pure, first, others, ← ih]

theorem mapM_eq_ok_iff_map_eq {f : α → Except ε β} {g : β → α}
    (undone : ∀ x y, f x = .ok y ↔ g y = x) {xs : List α} {ys : List β} :
    xs.mapM f = .ok ys ↔ ys.map g = xs := by
  simp only [mapM_eq_ok_iff, undone, eq_comm (b := xs)]
  rw [← List.forall₂_eq_eq_eq, List.forall₂_map_right_iff]
  simp only [eq_comm]

theorem exists_mapM_eq_ok_iff {f : α → Except ε β} {xs : List α} :
    (∃ ys, xs.mapM f = .ok ys) ↔ ∀ x ∈ xs, ∃ y, f x = .ok y := by
  induction xs with
  | nil => simp [pure, Except.pure]
  | cons x xs ih =>
    rw [List.forall_mem_cons, ← ih, List.mapM_cons]
    cases f x <;> cases xs.mapM f <;> simp [bind, Except.bind, pure, Except.pure]

theorem mapM_cons_eq_error_iff {f : α → Except ε β} {x : α} {xs : List α} {error : ε} :
    (x :: xs).mapM f = .error error ↔
      f x = .error error ∨ (∃ y, f x = .ok y) ∧ xs.mapM f = .error error := by
  rw [List.mapM_cons]
  cases f x <;> cases xs.mapM f <;> simp [bind, Except.bind, pure, Except.pure]

theorem mapM_eq_error_iff {f : α → Except ε β} {xs : List α} {error : ε} :
    xs.mapM f = .error error ↔ ∃ (i : Nat) (x : α), xs[i]? = some x ∧ f x = .error error ∧
      ∀ j < i, ∀ y, xs[j]? = some y → ∃ z, f y = .ok z := by
  induction xs with
  | nil => simp [pure, Except.pure]
  | cons x xs ih =>
    rw [mapM_cons_eq_error_iff, ih]
    constructor
    · rintro (failed | ⟨read, i, y, there, failed, before⟩)
      · exact ⟨0, x, rfl, failed, fun j below => absurd below (Nat.not_lt_zero j)⟩
      · refine ⟨i + 1, y, there, failed, ?_⟩
        rintro (_ | j) below v same
        · cases same
          exact read
        · exact before j (Nat.lt_of_succ_lt_succ below) v same
    · rintro ⟨_ | i, y, there, failed, before⟩
      · cases there
        exact .inl failed
      · refine .inr ⟨before 0 (Nat.succ_pos i) x rfl, i, y, there, failed, fun j below => ?_⟩
        exact before (j + 1) (Nat.succ_lt_succ below)

end OneTwo
