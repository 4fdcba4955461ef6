import OneTwo.Expr.Random

/-!
Random expressions keep to the depth that was asked for, whatever words they are drawn from.
-/

namespace OneTwo.Expr

variable {σ : Type} (word : StateM σ UInt32)

theorem depth_randomLiteral (s : σ) : ((randomLiteral word).run s).1.depth = 0 := rfl

theorem run_random_succ (depth : Nat) (s : σ) :
    (random word (depth + 1)).run s =
      match randomOperator? (word.run s).1 with
      | none => (randomLiteral word).run (word.run s).2
      | some op =>
        let left := (random word depth).run (word.run s).2
        let right := (random word depth).run left.2
        (apply op left.1 right.1, right.2) := by
  change (match randomOperator? (word.run s).1 with
    | none => randomLiteral word
    | some op => do
      let left ← random word depth
      let right ← random word depth
      return apply op left right : StateM σ Expr).run (word.run s).2 = _
  cases randomOperator? (word.run s).1 <;> rfl

theorem depth_random_le (depth : Nat) (s : σ) : ((random word depth).run s).1.depth ≤ depth := by
  induction depth generalizing s with
  | zero => exact Nat.le_of_eq (depth_randomLiteral word s)
  | succ depth ih =>
    rw [run_random_succ]
    cases randomOperator? (word.run s).1 with
    | none => exact Nat.zero_le _
    | some op => exact depth_apply_le_succ_iff.2 ⟨ih _, ih _⟩

theorem depth_ofSeed_le (source : Random.Source) (seed : UInt64) {depth levels : Nat}
    (inside : depth ≤ levels) : (ofSeed source seed depth).depth ≤ levels :=
  Nat.le_trans (depth_random_le source.next depth (source.ofSeed seed)) inside

end OneTwo.Expr
