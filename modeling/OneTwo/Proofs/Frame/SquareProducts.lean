import OneTwo.Proofs.Expr.Nodes
import OneTwo.Proofs.Frame.Legacy

/-!
Where the two layouts write the same slots. What the legacy layout stores is the expression with
every product squared, and an image has only one expression; so the layouts coincide exactly on the
expressions that squaring leaves alone, those in which the factors of every product are equal.
-/

namespace OneTwo

namespace Expr

/-- The two factors of every product in the expression are equal. -/
def SquareProducts (e : Expr) : Prop :=
  ∀ left right, apply .mul left right ∈ e.nodes → left = right

theorem squareProducts_literal (l : Literal) : (literal l).SquareProducts := by
  intro left right there
  cases List.mem_singleton.1 there

theorem squareProducts_apply_iff {op : Operator} {left right : Expr} :
    (apply op left right).SquareProducts ↔
      (op = .mul → left = right) ∧ left.SquareProducts ∧ right.SquareProducts :=
  forall_apply_mem_nodes_iff

instance decidableSquareProducts : DecidablePred SquareProducts
  | literal l => .isTrue (squareProducts_literal l)
  | apply _ left right =>
    have := decidableSquareProducts left
    have := decidableSquareProducts right
    decidable_of_iff _ squareProducts_apply_iff.symm

theorem squared_eq_self_iff {e : Expr} : e.squared = e ↔ e.SquareProducts := by
  induction e with
  | literal l => simp [squared, squareProducts_literal]
  | apply op left right ihl ihr =>
    rw [squareProducts_apply_iff, ← ihl, ← ihr]
    cases op with
    | add | div => simp [squared]
    | mul =>
      simp only [squared, apply.injEq, true_and, true_implies]
      constructor
      -- A left factor that is the square of the right one is the right one itself.
      · rintro ⟨former, latter⟩
        have same : left = right := former.symm.trans latter
        exact ⟨same, same ▸ latter, latter⟩
      · rintro ⟨rfl, same, -⟩
        exact ⟨same, same⟩

end Expr

namespace Frame

theorem image_injective {levels : Nat} {e f : Expr} (supported : levels ≤ maxBound)
    (fits : e.depth ≤ levels) (fits' : f.depth ≤ levels) (same : image levels e = image levels f) :
    e = f := by
  have read := decode_of_map_bare .strict supported fits (map_bare_image levels e)
  have other := decode_of_map_bare .strict supported fits' (map_bare_image levels f)
  rw [same, other] at read
  exact (Except.ok.inj (congrArg Logged.value read)).symm

theorem encode_legacy_eq_canonical_iff (bound : Nat) (e : Expr) (supported : bound ≤ maxBound)
    (fits : e.depth ≤ bound) :
    encode .legacy bound 0 e = encode .canonical bound 0 e ↔ e.SquareProducts := by
  have room : e.squared.depth ≤ bound := Nat.le_trans e.depth_squared_le fits
  rw [encode_legacy, encode_eq_image supported room, encode_eq_image supported fits,
    Except.ok.injEq, ← Expr.squared_eq_self_iff]
  constructor
  · exact image_injective supported room fits
  · intro same
    rw [same]

theorem encode_legacy_eq_canonical_nested_products :
    let one : Expr := .literal .one
    let two : Expr := .literal .two
    let sum : Expr := .apply .add (.apply .mul two two) one
    let product : Expr := .apply .mul one two
    3 ≤ maxBound ∧ (Expr.apply .mul sum sum).depth ≤ 3 ∧
      encode .legacy 3 0 (.apply .mul sum sum) = encode .canonical 3 0 (.apply .mul sum sum) ∧
      (Expr.apply .mul product product).depth ≤ 3 ∧
      encode .legacy 3 0 (.apply .mul product product) ≠
        encode .canonical 3 0 (.apply .mul product product) := by
  intro one two sum product
  have squares := encode_legacy_eq_canonical_iff 3 (.apply .mul sum sum) (by decide) (by decide)
  have others :=
    encode_legacy_eq_canonical_iff 3 (.apply .mul product product) (by decide) (by decide)
  exact ⟨by decide, by decide, squares.2 (by decide), by decide,
    fun same => absurd (others.1 same) (by decide)⟩

end Frame

end OneTwo
