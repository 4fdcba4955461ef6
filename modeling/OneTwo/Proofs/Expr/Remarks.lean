import OneTwo.Proofs.Expr.Agreement
import OneTwo.Proofs.Frame.Subtree

/-!
What direct evaluation remarks on. A division that counts as 0 leaves one remark and hides whatever
is below it, in its divisor and in its dividend alike. So the remarks are those of the outermost
divisions with a compound divisor, one for each, from left to right. Of a division that is evaluated
the divisor is a literal and leaves no remark; that its dividend is evaluated first cannot be seen.
-/

namespace OneTwo.Expr

open OneTwo.Frame (Side)

/-- The path leads to a division whose divisor is not a literal. -/
def CompoundAt (e : Expr) (path : List Side) : Prop :=
  ∃ divisor dividend, e.subtree? path = some (apply .div divisor dividend) ∧
    divisor.isLiteral = false

/-- It leads to such a division, and passes no other. -/
def OutermostAt (e : Expr) (path : List Side) : Prop :=
  e.CompoundAt path ∧ ∀ above, above <+: path → e.CompoundAt above → above = path

section Outermost

variable {e operand : Expr} {side : Side} {path : List Side}

theorem compoundAt_nil_iff : e.CompoundAt [] ↔ e.isShortCircuit = true := by
  constructor
  · rintro ⟨divisor, dividend, there, compound⟩
    rw [subtree?_nil] at there
    rw [Option.some.inj there, isShortCircuit, compound]
    rfl
  · intro short
    cases e with
    | literal l => cases short
    | apply op left right =>
      cases op with
      | add | mul => cases short
      | div => exact ⟨left, right, rfl, Bool.not_eq_eq_eq_not.1 short⟩

theorem not_outermostAt_literal {l : Literal} : ¬(literal l).OutermostAt path := by
  rintro ⟨⟨divisor, dividend, there, -⟩, -⟩
  cases path <;> cases there

theorem outermostAt_nil_iff : e.OutermostAt [] ↔ e.isShortCircuit = true := by
  rw [OutermostAt, compoundAt_nil_iff, and_iff_left_iff_imp]
  exact fun _ above inside _ => List.prefix_nil.1 inside

theorem outermostAt_cons_iff (step : ∀ path, e.subtree? (side :: path) = operand.subtree? path) :
    e.OutermostAt (side :: path) ↔ e.isShortCircuit = false ∧ operand.OutermostAt path := by
  have same : ∀ path, e.CompoundAt (side :: path) ↔ operand.CompoundAt path := fun path => by
    simp only [CompoundAt, step]
  rw [← Bool.not_eq_true, ← compoundAt_nil_iff, OutermostAt, OutermostAt, same]
  constructor
  · rintro ⟨compound, alone⟩
    refine ⟨fun root => ?_, compound, fun above inside there => ?_⟩
    · cases alone [] List.nil_prefix root
    · have whole := alone (side :: above) ((List.prefix_cons_inj side).2 inside)
        ((same above).2 there)
      exact (List.cons.inj whole).2
  · rintro ⟨root, compound, alone⟩
    refine ⟨compound, fun above inside there => ?_⟩
    obtain _ | ⟨turn, above⟩ := above
    · exact absurd there root
    · obtain ⟨rfl, shorter⟩ := List.cons_prefix_cons.1 inside
      rw [alone above shorter ((same above).1 there)]

variable {op : Operator} {left right : Expr}

theorem outermostAt_left_iff :
    (apply op left right).OutermostAt (.left :: path) ↔
      (apply op left right).isShortCircuit = false ∧ left.OutermostAt path :=
  outermostAt_cons_iff fun _ => rfl

theorem outermostAt_right_iff :
    (apply op left right).OutermostAt (.right :: path) ↔
      (apply op left right).isShortCircuit = false ∧ right.OutermostAt path :=
  outermostAt_cons_iff fun _ => rfl

end Outermost

structure Position where
  path : List Side
  node : Expr

namespace Position

def under (side : Side) (p : Position) : Position :=
  ⟨side :: p.path, p.node⟩

/-- The paths part somewhere, the first to the left and the second to the right. -/
def LeftOf (a b : Position) : Prop :=
  ∃ front x y, a.path = front ++ .left :: x ∧ b.path = front ++ .right :: y

theorem LeftOf.under {a b : Position} (h : a.LeftOf b) (side : Side) :
    (a.under side).LeftOf (b.under side) := by
  obtain ⟨front, x, y, former, latter⟩ := h
  exact ⟨side :: front, x, y, congrArg (side :: ·) former, congrArg (side :: ·) latter⟩

theorem under_left_leftOf_under_right (a b : Position) :
    (a.under .left).LeftOf (b.under .right) :=
  ⟨[], a.path, b.path, rfl, rfl⟩

theorem mem_map_under_iff {side turn : Side} {path : List Side} {node : Expr}
    {ps : List Position} :
    ⟨turn :: path, node⟩ ∈ ps.map (under side) ↔ turn = side ∧ ⟨path, node⟩ ∈ ps := by
  rw [List.mem_map]
  constructor
  · rintro ⟨p, there, same⟩
    cases same
    exact ⟨rfl, there⟩
  · rintro ⟨rfl, there⟩
    exact ⟨_, there, rfl⟩

theorem nil_not_mem_map_under {side : Side} {node : Expr} {ps : List Position} :
    ⟨[], node⟩ ∉ ps.map (under side) := by
  rw [List.mem_map]
  rintro ⟨p, -, same⟩
  cases same

end Position

open Position

def outermost : Expr → List Position
  | literal _ => []
  | apply op left right =>
    if (apply op left right).isShortCircuit then [⟨[], apply op left right⟩]
    else left.outermost.map (under .left) ++ right.outermost.map (under .right)

theorem mem_outermost_iff {e node : Expr} {path : List Side} :
    ⟨path, node⟩ ∈ e.outermost ↔ e.subtree? path = some node ∧ e.OutermostAt path := by
  induction e generalizing path with
  | literal l => exact iff_of_false List.not_mem_nil fun there => not_outermostAt_literal there.2
  | apply op left right ihl ihr =>
    rw [outermost]
    cases short : (apply op left right).isShortCircuit with
    | true =>
      obtain _ | ⟨_ | _, path⟩ := path
      · simp [outermostAt_nil_iff, short, eq_comm]
      · simp [outermostAt_left_iff, short]
      · simp [outermostAt_right_iff, short]
    | false =>
      rw [if_neg (by simp), List.mem_append]
      obtain _ | ⟨_ | _, path⟩ := path
      · simp only [nil_not_mem_map_under, outermostAt_nil_iff, short]
        simp
      · simp [mem_map_under_iff, ihl, outermostAt_left_iff, short, subtree?]
      · simp [mem_map_under_iff, ihr, outermostAt_right_iff, short, subtree?]

theorem pairwise_outermost (e : Expr) : e.outermost.Pairwise LeftOf := by
  induction e with
  | literal l => exact .nil
  | apply op left right ihl ihr =>
    rw [outermost]
    split
    · exact List.pairwise_singleton _ _
    · rw [List.pairwise_append, List.pairwise_map, List.pairwise_map]
      refine ⟨ihl.imp fun h => h.under .left, ihr.imp fun h => h.under .right, ?_⟩
      simp only [List.mem_map]
      rintro _ ⟨a, -, rfl⟩ _ ⟨b, -, rfl⟩
      exact under_left_leftOf_under_right a b

theorem outermost_eq_nil_iff {e : Expr} : e.outermost = [] ↔ e.LiteralDivisors := by
  induction e with
  | literal l => exact iff_of_true rfl (literalDivisors_of_isLiteral rfl)
  | apply op left right ihl ihr =>
    rw [literalDivisors_apply_iff, outermost, ← ihl, ← ihr]
    cases (apply op left right).isShortCircuit <;> simp

section Records

variable {α : Type} [Arithmetic α]

theorem records_evaluate_apply {op : Operator} {left right : Expr}
    (h : (apply op left right).isShortCircuit = false) :
    ((apply op left right).evaluate : Logged α).records =
      (left.evaluate : Logged α).records ++ (right.evaluate : Logged α).records := by
  have order : ((apply op left right).evaluate : Logged α).records =
      ((op.inOrder left right).1.evaluate : Logged α).records ++
        ((op.inOrder left right).2.evaluate : Logged α).records := by
    rw [evaluate, if_neg (by simp [h]), Operator.inOrder_map evaluate]
    simp
  rw [order]
  cases op with
  | add | mul => rfl
  | div =>
    -- The divisor comes second here and is stored first, but it leaves no record.
    cases left with
    | literal l => exact List.append_nil _
    | apply => cases h

theorem records_evaluate (e : Expr) :
    (e.evaluate : Logged α).records = e.outermost.map fun p => .compoundDivisor p.node := by
  induction e with
  | literal l => rfl
  | apply op left right ihl ihr =>
    rw [outermost]
    cases short : (apply op left right).isShortCircuit with
    | true =>
      rw [evaluate, if_pos short, if_pos rfl]
      rfl
    | false =>
      rw [records_evaluate_apply short, if_neg (by simp), List.map_append, List.map_map,
        List.map_map, ihl, ihr]
      rfl

end Records

/-- No two of the positions are the same, so each has one record; and where there is no record, the
machine comes to the same value. -/
theorem evaluate_remarks (α : Type) [Arithmetic α] (e : Expr) :
    (∃ found : List Position, found.Pairwise LeftOf ∧
      (∀ path node, ⟨path, node⟩ ∈ found ↔ e.subtree? path = some node ∧ e.OutermostAt path) ∧
      (e.evaluate : Logged α).records = found.map (fun p => .compoundDivisor p.node) ∧
      (e.evaluate : Logged α).records.map (fun d => (d.level, d.text)) = found.map fun p =>
        (.debug, s!"divisor is not a literal, evaluating {p.node.text} as 0")) ∧
    ((e.evaluate : Logged α).records = [] ↔ e.LiteralDivisors) ∧
    ((e.evaluate : Logged α).records = [] →
      (e.compile.run α).value = .ok (e.evaluate : Logged α).value) := by
  have unremarked : (e.evaluate : Logged α).records = [] ↔ e.LiteralDivisors := by
    rw [records_evaluate, List.map_eq_nil_iff, outermost_eq_nil_iff]
  refine ⟨⟨e.outermost, e.pairwise_outermost, fun _ _ => mem_outermost_iff, records_evaluate e, ?_⟩,
    unremarked, fun silent => ?_⟩
  · rw [records_evaluate, List.map_map]
    rfl
  · rw [Program.value_run_compile, value_eq_evaluate (unremarked.1 silent)]

theorem evaluate_remarks_product :
    let one : Expr := .literal .one
    let two : Expr := .literal .two
    let sum : Expr := .apply .add one two
    let nested : Expr := .apply .div sum (.apply .div (.apply .mul two one) two)
    let below : Expr := .apply .div sum one
    let e : Expr := .apply .mul nested (.apply .div two below)
    let plain : Expr := .apply .div two sum
    (∃ found : List Position, found.Pairwise LeftOf ∧
      (∀ path node, ⟨path, node⟩ ∈ found ↔ e.subtree? path = some node ∧ e.OutermostAt path) ∧
      found.map Position.node = [nested, below]) ∧
    (e.evaluate : Logged Float).records.map Diagnostic.text =
      ["divisor is not a literal, evaluating ((2 / (2 * 1)) / (1 + 2)) as 0",
        "divisor is not a literal, evaluating (1 / (1 + 2)) as 0"] ∧
    (plain.evaluate : Logged Float).records = [] ∧
    (plain.compile.run Float).value = .ok (plain.evaluate : Logged Float).value := by
  intro one two sum nested below e plain
  obtain ⟨⟨found, apart, each, recorded, -⟩, -, -⟩ := evaluate_remarks Float e
  obtain ⟨-, -, agree⟩ := evaluate_remarks Float plain
  have remarked : (e.evaluate : Logged Float).records =
      [.compoundDivisor nested, .compoundDivisor below] := rfl
  have nodes : (found.map Position.node).map Diagnostic.compoundDivisor =
      [nested, below].map Diagnostic.compoundDivisor := by
    rw [List.map_map]
    exact recorded.symm.trans remarked
  refine ⟨⟨found, apart, each, ?_⟩, by rw [remarked]; decide +kernel, rfl, agree rfl⟩
  exact (List.map_inj_right fun _ _ => Diagnostic.compoundDivisor.inj).1 nodes

end OneTwo.Expr
