import Mathlib.Data.Stream.Init
import OneTwo.Proofs.Expr.Nodes
import OneTwo.Proofs.Expr.Random

/-!
Random expressions from a stream of words. The words that an expression takes are the first ones of
the stream, and their number can be read off the expression: two for each literal, and one for each
node that is drawn above depth 0. The words behind them have no part in it and are left for the next
draw. Every expression that is not too deep is drawn from some words.
-/

namespace OneTwo

def Random.nextWord : StateM (Stream' UInt32) UInt32 :=
  fun stream => (stream.head, stream.tail)

namespace Expr

open OneTwo.Random (nextWord)

def levels : Expr → List Nat
  | literal _ => [0]
  | apply _ left right => 0 :: (left.levels ++ right.levels).map (· + 1)

/-- Two words for each literal, and one for each node that is drawn with some depth left: a node has
as much less than the root as there are operators above it. -/
def wordsDrawn (depth : Nat) (e : Expr) : Nat :=
  2 * e.nodes.countP isLiteral + e.levels.countP (· < depth)

theorem wordsDrawn_succ_apply (depth : Nat) (op : Operator) (left right : Expr) :
    (apply op left right).wordsDrawn (depth + 1) =
      left.wordsDrawn depth + right.wordsDrawn depth + 1 := by
  have literals : (apply op left right).nodes.countP isLiteral =
      left.nodes.countP isLiteral + right.nodes.countP isLiteral := by
    cases op <;> simp [nodes, Operator.inOrder, isLiteral, Nat.add_comm]
  have below : ((fun level => decide (level < depth + 1)) ∘ (· + 1)) =
      fun level => decide (level < depth) := by
    funext level
    simp
  rw [wordsDrawn, literals, levels, List.countP_cons_of_pos (by simp), List.countP_map, below,
    List.countP_append, wordsDrawn, wordsDrawn]
  omega

theorem cons_append_append_stream (word : UInt32) (former latter : List UInt32)
    (rest : Stream' UInt32) :
    word :: (former ++ latter) ++ₛ rest = [word] ++ₛ (former ++ₛ (latter ++ₛ rest)) := by
  rw [Stream'.cons_append_stream, Stream'.append_append_stream]
  rfl

/-- The expression is drawn whenever the next words are these, and no more words are taken. -/
def DrawnFrom (depth : Nat) (words : List UInt32) (e : Expr) : Prop :=
  ∀ rest, (random nextWord depth).run (words ++ₛ rest) = (e, rest)

def literalOf (high : UInt32) : Expr :=
  literal (if high < 0x80000000 then .two else .one)

theorem drawnFrom_zero (low high : UInt32) : DrawnFrom 0 [low, high] (literalOf high) :=
  fun _ => rfl

section Succ

variable {depth : Nat} {word : UInt32}

theorem drawnFrom_succ_literal (chosen : randomOperator? word = none) (low high : UInt32) :
    DrawnFrom (depth + 1) [word, low, high] (literalOf high) := by
  intro rest
  have first : (nextWord.run ([word, low, high] ++ₛ rest)).1 = word := rfl
  rw [run_random_succ, first, chosen]
  rfl

theorem DrawnFrom.apply {op : Operator} {left right : Expr} {former latter : List UInt32}
    (chosen : randomOperator? word = some op) (first : DrawnFrom depth former left)
    (second : DrawnFrom depth latter right) :
    DrawnFrom (depth + 1) (word :: (former ++ latter)) (.apply op left right) := by
  intro rest
  have next : nextWord.run (word :: (former ++ latter) ++ₛ rest) =
      (word, former ++ₛ (latter ++ₛ rest)) := by
    rw [cons_append_append_stream]
    rfl
  rw [run_random_succ, next]
  simp only [chosen, first (latter ++ₛ rest), second rest]

end Succ

theorem exists_drawnFrom (depth : Nat) (stream : Stream' UInt32) :
    ∃ e words rest, stream = words ++ₛ rest ∧ words.length = e.wordsDrawn depth ∧
      DrawnFrom depth words e := by
  have uncons (stream : Stream' UInt32) : ∃ word rest, stream = [word] ++ₛ rest :=
    ⟨_, _, (Stream'.append_stream_head_tail stream).symm⟩
  induction depth generalizing stream with
  | zero =>
    obtain ⟨low, stream, rfl⟩ := uncons stream
    obtain ⟨high, rest, rfl⟩ := uncons stream
    exact ⟨_, _, rest, rfl, rfl, drawnFrom_zero low high⟩
  | succ depth ih =>
    obtain ⟨word, stream, rfl⟩ := uncons stream
    cases chosen : randomOperator? word with
    | none =>
      obtain ⟨low, stream, rfl⟩ := uncons stream
      obtain ⟨high, rest, rfl⟩ := uncons stream
      exact ⟨_, _, rest, rfl, rfl, drawnFrom_succ_literal chosen low high⟩
    | some op =>
      -- The right operand is drawn from what the left one leaves of the stream.
      obtain ⟨left, former, stream, rfl, count, first⟩ := ih stream
      obtain ⟨right, latter, rest, rfl, count', second⟩ := ih stream
      have whole := (cons_append_append_stream word former latter rest).symm
      refine ⟨_, _, rest, whole, ?_, first.apply chosen second⟩
      rw [wordsDrawn_succ_apply, List.length_cons, List.length_append, count, count']

def operatorWord : Operator → UInt32
  | .add => 0x40000000
  | .mul => 0x80000000
  | .div => 0xc0000000

theorem randomOperator?_operatorWord (op : Operator) :
    randomOperator? (operatorWord op) = some op := by
  cases op <;> rfl

theorem exists_literalOf (l : Literal) : ∃ high, literalOf high = literal l := by
  cases l with
  | one => exact ⟨0x80000000, rfl⟩
  | two => exact ⟨0, rfl⟩

theorem exists_words {depth : Nat} {e : Expr} (fits : e.depth ≤ depth) :
    ∃ words, words.length = e.wordsDrawn depth ∧ DrawnFrom depth words e := by
  induction e generalizing depth with
  | literal l =>
    obtain ⟨high, same⟩ := exists_literalOf l
    rw [← same]
    cases depth with
    | zero => exact ⟨_, rfl, drawnFrom_zero 0 high⟩
    | succ depth =>
      have chosen : randomOperator? 0 = none := rfl
      exact ⟨_, rfl, drawnFrom_succ_literal chosen 0 high⟩
  | apply op left right ihl ihr =>
    obtain _ | depth := depth
    · exact absurd fits not_depth_apply_le_zero
    · obtain ⟨fitsl, fitsr⟩ := depth_apply_le_succ_iff.1 fits
      obtain ⟨former, count, first⟩ := ihl fitsl
      obtain ⟨latter, count', second⟩ := ihr fitsr
      refine ⟨_, ?_, first.apply (randomOperator?_operatorWord op) second⟩
      rw [wordsDrawn_succ_apply, List.length_cons, List.length_append, count, count']

/-- Whatever the stream is, an expression is drawn from its first words; and words can be chosen so
that a given expression is drawn, whatever follows them. -/
theorem random_draws_exactly (depth : Nat) :
    (∀ stream : Stream' UInt32, ∃ e words rest, stream = words ++ₛ rest ∧
      (random nextWord depth).run stream = (e, rest) ∧ e.depth ≤ depth ∧
      words.length = e.wordsDrawn depth ∧ DrawnFrom depth words e) ∧
    ∀ e : Expr, e.depth ≤ depth →
      ∃ words, words.length = e.wordsDrawn depth ∧ DrawnFrom depth words e := by
  refine ⟨fun stream => ?_, fun e => exists_words⟩
  obtain ⟨e, words, rest, rfl, count, drawn⟩ := exists_drawnFrom depth stream
  have inside := depth_random_le nextWord depth (words ++ₛ rest)
  rw [drawn rest] at inside
  exact ⟨e, words, rest, rfl, drawn rest, inside, count, drawn⟩

theorem random_draws_exactly_quotient :
    let e : Expr :=
      .apply .div (.apply .mul (.literal .one) (.literal .two)) (.literal .one)
    e.depth ≤ 2 ∧ (∃ words, words.length = 9 ∧ DrawnFrom 2 words e) ∧
      ∃ words, words.length = 11 ∧ DrawnFrom 3 words e := by
  intro e
  have fits : e.depth ≤ 2 := by decide
  exact ⟨fits, (random_draws_exactly 2).2 e fits,
    (random_draws_exactly 3).2 e (Nat.le_succ_of_le fits)⟩

end Expr

end OneTwo
