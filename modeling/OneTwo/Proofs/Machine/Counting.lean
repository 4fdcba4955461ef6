import Mathlib.Order.Bounds.Basic
import OneTwo.Machine.Balance

/-!
The stack check by counting. The height of the stack is the number of literals so far less the
number of operators, so the check fails at the first operator in front of which that difference is
less than 2, and elsewhere it answers by the difference of the whole program. No height is ever
counted below zero: one is taken off from 2 or more only, so behind the first token there is always
a value left.
-/

namespace OneTwo

namespace Token

/-- The number of literals less the number of operators. -/
def balance (tokens : List Token) : Int :=
  tokens.countP (fun t => !t.isOperator) - tokens.countP isOperator

theorem balance_literal_cons (l : Literal) (rest : List Token) :
    balance (literal l :: rest) = balance rest + 1 := by
  rw [balance, List.countP_cons_of_pos (by rfl), List.countP_cons_of_neg (by simp [isOperator]),
    balance]
  omega

theorem balance_operator_cons (op : Operator) (rest : List Token) :
    balance (operator op :: rest) = balance rest - 1 := by
  rw [balance, List.countP_cons_of_neg (by simp [isOperator]), List.countP_cons_of_pos (by rfl),
    balance]
  omega

variable {t : Token} {height after : Nat}

theorem heightAfter?_eq_none_iff :
    t.heightAfter? height = none ↔ (∃ op, t = .operator op) ∧ height < 2 := by
  cases t <;> simp [heightAfter?]

theorem heightAfter?_operator_eq_some_iff {op : Operator} :
    (operator op).heightAfter? height = some after ↔ 0 < after ∧ height = after + 1 := by
  rw [heightAfter?]
  split <;> simp <;> omega

theorem pos_of_heightAfter? (h : t.heightAfter? height = some after) : 0 < after := by
  cases t with
  | literal l =>
    obtain rfl : height + 1 = after := Option.some.inj h
    exact Nat.succ_pos height
  | operator op => exact (heightAfter?_operator_eq_some_iff.1 h).1

theorem add_balance_of_heightAfter? (h : t.heightAfter? height = some after)
    (rest : List Token) : after + balance rest = height + balance (t :: rest) := by
  cases t with
  | literal l =>
    obtain rfl : height + 1 = after := Option.some.inj h
    rw [balance_literal_cons]
    omega
  | operator op =>
    obtain ⟨-, rfl⟩ := heightAfter?_operator_eq_some_iff.1 h
    rw [balance_operator_cons]
    omega

/-- At the index is an operator and, from the given height, fewer than two values are left for
it. -/
def ShortAt (height : Nat) (tokens : List Token) (i : Nat) : Prop :=
  (∃ op, tokens[i]? = some (.operator op)) ∧ height + balance (tokens.take i) < 2

theorem shortAt_zero_iff {rest : List Token} :
    ShortAt height (t :: rest) 0 ↔ t.heightAfter? height = none := by
  have count : (height : Int) + balance ((t :: rest).take 0) < 2 ↔ height < 2 := by
    rw [List.take_zero, balance, List.countP_nil, List.countP_nil]
    omega
  rw [ShortAt, count, heightAfter?_eq_none_iff, List.getElem?_cons_zero]
  simp only [Option.some.injEq]

theorem not_shortAt_nil (i : Nat) : ¬ShortAt height [] i := by
  simp [ShortAt]

theorem shortAt_succ_iff {rest : List Token} {i : Nat} (h : t.heightAfter? height = some after) :
    ShortAt height (t :: rest) (i + 1) ↔ ShortAt after rest i := by
  rw [ShortAt, ShortAt, List.take_succ_cons, add_balance_of_heightAfter? h,
    List.getElem?_cons_succ]

theorem shortAt_take_iff {tokens : List Token} {i j : Nat} :
    ShortAt height (tokens.take i) j ↔ j < i ∧ ShortAt height tokens j := by
  by_cases inside : j < i
  · have same : (tokens.take i).take j = tokens.take j := by
      rw [List.take_take, Nat.min_eq_left (Nat.le_of_lt inside)]
    rw [ShortAt, List.getElem?_take_of_lt inside, same]
    exact ⟨fun short => ⟨inside, short⟩, And.right⟩
  · rw [ShortAt, List.getElem?_take_eq_none (Nat.not_lt.1 inside)]
    simp [inside]

end Token

namespace Program

open Token (balance ShortAt)

variable {height after : Nat} {tokens : List Token}

theorem heightAfter_cases (position height : Nat) (tokens : List Token) :
    (∃ i, IsLeast {i | ShortAt height tokens i} i ∧
      heightAfter position height tokens = .error (.underflow (position + i))) ∨
    (∀ i, ¬ShortAt height tokens i) ∧ ∃ after : Nat,
      heightAfter position height tokens = .ok after ∧ after = height + balance tokens := by
  induction tokens generalizing position height with
  | nil => exact .inr ⟨Token.not_shortAt_nil, height, rfl, by simp [balance]⟩
  | cons t rest ih =>
    rw [heightAfter]
    cases step : t.heightAfter? height with
    | none =>
      exact .inl ⟨0, ⟨Token.shortAt_zero_iff.2 step, fun i _ => Nat.zero_le i⟩, rfl⟩
    | some next =>
      have start : ¬ShortAt height (t :: rest) 0 := by
        rw [Token.shortAt_zero_iff, step]
        exact Option.some_ne_none next
      obtain ⟨i, ⟨short, least⟩, failed⟩ | ⟨enough, after, ended, count⟩ :=
        ih (position + 1) next
      · refine .inl ⟨i + 1, ⟨(Token.shortAt_succ_iff step).2 short, ?_⟩, ?_⟩
        · rintro (_ | j) there
          · exact absurd there start
          · exact Nat.succ_le_succ (least ((Token.shortAt_succ_iff step).1 there))
        · simp only [failed, Nat.add_assoc, Nat.add_comm 1]
      · refine .inr ⟨?_, after, ended, ?_⟩
        · rintro (_ | j) there
          · exact start there
          · exact enough j ((Token.shortAt_succ_iff step).1 there)
        · rw [count, Token.add_balance_of_heightAfter? step]

theorem pos_of_heightAfter {position : Nat} (h : heightAfter position height tokens = .ok after)
    (some : 0 < height ∨ tokens ≠ []) : 0 < after := by
  induction tokens generalizing position height with
  | nil =>
    obtain rfl : height = after := Except.ok.inj h
    simpa using some
  | cons t rest ih =>
    rw [heightAfter] at h
    cases step : t.heightAfter? height with
    | none => simp [step] at h
    | some next =>
      simp only [step] at h
      exact ih h (.inl (Token.pos_of_heightAfter? step))

def UnderflowsAt (p : Program) (i : Nat) : Prop :=
  (∃ op, p.tokens[i]? = some (.operator op)) ∧ balance (p.tokens.take i) < 2

theorem shortAt_zero_tokens_iff {p : Program} {i : Nat} :
    ShortAt 0 p.tokens i ↔ p.UnderflowsAt i := by
  rw [ShortAt, UnderflowsAt, Int.natCast_zero, Int.zero_add]

theorem check_cases (p : Program) :
    (∃ i, IsLeast {i | p.UnderflowsAt i} i ∧ p.check = .error (.underflow i)) ∨
    (∀ i, ¬p.UnderflowsAt i) ∧
      (p.tokens = [] ∧ p.check = .error .noValue ∨
        balance p.tokens = 1 ∧ p.check = .ok () ∨
        ∃ count : Nat, 2 ≤ count ∧ balance p.tokens = count ∧
          p.check = .error (.surplus count)) := by
  have heights := heightAfter_cases 0 0 p.tokens
  simp only [shortAt_zero_tokens_iff, Nat.zero_add, Int.natCast_zero, Int.zero_add] at heights
  obtain ⟨i, least, failed⟩ | ⟨enough, after, ended, count⟩ := heights
  · refine .inl ⟨i, least, ?_⟩
    rw [check, failed]
    rfl
  · refine .inr ⟨enough, ?_⟩
    rw [check, ended]
    obtain _ | _ | more := after
    · refine .inl ⟨?_, rfl⟩
      by_contra tokens
      exact absurd (pos_of_heightAfter ended (.inr tokens)) (Nat.lt_irrefl 0)
    · exact .inr (.inl ⟨count.symm, rfl⟩)
    · exact .inr (.inr ⟨more + 2, Nat.le_add_left 2 more, count.symm, rfl⟩)

theorem heightAfter_take {p : Program} {i : Nat} (enough : ∀ j < i, ¬p.UnderflowsAt j) :
    ∃ height : Nat, heightAfter 0 0 (p.tokens.take i) = .ok height ∧
      height = balance (p.tokens.take i) ∧ (height = 0 ↔ p.tokens.take i = []) := by
  obtain ⟨j, ⟨short, -⟩, -⟩ | ⟨-, height, ended, count⟩ := heightAfter_cases 0 0 (p.tokens.take i)
  · obtain ⟨before, short⟩ := Token.shortAt_take_iff.1 short
    exact absurd (shortAt_zero_tokens_iff.1 short) (enough j before)
  · rw [Int.natCast_zero, Int.zero_add] at count
    refine ⟨height, ended, count, ?_, ?_⟩
    · intro zero
      by_contra tokens
      exact absurd (pos_of_heightAfter ended (.inr tokens)) (Nat.not_lt.2 (Nat.le_of_eq zero))
    · intro none
      rw [none] at ended
      exact (Except.ok.inj ended).symm

section Outcomes

variable {p : Program}

theorem check_eq_underflow_iff {i : Nat} :
    p.check = .error (.underflow i) ↔ IsLeast {i | p.UnderflowsAt i} i := by
  obtain ⟨j, least, failed⟩ | ⟨enough, ended⟩ := p.check_cases
  · rw [failed]
    constructor
    · rintro ⟨⟩
      exact least
    · intro other
      rw [least.unique other]
  · have never : ¬IsLeast {i | p.UnderflowsAt i} i := fun least => enough i least.1
    obtain ⟨-, outcome⟩ | ⟨-, outcome⟩ | ⟨_, -, -, outcome⟩ := ended <;> simp [outcome, never]

theorem check_eq_noValue_iff : p.check = .error .noValue ↔ p.tokens = [] := by
  constructor
  · intro failed
    obtain ⟨i, -, outcome⟩ | ⟨-, ⟨empty, -⟩ | ⟨-, outcome⟩ | ⟨_, -, -, outcome⟩⟩ := p.check_cases
    · simp [failed] at outcome
    · exact empty
    · simp [failed] at outcome
    · simp [failed] at outcome
  · intro empty
    rw [check, empty]
    rfl

theorem check_eq_ok_iff_balance :
    p.check = .ok () ↔ (∀ i, ¬p.UnderflowsAt i) ∧ balance p.tokens = 1 := by
  obtain ⟨i, least, outcome⟩ | ⟨enough, ended⟩ := p.check_cases
  · have short : ¬∀ i, ¬p.UnderflowsAt i := fun enough => enough i least.1
    simp only [outcome, reduceCtorEq, short, false_and]
  · rw [and_iff_right enough]
    obtain ⟨empty, outcome⟩ | ⟨one, outcome⟩ | ⟨count, many, total, outcome⟩ := ended
    · simp [outcome, empty, balance]
    · simp [outcome, one]
    · simp only [outcome, reduceCtorEq, total, false_iff]
      omega

theorem check_eq_surplus_iff {count : Nat} :
    p.check = .error (.surplus count) ↔
      (∀ i, ¬p.UnderflowsAt i) ∧ 2 ≤ balance p.tokens ∧ balance p.tokens = count := by
  obtain ⟨i, least, outcome⟩ | ⟨enough, ended⟩ := p.check_cases
  · have short : ¬∀ i, ¬p.UnderflowsAt i := fun enough => enough i least.1
    simp only [outcome, Except.error.injEq, reduceCtorEq, short, false_and]
  · rw [and_iff_right enough]
    obtain ⟨empty, outcome⟩ | ⟨one, outcome⟩ | ⟨total, many, sum, outcome⟩ := ended
    · simp [outcome, empty, balance]
    · simp [outcome, one]
    · simp only [outcome, Except.error.injEq, MachineError.surplus.injEq, sum]
      omega

end Outcomes

/-- Wherever the check has come to without an underflow, what it has counted is the difference
itself, so nothing was taken from a height of zero. -/
theorem check_by_counting (p : Program) :
    (∀ i, p.check = .error (.underflow i) ↔ IsLeast {i | p.UnderflowsAt i} i) ∧
    (p.check = .error .noValue ↔ p.tokens = []) ∧
    (p.check = .ok () ↔ (∀ i, ¬p.UnderflowsAt i) ∧ balance p.tokens = 1) ∧
    (∀ count : Nat, p.check = .error (.surplus count) ↔
      (∀ i, ¬p.UnderflowsAt i) ∧ 2 ≤ balance p.tokens ∧ balance p.tokens = count) ∧
    ∀ i, (∀ j < i, ¬p.UnderflowsAt j) → ∃ height : Nat,
      heightAfter 0 0 (p.tokens.take i) = .ok height ∧ height = balance (p.tokens.take i) ∧
        (height = 0 ↔ p.tokens.take i = []) :=
  ⟨fun _ => check_eq_underflow_iff, check_eq_noValue_iff, check_eq_ok_iff_balance,
    fun _ => check_eq_surplus_iff, fun _ => heightAfter_take⟩

theorem check_by_counting_second_operator :
    let p : Program := ⟨[.literal .one, .literal .two, .operator .add, .operator .mul,
      .literal .one]⟩
    p.check = .error (.underflow 3) ∧ IsLeast {i | p.UnderflowsAt i} 3 ∧
      ∃ height : Nat, heightAfter 0 0 (p.tokens.take 3) = .ok height ∧ (height : Int) = 1 ∧
        height ≠ 0 := by
  intro p
  have failed : p.check = .error (.underflow 3) := rfl
  obtain ⟨underflow, -, -, -, heights⟩ := check_by_counting p
  have least : IsLeast {i | p.UnderflowsAt i} 3 := (underflow 3).1 failed
  have enough : ∀ j < 3, ¬p.UnderflowsAt j :=
    fun j before short => Nat.not_le.2 before (least.2 short)
  obtain ⟨height, ended, count, zero⟩ := heights 3 enough
  exact ⟨failed, least, height, ended, count, fun none => absurd (zero.1 none) (by decide)⟩

end Program

end OneTwo
