/-!
The literals of the calculus. There are two of them; every other integer is refused, and the refusal
keeps the integer so that its text can name it.
-/

namespace OneTwo

inductive Literal where
  | one
  | two
  deriving DecidableEq

structure InvalidLiteral where
  value : Int
  deriving DecidableEq

def InvalidLiteral.message (e : InvalidLiteral) : String :=
  s!"invalid literal {e.value} (must be 1 or 2)"

namespace Literal

def value : Literal → Nat
  | one => 1
  | two => 2

def symbol : Literal → String
  | one => "1"
  | two => "2"

def ofInt? (value : Int) : Option Literal :=
  if value = 1 then some one else if value = 2 then some two else none

theorem ofInt?_value (l : Literal) : ofInt? l.value = some l := by
  cases l <;> rfl

theorem ofInt?_eq_some_iff {value : Int} {l : Literal} :
    ofInt? value = some l ↔ value = l.value := by
  constructor
  · intro h
    unfold ofInt? at h
    split at h
    · cases h; assumption
    · split at h
      · cases h; assumption
      · cases h
  · rintro rfl
    exact ofInt?_value l

def ofInt (value : Int) : Except InvalidLiteral Literal :=
  match ofInt? value with
  | some l => .ok l
  | none => .error ⟨value⟩

theorem symbol_injective {a b : Literal} (h : a.symbol = b.symbol) : a = b := by
  cases a <;> cases b <;> simp_all [symbol]

end Literal

end OneTwo
