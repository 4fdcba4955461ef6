import Mathlib.Data.Nat.Find
import OneTwo.Proofs.Command.Arguments

/-!
The roles of arguments, by position. Read from left to right, an option in flag position takes the
argument behind it as its value, and what is taken is in no flag position itself. The input is found
by these roles. The value of an option and the presence of a word are not: both are looked for at
every position, so a value that is spelt like an option may be mistaken for it. The value is right
exactly if such a value comes behind the option itself, the presence of a word exactly if it is not
found among values alone.
-/

namespace OneTwo.Command

/-- Whether the argument at a position is taken as a value: the one before it is an option that
takes one, and is not taken itself. -/
def taken (args : List String) : Nat → Bool
  | 0 => false
  | i + 1 => !taken args i && args[i]?.any Options.valued.contains

def InFlagPosition (word : String) (args : List String) (i : Nat) : Prop :=
  args[i]? = some word ∧ taken args i = false

def First (P : Nat → Prop) (i : Nat) : Prop :=
  P i ∧ ∀ j < i, ¬P j

/-- The position of the input: the first in flag position that holds no flag. -/
def InputAt (args : List String) : Nat → Prop :=
  First fun i => ∃ arg, InFlagPosition arg args i ∧ isFlag arg = false

/-- The position that the value of an option is taken from: behind the first word like its name. -/
def ValueAt (name : String) (args : List String) (i : Nat) : Prop :=
  i < args.length ∧ ∃ j, i = j + 1 ∧ First (fun j => args[j]? = some name) j

/-- The position of the value by its role: behind the first flag position that holds the name. -/
def TakesAt (name : String) (args : List String) (i : Nat) : Prop :=
  i < args.length ∧ ∃ j, i = j + 1 ∧ First (InFlagPosition name args) j

/-- The option is in flag position before any value that is spelt like it, the last argument apart,
which has none behind it. -/
def ComesFirst (name : String) (args : List String) : Prop :=
  ∀ i, i + 1 < args.length → args[i]? = some name → taken args i = true →
    ∃ j < i, InFlagPosition name args j

section Positions

variable {arg word : String} {rest : List String} {i : Nat}

theorem inFlagPosition_zero_iff : InFlagPosition word (arg :: rest) 0 ↔ arg = word := by
  simp [InFlagPosition, taken]

theorem taken_cons_of_not_mem_valued (plain : arg ∉ Options.valued) (i : Nat) :
    taken (arg :: rest) (i + 1) = taken rest i := by
  induction i with
  | zero => simp [taken, plain]
  | succ i ih => rw [taken, ih, List.getElem?_cons_succ, taken]

theorem inFlagPosition_succ_iff (plain : arg ∉ Options.valued) :
    InFlagPosition word (arg :: rest) (i + 1) ↔ InFlagPosition word rest i := by
  rw [InFlagPosition, taken_cons_of_not_mem_valued plain, List.getElem?_cons_succ, InFlagPosition]

variable (valued : arg ∈ Options.valued) (value : String)
include valued

theorem taken_one_of_mem_valued : taken (arg :: value :: rest) 1 = true := by
  simp [taken, valued]

theorem taken_cons_cons_of_mem_valued (i : Nat) :
    taken (arg :: value :: rest) (i + 2) = taken rest i := by
  induction i with
  | zero => simp [taken, valued]
  | succ i ih => rw [taken, ih, List.getElem?_cons_succ, List.getElem?_cons_succ, taken]

theorem not_inFlagPosition_one : ¬InFlagPosition word (arg :: value :: rest) 1 := by
  simp [InFlagPosition, taken_one_of_mem_valued valued]

theorem inFlagPosition_add_two_iff :
    InFlagPosition word (arg :: value :: rest) (i + 2) ↔ InFlagPosition word rest i := by
  rw [InFlagPosition, taken_cons_cons_of_mem_valued valued, List.getElem?_cons_succ,
    List.getElem?_cons_succ, InFlagPosition]

end Positions

section First

variable {P Q : Nat → Prop}

theorem first_zero_iff : First P 0 ↔ P 0 := by
  simp [First]

theorem first_succ_iff (outside : ¬P 0) {i : Nat} :
    First P (i + 1) ↔ First (fun j => P (j + 1)) i := by
  refine and_congr_right fun _ => ⟨fun none j below => none (j + 1) (Nat.succ_lt_succ below), ?_⟩
  intro none j below
  cases j with
  | zero => exact outside
  | succ j => exact none j (Nat.lt_of_succ_lt_succ below)

theorem exists_first_of_zero (here : P 0) : (∃ i, First P i ∧ Q i) ↔ Q 0 := by
  constructor
  · rintro ⟨i, first, holds⟩
    cases i with
    | zero => exact holds
    | succ i => exact absurd here (first.2 0 (Nat.succ_pos i))
  · exact fun holds => ⟨0, first_zero_iff.2 here, holds⟩

theorem exists_first_of_not_zero (outside : ¬P 0) :
    (∃ i, First P i ∧ Q i) ↔ ∃ i, First (fun j => P (j + 1)) i ∧ Q (i + 1) := by
  constructor
  · rintro ⟨i, first, holds⟩
    cases i with
    | zero => exact absurd first.1 outside
    | succ i => exact ⟨i, (first_succ_iff outside).1 first, holds⟩
  · rintro ⟨i, first, holds⟩
    exact ⟨i + 1, (first_succ_iff outside).2 first, holds⟩

end First

section Readers

variable {args : List String}

theorem input?_eq_some_iff {input : String} :
    input? args = some input ↔ ∃ i, InputAt args i ∧ args[i]? = some input := by
  fun_induction input? args with
  | case1 => simp
  | case2 name valued =>
    have flag := isFlag_of_mem_valued (List.contains_iff_mem.1 valued)
    rw [InputAt, exists_first_of_not_zero]
    · simp
    · simp [inFlagPosition_zero_iff, flag]
  | case3 name valued value rest ih =>
    have valued : name ∈ Options.valued := List.contains_iff_mem.1 valued
    have flag := isFlag_of_mem_valued valued
    refine ih.trans (Iff.symm ?_)
    rw [InputAt, exists_first_of_not_zero, exists_first_of_not_zero]
    · simp only [inFlagPosition_add_two_iff valued, List.getElem?_cons_succ, InputAt]
    · simp [not_inFlagPosition_one valued]
    · simp [inFlagPosition_zero_iff, flag]
  | case4 arg rest valueless flag ih =>
    have valueless : arg ∉ Options.valued := by simpa using valueless
    refine ih.trans (Iff.symm ?_)
    rw [InputAt, exists_first_of_not_zero]
    · simp only [inFlagPosition_succ_iff valueless, List.getElem?_cons_succ, InputAt]
    · simp [inFlagPosition_zero_iff, flag]
  | case5 arg rest valueless plain =>
    rw [InputAt, exists_first_of_zero]
    · simp
    · simpa [inFlagPosition_zero_iff] using plain

theorem has_eq_true_iff {word : String} :
    has word args = true ↔ ∃ i : Nat, args[i]? = some word := by
  rw [has, List.contains_iff_mem, List.mem_iff_getElem?]

theorem exists_valueAt_iff {name : String} {P : Nat → Prop}
    (inside : ∀ i, P i → i < args.length) :
    (∃ i, ValueAt name args i ∧ P i) ↔
      ∃ i, First (fun j => args[j]? = some name) i ∧ P (i + 1) := by
  constructor
  · rintro ⟨_, ⟨-, i, rfl, first⟩, there⟩
    exact ⟨i, first, there⟩
  · rintro ⟨i, first, there⟩
    exact ⟨i + 1, ⟨inside _ there, i, rfl, first⟩, there⟩

theorem value?_eq_some_iff {name value : String} :
    value? name args = some value ↔ ∃ i, ValueAt name args i ∧ args[i]? = some value := by
  rw [exists_valueAt_iff fun i there => (List.getElem?_eq_some_iff.1 there).1]
  induction args with
  | nil => simp [value?]
  | cons arg rest ih =>
    by_cases same : arg = name
    · rw [exists_first_of_zero (by simp [same])]
      cases rest <;> simp [value?, same]
    · rw [value?_cons_of_ne same, exists_first_of_not_zero (by simpa using same)]
      simpa only [List.getElem?_cons_succ] using ih

end Readers

section Agreement

variable {args : List String} {name : String}

theorem exists_first {P : Nat → Prop} {i : Nat} (there : P i) : ∃ j ≤ i, First P j := by
  classical
  have some : ∃ i, P i := ⟨i, there⟩
  exact ⟨Nat.find some, Nat.find_min' some there, Nat.find_spec some, fun _ => Nat.find_min some⟩

theorem exists_inFlagPosition_iff {word : String} :
    ((∃ i : Nat, args[i]? = some word) ↔ ∃ i, InFlagPosition word args i) ↔
      ((∃ i, args[i]? = some word ∧ taken args i = true) → ∃ i, InFlagPosition word args i) := by
  constructor
  · rintro same ⟨i, there, -⟩
    exact same.1 ⟨i, there⟩
  · refine fun elsewhere => ⟨fun ⟨i, there⟩ => ?_, fun ⟨i, role⟩ => ⟨i, role.1⟩⟩
    cases value : taken args i with
    | false => exact ⟨i, there, value⟩
    | true => exact elsewhere ⟨i, there, value⟩

theorem valueAt_iff_takesAt_iff :
    (∀ i, ValueAt name args i ↔ TakesAt name args i) ↔ ComesFirst name args := by
  constructor
  · intro same i short there value
    obtain ⟨j, before, first⟩ := exists_first (P := fun j => args[j]? = some name) there
    have behind : ValueAt name args (j + 1) := ⟨by omega, j, rfl, first⟩
    obtain ⟨-, k, shifted, role⟩ := (same (j + 1)).1 behind
    obtain rfl : j = k := Nat.succ.inj shifted
    obtain below | rfl := Nat.lt_or_eq_of_le before
    · exact ⟨j, below, role.1⟩
    · rw [role.1.2] at value
      cases value
  · intro ordered i
    constructor
    · rintro ⟨short, j, rfl, there, first⟩
      refine ⟨short, j, rfl, ⟨there, ?_⟩, fun k below role => first k below role.1⟩
      cases value : taken args j with
      | false => rfl
      | true =>
        obtain ⟨k, below, role⟩ := ordered j short there value
        exact absurd role.1 (first k below)
    · rintro ⟨short, j, rfl, role, first⟩
      refine ⟨short, j, rfl, role.1, fun k below there => ?_⟩
      cases value : taken args k with
      | false => exact first k below ⟨there, value⟩
      | true =>
        obtain ⟨l, before, earlier⟩ := ordered k (by omega) there value
        exact first l (Nat.lt_trans before below) earlier

theorem not_takesAt_of_inputAt (valued : name ∈ Options.valued) {i : Nat}
    (input : InputAt args i) : ¬TakesAt name args i := by
  rintro ⟨-, j, rfl, role, -⟩
  obtain ⟨⟨arg, free, -⟩, -⟩ := input
  have takes : taken args (j + 1) = true := by simp [taken, role.1, role.2, valued]
  rw [free.2] at takes
  cases takes

end Agreement

/-- Where `ComesFirst` fails, the first value spelt like the option is mistaken for it. -/
theorem argument_roles (args : List String) :
    (∀ input, input? args = some input ↔ ∃ i, InputAt args i ∧ args[i]? = some input) ∧
    (∀ word, (has word args = true ↔ ∃ i, InFlagPosition word args i) ↔
      ((∃ i, args[i]? = some word ∧ taken args i = true) → ∃ i, InFlagPosition word args i)) ∧
    ∀ name ∈ Options.valued,
      (∀ value, value? name args = some value ↔
        ∃ i, ValueAt name args i ∧ args[i]? = some value) ∧
      ((∀ i, ValueAt name args i ↔ TakesAt name args i) ↔ ComesFirst name args) ∧
      (ComesFirst name args → ∀ i, InputAt args i → ¬ValueAt name args i) := by
  refine ⟨fun _ => input?_eq_some_iff, fun word => ?_, fun name valued =>
    ⟨fun _ => value?_eq_some_iff, valueAt_iff_takesAt_iff, fun ordered i input value => ?_⟩⟩
  · rw [has_eq_true_iff, exists_inFlagPosition_iff]
  · exact not_takesAt_of_inputAt valued input ((valueAt_iff_takesAt_iff.2 ordered i).1 value)

theorem argument_roles_repeated_name :
    let args := ["-o", "out", "--seed", "-o", "in"]
    "-o" ∈ Options.valued ∧ ComesFirst "-o" args ∧ args[3]? = some "-o" ∧ taken args 3 = true ∧
      (∀ i, ValueAt "-o" args i ↔ TakesAt "-o" args i) ∧ value? "-o" args = some "out" ∧
      ∃ i, InputAt args i ∧ args[i]? = some "in" ∧ ¬ValueAt "-o" args i := by
  intro args
  have valued : "-o" ∈ Options.valued := by decide
  have first : ComesFirst "-o" args := by
    intro i _ _ value
    cases i with
    | zero => cases value
    | succ i => exact ⟨0, Nat.succ_pos i, rfl, rfl⟩
  obtain ⟨input, -, options⟩ := argument_roles args
  obtain ⟨-, agreement, apart⟩ := options "-o" valued
  obtain ⟨i, here, there⟩ := (input "in").1 (by decide)
  exact ⟨valued, first, by decide, by decide, agreement.2 first, by decide, i, here, there,
    apart first i here⟩

/-- The name of an option as the value of another: it is in no flag position, yet it counts as
given, its value is what stands behind it, and that is the input too. -/
theorem value_taken_for_option :
    let args := ["-o", "--seed", "5"]
    (∀ i, ¬InFlagPosition "--seed" args i) ∧ has "--seed" args = true ∧
      value? "--seed" args = some "5" ∧ ValueAt "--seed" args 2 ∧ ¬TakesAt "--seed" args 2 ∧
      input? args = some "5" ∧ InputAt args 2 := by
  intro args
  have nowhere (i : Nat) : ¬InFlagPosition "--seed" args i := by
    rintro ⟨there, free⟩
    obtain _ | _ | _ | i := i
    · exact absurd there (by decide)
    · exact absurd free (by decide)
    · exact absurd there (by decide)
    · cases there
  refine ⟨nowhere, by decide, by decide, ?_, ?_, by decide, ?_⟩
  · refine ⟨by decide, 1, rfl, by decide, fun j below => ?_⟩
    obtain rfl := Nat.lt_one_iff.1 below
    decide
  · rintro ⟨-, j, -, first⟩
    exact nowhere j first.1
  · refine ⟨⟨"5", ⟨by decide, by decide⟩, by decide⟩, ?_⟩
    rintro j below ⟨arg, ⟨there, free⟩, plain⟩
    obtain _ | _ | j := j
    · cases there
      cases plain
    · cases free
    · omega

end OneTwo.Command
