import OneTwo.Command.Basic
import OneTwo.Command.Verbosity
import OneTwo.Proofs.Text.Word

/-!
Arguments by their roles, and how they are read once they are written out: options with their
values, switches, and files. Numbers and plain file names are told from the rest by their first
character, so each word is read in the role in which it was written, and a call that follows its
synopsis is read as the command that it was written for.
-/

namespace OneTwo.Command

inductive Argument where
  | option (name value : String)
  | switch (name : String)
  | file (path : String)

theorem isFlag_of_mem_valued {name : String} (h : name ∈ Options.valued) : isFlag name = true := by
  simp only [Options.valued, List.mem_cons, List.not_mem_nil, or_false] at h
  rcases h with rfl | rfl | rfl | rfl <;> decide

theorem not_isVerbose_of_not_isFlag {arg : String} (h : isFlag arg = false) :
    isVerbose arg = false := by
  simp only [isVerbose, decide_eq_false_iff_not, List.mem_cons, List.not_mem_nil, or_false]
  rintro (rfl | rfl) <;> revert h <;> decide

theorem not_isVerbose_of_mem_valued {name : String} (h : name ∈ Options.valued) :
    isVerbose name = false := by
  simp only [Options.valued, List.mem_cons, List.not_mem_nil, or_false] at h
  rcases h with rfl | rfl | rfl | rfl <;> decide

theorem isFlag_toString (n : Nat) : isFlag (toString n) = false := by
  obtain ⟨c, rest, text, digits, -⟩ := Text.toList_toString_nat n
  have digit : c.isDigit = true := (Bool.and_eq_true_iff.1 digits).1
  rw [isFlag, text, List.head?_cons, beq_eq_false_iff_ne, ne_eq, Option.some.injEq]
  rintro rfl
  cases digit

theorem ne_of_isFlag {plain name : String} (hp : isFlag plain = false) (hn : isFlag name = true) :
    plain ≠ name := by
  rintro rfl
  rw [hp] at hn
  cases hn

theorem value?_cons_of_ne {arg name : String} (other : arg ≠ name) (rest : List String) :
    value? name (arg :: rest) = value? name rest := by
  cases rest with
  | nil => rfl
  | cons next rest => exact if_neg other

section Input

variable {arg : String}

theorem input?_of_mem_valued (valued : arg ∈ Options.valued) (value : String)
    (rest : List String) : input? (arg :: value :: rest) = input? rest := by
  simp [input?, valued]

theorem input?_of_isFlag (flag : isFlag arg = true) (valueless : arg ∉ Options.valued)
    (rest : List String) : input? (arg :: rest) = input? rest := by
  rw [input?.eq_def]
  simp [flag, valueless]

theorem input?_of_not_isFlag (plain : isFlag arg = false) (rest : List String) :
    input? (arg :: rest) = some arg := by
  have valueless : arg ∉ Options.valued := fun valued =>
    ne_of_isFlag plain (isFlag_of_mem_valued valued) rfl
  rw [input?.eq_def]
  simp [plain, valueless]

end Input

namespace Argument

def words : Argument → List String
  | option name value => [name, value]
  | switch name => [name]
  | file path => [path]

/-- None of the words can be taken for one of another role. -/
def Plain : Argument → Prop
  | option name value => name ∈ Options.valued ∧ isFlag value = false
  | switch name => isFlag name = true ∧ name ∉ Options.valued ∧ isVerbose name = false
  | file path => isFlag path = false

instance : DecidablePred Plain
  | option .. => inferInstanceAs (Decidable (_ ∧ _))
  | switch _ => inferInstanceAs (Decidable (_ ∧ _))
  | file _ => inferInstanceAs (Decidable (_ = _))

theorem Plain.not_isVerbose {a : Argument} (h : a.Plain) {word : String} (there : word ∈ a.words) :
    isVerbose word = false := by
  cases a with
  | option name value =>
    simp only [words, List.mem_cons, List.not_mem_nil, or_false] at there
    obtain rfl | rfl := there
    · exact not_isVerbose_of_mem_valued h.1
    · exact not_isVerbose_of_not_isFlag h.2
  | switch name =>
    obtain rfl := List.mem_singleton.1 there
    exact h.2.2
  | file path =>
    obtain rfl := List.mem_singleton.1 there
    exact not_isVerbose_of_not_isFlag h

def valueOf? (name : String) : Argument → Option String
  | option other value => if other = name then some value else none
  | _ => none

def isSwitch (name : String) : Argument → Bool
  | switch other => name == other
  | _ => false

def path? : Argument → Option String
  | file path => some path
  | _ => none

end Argument

def written (arguments : List Argument) : List String :=
  arguments.flatMap Argument.words

section Written

variable {arguments : List Argument} {name : String}

theorem value?_written (plain : ∀ a ∈ arguments, a.Plain) (valued : name ∈ Options.valued) :
    value? name (written arguments) = arguments.findSome? (Argument.valueOf? name) := by
  induction arguments with
  | nil => rfl
  | cons a arguments ih =>
    obtain ⟨first, others⟩ := List.forall_mem_cons.1 plain
    have flag := isFlag_of_mem_valued valued
    have rest := ih others
    cases a with
    | option other value =>
      change value? name (other :: value :: written arguments) = _
      by_cases same : other = name
      · subst same
        simp [value?, Argument.valueOf?]
      · rw [value?_cons_of_ne same, value?_cons_of_ne (ne_of_isFlag first.2 flag), rest]
        simp [Argument.valueOf?, same]
    | switch other =>
      have different : other ≠ name := fun same => first.2.1 (same ▸ valued)
      exact (value?_cons_of_ne different _).trans rest
    | file path => exact (value?_cons_of_ne (ne_of_isFlag first flag) _).trans rest

theorem input?_written (plain : ∀ a ∈ arguments, a.Plain) :
    input? (written arguments) = arguments.findSome? Argument.path? := by
  induction arguments with
  | nil => rfl
  | cons a arguments ih =>
    obtain ⟨first, others⟩ := List.forall_mem_cons.1 plain
    have rest := ih others
    cases a with
    | option other value => exact (input?_of_mem_valued first.1 value _).trans rest
    | switch other => exact (input?_of_isFlag first.1 first.2.1 _).trans rest
    | file path => exact input?_of_not_isFlag first _

theorem has_written (plain : ∀ a ∈ arguments, a.Plain) (flag : isFlag name = true)
    (valueless : name ∉ Options.valued) :
    has name (written arguments) = arguments.any (Argument.isSwitch name) := by
  induction arguments with
  | nil => rfl
  | cons a arguments ih =>
    obtain ⟨first, others⟩ := List.forall_mem_cons.1 plain
    have here : a.words.contains name = a.isSwitch name := by
      cases a with
      | option other value =>
        have different : name ≠ other := fun same => valueless (same ▸ first.1)
        have apart : name ≠ value := (ne_of_isFlag first.2 flag).symm
        simp [Argument.words, Argument.isSwitch, different, apart]
      | switch other => exact Bool.or_false _
      | file path =>
        have different : name ≠ path := (ne_of_isFlag first flag).symm
        simp [Argument.words, Argument.isSwitch, different]
    rw [List.any_cons, ← ih others, ← here]
    exact List.contains_append

theorem withoutVerbose_written (plain : ∀ a ∈ arguments, a.Plain) :
    withoutVerbose (written arguments) = written arguments := by
  rw [withoutVerbose, List.filter_eq_self]
  intro word there
  obtain ⟨a, member, inside⟩ := List.mem_flatMap.1 there
  rw [(plain a member).not_isVerbose inside]
  rfl

end Written

end OneTwo.Command
