import OneTwo.Proofs.Command.Steps
import OneTwo.Proofs.Expr.Agreement

/-!
Reporting an expression. Its program always runs, so a report prints its four lines in any world and
writes no file; whether it fails depends on how the two results compare, and on nothing else.
-/

namespace OneTwo.Command

variable (α : Type) [Value α]

def reported (e : Expr) : List String :=
  [s!"expr: {e.text}", s!"bytecode: {e.compile.text}",
    s!"eval: {Value.text (e.evaluate : Logged α).value}", s!"run: {Value.text (e.value α)}"]

def verdict (e : Expr) : Except (Failure α) Unit :=
  if Value.same (e.evaluate : Logged α).value (e.value α) then .ok ()
  else .error (.divergence (e.evaluate : Logged α).value (e.value α))

def evaluating (e : Expr) : List Diagnostic :=
  (e.evaluate : Logged α).records ++ (e.compile.run α).records

section Verdict

variable {α} {e : Expr}

theorem verdict_of_same
    (same : Value.same (e.evaluate : Logged α).value (e.value α) = true) :
    verdict α e = .ok () :=
  if_pos same

theorem exitCode_verdict_of_not_same
    (differs : Value.same (e.evaluate : Logged α).value (e.value α) = false) :
    exitCode (verdict α e) = 4 := by
  rw [verdict, if_neg (Bool.eq_false_iff.1 differs)]
  rfl

theorem verdict_eq_ok_iff :
    verdict α e = .ok () ↔ Value.same (e.evaluate : Logged α).value (e.value α) = true := by
  refine ⟨fun ok => ?_, verdict_of_same⟩
  by_contra differs
  have code := exitCode_verdict_of_not_same (Bool.eq_false_iff.2 differs)
  rw [ok] at code
  cases code

end Verdict

theorem verdict_cases (e : Expr) : verdict α e = .ok () ∨ exitCode (verdict α e) = 4 := by
  obtain same | differs :=
    Bool.eq_false_or_eq_true (Value.same (e.evaluate : Logged α).value (e.value α))
  · exact .inl (verdict_of_same same)
  · exact .inr (exitCode_verdict_of_not_same differs)

theorem exitCode_verdict (e : Expr) :
    exitCode (verdict α e) = 0 ∨ exitCode (verdict α e) = 4 :=
  (verdict_cases α e).imp_left (congrArg exitCode)

open Step

theorem actOn_report {σ : Type} [FileSystem σ] (e : Expr) (w : World σ) :
    (report e : Step α (StateM (World σ)) Unit).actOn w =
      (verdict α e, w.say (reported α e) ((evaluating α e).map .remark)) := by
  simp only [report, actOn_bind, actOn_remarking, actOn_orFail, actOn_print,
    Program.value_run_compile, Except.mapError, World.say_say, verdict, reported, evaluating]
  by_cases same : Value.same (e.evaluate : Logged α).value (e.value α) = true
  · simp [same, actOn_pure]
  · simp [same, actOn_throw]

end OneTwo.Command
