import OneTwo.Proofs.Command.Ending
import OneTwo.Proofs.Expr.Text

/-!
The expression that a call shows. Four commands come to an expression, and print it in their first
line: the one they drew, the one their file is the program of, or the one they decoded. Since infix
text is unambiguous, calls with one first line show one expression, whichever commands they are.
-/

namespace OneTwo.Command

variable {α σ : Type} [FileSystem σ] {source : Random.Source} {e : Expr}

/-- The command comes to the expression and prints it, with the directory as it is. -/
def Shows (source : Random.Source) (d : σ) (e : Expr) : Command → Prop
  | generate seed depth output =>
    Expr.ofSeed source seed depth = e ∧
      ∀ path ∈ output, (FileSystem.write d path e.compile.toBytes).1 = .ok ()
  | run input rebuild => rebuild = true ∧ FileSystem.read d input = .ok e.compile.toBytes
  | encode seed depth bound layout _ =>
    Expr.ofSeed source seed depth = e ∧ ∃ slots, Frame.encode layout bound 0 e = .ok slots
  | decode input bound mode =>
    ∃ bytes slots, FileSystem.read d input = .ok bytes ∧ slotsOf mode bytes = .ok slots ∧
      (Frame.decode mode bound slots).value = .ok e
  | help | disassemble _ => False

open Step

theorem actOn_readSlots_of_ok {mode : Frame.Mode} {bytes : List UInt8} {slots : List Slot}
    (readable : slotsOf mode bytes = .ok slots) (w : World σ) :
    ∃ notices, (readSlots mode bytes : Step α (StateM (World σ)) (List Slot)).actOn w =
      (.ok slots, w.say [] notices) := by
  cases mode with
  | strict =>
    rw [slotsOf] at readable
    rw [readSlots, readable, actOn_orFail]
    exact ⟨[], congrArg (Prod.mk _) w.say_nil.symm⟩
  | resilient =>
    cases readable
    exact ⟨_, actOn_remarking w _⟩

variable [Value α]

theorem actOn_decodeFile_of_ok {w : World σ} {path : String} {bytes : List UInt8}
    {slots : List Slot} {bound : Nat} {mode : Frame.Mode}
    (holds : FileSystem.read w.directory path = .ok bytes)
    (readable : slotsOf mode bytes = .ok slots)
    (decoded : (Frame.decode mode bound slots).value = .ok e) :
    ∃ notices, (decodeFile path bound mode : Step α (StateM (World σ)) Unit).actOn w =
      (verdict α e, w.say (reported α e) notices) := by
  obtain ⟨notices, acted⟩ := actOn_readSlots_of_ok (α := α) readable w
  simp [decodeFile, actOn_bind, actOn_read, holds, Except.mapError, acted, actOn_notify,
    actOn_remarking, decoded, actOn_orFail, actOn_report, World.say_say]

theorem actOn_perform_of_shows {c : Command} {w : World σ}
    (shows : Shows source w.directory e c) :
    ∃ ended directory lines notices,
      (perform source c : Step α (StateM (World σ)) Unit).actOn w =
        (ended, { w with directory }.say (s!"expr: {e.text}" :: lines) notices) := by
  cases c with
  | help | disassemble => cases shows
  | generate seed depth output =>
    obtain ⟨rfl, writable⟩ := shows
    cases output with
    | none =>
      simp only [perform, generateAndReport, actOn_bind, actOn_notify, actOn_report, World.say_say]
      exact ⟨_, w.directory, _, _, rfl⟩
    | some path =>
      have wrote := writable path rfl
      rw [perform, actOn_generateAndReport]
      generalize FileSystem.write w.directory path (Expr.ofSeed source seed depth).compile.toBytes =
        result at wrote ⊢
      obtain ⟨_ | _, written⟩ := result
      · cases wrote
      · exact ⟨_, written, _, _, rfl⟩
  | run input rebuild =>
    obtain ⟨rfl, holds⟩ := shows
    rw [perform, actOn_runFile holds]
    exact ⟨_, w.directory, _, _, rfl⟩
  | encode seed depth bound layout output =>
    obtain ⟨rfl, slots, encoded⟩ := shows
    simp only [perform, actOn_encodeToFile, encoded]
    obtain ⟨_ | _, left⟩ := FileSystem.write w.directory output (Slot.Wire.write slots)
    all_goals exact ⟨_, left, _, _, rfl⟩
  | decode input bound mode =>
    obtain ⟨bytes, slots, holds, readable, decoded⟩ := shows
    obtain ⟨notices, acted⟩ := actOn_decodeFile_of_ok (α := α) holds readable decoded
    exact ⟨_, w.directory, _, notices, acted⟩

def CallShows (source : Random.Source) (args : List String) (d : σ) (e : Expr) : Prop :=
  ∃ c, ofArgs (withoutVerbose args) = .ok c ∧ Shows source d e c

theorem head?_printed_of_callShows {args : List String} {d : σ}
    (shows : CallShows source args d e) (setting : Option String) :
    (callIn α source args setting d).printed.head? = some s!"expr: {e.text}" := by
  obtain ⟨c, accepted, shows⟩ := shows
  obtain ⟨ended, directory, lines, notices, acted⟩ :=
    actOn_perform_of_shows (α := α) (w := ⟨d, #[], #[]⟩) shows
  rw [callIn_of_actOn accepted acted]
  rfl

theorem eq_of_exprLine_eq {a b : Expr} (h : s!"expr: {a.text}" = s!"expr: {b.text}") : a = b := by
  have texts := congrArg String.toList h
  simp only [String.toList_append, List.append_right_inj] at texts
  exact Expr.prefixFree_text.injective (String.toList_inj.1 texts)

theorem text_unambiguous (α σ : Type) [Value α] [FileSystem σ] :
    (∀ a b : Expr, a.text = b.text → a = b) ∧
    (∀ divisor dividend : Expr, (Expr.apply .div divisor dividend).text =
      "(" ++ dividend.text ++ " / " ++ divisor.text ++ ")") ∧
    ∀ (source source' : Random.Source) (args args' : List String) (setting setting' : Option String)
      (d d' : σ) (a b : Expr),
      CallShows source args d a → CallShows source' args' d' b →
        let first := (callIn α source args setting d).printed.head?
        let second := (callIn α source' args' setting' d').printed.head?
        first = some s!"expr: {a.text}" ∧ second = some s!"expr: {b.text}" ∧
          (first = second ↔ a = b) := by
  refine ⟨fun a b => Expr.prefixFree_text.injective, Expr.text_div, ?_⟩
  intro source source' args args' setting setting' d d' a b shows shows' first second
  have line : first = some s!"expr: {a.text}" := head?_printed_of_callShows shows setting
  have line' : second = some s!"expr: {b.text}" := head?_printed_of_callShows shows' setting'
  refine ⟨line, line', ?_⟩
  rw [line, line', Option.some.injEq]
  exact ⟨eq_of_exprLine_eq, fun same => same ▸ rfl⟩

theorem text_unambiguous_quotient :
    let one : Expr := .literal .one
    let e : Expr := .apply .div (.apply .div one one) (.apply .mul (.literal .two) one)
    let drawing := ["generate", "--seed", "15", "--depth", "2"]
    let rebuilding := ["run", "p", "--decompile"]
    let d : Directory := ⟨[("p", [4, 3, 1, 3, 3, 2, 2])]⟩
    let empty : Directory := ⟨[]⟩
    CallShows .chaCha drawing empty (Expr.ofSeed .chaCha 15 2) ∧ CallShows .chaCha rebuilding d e ∧
      (callIn Float .chaCha drawing none empty).printed.head? =
        (callIn Float .chaCha rebuilding none d).printed.head? ∧
      Expr.ofSeed .chaCha 15 2 = e ∧ e.text = "((2 * 1) / (1 / 1))" := by
  intro one e drawing rebuilding d empty
  have drawn : CallShows .chaCha drawing empty (Expr.ofSeed .chaCha 15 2) :=
    ⟨.generate 15 2 none, by decide, rfl, fun path there => by cases there⟩
  have rebuilt : CallShows .chaCha rebuilding d e := ⟨.run "p" true, by decide, rfl, by decide⟩
  have text : e.text = "((2 * 1) / (1 / 1))" := by decide +kernel
  have text' : (Expr.ofSeed .chaCha 15 2).text = "((2 * 1) / (1 / 1))" := by decide +kernel
  obtain ⟨trees, -, calls⟩ := text_unambiguous Float Directory
  have same := trees _ _ (text'.trans text.symm)
  obtain ⟨-, -, lines⟩ :=
    calls .chaCha .chaCha drawing rebuilding none none empty d _ e drawn rebuilt
  exact ⟨drawn, rebuilt, lines.2 same, same, text⟩

end OneTwo.Command
