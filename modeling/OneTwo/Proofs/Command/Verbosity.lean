import OneTwo.Proofs.Command.Steps

/-!
Asking for more diagnostics, or for fewer, changes nothing else. The arguments that ask for them are
taken out before any other is read, and the setting is looked at only where notices are rendered. So
two calls that differ in these have the same notices to give; each gives all its lines, and of its
records those up to its level.
-/

namespace OneTwo

/-- Lines that show notices with some records left out: every line is there, and every record that
is there is whole. -/
inductive Notice.Abridged : List Notice → List String → Prop
  | nil : Abridged [] []
  | line (text : String) {notices : List Notice} {lines : List String} :
      Abridged notices lines → Abridged (.line text :: notices) (text :: lines)
  | shown (record : Diagnostic) {notices : List Notice} {lines : List String} :
      Abridged notices lines → Abridged (.remark record :: notices) (record.line :: lines)
  | hidden (record : Diagnostic) {notices : List Notice} {lines : List String} :
      Abridged notices lines → Abridged (.remark record :: notices) lines

theorem Notice.abridged_shown (limit : Option Level) (notices : List Notice) :
    Abridged notices (notices.filterMap (shown? limit)) := by
  induction notices with
  | nil => exact .nil
  | cons notice notices ih =>
    cases notice with
    | line text => exact .line text ih
    | remark record =>
      rw [List.filterMap_cons]
      by_cases shown : record.shownAt limit = true
      · simp only [shown?, shown]
        exact .shown record ih
      · simp only [shown?, shown]
        exact .hidden record ih

theorem Level.shownAt_total (limit other : Option Level) :
    (∀ level : Level, level.shownAt limit = true → level.shownAt other = true) ∨
      ∀ level : Level, level.shownAt other = true → level.shownAt limit = true := by
  cases limit with
  | none => exact .inl fun level shown => by cases shown
  | some limit =>
    cases other with
    | none => exact .inr fun level shown => by cases shown
    | some other =>
      simp only [shownAt, decide_eq_true_eq]
      obtain lower | higher := Nat.le_total limit.rank other.rank
      · exact .inl fun _ shown => Nat.le_trans shown lower
      · exact .inr fun _ shown => Nat.le_trans shown higher

theorem Notice.sublist_shown {limit other : Option Level}
    (wider : ∀ level : Level, level.shownAt limit = true → level.shownAt other = true)
    (notices : List Notice) :
    (notices.filterMap (shown? limit)).Sublist (notices.filterMap (shown? other)) := by
  induction notices with
  | nil => exact .slnil
  | cons notice notices ih =>
    cases notice with
    | line text => exact .cons_cons text ih
    | remark record =>
      simp only [List.filterMap_cons, shown?, Diagnostic.shownAt]
      by_cases shown : record.level.shownAt limit = true
      · simp only [shown, wider _ shown, if_true]
        exact .cons_cons _ ih
      · simp only [shown]
        by_cases extra : record.level.shownAt other = true
        · simp only [extra, if_true]
          exact .cons _ ih
        · simp only [extra]
          exact ih

namespace Command

/-- The later arguments are the former ones with some that ask for diagnostics put in. -/
inductive Inserted : List String → List String → Prop
  | nil : Inserted [] []
  | keep (arg : String) {args more : List String} :
      Inserted args more → Inserted (arg :: args) (arg :: more)
  | insert {flag : String} (asks : isVerbose flag = true) {args more : List String} :
      Inserted args more → Inserted args (flag :: more)

theorem withoutVerbose_of_inserted {args more : List String} (inserted : Inserted args more) :
    withoutVerbose more = withoutVerbose args := by
  induction inserted with
  | nil => rfl
  | keep arg _ ih =>
    simp only [withoutVerbose, List.filter_cons] at ih ⊢
    rw [ih]
  | insert asks _ ih =>
    simp only [withoutVerbose, List.filter_cons, asks] at ih ⊢
    exact ih

theorem steps_of_inserted (α : Type) {σ : Type} [Value α] [FileSystem σ] (source : Random.Source)
    {args more : List String} (inserted : Inserted args more) :
    (steps α source more : Step α (StateM (World σ)) Unit) = steps α source args := by
  rw [steps, steps, withoutVerbose_of_inserted inserted]

theorem callIn_of_inserted (α : Type) {σ : Type} [Value α] [FileSystem σ] (source : Random.Source)
    {args more : List String} (inserted : Inserted args more) (setting other : Option String)
    (directory : σ) :
    let plain := callIn α source args setting directory
    let asked := callIn α source more other directory
    asked.exitCode = plain.exitCode ∧ asked.printed = plain.printed ∧
      asked.directory = plain.directory ∧
      (∃ notices, Notice.Abridged notices plain.noticed ∧
        Notice.Abridged notices asked.noticed) ∧
      (plain.noticed.Sublist asked.noticed ∨ asked.noticed.Sublist plain.noticed) := by
  intro plain asked
  have one : plain = _ := callIn_eq source args setting directory
  have two : asked = _ := callIn_eq source more other directory
  rw [steps_of_inserted α source inserted] at two
  rw [one, two]
  refine ⟨rfl, rfl, rfl, ⟨_, Notice.abridged_shown _ _, Notice.abridged_shown _ _⟩, ?_⟩
  exact (Level.shownAt_total _ _).imp (Notice.sublist_shown · _) (Notice.sublist_shown · _)

theorem callIn_of_inserted_diverging :
    let args := ["generate", "--seed", "15", "--depth", "2"]
    let more := ["generate", "--seed", "-v", "15", "--depth", "2", "--verbose"]
    let directory : Directory := ⟨[]⟩
    let plain := callIn Float .chaCha args (some "off") directory
    let asked := callIn Float .chaCha more none directory
    Inserted args more ∧ plain.exitCode = 4 ∧ asked.exitCode = plain.exitCode ∧
      asked.printed = plain.printed ∧ asked.directory = plain.directory ∧
      (∃ notices, Notice.Abridged notices plain.noticed ∧
        Notice.Abridged notices asked.noticed) ∧
      (plain.noticed.Sublist asked.noticed ∨ asked.noticed.Sublist plain.noticed) ∧
      plain.noticed.length = 1 ∧ asked.noticed.length = 3 := by
  intro args more directory plain asked
  have inserted : Inserted args more :=
    .keep _ <| .keep _ <| .insert (by decide) <| .keep _ <| .keep _ <| .keep _ <|
      .insert (by decide) .nil
  have failed : plain.exitCode = 4 := by decide +kernel
  have quiet : plain.noticed.length = 1 := by decide +kernel
  have talking : asked.noticed.length = 3 := by decide +kernel
  obtain ⟨code, printed, files, notices, fewer⟩ :=
    callIn_of_inserted Float .chaCha inserted (some "off") none directory
  exact ⟨inserted, failed, code, printed, files, notices, fewer, quiet, talking⟩

end Command

end OneTwo
