import OneTwo.Proofs.Frame.Carried
import OneTwo.Proofs.Frame.Refusal

/-!
Resilient reading without a remark. Each thing that it mends at a node, each truncated padding and
each slot behind the expression is remarked on at the debug level; what stands in padding is not
looked at, so a slot there that is no filler is passed over without a word. Hence nothing is
remarked on exactly if the slots are as many as the frame has and carry its nodes, and then strict
reading accepts them too or refuses the first slot of the padding that is no filler.
-/

namespace OneTwo.Frame

section Quiet

variable {α β : Type}

/-- No remark of the debug level. -/
def Quiet (x : ExceptT FrameError Logged α) : Prop :=
  ∀ d ∈ x.run.records, d.level ≠ .debug

theorem quiet_pure (a : α) : Quiet (pure a) := by
  intro d among
  cases among

theorem quiet_bind_iff {x : ExceptT FrameError Logged α} {f : α → ExceptT FrameError Logged β}
    {a : α} (h : outcome x = .ok a) : Quiet (x >>= f) ↔ Quiet x ∧ Quiet (f a) := by
  have records : (x >>= f).run.records = x.run.records ++ (f a).run.records := by
    unfold outcome at h
    rw [ExceptT.run_bind, Logged.bind_records, h]
  simp only [Quiet, records, List.mem_append, or_imp, forall_and]

theorem not_quiet_of_mem {x : ExceptT FrameError Logged α} {d : Diagnostic}
    (among : d ∈ x.run.records) (level : d.level = .debug) : ¬Quiet x :=
  fun quiet => quiet d among level

end Quiet

theorem quiet_readLiteral_iff (position : Nat) (value : UInt8) (c : Cursor) :
    Quiet ((readLiteral .resilient position value).run c) ↔
      ∃ l, Literal.ofInt? value.toNat = some l := by
  unfold readLiteral
  cases Literal.ofInt? value.toNat with
  | some l => exact ⟨fun _ => ⟨l, rfl⟩, fun _ => quiet_pure (l, c)⟩
  | none =>
    constructor
    · intro quiet
      exact absurd quiet (not_quiet_of_mem (d := .literalCoerced position value)
        (List.mem_cons_self ..) rfl)
    · rintro ⟨l, known⟩
      cases known

theorem quiet_readPadding_iff (expected : Nat) (c : Cursor) :
    Quiet ((readPadding .resilient expected).run c) ↔ expected ≤ c.remaining := by
  rw [readPadding_resilient]
  have available := c.available_eq expected
  by_cases short : c.available expected < expected
  · rw [if_pos short]
    constructor
    · intro quiet
      exact absurd quiet (not_quiet_of_mem
        (d := .paddingTruncated c.position (c.available expected) expected)
        (List.mem_cons_self ..) rfl)
    · omega
  · rw [if_neg short]
    constructor
    · omega
    · exact fun _ => quiet_pure _

theorem not_quiet_readAtBound (bound position : Nat) (c : Cursor) :
    ¬Quiet ((readAtBound .resilient bound position).run c) :=
  not_quiet_of_mem (d := .operatorReplaced position) (List.mem_cons_self ..) rfl

theorem quiet_readEnd_iff (c : Cursor) :
    Quiet ((readEnd .resilient).run c) ↔ c.remaining = 0 := by
  obtain ⟨position, _ | ⟨s, ahead⟩⟩ := c
  · exact ⟨fun _ => rfl, fun _ => quiet_pure _⟩
  · constructor
    · intro quiet
      exact absurd quiet (not_quiet_of_mem (d := .slotsIgnored (ahead.length + 1))
        (List.mem_cons_self ..) rfl)
    · intro none
      cases none

theorem literal_eq_recovered_iff {value : UInt8} :
    (⟨.literal, value⟩ : Slot) = .ofLiteral ((Literal.ofInt? value.toNat).getD .one) ↔
      ∃ l, Literal.ofInt? value.toNat = some l := by
  constructor
  · intro same
    have valid : value = UInt8.ofNat _ := congrArg Slot.value same
    refine ⟨(Literal.ofInt? value.toNat).getD .one, ?_⟩
    generalize (Literal.ofInt? value.toNat).getD .one = l at valid ⊢
    rw [valid]
    cases l <;> rfl
  · rintro ⟨l, known⟩
    have same := Int.natCast_inj.1 (Literal.ofInt?_eq_some_iff.1 known)
    rw [known, Option.getD_some, Slot.ofLiteral, Slot.literal, ← same, UInt8.ofNat_toNat]

theorem quiet_readNode_iff {bound levels : Nat} {c d : Cursor} {e : Expr}
    (supported : levels ≤ maxBound)
    (read : outcome ((readNode .resilient bound levels).run c) = .ok (e, d)) :
    Quiet ((readNode .resilient bound levels).run c) ↔
      size levels ≤ c.remaining ∧ CarriesNodes c.ahead (image levels e) := by
  induction read using read_induction with
  | literal levels position value ahead e d read =>
    rw [outcome_readNode_literal_resilient] at read
    cases read
    have mended := outcome_readLiteral_resilient position value ⟨position + 1, ahead⟩
    have passed := outcome_readPadding_resilient (padding levels) ⟨position + 1, ahead⟩
    rw [readNode_literal, quiet_bind_iff mended]
    change _ ∧ Quiet ((readPadding .resilient (padding levels)).run _ >>= _) ↔ _
    rw [quiet_bind_iff passed, quiet_readLiteral_iff, quiet_readPadding_iff,
      size_eq_padding_add_one supported, carriesNodes_image_literal_iff, literal_eq_recovered_iff]
    constructor
    · rintro ⟨known, enough, -⟩
      exact ⟨Nat.succ_le_succ enough, known⟩
    · rintro ⟨enough, known⟩
      exact ⟨known, Nat.le_of_succ_le_succ enough, quiet_pure _⟩
  | atBound position op value ahead e d read =>
    rw [outcome_readNode_atBound_resilient] at read
    cases read
    rw [readNode_operator_zero, carriesNodes_image_literal_iff]
    constructor
    · intro quiet
      exact absurd quiet (not_quiet_readAtBound bound position _)
    · rintro ⟨-, same⟩
      cases congrArg Slot.kind same
  | operator levels position op value ahead left middle right last readl readr read ihl ihr =>
    have below : levels ≤ maxBound := Nat.le_of_succ_le supported
    obtain ⟨fitsl, -⟩ := mends_of_readNode below readl
    obtain rfl := skip_of_readNode_resilient below readl
    rw [readNode_operator_succ, quiet_bind_iff readl]
    change _ ∧ Quiet ((readNode .resilient bound levels).run _ >>= _) ↔ _
    rw [quiet_bind_iff readr, ihl below, ihr below,
      carriesNodes_image_apply_iff below fitsl, size_succ supported]
    change (size levels ≤ ahead.length ∧ _) ∧ (size levels ≤ (ahead.drop (size levels)).length ∧ _) ∧
      _ ↔ 2 * size levels + 1 ≤ ahead.length + 1 ∧ _
    rw [List.length_drop]
    constructor
    · rintro ⟨⟨first, former⟩, ⟨second, latter⟩, -⟩
      exact ⟨by omega, rfl, former, latter⟩
    · rintro ⟨enough, -, former, latter⟩
      exact ⟨⟨by omega, former⟩, ⟨by omega, latter⟩, quiet_pure _⟩

variable {bound : Nat} {slots : List Slot} {e : Expr}

theorem quiet_decode_iff (supported : bound ≤ maxBound)
    (decoded : (decode .resilient bound slots).value = .ok e) :
    (∀ d ∈ (decode .resilient bound slots).records, d.level ≠ .debug) ↔
      slots.length = size bound ∧ CarriesNodes slots (image bound e) := by
  have read := outcome_readNode_resilient bound supported (Cursor.ofList slots)
  rw [value_decode_resilient supported] at decoded
  rw [decoded] at read
  rw [decode_of_supported .resilient supported]
  change Quiet _ ↔ _
  rw [quiet_bind_iff read]
  change _ ∧ Quiet ((readEnd .resilient).run _ >>= _) ↔ _
  rw [quiet_bind_iff (outcome_readEnd_resilient _), quiet_readNode_iff supported read,
    quiet_readEnd_iff]
  change (size bound ≤ slots.length ∧ CarriesNodes slots _) ∧
    (slots.drop (size bound)).length = 0 ∧ _ ↔ _
  rw [List.length_drop]
  constructor
  · rintro ⟨⟨enough, carried⟩, none, -⟩
    exact ⟨by omega, carried⟩
  · rintro ⟨length, carried⟩
    exact ⟨⟨length.ge, carried⟩, by omega, quiet_pure _⟩

theorem decode_strict_of_carriesNodes (supported : bound ≤ maxBound) (fits : e.depth ≤ bound)
    (length : slots.length = size bound) (carried : CarriesNodes slots (image bound e)) :
    (decode .strict bound slots).value = .ok e ∨
      ∃ position s, slots[position]? = some s ∧ s.isFiller = false ∧
        (image bound e)[position]? = some .filler ∧
        (decode .strict bound slots).value = .error (.malformedPadding position) := by
  have whole := length_image supported fits
  obtain same | ⟨front, s, rest, rfl, other, begins⟩ :=
    carried.cases (length.trans whole.symm) (map_bare_image bound e)
  · exact .inl (decode_strict_iff_map_bare.2 ⟨supported, fits, same⟩)
  · have former : front.map Slot.bare <+: image bound e := (List.prefix_append _ _).trans begins
    have short : front.length < size bound := by
      rw [← length, List.length_append, List.length_cons]
      omega
    have filler : (image bound e)[front.length]? = some .filler := by
      obtain ⟨back, same⟩ := begins
      rw [← same, List.append_assoc, List.getElem?_append_right (List.length_map _).le,
        List.length_map, Nat.sub_self]
      rfl
    obtain ⟨due, behind⟩ := Due.exists_behind supported fits former short
    obtain ⟨w, there, admitted⟩ := behind.admits_next supported fits former
    rw [filler] at there
    cases there
    refine .inr ⟨front.length, s, ?_, other, filler, ?_⟩
    · rw [List.getElem?_append_right (Nat.le_refl _), Nat.sub_self]
      rfl
    · rw [decode_strict_eq_error_iff supported]
      refine .inl ⟨front, s :: rest, due, rfl, behind, ?_⟩
      cases due with
      | node levels => cases admitted.isFiller_eq
      | filler =>
        refine .malformedPadding fun t next => ?_
        obtain rfl := Option.some.inj next
        exact other

/-- Whatever else is mended leaves a remark, wherever it stands; only slots of the padding that are
no fillers do not. -/
theorem decode_resilient_remarks (bound : Nat) (slots : List Slot) (e : Expr)
    (supported : bound ≤ maxBound) (decoded : (decode .resilient bound slots).value = .ok e) :
    ∃ written, encode .canonical bound 0 e = .ok written ∧
      ((∃ d ∈ (decode .resilient bound slots).records, d.level = .debug) ↔
        ¬(slots.length = size bound ∧ CarriesNodes slots written)) ∧
      (slots.length = size bound → CarriesNodes slots written →
        (decode .strict bound slots).value = .ok e ∨
          ∃ position s, slots[position]? = some s ∧ s.isFiller = false ∧
            written[position]? = some .filler ∧
            (decode .strict bound slots).value = .error (.malformedPadding position)) := by
  obtain ⟨fits, -⟩ := mends_of_decode_resilient supported decoded
  refine ⟨image bound e, encode_eq_image supported fits, ?_, ?_⟩
  · rw [← quiet_decode_iff supported decoded]
    push Not
    rfl
  · exact decode_strict_of_carriesNodes supported fits

theorem decode_resilient_remarks_foreign_padding :
    let slots : List Slot := [⟨.operator .mul, 0⟩, .literal 2, ⟨.operator .div, 0⟩, .literal 9,
      .literal 1, .filler, .filler]
    let written : List Slot := [⟨.operator .mul, 0⟩, .literal 2, .filler, .filler, .literal 1,
      .filler, .filler]
    let e : Expr := .apply .mul (.literal .two) (.literal .one)
    2 ≤ maxBound ∧ (decode .resilient 2 slots).value = .ok e ∧
      encode .canonical 2 0 e = .ok written ∧ slots.length = size 2 ∧ CarriesNodes slots written ∧
      (¬∃ d ∈ (decode .resilient 2 slots).records, d.level = .debug) ∧
      ∃ position s, slots[position]? = some s ∧ s.isFiller = false ∧
        written[position]? = some .filler ∧
        (decode .strict 2 slots).value = .error (.malformedPadding position) := by
  intro slots written e
  have supported : 2 ≤ maxBound := by decide
  have decoded : (decode .resilient 2 slots).value = .ok e := by decide +kernel
  have wrote : encode .canonical 2 0 e = .ok written := by decide
  have length : slots.length = size 2 := by decide
  have carried : CarriesNodes slots written := by
    have each : ∀ index < 7, ∀ w ∈ written[index]?, w.isFiller = false →
        ∃ s ∈ slots[index]?, s.Agrees w := by decide
    intro index w there node
    obtain ⟨inside, -⟩ := List.getElem?_eq_some_iff.1 there
    exact each index inside w there node
  obtain ⟨_, same, remarked, padding⟩ := decode_resilient_remarks 2 slots e supported decoded
  obtain rfl := Except.ok.inj (wrote.symm.trans same)
  refine ⟨supported, decoded, wrote, length, carried, fun remark => ?_, ?_⟩
  · exact remarked.1 remark ⟨length, carried⟩
  · have refused : (decode .strict 2 slots).value ≠ .ok e := by decide +kernel
    exact (padding length carried).resolve_left refused

/-- What strict reading refuses is not always remarked on by resilient reading. -/
theorem foreign_padding_unremarked :
    let slots : List Slot := [.literal 2, ⟨.operator .div, 0⟩, .literal 7]
    1 ≤ maxBound ∧ (decode .resilient 1 slots).value = .ok (.literal .two) ∧
      (decode .strict 1 slots).value = .error (.malformedPadding 1) ∧
      ¬∃ d ∈ (decode .resilient 1 slots).records, d.level = .debug := by
  decide +kernel

end OneTwo.Frame
