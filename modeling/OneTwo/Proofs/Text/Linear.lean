import OneTwo.Program
import OneTwo.Proofs.Slot.Agreement
import OneTwo.Proofs.Text.Parts

/-!
The texts of programs and of slots, one part for each token or slot. A program can be told from its
text. Slots can be told as far as they mean something: the text shows every kind, and of a literal
the value in decimal. A value has up to three digits, and no other part consists of digits.
-/

namespace OneTwo

open Text (IsPart isPart_of_isDigit intercalate_inj)

namespace Program

theorem isPart_symbol (t : Token) : IsPart t.symbol := by
  rcases t with (_ | _ | _) | (_ | _) <;> exact ⟨by decide, by decide⟩

theorem text_injective {p q : Program} (h : p.text = q.text) : p = q := by
  have parts (p : Program) : ∀ symbol ∈ p.tokens.map Token.symbol, IsPart symbol :=
    List.forall_mem_map.2 fun t _ => isPart_symbol t
  have symbols := intercalate_inj (parts p) (parts q) h
  have tokens := (List.map_inj_right fun _ _ => Token.symbol_injective).1 symbols
  cases p
  cases q
  exact congrArg mk tokens

end Program

namespace Slot

theorem toList_text_literal (value : UInt8) :
    (literal value).text.toList = Nat.toDigits 10 value.toNat :=
  Nat.toList_repr

theorem length_text_literal (value : UInt8) :
    1 ≤ (literal value).text.toList.length ∧ (literal value).text.toList.length ≤ 3 := by
  rw [toList_text_literal, Nat.length_toDigits_le_iff (by decide) (by decide)]
  exact ⟨Nat.length_toDigits_pos, Nat.lt_trans value.toNat_lt (by decide)⟩

theorem text_literal_injective {value other : UInt8}
    (h : (literal value).text = (literal other).text) : value = other := by
  have digits : Nat.toDigits 10 value.toNat = Nat.toDigits 10 other.toNat := by
    rw [← toList_text_literal, ← toList_text_literal, h]
  have read := congrArg (Nat.ofDigitChars 10 · 0) digits
  simp only [Nat.ofDigitChars_ten_toDigits] at read
  exact UInt8.toNat_inj.1 read

theorem isDigit_of_mem_text_literal {value : UInt8} {c : Char}
    (there : c ∈ (literal value).text.toList) : c.isDigit = true := by
  rw [toList_text_literal] at there
  exact Nat.isDigit_of_mem_toDigits (by decide) (by decide) there

theorem isPart_text (s : Slot) : IsPart s.text := by
  obtain ⟨_ | op | _, value⟩ := s
  · exact isPart_of_isDigit (List.ne_nil_of_length_pos (length_text_literal value).1)
      fun _ => isDigit_of_mem_text_literal
  · exact Program.isPart_symbol (.operator op)
  · exact (⟨by decide, by decide⟩ : IsPart "_")

theorem text_literal_ne {value : UInt8} {sign : String}
    (other : sign.toList.all Char.isDigit = false) : (literal value).text ≠ sign := by
  rintro rfl
  have digits : (literal value).text.toList.all Char.isDigit = true :=
    List.all_eq_true.2 fun _ => isDigit_of_mem_text_literal
  cases digits.symm.trans other

theorem kind_eq_of_text_eq {s t : Slot} (h : s.text = t.text) : s.kind = t.kind := by
  have number (value : UInt8) (op : Operator) : (literal value).text ≠ op.symbol :=
    text_literal_ne (by cases op <;> rfl)
  have number' (value : UInt8) : (literal value).text ≠ "_" := text_literal_ne rfl
  have sign (op : Operator) : op.symbol ≠ "_" := by cases op <;> decide
  obtain ⟨_ | op | _, value⟩ := s <;> obtain ⟨_ | op' | _, other⟩ := t
  · rfl
  · exact absurd h (number value op')
  · exact absurd h (number' value)
  · exact absurd h.symm (number other op)
  · exact congrArg Kind.operator (Operator.symbol_injective h)
  · exact absurd h (sign op)
  · exact absurd h.symm (number' other)
  · exact absurd h.symm (sign op')
  · rfl

theorem text_eq_iff_agrees {s t : Slot} : s.text = t.text ↔ s.Agrees t := by
  constructor
  · intro h
    refine ⟨kind_eq_of_text_eq h, fun number => ?_⟩
    have number' : t.kind = .literal := (kind_eq_of_text_eq h).symm.trans number
    obtain ⟨_, value⟩ := s
    obtain ⟨_, other⟩ := t
    subst number number'
    exact text_literal_injective h
  · rintro ⟨kinds, values⟩
    obtain ⟨kind, value⟩ := s
    obtain ⟨_, other⟩ := t
    subst kinds
    cases kind with
    | literal =>
      obtain rfl := values rfl
      rfl
    | operator op => rfl
    | filler => rfl

theorem textAll_eq_iff {slots others : List Slot} :
    textAll slots = textAll others ↔ List.Forall₂ Agrees slots others := by
  have parts (slots : List Slot) : ∀ part ∈ slots.map text, IsPart part :=
    List.forall_mem_map.2 fun s _ => isPart_text s
  have each : textAll slots = textAll others ↔ slots.map text = others.map text :=
    ⟨intercalate_inj (parts slots) (parts others), congrArg (" ".intercalate ·)⟩
  rw [each, ← List.forall₂_eq_eq_eq, List.forall₂_map_left_iff, List.forall₂_map_right_iff]
  simp only [text_eq_iff_agrees]

end Slot

/-- Programs with one text are equal. Slots with one text are equally many, and have one kind and,
where they are literals, one value, each in its place. -/
theorem linear_texts_faithful :
    (∀ p q : Program, p.text = q.text → p = q) ∧
    (∀ slots others : List Slot, Slot.textAll slots = Slot.textAll others ↔
      slots.length = others.length ∧ ∀ (i : Nat) (s t : Slot), slots[i]? = some s →
        others[i]? = some t → s.kind = t.kind ∧ (s.kind = .literal → s.value = t.value)) ∧
    ∀ value : UInt8, (Slot.literal value).text.toList = Nat.toDigits 10 value.toNat ∧
      1 ≤ (Slot.literal value).text.toList.length ∧
      (Slot.literal value).text.toList.length ≤ 3 := by
  refine ⟨fun _ _ => Program.text_injective, fun slots others => ?_, fun value =>
    ⟨Slot.toList_text_literal value, Slot.length_text_literal value⟩⟩
  rw [Slot.textAll_eq_iff, List.forall₂_iff_get]
  refine and_congr_right fun count => ⟨fun agrees i s t here there => ?_, fun agrees i h h' => ?_⟩
  · obtain ⟨inside, rfl⟩ := List.getElem?_eq_some_iff.1 here
    obtain ⟨inside', rfl⟩ := List.getElem?_eq_some_iff.1 there
    exact agrees i inside inside'
  · exact agrees i _ _ (List.getElem?_eq_getElem h) (List.getElem?_eq_getElem h')

theorem linear_texts_faithful_two_digits :
    let slots : List Slot := [⟨.operator .mul, 0⟩, .literal 12, ⟨.filler, 0⟩]
    let marked : List Slot := [⟨.operator .mul, 9⟩, .literal 12, ⟨.filler, 7⟩]
    let apart : List Slot := [⟨.operator .mul, 0⟩, .literal 1, .literal 2, ⟨.filler, 0⟩]
    let p : Program := ⟨[.literal .one, .literal .two, .operator .div]⟩
    let q : Program := ⟨[3, 4, 2].filterMap fun byte => (Token.ofByte byte).toOption⟩
    Slot.textAll slots = Slot.textAll marked ∧ Slot.textAll slots ≠ Slot.textAll apart ∧
      p.text = q.text ∧ p = q := by
  intro slots marked apart p q
  obtain ⟨programs, sequences, -⟩ := linear_texts_faithful
  have agree : ∀ i < 3, ∀ s ∈ slots[i]?, ∀ t ∈ marked[i]?, s.Agrees t := by decide
  refine ⟨(sequences slots marked).2 ⟨rfl, fun i s t here there => ?_⟩, fun same => ?_, rfl,
    programs p q rfl⟩
  · obtain ⟨inside, -⟩ := List.getElem?_eq_some_iff.1 here
    exact agree i inside s here t there
  · cases ((sequences slots apart).1 same).1

end OneTwo
