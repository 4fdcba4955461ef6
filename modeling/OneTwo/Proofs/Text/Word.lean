import OneTwo.Text.Word

/-!
The decimal text of a number reads back as the number, if it fits into a word.
-/

namespace OneTwo.Text

theorem word?_of_digits {text : String} {c : Char} {rest : List Char}
    (shape : text.toList = c :: rest) (digits : (c :: rest).all Char.isDigit = true)
    (fits : ofDigits (c :: rest) < UInt64.size) :
    word? text = some (.ofNat (ofDigits (c :: rest))) := by
  rw [word?, shape]
  split
  · next sign =>
    -- A plus sign in front is no digit.
    obtain ⟨rfl, -⟩ := List.cons.inj sign
    cases digits
  · simp [digits, fits]

theorem toList_toString_nat (n : Nat) :
    ∃ c rest, (toString n).toList = c :: rest ∧ (c :: rest).all Char.isDigit = true ∧
      ofDigits (c :: rest) = n := by
  have text : (toString n).toList = Nat.toDigits 10 n := Nat.toList_repr
  obtain ⟨c, rest, digits⟩ := List.exists_cons_of_ne_nil (Nat.toDigits_ne_nil (n := n) (b := 10))
  refine ⟨c, rest, text.trans digits, ?_, ?_⟩
  · rw [← digits, List.all_eq_true]
    exact fun c there => Nat.isDigit_of_mem_toDigits (by decide) (by decide) there
  · rw [← digits, ofDigits, ← Nat.ofDigitChars_eq_foldl, Nat.ofDigitChars_ten_toDigits]

theorem word?_toString {n : Nat} (fits : n < UInt64.size) :
    word? (toString n) = some (.ofNat n) := by
  obtain ⟨c, rest, shape, digits, rfl⟩ := toList_toString_nat n
  exact word?_of_digits shape digits fits

end OneTwo.Text
