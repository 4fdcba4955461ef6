/-!
Texts put together from parts, and when the parts can be told from the whole. Parts of which none is
the beginning of another can be read off one after the other, whatever follows them. Parts without
blanks can be told where a blank stands between any two of them, if none is empty: an empty part
that is alone would leave no trace.
-/

namespace OneTwo.Text

/-- The text of a thing can be told from whatever follows it. -/
def PrefixFree {α : Type} (text : α → String) : Prop :=
  ∀ a b s t, (text a).toList ++ s = (text b).toList ++ t → a = b ∧ s = t

section PrefixFree

variable {α : Type} {text : α → String}

theorem PrefixFree.injective (free : PrefixFree text) {a b : α} (h : text a = text b) : a = b :=
  (free a b [] [] (congrArg (String.toList · ++ []) h)).1

theorem prefixFree_of_length {n : Nat} (width : ∀ a, (text a).toList.length = n)
    (injective : ∀ a b, text a = text b → a = b) : PrefixFree text := by
  intro a b s t h
  obtain ⟨same, rest⟩ := List.append_inj h ((width a).trans (width b).symm)
  exact ⟨injective a b (String.toList_inj.1 same), rest⟩

end PrefixFree

structure IsPart (text : String) : Prop where
  some : text.toList ≠ []
  noBlank : ' ' ∉ text.toList

theorem isPart_of_isDigit {text : String} (some : text.toList ≠ [])
    (digits : ∀ c ∈ text.toList, c.isDigit = true) : IsPart text :=
  ⟨some, fun blank => absurd (digits ' ' blank) (by decide)⟩

def partsOf (text : String) : List (List Char) :=
  if text.toList = [] then [] else text.toList.splitOn ' '

theorem partsOf_intercalate {parts : List String} (each : ∀ p ∈ parts, IsPart p) :
    partsOf (" ".intercalate parts) = parts.map String.toList := by
  have whole : (" ".intercalate parts).toList = [' '].intercalate (parts.map String.toList) := by
    simp
  rw [partsOf, whole]
  cases parts with
  | nil => rfl
  | cons p parts =>
    have noBlank : ∀ l ∈ (p :: parts).map String.toList, ' ' ∉ l :=
      List.forall_mem_map.2 fun q there => (each q there).noBlank
    have first := (each p List.mem_cons_self).some
    have some : [' '].intercalate ((p :: parts).map String.toList) ≠ [] := by
      cases parts <;> simp_all
    rw [if_neg some, List.splitOn_intercalate ' ' noBlank (List.cons_ne_nil _ _)]

theorem intercalate_inj {parts others : List String} (each : ∀ p ∈ parts, IsPart p)
    (each' : ∀ p ∈ others, IsPart p) (h : " ".intercalate parts = " ".intercalate others) :
    parts = others := by
  have split := congrArg partsOf h
  rw [partsOf_intercalate each, partsOf_intercalate each'] at split
  exact (List.map_inj_right fun _ _ => String.toList_inj.1).1 split

end OneTwo.Text
