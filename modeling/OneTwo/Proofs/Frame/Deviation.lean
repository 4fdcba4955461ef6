import OneTwo.Proofs.Frame.Due

/-!
Strict reading reports the first deviation. A refused sequence has a longest beginning that is also
the beginning of some frame, up to values that mean nothing, and the error names the place behind
it: it is raised neither too early, since the slots in front could still be completed, nor too late,
since with the next slot they no longer can. The error also says what is wrong with that slot.
-/

namespace OneTwo.Frame

/-- The slots agree with the first slots of the frame of some expression. -/
def Opens (bound : Nat) (front : List Slot) : Prop :=
  ∃ e written, e.depth ≤ bound ∧ encode .canonical bound 0 e = .ok written ∧
    List.Forall₂ Slot.Agrees front (written.take front.length)

/-- The slots in front of `index` are the longest beginning of a frame. -/
structure LongestOpening (bound : Nat) (slots : List Slot) (index : Nat) : Prop where
  inside : index ≤ slots.length
  opens : Opens bound (slots.take index)
  ends : index < slots.length → ¬Opens bound (slots.take (index + 1))

/-- In every frame whose first slots agree with these, the next slot is a filler, or in every such
frame it is a node. -/
def GoesOn (bound : Nat) (front : List Slot) (filler : Bool) : Prop :=
  ∀ e written, encode .canonical bound 0 e = .ok written →
    List.Forall₂ Slot.Agrees front (written.take front.length) →
    ∃ s, written[front.length]? = some s ∧ s.isFiller = filler

/-- What an error says of the slot at `index`, behind the longest beginning of a frame. -/
inductive Deviation (bound : Nat) (slots : List Slot) (index : Nat) : FrameError → Prop where
  | invalidLiteral {value : UInt8} (node : GoesOn bound (slots.take index) false)
      (there : slots[index]? = some (.literal value))
      (unknown : Literal.ofInt? value.toNat = none) :
      Deviation bound slots index (.invalidLiteral index value)
  | malformedPadding (padding : GoesOn bound (slots.take index) true)
      (other : ∀ s, slots[index]? = some s → s.isFiller = false) :
      Deviation bound slots index (.malformedPadding index)
  | unexpectedEnd (node : GoesOn bound (slots.take index) false) (ended : slots.length = index) :
      Deviation bound slots index (.unexpectedEnd index)
  | unexpectedFiller {value : UInt8} (node : GoesOn bound (slots.take index) false)
      (there : slots[index]? = some ⟨.filler, value⟩) :
      Deviation bound slots index (.unexpectedFiller index)
  | trailingSlots {count : Nat} (whole : index = size bound) (left : 0 < count)
      (place : index + count = slots.length) : Deviation bound slots index (.trailingSlots count)
  | depthExceeded {op : Operator} {value : UInt8} (node : GoesOn bound (slots.take index) false)
      (there : slots[index]? = some ⟨.operator op, value⟩) :
      Deviation bound slots index (.depthExceeded bound bound)

section Opening

variable {bound : Nat} {front : List Slot}

theorem forall₂_agrees_take_image_iff {e : Expr} :
    List.Forall₂ Slot.Agrees front ((image bound e).take front.length) ↔
      front.map Slot.bare <+: image bound e := by
  rw [Slot.forall₂_agrees_iff, List.map_take, map_bare_image, List.prefix_iff_eq_take,
    List.length_map]

theorem opens_iff (supported : bound ≤ maxBound) :
    Opens bound front ↔ ∃ e : Expr, e.depth ≤ bound ∧ front.map Slot.bare <+: image bound e := by
  constructor
  · rintro ⟨e, written, fits, wrote, agree⟩
    obtain ⟨-, rfl⟩ := (encode_canonical_eq_ok_iff supported).1 wrote
    exact ⟨e, fits, forall₂_agrees_take_image_iff.1 agree⟩
  · rintro ⟨e, fits, begins⟩
    exact ⟨e, image bound e, fits, encode_eq_image supported fits,
      forall₂_agrees_take_image_iff.2 begins⟩

theorem Opens.take (supported : bound ≤ maxBound) (h : Opens bound front) (count : Nat) :
    Opens bound (front.take count) := by
  obtain ⟨e, fits, begins⟩ := (opens_iff supported).1 h
  exact (opens_iff supported).2 ⟨e, fits, ((List.take_prefix count front).map _).trans begins⟩

theorem length_le_of_opens (supported : bound ≤ maxBound) (h : Opens bound front) :
    front.length ≤ size bound := by
  obtain ⟨e, fits, begins⟩ := (opens_iff supported).1 h
  have count := begins.length_le
  rw [List.length_map, length_image supported fits] at count
  exact count

namespace Due.Behind

variable {due : Due}

theorem opens (supported : bound ≤ maxBound) (h : Behind bound front due) : Opens bound front :=
  (opens_iff supported).2 h.exists_image

theorem goesOn (supported : bound ≤ maxBound) (h : Behind bound front due) :
    GoesOn bound front due.isFiller := by
  intro e written wrote agree
  obtain ⟨fits, rfl⟩ := (encode_canonical_eq_ok_iff supported).1 wrote
  obtain ⟨s, there, admitted⟩ :=
    h.admits_next supported fits (forall₂_agrees_take_image_iff.1 agree)
  exact ⟨s, there, admitted.isFiller_eq⟩

theorem not_opens (supported : bound ≤ maxBound) (h : Behind bound front due) {s : Slot}
    (refused : ¬due.Admits s.bare) : ¬Opens bound (front ++ [s]) := by
  intro opened
  obtain ⟨e, fits, begins⟩ := (opens_iff supported).1 opened
  rw [List.map_append, List.map_singleton] at begins
  obtain ⟨w, there, admitted⟩ :=
    h.admits_next supported fits ((List.prefix_append _ _).trans begins)
  have next : (image bound e)[front.length]? = some s.bare := by
    rw [List.prefix_iff_getElem?.1 begins front.length (by simp)]
    simp
  rw [next] at there
  cases there
  exact refused admitted

end Due.Behind

theorem deviation_of_refuses {rest : List Slot} {due : Due} {error : FrameError}
    (next : GoesOn bound front due.isFiller)
    (h : due.Refuses bound front.length rest.head? error) :
    Deviation bound (front ++ rest) front.length error := by
  have there : (front ++ rest)[front.length]? = rest.head? := by
    rw [List.getElem?_append_right (Nat.le_refl _), Nat.sub_self, List.head?_eq_getElem?]
  have taken : (front ++ rest).take front.length = front := List.take_left
  rw [← taken] at next
  generalize rest.head? = slot at h there
  cases h with
  | unexpectedEnd levels =>
    have short := List.getElem?_eq_none_iff.1 there
    rw [List.length_append] at short
    refine .unexpectedEnd next ?_
    rw [List.length_append]
    omega
  | unexpectedFiller levels value => exact .unexpectedFiller next there
  | invalidLiteral levels unknown => exact .invalidLiteral next there unknown
  | depthExceeded op value => exact .depthExceeded next there
  | malformedPadding other =>
    refine .malformedPadding next fun s slot => other s ?_
    rw [← there]
    exact slot

end Opening

namespace LongestOpening

variable {bound index other : Nat} {slots : List Slot}

theorem le_of_opens (supported : bound ≤ maxBound) (h : LongestOpening bound slots index)
    {count : Nat} (inside : count ≤ slots.length) (opened : Opens bound (slots.take count)) :
    count ≤ index := by
  by_contra longer
  refine h.ends (Nat.lt_of_lt_of_le (Nat.not_le.1 longer) inside) ?_
  have shorter := opened.take supported (index + 1)
  rw [List.take_take, Nat.min_eq_left (Nat.not_le.1 longer)] at shorter
  exact shorter

theorem unique (supported : bound ≤ maxBound) (h : LongestOpening bound slots index)
    (h' : LongestOpening bound slots other) : other = index :=
  Nat.le_antisymm (h.le_of_opens supported h'.inside h'.opens)
    (h'.le_of_opens supported h.inside h.opens)

theorem of_append {front rest : List Slot} (opened : Opens bound front)
    (ends : ∀ s ∈ rest.head?, ¬Opens bound (front ++ [s])) :
    LongestOpening bound (front ++ rest) front.length where
  inside := by
    rw [List.length_append]
    exact Nat.le_add_right _ _
  opens := by
    rw [List.take_left]
    exact opened
  ends within := by
    obtain _ | ⟨s, rest⟩ := rest
    · rw [List.append_nil] at within
      exact absurd within (Nat.lt_irrefl _)
    · rw [List.take_length_add_append, List.take_succ_cons, List.take_zero]
      exact ends s rfl

end LongestOpening

theorem Deviation.at_end {bound index : Nat} {slots : List Slot} {error : FrameError}
    (h : Deviation bound slots index error) (ended : index = slots.length) :
    error = .unexpectedEnd index ∨ error = .malformedPadding index := by
  have nothing : slots[index]? = none := List.getElem?_eq_none ended.ge
  cases h with
  | unexpectedEnd node same => exact .inl rfl
  | malformedPadding padding other => exact .inr rfl
  | trailingSlots whole left place => omega
  | invalidLiteral node there unknown =>
    rw [nothing] at there
    cases there
  | unexpectedFiller node there =>
    rw [nothing] at there
    cases there
  | depthExceeded node there =>
    rw [nothing] at there
    cases there

theorem decode_strict_eq_error_cases {bound : Nat} {slots : List Slot} {error : FrameError}
    (supported : bound ≤ maxBound) (h : (decode .strict bound slots).value = .error error) :
    (∃ front rest due, slots = front ++ rest ∧ Due.Behind bound front due ∧
      due.Refuses bound front.length rest.head? error) ∨
    ∃ (e : Expr) (front rest : List Slot) (s : Slot), slots = front ++ s :: rest ∧
      e.depth ≤ bound ∧ front.map Slot.bare = image bound e ∧
      error = .trailingSlots (rest.length + 1) := by
  rw [decode_of_supported .strict supported] at h
  obtain read | ⟨⟨e, position, ahead⟩, read, h⟩ := outcome_bind_eq_error_iff.1 h
  · obtain ⟨front, rest, due, same, behind, refused⟩ := due_of_readNode_strict read
    have place : (Cursor.ofList slots).position + front.length = front.length := Nat.zero_add _
    rw [place] at refused
    exact .inl ⟨front, rest, due, same, behind, refused⟩
  · obtain ⟨fits, front, way, whole⟩ := passes_of_readNode_strict read
    obtain _ | ⟨s, rest⟩ := ahead
    · cases h
    · cases h
      exact .inr ⟨e, front, rest, s, way.ahead_eq, fits, whole, rfl⟩

theorem exists_deviation {bound : Nat} {slots : List Slot} {error : FrameError}
    (supported : bound ≤ maxBound) (h : (decode .strict bound slots).value = .error error) :
    ∃ index, LongestOpening bound slots index ∧ Deviation bound slots index error := by
  obtain ⟨front, rest, due, rfl, behind, answer⟩ | ⟨e, front, rest, s, rfl, fits, whole, rfl⟩ :=
    decode_strict_eq_error_cases supported h
  · refine ⟨front.length, .of_append (behind.opens supported) ?_,
      deviation_of_refuses (behind.goesOn supported) answer⟩
    intro s next
    rw [Option.mem_def.1 next] at answer
    exact behind.not_opens supported answer.not_admits_bare
  · have count : front.length = size bound := by
      rw [← length_image supported fits, ← whole, List.length_map]
    have opened : Opens bound front := (opens_iff supported).2 ⟨e, fits, whole ▸ List.prefix_rfl⟩
    refine ⟨front.length, .of_append opened ?_, .trailingSlots count (Nat.succ_pos _) ?_⟩
    · intro s next longer
      have short := length_le_of_opens supported longer
      rw [List.length_append, count] at short
      exact absurd short (Nat.not_succ_le_self _)
    · rw [List.length_append, List.length_cons]

/-- There is one such place. If it is the end of the slots, a node or a filler is missing there. -/
theorem decode_strict_first_deviation (bound : Nat) (slots : List Slot) (error : FrameError)
    (supported : bound ≤ maxBound)
    (refused : (decode .strict bound slots).value = .error error) :
    ∃ index, LongestOpening bound slots index ∧
      (∀ other, LongestOpening bound slots other → other = index) ∧
      Deviation bound slots index error ∧
      (index = slots.length → error = .unexpectedEnd index ∨ error = .malformedPadding index) := by
  obtain ⟨index, longest, deviation⟩ := exists_deviation supported refused
  exact ⟨index, longest, fun other => longest.unique supported, deviation, deviation.at_end⟩

theorem decode_strict_first_deviation_last_level :
    let slots : List Slot := [⟨.operator .add, 3⟩, .literal 1, .filler, ⟨.filler, 7⟩,
      ⟨.operator .mul, 0⟩, ⟨.operator .div, 0⟩, .literal 2]
    2 ≤ maxBound ∧ (decode .strict 2 slots).value = .error (.depthExceeded 2 2) ∧
      LongestOpening 2 slots 5 ∧ Deviation 2 slots 5 (.depthExceeded 2 2) := by
  intro slots
  have supported : 2 ≤ maxBound := by decide
  have refused : (decode .strict 2 slots).value = .error (.depthExceeded 2 2) := by decide +kernel
  obtain ⟨index, longest, -, deviation, -⟩ :=
    decode_strict_first_deviation 2 slots _ supported refused
  have opened : Opens 2 (slots.take 5) := (opens_iff supported).2
    ⟨.apply .add (.literal .one) (.apply .mul (.literal .one) (.literal .one)), by decide,
      by decide +kernel⟩
  have behind : 5 ≤ index := longest.le_of_opens supported (by decide) opened
  obtain rfl : index = 5 := by
    cases deviation with
    | depthExceeded node there =>
      obtain rfl | rfl | outside : index = 5 ∨ index = 6 ∨ 7 ≤ index := by omega
      · rfl
      · cases there
      · rw [List.getElem?_eq_none outside] at there
        cases there
  exact ⟨supported, refused, longest, deviation⟩

end OneTwo.Frame
