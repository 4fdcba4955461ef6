import Mathlib.Data.List.Forall2
import OneTwo.Slot.Basic

/-!
Slots that mean the same. The value of an operator or of a filler means nothing, so two slots agree
if they have one kind and, where they are literals, one value. Each slot agrees with exactly one
bare slot, whose value is 0 unless it is a literal; agreement of sequences, slot by slot, is thus
equality of their bare forms.
-/

namespace OneTwo.Slot

def Agrees (s t : Slot) : Prop :=
  s.kind = t.kind ∧ (s.kind = .literal → s.value = t.value)

instance (s t : Slot) : Decidable (s.Agrees t) :=
  inferInstanceAs (Decidable (_ ∧ _))

/-- The slot with its value cleared, unless the value means something. -/
def bare (s : Slot) : Slot :=
  match s.kind with
  | .literal => s
  | kind => ofKind kind

theorem agrees_iff_bare {s t : Slot} : s.Agrees t ↔ s.bare = t.bare := by
  obtain ⟨_ | op | _, value⟩ := s <;> obtain ⟨_ | op | _, value⟩ := t <;>
    simp [Agrees, bare, ofKind]

theorem forall₂_agrees_iff {slots others : List Slot} :
    List.Forall₂ Agrees slots others ↔ slots.map bare = others.map bare := by
  induction slots generalizing others with
  | nil => cases others <;> simp
  | cons s slots ih => cases others <;> simp [agrees_iff_bare, ih]

@[simp] theorem bare_ofLiteral (l : Literal) : (ofLiteral l).bare = ofLiteral l := rfl

@[simp] theorem bare_ofKind (kind : Kind) : (ofKind kind).bare = ofKind kind := by
  cases kind <;> rfl

@[simp] theorem isFiller_bare (s : Slot) : s.bare.isFiller = s.isFiller := by
  obtain ⟨_ | op | _, value⟩ := s <;> rfl

theorem bare_eq_self_iff {s : Slot} : s.bare = s ↔ (s.kind ≠ .literal → s.value = 0) := by
  obtain ⟨_ | op | _, value⟩ := s <;> simp [bare, ofKind, eq_comm]

theorem bare_eq_filler_iff {s : Slot} : s.bare = filler ↔ s.isFiller = true := by
  obtain ⟨_ | op | _, value⟩ := s <;> simp [bare, filler, ofKind, isFiller]

theorem bare_eq_ofKind_operator_iff {s : Slot} {op : Operator} :
    s.bare = ofKind (.operator op) ↔ s.kind = .operator op := by
  obtain ⟨_ | op | _, value⟩ := s <;> simp [bare, ofKind]

theorem bare_eq_ofLiteral_iff {s : Slot} {l : Literal} :
    s.bare = ofLiteral l ↔ s = ofLiteral l := by
  obtain ⟨_ | op | _, value⟩ := s <;> simp [bare, ofKind, ofLiteral, literal]

theorem map_bare_eq_replicate_filler_iff {slots : List Slot} {count : Nat} :
    slots.map bare = List.replicate count filler ↔
      slots.length = count ∧ ∀ s ∈ slots, s.isFiller = true := by
  simp only [List.eq_replicate_iff, List.length_map, List.forall_mem_map, bare_eq_filler_iff]

theorem map_bare_eq_self_iff {slots : List Slot} :
    slots.map bare = slots ↔ ∀ s ∈ slots, s.kind ≠ .literal → s.value = 0 := by
  have each : slots.map bare = slots.map id ↔ ∀ s ∈ slots, s.bare = s := List.map_inj_left
  simpa only [List.map_id, bare_eq_self_iff] using each

end OneTwo.Slot
