import OneTwo.Proofs.Frame.Recovery
import OneTwo.Proofs.Frame.Strict
import OneTwo.Proofs.Frame.Survey
import OneTwo.Proofs.Machine.Accepted
import OneTwo.Slot.Wire

/-!
What any input leads to. Bytes of any kind are slots after lossy reading, and resilient reading of
slots fails in three ways only: at a bound that is not supported, at the end and at a filler. An
expression that comes out, in either mode, has room under the bound and can be put to every use:
it can be compiled, checked, run over any values, rebuilt and encoded again. The way there is short,
since no more nodes are visited than a frame has slots and none below the bound.
-/

namespace OneTwo.Frame

structure Usable (bound : Nat) (e : Expr) : Prop where
  depth_le : e.depth ≤ bound
  checked : e.compile.check = .ok ()
  runs : ∀ (α : Type) [Arithmetic α], ∃ value, (e.compile.run α).value = .ok value
  rebuilt : e.compile.rebuild.value = .ok e
  encoded : ∃ slots, encode .canonical bound 0 e = .ok slots

variable {bound : Nat} {slots : List Slot}

theorem usable_of_decode {mode : Mode} {e : Expr} (h : (decode mode bound slots).value = .ok e) :
    Usable bound e := by
  have fits : bound ≤ maxBound ∧ e.depth ≤ bound := by
    by_cases supported : bound ≤ maxBound
    · cases mode with
      | strict => exact ⟨supported, (map_bare_of_decode_strict h).2.1⟩
      | resilient => exact ⟨supported, (mends_of_decode_resilient supported h).1⟩
    · rw [decode_of_unsupported mode (Nat.not_le.1 supported)] at h
      cases h
  constructor
  case depth_le => exact fits.2
  case checked => exact Program.check_eq_ok_iff.2 ⟨e, rfl⟩
  case runs =>
    intro α _
    refine ⟨(e.fold (.arithmetic α) ()).1, ?_⟩
    rw [Program.run, Program.execute_compile]
  case rebuilt => exact Program.rebuild_eq_ok_iff.2 rfl
  case encoded => exact ⟨image bound e, encode_eq_image fits.1 fits.2⟩

theorem decode_resilient_eq_error_cases {error : FrameError}
    (h : (decode .resilient bound slots).value = .error error) :
    (maxBound < bound ∧ error = .boundTooLarge bound maxBound) ∨
      error = .unexpectedEnd slots.length ∨ ∃ position, error = .unexpectedFiller position := by
  by_cases supported : bound ≤ maxBound
  · have ending := ending_readFrame supported (Cursor.ofList slots)
    rw [value_decode] at h
    generalize outcome ((readFrame .resilient bound).run (Cursor.ofList slots)) = x at ending h
    cases ending with
    | read e => cases h
    | filler inside there =>
      cases h
      exact .inr (.inr ⟨_, rfl⟩)
    | missing short =>
      have last : (Cursor.ofList slots).position + (Cursor.ofList slots).remaining =
          slots.length := Nat.zero_add _
      cases h
      rw [last]
      exact .inr (.inl rfl)
  · rw [decode_of_unsupported .resilient (Nat.not_le.1 supported)] at h
    cases h
    exact .inl ⟨Nat.not_le.1 supported, rfl⟩

theorem decode_resilient_eq_boundTooLarge_iff :
    (decode .resilient bound slots).value = .error (.boundTooLarge bound maxBound) ↔
      maxBound < bound := by
  constructor
  · intro failed
    rcases decode_resilient_eq_error_cases failed with ⟨unsupported, -⟩ | ended | ⟨_, stopped⟩
    · exact unsupported
    · cases ended
    · cases stopped
  · intro unsupported
    rw [decode_of_unsupported .resilient unsupported]
    rfl

/-- The bound may be any. The slots of the last part may be any, and the mode either. -/
theorem decode_of_any_bytes (bytes : List UInt8) (bound : Nat) :
    (∀ error, (decode .resilient bound (Slot.Wire.readLossy bytes).value).value = .error error →
      error = .boundTooLarge bound maxBound ∨ (∃ position, error = .unexpectedEnd position) ∨
        ∃ position, error = .unexpectedFiller position) ∧
    ((decode .resilient bound (Slot.Wire.readLossy bytes).value).value =
      .error (.boundTooLarge bound maxBound) ↔ maxBound < bound) ∧
    ∀ mode slots,
      (∀ e, (decode mode bound slots).value = .ok e → Usable bound e) ∧
      (survey mode bound slots).reading.run = decode mode bound slots ∧
      (survey mode bound slots).depths.length ≤ size bound ∧
      ∀ depth ∈ (survey mode bound slots).depths, depth ≤ bound := by
  refine ⟨fun error failed => ?_, decode_resilient_eq_boundTooLarge_iff, fun mode slots => ?_⟩
  · rcases decode_resilient_eq_error_cases failed with ⟨-, same⟩ | same | stopped
    · exact .inl same
    · exact .inr (.inl ⟨_, same⟩)
    · exact .inr (.inr stopped)
  · have room := roomy_survey mode bound slots
    refine ⟨fun e decoded => usable_of_decode decoded, run_reading_survey mode bound slots,
      room.length_le, fun depth visited => ?_⟩
    have deep := room.le_of_mem depth visited
    rwa [Nat.zero_add] at deep

theorem decode_of_any_bytes_wrapped_kinds :
    let bytes : List UInt8 := [6, 9, 5, 77, 204, 0, 99, 1, 10, 2, 250]
    let slots : List Slot := [⟨.operator .add, 9⟩, .literal 77, .filler, ⟨.filler, 1⟩, .literal 2]
    let e : Expr := .apply .add (.literal .one) (.literal .two)
    (Slot.Wire.readLossy bytes).value = slots ∧ (decode .resilient 2 slots).value = .ok e ∧
      Usable 2 e ∧ (survey .resilient 2 slots).reading.run = decode .resilient 2 slots ∧
      (survey .resilient 2 slots).depths = [0, 1, 1] ∧ [0, 1, 1].length ≤ size 2 ∧
      (decode .resilient 17 slots).value = .error (.boundTooLarge 17 maxBound) := by
  intro bytes slots e
  have received : (Slot.Wire.readLossy bytes).value = slots := by decide +kernel
  have decoded : (decode .resilient 2 slots).value = .ok e := by decide +kernel
  have visited : (survey .resilient 2 slots).depths = [0, 1, 1] := by decide +kernel
  obtain ⟨-, -, every⟩ := decode_of_any_bytes bytes 2
  obtain ⟨usable, same, count, -⟩ := every .resilient slots
  obtain ⟨-, tooLarge, -⟩ := decode_of_any_bytes bytes 17
  rw [visited] at count
  rw [received] at tooLarge
  exact ⟨received, decoded, usable e decoded, same, visited, count, tooLarge.2 (by decide)⟩

end OneTwo.Frame
