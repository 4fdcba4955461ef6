import Mathlib.Order.Bounds.Basic
import OneTwo.Proofs.Except
import OneTwo.Slot.Wire

/-!
Strict reading of the wire form undoes writing, and writing undoes strict reading: whatever bytes
are read are the bytes that the slots read from them are written to. Values pass unchanged both
ways, also the values of slots that are no literals. Bytes are refused for two reasons only, an odd
length, whatever they are, and else the first byte at an even index that is no kind.
-/

namespace OneTwo.Slot

theorem Kind.ofByte?_eq_some_iff {byte : UInt8} {kind : Kind} :
    ofByte? byte = some kind ↔ kind.byte = byte := by
  constructor
  · intro h
    unfold ofByte? at h
    split at h
    · rename_i small
      have known : byte = 0 ∨ byte = 1 ∨ byte = 2 ∨ byte = 3 ∨ byte = 4 := by
        simp only [← UInt8.toNat_inj]
        change byte.toNat = 0 ∨ byte.toNat = 1 ∨ byte.toNat = 2 ∨ byte.toNat = 3 ∨ byte.toNat = 4
        omega
      rcases known with rfl | rfl | rfl | rfl | rfl <;> cases h <;> rfl
    · cases h
  · rintro rfl
    exact ofByte?_byte kind

theorem Kind.ofByte?_eq_none_iff {byte : UInt8} : ofByte? byte = none ↔ 4 < byte := by
  rw [ofByte?, UInt8.lt_iff_toNat_lt]
  split <;> simp <;> omega

theorem ofBytes_eq_ok_iff {kind value : UInt8} {s : Slot} :
    ofBytes kind value = .ok s ↔ s.kind.byte = kind ∧ s.value = value := by
  obtain ⟨k, v⟩ := s
  simp only [ofBytes, Kind.ofByte, ← Kind.ofByte?_eq_some_iff]
  cases Kind.ofByte? kind with
  | none => simp [bind, Except.bind]
  | some found => simp [bind, Except.bind, pure, Except.pure, @eq_comm _ value]

theorem exists_ofBytes_eq_ok_iff {kind value : UInt8} :
    (∃ s, ofBytes kind value = .ok s) ↔ ¬4 < kind := by
  rw [← Kind.ofByte?_eq_none_iff, ofBytes, Kind.ofByte]
  cases Kind.ofByte? kind <;> simp [bind, Except.bind, pure, Except.pure]

theorem ofBytes_eq_error_iff {kind value : UInt8} {error : WireError} :
    ofBytes kind value = .error error ↔ 4 < kind ∧ .unknownKind kind = error := by
  rw [← Kind.ofByte?_eq_none_iff, ofBytes, Kind.ofByte]
  cases Kind.ofByte? kind <;> simp [bind, Except.bind, pure, Except.pure]

namespace Wire

theorem even_length_of_cons_cons {first second : UInt8} {rest : List UInt8}
    (even : (first :: second :: rest).length % 2 = 0) : rest.length % 2 = 0 := by
  simp only [List.length_cons] at even
  omega

theorem flatMap_pairs : {bytes : List UInt8} → bytes.length % 2 = 0 →
    ((pairs bytes).flatMap fun pair => [pair.1, pair.2]) = bytes
  | [], _ => rfl
  | [_], odd => by simp at odd
  | first :: second :: rest, even => by
    rw [pairs_cons_cons, List.flatMap_cons, flatMap_pairs (even_length_of_cons_cons even)]
    rfl

theorem pairs_of_mapM {pairs : List (UInt8 × UInt8)} {slots : List Slot}
    (h : (pairs.mapM fun (kind, value) => ofBytes kind value) = .ok slots) :
    slots.map (fun s => (s.kind.byte, s.value)) = pairs := by
  refine (mapM_eq_ok_iff_map_eq fun pair s => ?_).1 h
  rw [ofBytes_eq_ok_iff, Prod.ext_iff]

theorem write_of_read {bytes : List UInt8} {slots : List Slot} (h : read bytes = .ok slots) :
    write slots = bytes := by
  unfold read at h
  split at h
  · rename_i even
    calc
      write slots = (slots.map fun s => (s.kind.byte, s.value)).flatMap
          fun pair => [pair.1, pair.2] := by
        rw [List.flatMap_map]
        rfl
      _ = (pairs bytes).flatMap fun pair => [pair.1, pair.2] := by rw [pairs_of_mapM h]
      _ = bytes := flatMap_pairs even
  · cases h

theorem read_eq_ok_iff {bytes : List UInt8} {slots : List Slot} :
    read bytes = .ok slots ↔ write slots = bytes := by
  constructor
  · exact write_of_read
  · rintro rfl
    exact read_write slots

theorem length_of_read {bytes : List UInt8} {slots : List Slot} (h : read bytes = .ok slots) :
    slots.length = bytes.length / 2 := by
  have count := length_write slots
  rw [write_of_read h] at count
  omega

theorem getElem?_pairs : (bytes : List UInt8) → (i : Nat) →
    (pairs bytes)[i]? = bytes[2 * i]?.bind fun kind =>
      bytes[2 * i + 1]?.map fun value => (kind, value)
  | [], i => by simp [pairs, pairsAfter]
  | [_], i => by cases i <;> simp [pairs, pairsAfter]
  | first :: second :: rest, 0 => by simp [pairs_cons_cons]
  | first :: second :: rest, i + 1 => by
    have next : 2 * (i + 1) = 2 * i + 1 + 1 := by omega
    rw [pairs_cons_cons, List.getElem?_cons_succ, getElem?_pairs rest i, next]
    simp only [List.getElem?_cons_succ]

def UnknownKindAt (bytes : List UInt8) (i : Nat) : Prop :=
  i % 2 = 0 ∧ ∃ byte, bytes[i]? = some byte ∧ 4 < byte

section Refusals

variable {bytes : List UInt8}

theorem exists_getElem?_pairs_iff (even : bytes.length % 2 = 0) {byte : UInt8} {i : Nat} :
    (∃ value, (pairs bytes)[i]? = some (byte, value)) ↔ bytes[2 * i]? = some byte := by
  simp only [getElem?_pairs, Option.bind_eq_some_iff, Option.map_eq_some_iff, Prod.mk.injEq]
  constructor
  · rintro ⟨value, _, there, _, -, rfl, -⟩
    exact there
  · intro there
    obtain ⟨inside, -⟩ := List.getElem?_eq_some_iff.1 there
    have next : 2 * i + 1 < bytes.length := by omega
    exact ⟨_, byte, there, _, List.getElem?_eq_getElem next, rfl, rfl⟩

theorem unknownKindAt_iff (even : bytes.length % 2 = 0) {i : Nat} :
    UnknownKindAt bytes i ↔ ∃ j pair, i = 2 * j ∧ (pairs bytes)[j]? = some pair ∧ 4 < pair.1 := by
  constructor
  · rintro ⟨place, byte, there, large⟩
    obtain ⟨j, rfl⟩ : ∃ j, i = 2 * j := ⟨i / 2, by omega⟩
    obtain ⟨value, paired⟩ := (exists_getElem?_pairs_iff even).2 there
    exact ⟨j, (byte, value), rfl, paired, large⟩
  · rintro ⟨j, ⟨byte, value⟩, rfl, paired, large⟩
    have there := (exists_getElem?_pairs_iff even).1 ⟨value, paired⟩
    exact ⟨Nat.mul_mod_right 2 j, byte, there, large⟩

theorem read_of_odd (odd : bytes.length % 2 ≠ 0) :
    read bytes = .error (.oddLength bytes.length) :=
  if_neg odd

theorem read_eq_unknownKind_iff {byte : UInt8} :
    read bytes = .error (.unknownKind byte) ↔ bytes.length % 2 = 0 ∧
      ∃ i, IsLeast {i | UnknownKindAt bytes i} i ∧ bytes[i]? = some byte := by
  by_cases even : bytes.length % 2 = 0
  · rw [and_iff_right even, read, if_pos even, mapM_eq_error_iff]
    simp only [ofBytes_eq_error_iff, exists_ofBytes_eq_ok_iff, WireError.unknownKind.injEq]
    constructor
    · rintro ⟨j, ⟨kind, value⟩, paired, ⟨large, rfl⟩, known⟩
      have there := (exists_getElem?_pairs_iff even).1 ⟨value, paired⟩
      refine ⟨2 * j, ⟨(unknownKindAt_iff even).2 ⟨j, _, rfl, paired, large⟩, ?_⟩, there⟩
      intro i unknown
      obtain ⟨l, pair, rfl, before, large⟩ := (unknownKindAt_iff even).1 unknown
      have outside : ¬l < j := fun below => known l below pair before large
      omega
    · rintro ⟨i, ⟨unknown, least⟩, there⟩
      obtain ⟨j, ⟨kind, value⟩, rfl, paired, large⟩ := (unknownKindAt_iff even).1 unknown
      have same := (exists_getElem?_pairs_iff even).1 ⟨value, paired⟩
      obtain rfl : kind = byte := Option.some.inj (same.symm.trans there)
      refine ⟨j, _, paired, ⟨large, rfl⟩, fun l below pair before large => ?_⟩
      have first := least ((unknownKindAt_iff even).2 ⟨l, pair, rfl, before, large⟩)
      omega
  · simp [read_of_odd even, even]

theorem exists_read_eq_ok_iff :
    (∃ slots, read bytes = .ok slots) ↔
      bytes.length % 2 = 0 ∧ ∀ i, ¬UnknownKindAt bytes i := by
  by_cases even : bytes.length % 2 = 0
  · rw [and_iff_right even, read, if_pos even, exists_mapM_eq_ok_iff]
    simp only [exists_ofBytes_eq_ok_iff, unknownKindAt_iff even, List.mem_iff_getElem?]
    constructor
    · rintro known i ⟨j, pair, -, paired, large⟩
      exact known pair ⟨j, paired⟩ large
    · rintro known pair ⟨j, paired⟩ large
      exact known _ ⟨j, pair, rfl, paired, large⟩
  · simp [read_of_odd even, even]

theorem read_eq_oddLength_iff :
    read bytes = .error (.oddLength bytes.length) ↔ bytes.length % 2 = 1 := by
  rw [← Nat.mod_two_ne_zero]
  constructor
  · intro failed even
    rw [read, if_pos even, mapM_eq_error_iff] at failed
    obtain ⟨i, pair, -, refused, -⟩ := failed
    cases (ofBytes_eq_error_iff.1 refused).2
  · exact read_of_odd

end Refusals

/-- An odd length comes before an unknown kind, and the first unknown kind before any other. -/
theorem read_of_any_bytes :
    (∀ slots, read (write slots) = .ok slots) ∧
    ∀ bytes,
      (read bytes = .error (.oddLength bytes.length) ↔ bytes.length % 2 = 1) ∧
      (∀ byte, read bytes = .error (.unknownKind byte) ↔ bytes.length % 2 = 0 ∧
        ∃ i, IsLeast {i | UnknownKindAt bytes i} i ∧ bytes[i]? = some byte) ∧
      ((∃ slots, read bytes = .ok slots ∧ slots.length = bytes.length / 2 ∧ write slots = bytes) ↔
        bytes.length % 2 = 0 ∧ ∀ i, ¬UnknownKindAt bytes i) := by
  refine ⟨read_write, fun bytes => ⟨read_eq_oddLength_iff, fun _ => read_eq_unknownKind_iff, ?_⟩⟩
  rw [← exists_read_eq_ok_iff]
  refine exists_congr fun slots => and_iff_left_of_imp fun received => ?_
  exact ⟨length_of_read received, write_of_read received⟩

example : read [9, 0, 7] = .error (.oddLength 3) ∧
    read [0, 99, 7, 0, 9, 0] = .error (.unknownKind 7) := by
  decide +kernel

end Wire

end OneTwo.Slot
