import OneTwo.Proofs.Slot.Wire

/-!
Lossy reading of the wire form. It reads a buffer as strict reading would read it with the dangling
byte left out and every kind reduced to one of the five, so it gives the same slots, without a
remark, where strict reading gives any, and gives back slots that have been written. Whole pairs are
read by themselves, whatever stands behind them.
-/

namespace OneTwo.Slot

theorem Kind.byte_wrap (byte : UInt8) : (wrap byte).byte = byte % 5 := by
  have reduced : (byte % 5).toNat = byte.toNat % 5 := UInt8.toNat_mod byte 5
  have small : (byte % 5).toNat < 5 := by
    rw [reduced]
    exact Nat.mod_lt _ (by decide)
  have same : wrap (byte % 5) = wrap byte := by simp only [wrap, reduced, Nat.mod_mod]
  rw [← ofByte?_eq_some_iff, ofByte?, if_pos small, same]

namespace Wire

/-- The bytes in whole pairs, with those at even indices reduced modulo the number of kinds. -/
def normalized (bytes : List UInt8) : List UInt8 :=
  (bytes.take (2 * (bytes.length / 2))).mapIdx fun i byte => if i % 2 = 0 then byte % 5 else byte

theorem normalized_cons_cons (first second : UInt8) (rest : List UInt8) :
    normalized (first :: second :: rest) = first % 5 :: second :: normalized rest := by
  have whole : 2 * ((first :: second :: rest).length / 2) = 2 * (rest.length / 2) + 1 + 1 := by
    simp only [List.length_cons]
    omega
  have period : ∀ i, (i + 1 + 1) % 2 = i % 2 := fun i => Nat.add_mod_right i 2
  rw [normalized, whole, List.take_succ_cons, List.take_succ_cons, List.mapIdx_cons,
    List.mapIdx_cons]
  simp only [period]
  rfl

theorem value_readLossy (bytes : List UInt8) :
    (readLossy bytes).value = (pairs bytes).map fun pair => ofBytesLossy pair.1 pair.2 := by
  rw [readLossy]
  split <;> rfl

theorem write_readLossy : (bytes : List UInt8) → write (readLossy bytes).value = normalized bytes
  | [] => rfl
  | [byte] => by simp [value_readLossy, pairs, pairsAfter, write, normalized]
  | first :: second :: rest => by
    have others := write_readLossy rest
    rw [value_readLossy] at others ⊢
    rw [pairs_cons_cons, normalized_cons_cons, ← others, ← Kind.byte_wrap]
    rfl

theorem readLossy_write (slots : List Slot) : readLossy (write slots) = pure slots := by
  have even : (write slots).length % 2 = 0 := by rw [length_write]; omega
  have each : (fun s : Slot => ofBytesLossy s.kind.byte s.value) = id :=
    funext fun s => congrArg (Slot.mk · s.value) (Kind.wrap_byte s.kind)
  simp only [readLossy, even, pairs_write, List.map_map]
  exact congrArg pure ((congrArg (slots.map ·) each).trans slots.map_id)

theorem readLossy_of_read {bytes : List UInt8} {slots : List Slot} (h : read bytes = .ok slots) :
    readLossy bytes = pure slots := by
  rw [← write_of_read h, readLossy_write]

theorem pairs_append : {front : List UInt8} → front.length % 2 = 0 → (back : List UInt8) →
    pairs (front ++ back) = pairs front ++ pairs back
  | [], _, _ => rfl
  | [_], odd, _ => by simp at odd
  | first :: second :: rest, even, back => by
    have others := pairs_append (even_length_of_cons_cons even) back
    simp only [List.cons_append, pairs_cons_cons, others]

theorem readLossy_normalizes (bytes : List UInt8) :
    write (readLossy bytes).value = normalized bytes ∧
    read (normalized bytes) = .ok (readLossy bytes).value ∧
    readLossy (write (readLossy bytes).value) = pure (readLossy bytes).value ∧
    (∀ slots, read bytes = .ok slots → readLossy bytes = pure slots) ∧
    ∀ front, front.length % 2 = 0 →
      (readLossy (front ++ bytes)).value = (readLossy front).value ++ (readLossy bytes).value := by
  refine ⟨write_readLossy bytes, ?_, readLossy_write _, fun slots => readLossy_of_read, ?_⟩
  · rw [← write_readLossy, read_write]
  · intro front even
    simp only [value_readLossy, pairs_append even, List.map_append]

theorem readLossy_normalizes_dangling_byte :
    let bytes : List UInt8 := [7, 0, 5, 200, 9, 3, 250]
    let front : List UInt8 := [1, 9, 0, 5]
    let slots : List Slot := [⟨.operator .add, 9⟩, .literal 5]
    write (readLossy bytes).value = [2, 0, 0, 200, 4, 3] ∧
      read [2, 0, 0, 200, 4, 3] = .ok (readLossy bytes).value ∧
      (read front = .ok slots ∧ readLossy front = pure slots) ∧
      front.length % 2 = 0 ∧
        (readLossy (front ++ bytes)).value = (readLossy front).value ++ (readLossy bytes).value := by
  intro bytes front slots
  have same : normalized bytes = [2, 0, 0, 200, 4, 3] := by decide +kernel
  have received : read front = .ok slots := by decide +kernel
  have even : front.length % 2 = 0 := by decide +kernel
  obtain ⟨written, accepted, -, -, appended⟩ := readLossy_normalizes bytes
  obtain ⟨-, -, -, extending, -⟩ := readLossy_normalizes front
  rw [same] at written accepted
  exact ⟨written, accepted, ⟨received, extending slots received⟩, even, appended front even⟩

end Wire

end OneTwo.Slot
