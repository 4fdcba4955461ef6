import OneTwo.Logged
import OneTwo.Text.Hex

/-!
The wire form of slots: two bytes each, first the kind and then the value. Strict reading undoes
writing and refuses all else. Lossy reading accepts any bytes: a byte past the kinds begins them
again, and an odd last byte is left out with a remark.
-/

namespace OneTwo

inductive WireError where
  | oddLength (length : Nat)
  | unknownKind (byte : UInt8)
  deriving DecidableEq

def WireError.message : WireError → String
  | oddLength length => s!"invalid byte stream length: {length} (must be multiple of 2)"
  | unknownKind byte => "unknown token kind: 0x" ++ Text.hexByte byte

namespace Slot

def bytes (s : Slot) : List UInt8 :=
  [s.kind.byte, s.value]

def Kind.ofByte (byte : UInt8) : Except WireError Kind :=
  match ofByte? byte with
  | some kind => .ok kind
  | none => .error (.unknownKind byte)

def ofBytes (kind value : UInt8) : Except WireError Slot := do
  return ⟨← Kind.ofByte kind, value⟩

theorem ofBytes_bytes (s : Slot) : ofBytes s.kind.byte s.value = .ok s := by
  simp [ofBytes, Kind.ofByte, Kind.ofByte?_byte, bind, Except.bind, pure, Except.pure]

def ofBytesLossy (kind value : UInt8) : Slot :=
  ⟨.wrap kind, value⟩

namespace Wire

def write (slots : List Slot) : List UInt8 :=
  slots.flatMap bytes

theorem length_write (slots : List Slot) : (write slots).length = 2 * slots.length := by
  induction slots with
  | nil => rfl
  | cons s slots ih =>
    simp only [write, List.flatMap_cons, List.length_append, bytes, List.length_cons,
      List.length_nil] at ih ⊢
    omega

/-- Neighbouring bytes two by two after those already `paired`, the latest of them first; a last
byte without a neighbour is left out. -/
def pairsAfter (paired : List (UInt8 × UInt8)) : List UInt8 → List (UInt8 × UInt8)
  | first :: second :: rest => pairsAfter ((first, second) :: paired) rest
  | _ => paired.reverse

def pairs (bytes : List UInt8) : List (UInt8 × UInt8) :=
  pairsAfter [] bytes

private theorem pairsAfter_eq (paired : List (UInt8 × UInt8)) :
    (bytes : List UInt8) → pairsAfter paired bytes = paired.reverse ++ pairs bytes
  | [] => by simp [pairs, pairsAfter]
  | [_] => by simp [pairs, pairsAfter]
  | first :: second :: rest => by
    have onto := pairsAfter_eq ((first, second) :: paired) rest
    have alone := pairsAfter_eq [(first, second)] rest
    simp only [pairs, pairsAfter] at onto alone ⊢
    rw [onto, alone]
    simp

theorem pairs_cons_cons (first second : UInt8) (rest : List UInt8) :
    pairs (first :: second :: rest) = (first, second) :: pairs rest := by
  simpa [pairs, pairsAfter] using pairsAfter_eq [(first, second)] rest

theorem pairs_write (slots : List Slot) :
    pairs (write slots) = slots.map fun s => (s.kind.byte, s.value) := by
  induction slots with
  | nil => rfl
  | cons s slots ih => simpa [write, bytes, pairs_cons_cons] using ih

def read (bytes : List UInt8) : Except WireError (List Slot) :=
  if bytes.length % 2 = 0 then
    (pairs bytes).mapM fun (kind, value) => ofBytes kind value
  else
    .error (.oddLength bytes.length)

theorem read_write (slots : List Slot) : read (write slots) = .ok slots := by
  have even : (write slots).length % 2 = 0 := by rw [length_write]; omega
  have each : (fun s : Slot => ofBytes s.kind.byte s.value) = fun s => pure (id s) :=
    funext ofBytes_bytes
  rw [read, if_pos even, pairs_write, List.mapM_map]
  exact (congrArg slots.mapM each).trans (by rw [List.mapM_pure, List.map_id]; rfl)

def readLossy (bytes : List UInt8) : Logged (List Slot) := do
  if bytes.length % 2 ≠ 0 then
    Logged.log (.oddByteDropped bytes.length)
  return (pairs bytes).map fun (kind, value) => ofBytesLossy kind value

end Wire

end Slot

end OneTwo
