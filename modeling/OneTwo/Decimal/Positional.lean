import OneTwo.Decimal.Shortest

/-!
The text of a double: its shortest digits with all zeros written out and never an exponent. A whole
number has no point, and the sign of zero is kept.
-/

namespace OneTwo.Decimal

/-- A double taken apart. A finite one is `m · 2^e` up to its sign. -/
inductive Parts where
  | nan
  | infinite
  | finite (m : Nat) (e : Int) (uneven : Bool)

/-- The number of fractions, and the bit that goes in front of one unless the exponent is the least. -/
def leadingBit : Nat := 0x10000000000000

def Parts.ofBits (bits : UInt64) : Parts :=
  let fraction := bits.toNat % leadingBit
  let field := bits.toNat / leadingBit % 2048
  if field = 2047 then
    if fraction = 0 then infinite else nan
  else if field = 0 then finite fraction (-1074) false
  else finite (leadingBit + fraction) (field - 1075) (fraction == 0 && field != 1)

def zeros (count : Nat) : String :=
  String.ofList (List.replicate count '0')

def Scientific.positional (x : Scientific) : String :=
  let digits := toString x.digits
  if 0 ≤ x.exponent then
    digits ++ zeros x.exponent.toNat
  else
    let places := (-x.exponent).toNat
    let whole := digits.length - places
    if 0 < whole then
      String.ofList (digits.toList.take whole) ++ "." ++ String.ofList (digits.toList.drop whole)
    else
      "0." ++ zeros (places - digits.length) ++ digits

def text (x : Float) : String :=
  let sign := if x.toBits < 0x8000000000000000 then "" else "-"
  match Parts.ofBits x.toBits with
  | .nan => "NaN"
  | .infinite => sign ++ "inf"
  | .finite 0 _ _ => sign ++ "0"
  | .finite m e uneven => sign ++ (shortest (.ofBinary m e uneven)).positional

end OneTwo.Decimal
