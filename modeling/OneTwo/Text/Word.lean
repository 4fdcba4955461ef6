/-!
Words of 64 bits in decimal: ASCII digits, at least one, after at most one plus sign. Leading zeros
mean nothing; a number that does not fit is refused.
-/

namespace OneTwo.Text

def ofDigits (digits : List Char) : Nat :=
  digits.foldl (fun n c => 10 * n + (c.toNat - '0'.toNat)) 0

def word? (text : String) : Option UInt64 :=
  let digits :=
    match text.toList with
    | '+' :: rest => rest
    | all => all
  if !digits.isEmpty && digits.all Char.isDigit && ofDigits digits < UInt64.size then
    some (.ofNat (ofDigits digits))
  else
    none

end OneTwo.Text
