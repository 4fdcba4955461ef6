/-!
Bytes in hexadecimal: two lower-case digits each.
-/

namespace OneTwo.Text

def hexDigit (n : Nat) : Char :=
  Nat.digitChar n

def hexByte (byte : UInt8) : String :=
  String.ofList [hexDigit (byte.toNat / 16), hexDigit (byte.toNat % 16)]

def hex (bytes : List UInt8) : String :=
  bytes.foldl (fun text byte => text ++ hexByte byte) ""

end OneTwo.Text
