import Lc3.Word

/-!
# Written numbers

Words and bytes are written in hexadecimal with a fixed number of digits, and
in decimal without leading zeros.
-/

namespace Lc3.Text

/-- Four lower-case hexadecimal digits. -/
def hexWord (w : Word) : String :=
  String.ofList <| [w >>> 12, w >>> 8, w >>> 4, w].map fun digits =>
    Nat.digitChar (digits &&& 0xF).toNat

/-- Two upper-case hexadecimal digits. -/
def hexByte (b : UInt8) : String :=
  String.ofList <| [b >>> 4, b].map fun digits =>
    (Nat.digitChar (digits &&& 0xF).toNat).toUpper

/-- Decimal digits without leading zeros. -/
def decimal (n : Nat) : String := Nat.repr n

/-- Decimal digits after a minus sign if the integer is negative. -/
def signed : Int → String
  | .ofNat n => decimal n
  | .negSucc n => "-" ++ decimal (n + 1)

end Lc3.Text
