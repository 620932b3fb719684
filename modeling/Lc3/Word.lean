/-!
# Machine words

A machine word has 16 bits.  It is a memory cell, a register value, an address
or an encoded instruction; all address arithmetic wraps at 16 bits.
-/

namespace Lc3

/-- A memory cell, a register value, an address or an encoded instruction. -/
abbrev Word := UInt16

namespace Word

/-- The word read as a two's-complement integer. -/
def toInt (w : Word) : Int :=
  if w.toNat < 0x8000 then w.toNat else (w.toNat : Int) - 0x10000

/-- Widen the two's-complement field in the low `width` bits of `w` to a whole
word.  Bits of `w` above the field have no influence. -/
def signExtend (width : Nat) (w : Word) : Word :=
  let sign : Word := 1 <<< UInt16.ofNat (width - 1)
  let field := w &&& (sign - 1 + sign)
  if field < sign then field else field - sign - sign

/-- Bits 15 to 8. -/
def highByte (w : Word) : UInt8 := (w >>> 8).toUInt8

/-- Bits 7 to 0. -/
def lowByte (w : Word) : UInt8 := w.toUInt8

/-- The word whose big-endian bytes are `high` and `low`. -/
def ofBytes (high low : UInt8) : Word := high.toUInt16 * 0x100 + low.toUInt16

@[simp] theorem ofBytes_bytes (w : Word) : ofBytes w.highByte w.lowByte = w := by
  apply UInt16.toNat_inj.mp
  have := w.toNat_lt
  simp [ofBytes, highByte, lowByte, Nat.shiftRight_eq_div_pow]
  omega

@[simp] theorem highByte_ofBytes (high low : UInt8) : (ofBytes high low).highByte = high := by
  apply UInt8.toNat_inj.mp
  have := high.toNat_lt
  have := low.toNat_lt
  simp [ofBytes, highByte, Nat.shiftRight_eq_div_pow]
  omega

@[simp] theorem lowByte_ofBytes (high low : UInt8) : (ofBytes high low).lowByte = low := by
  apply UInt8.toNat_inj.mp
  simp [ofBytes, lowByte]

end Word

end Lc3
