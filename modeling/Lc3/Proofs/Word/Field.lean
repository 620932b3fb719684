import Lc3.Instruction.Basic
import Lc3.Registers
import Mathlib

/-!
# Bit fields of a word

The fields of an instruction word as numbers, by division and remainder, and
immediates as signed integers.  Word arithmetic is integer arithmetic modulo
65536; the decoder's masks and shifts are tied to these readings here, so that
no later proof has to look at single bits.
-/

namespace Lc3

namespace Word

/-- Bits `high` down to `low`, as a number. -/
def bits (w : Word) (high low : Nat) : Nat := w.toNat / 2 ^ low % 2 ^ (high + 1 - low)

/-- The low `width` bits as a two's-complement integer. -/
def signedBits (w : Word) (width : Nat) : Int :=
  let field := w.bits (width - 1) 0
  if field < 2 ^ (width - 1) then field else (field : Int) - 2 ^ width

theorem ofInt_toNat (w : Word) : UInt16.ofInt w.toNat = w := by
  have hlt := w.toNat_lt
  unfold UInt16.ofInt
  rw [Int.emod_eq_of_lt (by omega) (by omega), Int.toNat_natCast, UInt16.ofNat_toNat]

theorem add_eq_ofInt (a b : Word) : a + b = UInt16.ofInt (a.toNat + b.toNat) := by
  rw [UInt16.ofInt_add, ofInt_toNat, ofInt_toNat]

theorem bits_low (w : Word) {width : Nat} (hpos : 0 < width) :
    w.bits (width - 1) 0 = w.toNat % 2 ^ width := by
  unfold bits
  rw [Nat.pow_zero, Nat.div_one, Nat.sub_zero, Nat.sub_add_cancel hpos]

theorem toNat_signBit {width : Nat} (hpos : 0 < width) (hle : width ≤ 15) :
    ((1 : Word) <<< UInt16.ofNat (width - 1)).toNat = 2 ^ (width - 1) := by
  have hpow : 2 ^ (width - 1) ≤ 2 ^ 14 := Nat.pow_le_pow_right (by omega) (by omega)
  have hindex : (UInt16.ofNat (width - 1)).toNat % 16 = width - 1 := by
    rw [UInt16.toNat_ofNat']
    omega
  rw [UInt16.toNat_shiftLeft, hindex, UInt16.toNat_one, Nat.one_shiftLeft]
  exact Nat.mod_eq_of_lt (by omega)

/-- The sign bit together with all bits below it masks the field. -/
theorem toNat_and_lowMask (w : Word) {sign : Word} {width : Nat} (hpos : 0 < width)
    (hle : width ≤ 15) (hsign : sign.toNat = 2 ^ (width - 1)) :
    (w &&& (sign - 1 + sign)).toNat = w.toNat % 2 ^ width := by
  have hpow : 2 ^ (width - 1) ≤ 2 ^ 14 := Nat.pow_le_pow_right (by omega) (by omega)
  have hone : 1 ≤ 2 ^ (width - 1) := Nat.one_le_two_pow
  have hdouble : 2 ^ width = 2 * 2 ^ (width - 1) := (mul_pow_sub_one (by omega) 2).symm
  -- one less than a power of two, so that the mask is a remainder
  have hmask : (sign - 1 + sign).toNat = 2 ^ width - 1 := by
    rw [UInt16.toNat_add, UInt16.toNat_sub, UInt16.toNat_one]
    omega
  rw [UInt16.toNat_and, hmask, Nat.and_two_pow_sub_one_eq_mod]

/-- Widening a field keeps its signed value modulo 65536. -/
theorem signExtend_eq_ofInt (w : Word) {width : Nat} (hpos : 0 < width) (hle : width ≤ 15) :
    signExtend width w = UInt16.ofInt (w.signedBits width) := by
  unfold signExtend signedBits
  rw [bits_low w hpos]
  have hsign := toNat_signBit hpos hle
  generalize (1 : Word) <<< UInt16.ofNat (width - 1) = sign at hsign
  have hfield := toNat_and_lowMask w hpos hle hsign
  dsimp only
  generalize w &&& (sign - 1 + sign) = field at hfield
  have hbranch : field < sign ↔ w.toNat % 2 ^ width < 2 ^ (width - 1) := by
    rw [UInt16.lt_iff_toNat_lt, hfield, hsign]
  have hdouble : (2 : Int) ^ width = sign.toNat + sign.toNat := by
    rw [hsign, ← Int.two_mul]
    push_cast
    exact (mul_pow_sub_one (by omega) 2).symm
  by_cases h : field < sign
  · rw [if_pos h, if_pos (hbranch.mp h), ← hfield, ofInt_toNat]
  -- a field with its sign bit set is widened by subtracting twice the sign bit
  · rw [if_neg h, if_neg (fun hlt => h (hbranch.mpr hlt)), ← hfield, hdouble]
    rw [Int.sub_eq_add_neg, UInt16.ofInt_add, UInt16.ofInt_neg, UInt16.ofInt_add,
      ofInt_toNat, ofInt_toNat, UInt16.sub_eq_add_neg, UInt16.sub_eq_add_neg,
      UInt16.neg_add, UInt16.add_assoc, UInt16.sub_eq_add_neg]

/-- Adding a widened field is adding its signed value. -/
theorem add_signExtend (a w : Word) {width : Nat} (hpos : 0 < width) (hle : width ≤ 15) :
    a + signExtend width w = UInt16.ofInt (a.toNat + w.signedBits width) := by
  rw [UInt16.ofInt_add, ofInt_toNat, signExtend_eq_ofInt w hpos hle]

theorem bits_nibble_lt (w : Word) : w.bits 15 12 < 16 := Nat.mod_lt _ (by omega)

theorem toNat_shiftRight_twelve (w : Word) : (w >>> 12).toNat = w.bits 15 12 := by
  have hlt := w.toNat_lt
  rw [UInt16.toNat_shiftRight, Nat.shiftRight_eq_div_pow]
  show w.toNat / 2 ^ 12 = w.toNat / 2 ^ 12 % 2 ^ 4
  omega

theorem toNat_lowByte (w : Word) : w.lowByte.toNat = w.bits 7 0 := by
  unfold lowByte bits
  rw [UInt16.toNat_toUInt8, Nat.pow_zero, Nat.div_one]

theorem bits_single (w : Word) (i : Nat) : w.bits i i = (w.toNat.testBit i).toNat := by
  unfold bits
  rw [Nat.add_sub_cancel_left, pow_one, Nat.toNat_testBit]

theorem bits_single_lt (w : Word) (i : Nat) : w.bits i i < 2 := by
  rw [bits_single]
  exact Bool.toNat_lt _

/-- Words agree on a field exactly if they agree on each of its bits. -/
theorem bits_eq_iff (v w : Word) (high low : Nat) :
    v.bits high low = w.bits high low ↔
      ∀ i, low ≤ i → i ≤ high → v.bits i i = w.bits i i := by
  -- bit `j` of a field is bit `low + j` of the word
  have hbit : ∀ (u : Word) (j : Nat),
      (u.bits high low).testBit j = (decide (j < high + 1 - low) && u.toNat.testBit (low + j)) := by
    intro u j
    unfold bits
    rw [Nat.testBit_mod_two_pow, Nat.testBit_div_two_pow, Nat.add_comm j low]
  have hinjective : Function.Injective Bool.toNat := by decide
  simp only [bits_single, hinjective.eq_iff]
  constructor
  · intro h i hlow hhigh
    have hfield := congrArg (·.testBit (i - low)) h
    simpa [hbit, show i - low < high + 1 - low by omega, Nat.add_sub_cancel' hlow] using hfield
  · intro h
    apply Nat.eq_of_testBit_eq
    intro j
    rw [hbit, hbit]
    by_cases hj : j < high + 1 - low
    · rw [h (low + j) (by omega) (by omega)]
    · simp [hj]

/-- A single bit is tested with a mask. -/
theorem and_eq_zero_iff_bit (w : Word) {mask : Word} {i : Nat} (hmask : mask.toNat = 2 ^ i) :
    w &&& mask = 0 ↔ w.bits i i = 0 := by
  rw [← UInt16.toNat_inj, UInt16.toNat_and, hmask, UInt16.toNat_zero, Nat.and_two_pow, bits_single]
  simp

/-- Bit 5 tells a register from an immediate as the second operand. -/
theorem and_operandMode_iff (w : Word) : w &&& 0x20 = 0 ↔ w.bits 5 5 = 0 :=
  and_eq_zero_iff_bit w (show (0x20 : Word).toNat = 2 ^ 5 from rfl)

/-- Bit 11 tells a register from an offset as the target of a call. -/
theorem and_callMode_iff (w : Word) : w &&& 0x800 = 0 ↔ w.bits 11 11 = 0 :=
  and_eq_zero_iff_bit w (show (0x800 : Word).toNat = 2 ^ 11 from rfl)

/-- The register number in the three bits from `low` on. -/
def registerAt (w : Word) (low : Nat) : Fin 8 :=
  ⟨w.bits (low + 2) low, by
    unfold bits
    rw [show low + 2 + 1 - low = 3 by omega]
    exact Nat.mod_lt _ (by omega)⟩

theorem toNat_and_seven (w : Word) : (w &&& 7).toNat = w.bits 2 0 := by
  unfold bits
  rw [UInt16.toNat_and, Nat.pow_zero, Nat.div_one]
  exact Nat.and_two_pow_sub_one_eq_mod _ 3

end Word

namespace Opcode

open Word in
/-- The operation of a word is the one of its top four bits. -/
theorem nibble_ofWord (w : Word) : (ofWord w).nibble.toNat = w.bits 15 12 := by
  have hlt := bits_nibble_lt w
  unfold ofWord
  rw [toNat_shiftRight_twelve]
  generalize w.bits 15 12 = n at hlt ⊢
  interval_cases n <;> rfl

end Opcode

namespace Instruction

open Word

theorem toNat_upperField (w : Word) : (upperField w).toNat = w.bits 11 9 := by
  unfold upperField bits
  rw [UInt16.toNat_and, UInt16.toNat_shiftRight, Nat.shiftRight_eq_div_pow]
  exact Nat.and_two_pow_sub_one_eq_mod _ 3

theorem toNat_middleField (w : Word) : (middleField w).toNat = w.bits 8 6 := by
  unfold middleField bits
  rw [UInt16.toNat_and, UInt16.toNat_shiftRight, Nat.shiftRight_eq_div_pow]
  exact Nat.and_two_pow_sub_one_eq_mod _ 3

end Instruction

namespace Condition

/-- The sign of an integer. -/
def ofInt (value : Int) : Condition :=
  if value < 0 then negative else if value = 0 then zero else positive

theorem ofWord_eq_ofInt (w : Word) : ofWord w = ofInt w.toInt := by
  have hlt := w.toNat_lt
  have hzero : w = 0 ↔ w.toNat = 0 := by rw [← UInt16.toNat_inj, UInt16.toNat_zero]
  have hsmall : w < 0x8000 ↔ w.toNat < 0x8000 := UInt16.lt_iff_toNat_lt
  unfold ofWord ofInt Word.toInt
  simp only [hzero, hsmall]
  split_ifs <;> first | rfl | omega

/-- The bit of an instruction word that selects the condition: bit 11 for
negative, 10 for zero and 9 for positive. -/
def maskBit : Condition → Nat
  | negative => 11
  | zero => 10
  | positive => 9

/-- The condition's bit in a branch mask is its bit of the whole word. -/
theorem bit_and_upperField (condition : Condition) (w : Word) :
    (condition.bit &&& Instruction.upperField w != 0) =
      decide (w.bits condition.maskBit condition.maskBit = 1) := by
  have hmask : condition.bit.toNat = 2 ^ (condition.maskBit - 9) := by cases condition <;> rfl
  have hbit := Word.and_eq_zero_iff_bit (Instruction.upperField w) hmask
  -- the mask field starts at bit 9 of the word
  have hshift : (Instruction.upperField w).bits (condition.maskBit - 9) (condition.maskBit - 9) =
      w.bits condition.maskBit condition.maskBit := by
    have hfield := Instruction.toNat_upperField w
    unfold Word.bits at hfield ⊢
    rw [hfield]
    cases condition <;> simp only [maskBit] <;> omega
  have htwo := w.bits_single_lt condition.maskBit
  rw [hshift] at hbit
  rw [UInt16.and_comm, Bool.eq_iff_iff, bne_iff_ne, decide_eq_true_iff, ne_eq, hbit]
  omega

end Condition

end Lc3
