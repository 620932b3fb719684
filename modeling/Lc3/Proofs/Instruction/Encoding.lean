import Lc3.Proofs.Instruction.Decoding

/-!
# Encoding is undone by decoding

The word of an instruction has the operation above bit 12 and the fields below it, each at
its own place.  For a well-formed instruction decoding reads every field back, so that the
well-formed instructions are exactly those that words decode to.
-/

namespace Lc3

namespace Word

theorem toNat_and_mask (w : Word) {mask : Word} {width : Nat} (hmask : mask.toNat = 2 ^ width - 1) :
    (w &&& mask).toNat = w.toNat % 2 ^ width := by
  rw [UInt16.toNat_and, hmask, Nat.and_two_pow_sub_one_eq_mod]

/-- A field above others is added to them. -/
theorem toNat_shiftLeft_or {upper lower shift : Word} {width : Nat} (hshift : shift.toNat = width)
    (hwidth : width < 16) (hupper : upper.toNat * 2 ^ width < 65536)
    (hlower : lower.toNat < 2 ^ width) :
    (upper <<< shift ||| lower).toNat = upper.toNat * 2 ^ width + lower.toNat := by
  rw [UInt16.toNat_or, UInt16.toNat_shiftLeft, hshift, Nat.mod_eq_of_lt hwidth,
    Nat.shiftLeft_eq, Nat.mod_eq_of_lt hupper, ← Nat.shiftLeft_eq,
    Nat.shiftLeft_add_eq_or_of_lt hlower]

end Word

namespace Instruction

open Word

theorem toNat_encodeOffset (field offset : Word) :
    (encodeOffset field offset).toNat = field.toNat % 8 * 512 + offset.toNat % 512 := by
  have hfield := toNat_and_mask field (show (7 : Word).toNat = 2 ^ 3 - 1 from rfl)
  have hoffset := toNat_and_mask offset (show (0x1FF : Word).toNat = 2 ^ 9 - 1 from rfl)
  unfold encodeOffset
  rw [toNat_shiftLeft_or (show (9 : Word).toNat = 9 from rfl) (by omega) (by omega) (by omega)]
  omega

theorem toNat_encodePair (upper middle low : Word) :
    (encodePair upper middle low).toNat =
      upper.toNat % 8 * 512 + middle.toNat % 8 * 64 + low.toNat % 64 := by
  have hupper := toNat_and_mask upper (show (7 : Word).toNat = 2 ^ 3 - 1 from rfl)
  have hmiddle := toNat_and_mask middle (show (7 : Word).toNat = 2 ^ 3 - 1 from rfl)
  have hlow := toNat_and_mask low (show (0x3F : Word).toNat = 2 ^ 6 - 1 from rfl)
  -- the two lower fields first, as the part below the upper one
  have hrest : ((middle &&& 7) <<< 6 ||| (low &&& 0x3F)).toNat =
      middle.toNat % 8 * 64 + low.toNat % 64 := by
    rw [toNat_shiftLeft_or (show (6 : Word).toNat = 6 from rfl) (by omega) (by omega) (by omega)]
    omega
  unfold encodePair
  rw [UInt16.or_assoc,
    toNat_shiftLeft_or (show (9 : Word).toNat = 9 from rfl) (by omega) (by omega) (by omega)]
  omega

theorem toNat_encodeOperand_register (r : Word) :
    (encodeOperand (.register r)).toNat = r.toNat % 8 :=
  toNat_and_mask r (show (7 : Word).toNat = 2 ^ 3 - 1 from rfl)

theorem toNat_encodeOperand_immediate (value : Word) :
    (encodeOperand (.immediate value)).toNat = 32 + value.toNat % 32 := by
  have hvalue := toNat_and_mask value (show (0x1F : Word).toNat = 2 ^ 5 - 1 from rfl)
  have hmode : (0x20 : Word) = (1 : Word) <<< 5 := by decide
  show (0x20 ||| (value &&& 0x1F)).toNat = _
  rw [hmode, toNat_shiftLeft_or (show (5 : Word).toNat = 5 from rfl) (by omega) (by decide)
    (by omega), hvalue]
  rfl

theorem toNat_encodeFields_offset (offset : Word) :
    (encodeFields (jsr (.offset offset))).toNat = 2048 + offset.toNat % 2048 := by
  have hoffset := toNat_and_mask offset (show (0x7FF : Word).toNat = 2 ^ 11 - 1 from rfl)
  have hmode : (0x800 : Word) = (1 : Word) <<< 11 := by decide
  show (0x800 ||| (offset &&& 0x7FF)).toNat = _
  rw [hmode, toNat_shiftLeft_or (show (11 : Word).toNat = 11 from rfl) (by omega) (by decide)
    (by omega), hoffset]
  rfl

/-- All fields lie below the operation. -/
theorem toNat_encodeFields_lt (i : Instruction) : i.encodeFields.toNat < 4096 := by
  cases i
  case jsr target =>
    cases target
    · rw [toNat_encodeFields_offset]
      omega
    · show (encodePair _ _ _).toNat < 4096
      rw [toNat_encodePair]
      omega
  case trap vector =>
    show vector.toUInt16.toNat < 4096
    have hlt := vector.toNat_lt
    rw [UInt8.toNat_toUInt16]
    omega
  case rti | res => exact show (0 : Word).toNat < 4096 by decide
  case br | ld | st | ldi | sti | lea =>
    show (encodeOffset _ _).toNat < 4096
    rw [toNat_encodeOffset]
    omega
  all_goals
    show (encodePair _ _ _).toNat < 4096
    rw [toNat_encodePair]
    omega

theorem toNat_encode (i : Instruction) :
    i.encode.toNat = i.opcode.nibble.toNat * 4096 + i.encodeFields.toNat := by
  have hnibble : i.opcode.nibble.toNat < 16 := by cases i.opcode <;> decide
  exact toNat_shiftLeft_or (show (12 : Word).toNat = 12 from rfl) (by omega) (by omega)
    i.toNat_encodeFields_lt

theorem ofWord_encode (i : Instruction) : Opcode.ofWord i.encode = i.opcode := by
  have hfields := i.toNat_encodeFields_lt
  have hnibble : i.opcode.nibble.toNat < 16 := by cases i.opcode <;> decide
  rw [← Opcode.nibble_inj, Opcode.nibble_ofWord]
  unfold bits
  rw [toNat_encode]
  omega

/-- A field below the operation is the same field of the instruction's fields. -/
theorem bits_encode (i : Instruction) {high : Nat} (hhigh : high < 12) (low : Nat) :
    i.encode.bits high low = i.encodeFields.bits high low := by
  have hfields : i.encodeFields.toNat < 2 ^ 12 := i.toNat_encodeFields_lt
  apply (bits_eq_iff _ _ high low).mpr
  intro bit _ hbit
  have hword : i.encode.toNat = 2 ^ 12 * i.opcode.nibble.toNat + i.encodeFields.toNat := by
    rw [toNat_encode]
    omega
  rw [bits_single, bits_single, hword, Nat.testBit_two_pow_mul_add _ hfields, if_pos (by omega)]

section Reading

variable {w r : Word}

theorem upperField_eq_of_bits (hr : r < 8) (h : w.bits 11 9 = r.toNat % 8) : upperField w = r := by
  have hlt := UInt16.lt_iff_toNat_lt.mp hr
  apply UInt16.toNat_inj.mp
  rw [toNat_upperField, h]
  exact Nat.mod_eq_of_lt hlt

theorem middleField_eq_of_bits (hr : r < 8) (h : w.bits 8 6 = r.toNat % 8) : middleField w = r := by
  have hlt := UInt16.lt_iff_toNat_lt.mp hr
  apply UInt16.toNat_inj.mp
  rw [toNat_middleField, h]
  exact Nat.mod_eq_of_lt hlt

/-- A second operand is read back from the six bits that are written for it. -/
theorem secondOperand_eq_of_bits {src2 : Operand} (hsrc2 : src2.WellFormed)
    (h : w.bits 5 0 = (encodeOperand src2).toNat) : secondOperand w = src2 := by
  cases src2 with
  | register r =>
      have hlt : r.toNat < 8 := UInt16.lt_iff_toNat_lt.mp hsrc2
      rw [toNat_encodeOperand_register] at h
      have hmode : w.bits 5 5 = 0 := by unfold bits at h ⊢; omega
      have hfield : w.bits 2 0 = r.toNat := by unfold bits at h ⊢; omega
      rw [secondOperand_of_register hmode, Operand.register.injEq, ← UInt16.toNat_inj,
        toNat_and_seven, hfield]
  | immediate value =>
      rw [toNat_encodeOperand_immediate] at h
      have hmode : w.bits 5 5 ≠ 0 := by unfold bits at h ⊢; omega
      have hfield : w.bits 4 0 = value.bits 4 0 := by unfold bits at h ⊢; omega
      rw [secondOperand_of_immediate hmode, signExtend_eq_of_fits (by omega) (by omega) hsrc2 hfield]

end Reading

section Formats

variable {i : Instruction}

theorem upperField_encode_offset {field offset : Word} (h : i.encodeFields = encodeOffset field offset)
    (hfield : field < 8) : upperField i.encode = field := by
  apply upperField_eq_of_bits hfield
  rw [bits_encode i (by omega), h, bits, toNat_encodeOffset]
  omega

theorem signExtend_encode_offset {field offset : Word} (h : i.encodeFields = encodeOffset field offset)
    (hoffset : offset.Fits 9) : signExtend 9 i.encode = offset := by
  apply signExtend_eq_of_fits (by omega) (by omega) hoffset
  rw [bits_encode i (by omega), h, bits, bits, toNat_encodeOffset]
  omega

variable {upper middle low : Word} (h : i.encodeFields = encodePair upper middle low)
include h

theorem upperField_encode_pair (hupper : upper < 8) : upperField i.encode = upper := by
  apply upperField_eq_of_bits hupper
  rw [bits_encode i (by omega), h, bits, toNat_encodePair]
  omega

theorem middleField_encode_pair (hmiddle : middle < 8) : middleField i.encode = middle := by
  apply middleField_eq_of_bits hmiddle
  rw [bits_encode i (by omega), h, bits, toNat_encodePair]
  omega

theorem bits_encode_pair : i.encode.bits 5 0 = low.toNat % 64 := by
  rw [bits_encode i (by omega), h, bits, toNat_encodePair]
  omega

theorem signExtend_encode_pair (hlow : low.Fits 6) : signExtend 6 i.encode = low := by
  apply signExtend_eq_of_fits (by omega) (by omega) hlow
  rw [bits_encode_pair h, bits]
  omega

end Formats

theorem toNat_encodeOperand_lt (src2 : Operand) : (encodeOperand src2).toNat < 64 := by
  cases src2 with
  | register r => rw [toNat_encodeOperand_register]; omega
  | immediate value => rw [toNat_encodeOperand_immediate]; omega

theorem secondOperand_encode_pair {i : Instruction} {upper middle : Word} {src2 : Operand}
    (h : i.encodeFields = encodePair upper middle (encodeOperand src2))
    (hsrc2 : src2.WellFormed) : secondOperand i.encode = src2 := by
  apply secondOperand_eq_of_bits hsrc2
  rw [bits_encode_pair h]
  exact Nat.mod_eq_of_lt (toNat_encodeOperand_lt src2)

/-- A well-formed instruction is what its word decodes to. -/
theorem decode_encode {i : Instruction} (h : i.WellFormed) : decode i.encode = i := by
  have hop := i.ofWord_encode
  cases i
  case jsr target =>
    cases target with
    | offset value =>
        have hmode : (jsr (.offset value)).encode.bits 11 11 ≠ 0 := by
          rw [bits_encode _ (by omega), bits, toNat_encodeFields_offset]
          omega
        rw [decode_jsr_of_offset hop hmode, signExtend_eq_of_fits (by omega) (by omega) h]
        rw [bits_encode _ (by omega), bits, bits, toNat_encodeFields_offset]
        omega
    | register base =>
        have hmode : (jsr (.register base)).encode.bits 11 11 = 0 := by
          rw [bits_encode _ (by omega), bits]
          show (encodePair 0 base 0).toNat / _ % _ = 0
          rw [toNat_encodePair]
          simp
          omega
        rw [decode_jsr_of_register hop hmode, middleField_encode_pair rfl h]
  case br | ld | st | ldi | sti | lea =>
    simp only [decode, hop, opcode]
    rw [upperField_encode_offset rfl h.1, signExtend_encode_offset rfl h.2]
  case add | and =>
    simp only [decode, hop, opcode]
    rw [upperField_encode_pair rfl h.1, middleField_encode_pair rfl h.2.1,
      secondOperand_encode_pair rfl h.2.2]
  case ldr | str =>
    simp only [decode, hop, opcode]
    rw [upperField_encode_pair rfl h.1, middleField_encode_pair rfl h.2.1,
      signExtend_encode_pair rfl h.2.2]
  case not =>
    simp only [decode, hop, opcode]
    rw [upperField_encode_pair rfl h.1, middleField_encode_pair rfl h.2]
  case jmp =>
    simp only [decode, hop, opcode]
    rw [middleField_encode_pair rfl h]
  case trap vector =>
    simp only [decode, hop, opcode, trap.injEq]
    rw [← UInt8.toNat_inj, toNat_lowByte, bits_encode _ (by omega)]
    show vector.toUInt16.toNat / _ % _ = _
    have hlt := vector.toNat_lt
    rw [UInt8.toNat_toUInt16]
    omega
  case rti | res => simp only [decode, hop, opcode]

theorem wellFormed_iff (i : Instruction) : i.WellFormed ↔ ∃ w, decode w = i := by
  constructor
  · intro h
    exact ⟨i.encode, decode_encode h⟩
  · rintro ⟨w, rfl⟩
    exact decode_wellFormed w

/-- Encoding what was decoded gives back every bit that the format uses. -/
theorem bits_encode_decode (w : Word) {bit : Nat} (hbit : bit < 16) (hused : ¬ w.Ignores bit) :
    (decode w).encode.bits bit bit = w.bits bit bit := by
  have hsame := (decode_eq_iff w (decode w).encode).mp (decode_encode (decode_wellFormed w)).symm
  exact ((sameFields_iff w _).mp hsame bit hbit hused).symm

/-- Every word decodes to a well-formed instruction with the operation of its top four
bits, and every well-formed instruction is decoded from its own encoding.  Words decode
alike exactly if they agree on all bits that their format does not ignore, and these are
the bits that encoding again gives back. -/
theorem decode_exact :
    (∀ w, (decode w).WellFormed ∧ (decode w).opcode = Opcode.ofWord w ∧
      (Opcode.ofWord w).nibble.toNat = w.bits 15 12) ∧
      (∀ i : Instruction, i.WellFormed ↔ ∃ w, decode w = i) ∧
      (∀ v w, decode v = decode w ↔
        ∀ bit < 16, ¬ v.Ignores bit → v.bits bit bit = w.bits bit bit) ∧
      (∀ w, ∀ bit < 16, ¬ w.Ignores bit → (decode w).encode.bits bit bit = w.bits bit bit) ∧
      ∀ i : Instruction, i.WellFormed → decode i.encode = i := by
  refine ⟨fun w => ⟨decode_wellFormed w, opcode_decode w, Opcode.nibble_ofWord w⟩, wellFormed_iff,
    ?_, ?_, ?_⟩
  · intro v w
    rw [decode_eq_iff, sameFields_iff]
  · intro w bit hbit hused
    exact bits_encode_decode w hbit hused
  · intro i h
    exact decode_encode h

/-- A call through a register has eight bits that do not matter. -/
example : decode 0x4080 = decode 0x46BF := by decide

end Instruction

end Lc3
