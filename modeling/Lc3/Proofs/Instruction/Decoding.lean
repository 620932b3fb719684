import Lc3.Proofs.Word.Signed

/-!
# Decoding and encoding

The format of an instruction word names the fields that it uses.  Two words decode to the
same instruction exactly if the fields of their format agree, so that the bits outside of
these fields are all that decoding loses.  What decoding gives are the well-formed
instructions, and encoding is undone by it.
-/

namespace Lc3

namespace Word

/-- The format of the word does not use bit `i`.  In `ADD` and `AND` this depends on the
mode in bit 5, and in calls on the mode in bit 11. -/
def Ignores (w : Word) (i : Nat) : Prop :=
  match w.bits 15 12 with
  | 0x1 | 0x5 => w.bits 5 5 = 0 ∧ 3 ≤ i ∧ i ≤ 4
  | 0x4 => w.bits 11 11 = 0 ∧ (9 ≤ i ∧ i ≤ 10 ∨ i ≤ 5)
  | 0x8 | 0xD => i ≤ 11
  | 0x9 => i ≤ 5
  | 0xC => 9 ≤ i ∧ i ≤ 11 ∨ i ≤ 5
  | 0xF => 8 ≤ i ∧ i ≤ 11
  | _ => False

/-- The fields of the word's format, each by its highest and its lowest bit. -/
def fields (w : Word) : List (Nat × Nat) :=
  (15, 12) ::
    match w.bits 15 12 with
    | 0x1 | 0x5 => [(11, 9), (8, 6), (5, 5), if w.bits 5 5 = 0 then (2, 0) else (4, 0)]
    | 0x4 => [(11, 11), if w.bits 11 11 = 0 then (8, 6) else (10, 0)]
    | 0x6 | 0x7 => [(11, 9), (8, 6), (5, 0)]
    | 0x8 | 0xD => []
    | 0x9 => [(11, 9), (8, 6)]
    | 0xC => [(8, 6)]
    | 0xF => [(7, 0)]
    | _ => [(11, 9), (8, 0)]

/-- The words agree on every field of the first one's format. -/
def SameFields (v w : Word) : Prop :=
  ∀ field ∈ v.fields, v.bits field.1 field.2 = w.bits field.1 field.2

/-- The bits of the fields are those that are not ignored. -/
theorem not_ignores_iff (w : Word) (i : Nat) :
    i < 16 ∧ ¬ w.Ignores i ↔ ∃ field ∈ w.fields, field.2 ≤ i ∧ i ≤ field.1 := by
  have hlt := w.bits_nibble_lt
  unfold Ignores fields
  generalize w.bits 15 12 = nibble at hlt
  -- three operations have two modes, all others a single format
  by_cases hoperate : nibble = 0x1 ∨ nibble = 0x5
  · by_cases hmode : w.bits 5 5 = 0 <;> rcases hoperate with rfl | rfl <;> simp [hmode] <;> omega
  by_cases hcall : nibble = 0x4
  · by_cases hmode : w.bits 11 11 = 0 <;> subst hcall <;> simp [hmode] <;> omega
  · interval_cases nibble <;> simp at hoperate hcall ⊢ <;> omega

/-- Words agree on the fields exactly if they agree on every bit that is not ignored. -/
theorem sameFields_iff (v w : Word) :
    v.SameFields w ↔ ∀ i < 16, ¬ v.Ignores i → v.bits i i = w.bits i i := by
  constructor
  · intro h i hi hused
    obtain ⟨field, hfield, hlow, hhigh⟩ := (not_ignores_iff v i).mp ⟨hi, hused⟩
    exact (bits_eq_iff v w field.1 field.2).mp (h field hfield) i hlow hhigh
  · intro h field hfield
    apply (bits_eq_iff v w field.1 field.2).mpr
    intro i hlow hhigh
    obtain ⟨hi, hused⟩ := (not_ignores_iff v i).mpr ⟨field, hfield, hlow, hhigh⟩
    exact h i hi hused

end Word

namespace Opcode

theorem nibble_inj {p q : Opcode} : p.nibble.toNat = q.nibble.toNat ↔ p = q := by
  cases p <;> cases q <;> decide

theorem ofWord_eq_iff (v w : Word) : ofWord v = ofWord w ↔ v.bits 15 12 = w.bits 15 12 := by
  rw [← nibble_inj, nibble_ofWord, nibble_ofWord]

end Opcode

namespace Instruction

open Word

section Fields

variable (v w : Word)

theorem upperField_eq_iff : upperField v = upperField w ↔ v.bits 11 9 = w.bits 11 9 := by
  rw [← UInt16.toNat_inj, toNat_upperField, toNat_upperField]

theorem middleField_eq_iff : middleField v = middleField w ↔ v.bits 8 6 = w.bits 8 6 := by
  rw [← UInt16.toNat_inj, toNat_middleField, toNat_middleField]

theorem lowerField_eq_iff : v &&& 7 = w &&& 7 ↔ v.bits 2 0 = w.bits 2 0 := by
  rw [← UInt16.toNat_inj, toNat_and_seven, toNat_and_seven]

theorem lowByte_eq_iff : v.lowByte = w.lowByte ↔ v.bits 7 0 = w.bits 7 0 := by
  rw [← UInt8.toNat_inj, toNat_lowByte, toNat_lowByte]

end Fields

theorem secondOperand_of_register {w : Word} (h : w.bits 5 5 = 0) :
    secondOperand w = .register (w &&& 7) :=
  if_pos (w.and_operandMode_iff.mpr h)

theorem secondOperand_of_immediate {w : Word} (h : w.bits 5 5 ≠ 0) :
    secondOperand w = .immediate (signExtend 5 w) :=
  if_neg (mt w.and_operandMode_iff.mp h)

/-- The mode and, by the mode, a register or an immediate make up the second operand. -/
theorem secondOperand_eq_iff (v w : Word) :
    secondOperand v = secondOperand w ↔
      v.bits 5 5 = w.bits 5 5 ∧
        if v.bits 5 5 = 0 then v.bits 2 0 = w.bits 2 0 else v.bits 4 0 = w.bits 4 0 := by
  have hv := v.bits_single_lt 5
  have hw := w.bits_single_lt 5
  by_cases hmode : v.bits 5 5 = 0 <;> by_cases hmode' : w.bits 5 5 = 0
  · simp [secondOperand_of_register hmode, secondOperand_of_register hmode', hmode, hmode',
      lowerField_eq_iff]
  · simp [secondOperand_of_register hmode, secondOperand_of_immediate hmode', hmode,
      Ne.symm hmode']
  · simp [secondOperand_of_immediate hmode, secondOperand_of_register hmode', hmode, hmode']
  · have hequal : v.bits 5 5 = w.bits 5 5 := by omega
    simp [secondOperand_of_immediate hmode, secondOperand_of_immediate hmode', hmode', hequal,
      signExtend_eq_iff]

/-- Where a word with the operation of `JSR` jumps to. -/
theorem decode_jsr_of_register {w : Word} (hop : Opcode.ofWord w = .jsr) (h : w.bits 11 11 = 0) :
    decode w = jsr (.register (middleField w)) := by
  unfold decode
  rw [hop]
  exact if_pos (w.and_callMode_iff.mpr h)

theorem decode_jsr_of_offset {w : Word} (hop : Opcode.ofWord w = .jsr) (h : w.bits 11 11 ≠ 0) :
    decode w = jsr (.offset (signExtend 11 w)) := by
  unfold decode
  rw [hop]
  exact if_neg (mt w.and_callMode_iff.mp h)

theorem decode_jsr_eq_iff {v w : Word} (hv : Opcode.ofWord v = .jsr)
    (hw : Opcode.ofWord w = .jsr) :
    decode v = decode w ↔
      v.bits 11 11 = w.bits 11 11 ∧
        if v.bits 11 11 = 0 then v.bits 8 6 = w.bits 8 6 else v.bits 10 0 = w.bits 10 0 := by
  have hlt := v.bits_single_lt 11
  have hlt' := w.bits_single_lt 11
  by_cases hmode : v.bits 11 11 = 0 <;> by_cases hmode' : w.bits 11 11 = 0
  · simp [decode_jsr_of_register hv hmode, decode_jsr_of_register hw hmode', hmode, hmode',
      middleField_eq_iff]
  · simp [decode_jsr_of_register hv hmode, decode_jsr_of_offset hw hmode', hmode, Ne.symm hmode']
  · simp [decode_jsr_of_offset hv hmode, decode_jsr_of_register hw hmode', hmode, hmode']
  · have hequal : v.bits 11 11 = w.bits 11 11 := by omega
    simp [decode_jsr_of_offset hv hmode, decode_jsr_of_offset hw hmode', hmode', hequal,
      signExtend_eq_iff]

@[simp] theorem opcode_decode (w : Word) : (decode w).opcode = Opcode.ofWord w := by
  unfold decode
  cases Opcode.ofWord w
  case jsr =>
    show (if w &&& 0x800 = 0 then _ else _ : Instruction).opcode = Opcode.jsr
    split <;> rfl
  all_goals rfl

/-- Words with the same operation decode alike exactly if their fields agree. -/
theorem decode_eq_iff_of_ofWord_eq {v w : Word} (hop : Opcode.ofWord v = Opcode.ofWord w) :
    decode v = decode w ↔ v.SameFields w := by
  have hnibble := Opcode.nibble_ofWord v
  have hequal := (Opcode.ofWord_eq_iff v w).mp hop
  unfold SameFields fields
  cases hv : Opcode.ofWord v <;> rw [hv] at hop hnibble <;> rw [← hnibble] at hequal ⊢
  case jsr =>
    rw [decode_jsr_eq_iff hv hop.symm]
    split <;> simp [Opcode.nibble, ← hnibble, ← hequal, *]
  all_goals
    unfold decode
    rw [hv, ← hop]
    simp [Opcode.nibble, ← hnibble, ← hequal, upperField_eq_iff, middleField_eq_iff, lowByte_eq_iff,
      signExtend_eq_iff, secondOperand_eq_iff]
  all_goals split <;> simp [*]

/-- Words decode alike exactly if they agree on the fields of the format. -/
theorem decode_eq_iff (v w : Word) : decode v = decode w ↔ v.SameFields w := by
  constructor
  · intro h
    refine (decode_eq_iff_of_ofWord_eq ?_).mp h
    rw [← opcode_decode, h, opcode_decode]
  · intro h
    refine (decode_eq_iff_of_ofWord_eq ?_).mpr h
    exact (Opcode.ofWord_eq_iff v w).mpr (h (15, 12) List.mem_cons_self)

section WellFormed

theorem upperField_lt (w : Word) : upperField w < 8 := by
  rw [UInt16.lt_iff_toNat_lt, toNat_upperField]
  exact (w.registerAt 9).isLt

theorem middleField_lt (w : Word) : middleField w < 8 := by
  rw [UInt16.lt_iff_toNat_lt, toNat_middleField]
  exact (w.registerAt 6).isLt

theorem secondOperand_wellFormed (w : Word) : (secondOperand w).WellFormed := by
  unfold secondOperand
  split
  · show w &&& 7 < 8
    rw [UInt16.lt_iff_toNat_lt, toNat_and_seven]
    exact (w.registerAt 0).isLt
  · exact fits_signExtend (by omega) (by omega) w

/-- Decoding gives fields that fit their bits. -/
theorem decode_wellFormed (w : Word) : (decode w).WellFormed := by
  have hupper := upperField_lt w
  have hmiddle := middleField_lt w
  have hnear : (signExtend 9 w).Fits 9 := fits_signExtend (by omega) (by omega) w
  have hbased : (signExtend 6 w).Fits 6 := fits_signExtend (by omega) (by omega) w
  unfold decode
  cases Opcode.ofWord w
  case br | ld | st | ldi | sti | lea => exact ⟨hupper, hnear⟩
  case add | and => exact ⟨hupper, hmiddle, secondOperand_wellFormed w⟩
  case ldr | str => exact ⟨hupper, hmiddle, hbased⟩
  case not => exact ⟨hupper, hmiddle⟩
  case jmp => exact hmiddle
  case jsr =>
    show (if w &&& 0x800 = 0 then _ else _ : Instruction).WellFormed
    split
    · exact hmiddle
    · exact fits_signExtend (by omega) (by omega) w
  case rti | res | trap => exact trivial

end WellFormed

end Instruction

end Lc3
