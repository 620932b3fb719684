import Lc3.Instruction.Basic
import Lc3.Proofs.Word.Field

/-!
# Checked operations

An index, a range, a shift and a sum of sizes may be out of bounds, and a checked
operation panics then.  The machine's own definitions cannot panic, for their types bound
what they index.  Here the operations on words are written with every check that is made
at run time.  No check fails in them, so that they give what the machine's definitions
give.
-/

namespace Lc3

/-- The check that has failed. -/
inductive Panic
  | index
  | slice
  /-- The parts of a copy have different lengths. -/
  | lengths
  | shift
  | overflow
  | assertion
  deriving DecidableEq

/-- A value, unless a check has failed. -/
abbrev Checked (α : Type) : Type := Except Panic α

namespace Checked

variable {α : Type}

def item (items : Array α) (i : Nat) : Checked α :=
  if h : i < items.size then .ok items[i] else .error .index

def setItem (items : Array α) (i : Nat) (x : α) : Checked (Array α) :=
  if h : i < items.size then .ok (items.set i x) else .error .index

def ensure (p : Prop) [Decidable p] : Checked Unit := if p then .ok () else .error .assertion

/-- The sum of two sizes, which have 64 bits. -/
def addSize (a b : Nat) : Checked Nat := if a + b < 2 ^ 64 then .ok (a + b) else .error .overflow

/-- The difference of two unsigned numbers. -/
def sub (a b : Nat) : Checked Nat := if b ≤ a then .ok (a - b) else .error .overflow

def subWord (a b : Word) : Checked Word := if b ≤ a then .ok (a - b) else .error .overflow

def shiftLeft (w : Word) (count : Nat) : Checked Word :=
  if count < 16 then .ok (w <<< UInt16.ofNat count) else .error .shift

def shiftRight (w : Word) (count : Nat) : Checked Word :=
  if count < 16 then .ok (w >>> UInt16.ofNat count) else .error .shift

/-- Copy the values to the items from `start` up to `stop`. -/
def copyRange (items : Array α) (start stop : Nat) (values : List α) : Checked (Array α) :=
  if stop < start ∨ items.size < stop then .error .slice
  else if stop - start ≠ values.length then .error .lengths
  else .ok (items.extract 0 start ++ values.toArray ++ items.extract stop items.size)

theorem item_of_lt {items : Array α} {i : Nat} (h : i < items.size) :
    item items i = .ok items[i] := dif_pos h

theorem setItem_of_lt {items : Array α} {i : Nat} (x : α) (h : i < items.size) :
    setItem items i x = .ok (items.set i x) := dif_pos h

theorem addSize_of_lt {a b : Nat} (h : a + b < 2 ^ 64) : addSize a b = .ok (a + b) := if_pos h

theorem ensure_of {p : Prop} [Decidable p] (h : p) : ensure p = .ok () := if_pos h

theorem sub_of_le {a b : Nat} (h : b ≤ a) : sub a b = .ok (a - b) := if_pos h

theorem subWord_of_le {a b : Word} (h : b ≤ a) : subWord a b = .ok (a - b) := if_pos h

theorem shiftLeft_of_lt (w : Word) {count : Nat} (h : count < 16) :
    shiftLeft w count = .ok (w <<< UInt16.ofNat count) := if_pos h

theorem shiftRight_of_lt (w : Word) {count : Nat} (h : count < 16) :
    shiftRight w count = .ok (w >>> UInt16.ofNat count) := if_pos h

@[simp] theorem ok_bind {β : Type} (x : α) (f : α → Checked β) :
    (Except.ok x >>= f : Checked β) = f x := rfl

/-- Widen the low `bits` bits of a word, which are a two's-complement field.  The bits
from the sign bit on are those of the negated sign bit. -/
def signExtend (w : Word) (bits : Nat) : Checked Word := do
  ensure (0 < bits ∧ bits < 16)
  let sign := w &&& (← shiftLeft 1 (← sub bits 1))
  let magnitude := w &&& (← subWord (← shiftLeft 1 bits) 1)
  pure (magnitude ||| (~~~ sign + 1))

end Checked

namespace Word

theorem toNat_one_shiftLeft {bits : Nat} (h : bits < 16) :
    ((1 : Word) <<< UInt16.ofNat bits).toNat = 2 ^ bits := by
  have hpow : 2 ^ bits ≤ 2 ^ 15 := Nat.pow_le_pow_right (by omega) (by omega)
  have hcount : (UInt16.ofNat bits).toNat % 16 = bits := by
    rw [UInt16.toNat_ofNat']
    omega
  rw [UInt16.toNat_shiftLeft, hcount, UInt16.toNat_one, Nat.one_shiftLeft]
  exact Nat.mod_eq_of_lt (by omega)

/-- A field with its sign bit set, and all bits from the sign bit on. -/
theorem or_signBits {i field : Nat} (hi : i < 15) (hlow : 2 ^ i ≤ field)
    (hhigh : field < 2 ^ (i + 1)) : field ||| (2 ^ 16 - 2 ^ i) = 2 ^ 16 - 2 ^ (i + 1) + field := by
  have hsucc : 2 ^ (i + 1) = 2 ^ i + 2 ^ i := by rw [Nat.pow_succ, Nat.mul_two]
  have hpos : 0 < 2 ^ i := Nat.two_pow_pos i
  -- the bits above the field are a multiple of its range
  obtain ⟨k, hk⟩ : ∃ k, 2 ^ 16 = 2 ^ (i + 1) * k + 2 ^ (i + 1) := by
    refine ⟨2 ^ (15 - i) - 1, ?_⟩
    rw [← Nat.mul_succ, Nat.succ_eq_add_one, Nat.sub_add_cancel Nat.one_le_two_pow, ← Nat.pow_add]
    congr 1
    omega
  have hbits : 2 ^ 16 - 2 ^ i = 2 ^ (i + 1) * k ||| 2 ^ i := by
    rw [← Nat.two_pow_add_eq_or_of_lt (by omega) k]
    omega
  have hsign : 2 ^ i ||| field = field := by
    -- the sign bit is the highest one of the field
    have hsplit := Nat.two_pow_add_eq_or_of_lt (show field - 2 ^ i < 2 ^ i by omega) 1
    rw [Nat.mul_one, Nat.add_sub_cancel' hlow] at hsplit
    rw [hsplit, ← Nat.or_assoc, Nat.or_self]
  calc field ||| (2 ^ 16 - 2 ^ i)
      = 2 ^ (i + 1) * k ||| (2 ^ i ||| field) := by rw [hbits, Nat.or_comm, Nat.or_assoc]
    _ = 2 ^ (i + 1) * k + field := by rw [hsign, ← Nat.two_pow_add_eq_or_of_lt hhigh]
    _ = 2 ^ 16 - 2 ^ (i + 1) + field := by omega

end Word

namespace Checked

/-- No check fails for the widths of fields. -/
theorem signExtend_eq (w : Word) {bits : Nat} (hpos : 0 < bits) (hlt : bits < 16) :
    signExtend w bits = .ok (Word.signExtend bits w) := by
  obtain ⟨i, rfl⟩ : ∃ i, bits = i + 1 := ⟨bits - 1, by omega⟩
  have hpow : 2 ^ (i + 1) ≤ 2 ^ 15 := Nat.pow_le_pow_right (by omega) (by omega)
  have hsucc : 2 ^ (i + 1) = 2 ^ i + 2 ^ i := by rw [Nat.pow_succ, Nat.mul_two]
  have hone := Word.toNat_one_shiftLeft hlt
  have hle : (1 : Word) ≤ 1 <<< UInt16.ofNat (i + 1) := by
    rw [UInt16.le_iff_toNat_le, hone, UInt16.toNat_one]
    exact Nat.one_le_two_pow
  have hmask : ((1 : Word) <<< UInt16.ofNat (i + 1) - 1).toNat = 2 ^ (i + 1) - 1 := by
    rw [UInt16.toNat_sub_of_le _ _ hle, hone, UInt16.toNat_one]
  have hmagnitude : (w &&& (1 <<< UInt16.ofNat (i + 1) - 1)).toNat = w.toNat % 2 ^ (i + 1) := by
    rw [UInt16.toNat_and, hmask, Nat.and_two_pow_sub_one_eq_mod]
  have hsign : (w &&& 1 <<< UInt16.ofNat i).toNat = (w.toNat.testBit i).toNat * 2 ^ i := by
    rw [UInt16.toNat_and, Word.toNat_one_shiftLeft (by omega), Nat.and_two_pow]
  have hbit : w.toNat.testBit i = decide (¬ w.toNat % 2 ^ (i + 1) < 2 ^ i) := by
    have hlow : w.toNat % 2 ^ i < 2 ^ i := Nat.mod_lt _ (Nat.two_pow_pos i)
    rw [Nat.testBit_eq_decide_div_mod_eq, Nat.mod_pow_succ]
    rcases Nat.mod_two_eq_zero_or_one (w.toNat / 2 ^ i) with hzero | hone <;> simp [*]
  have hchecked : signExtend w (i + 1) =
      .ok ((w &&& ((1 : Word) <<< UInt16.ofNat (i + 1) - 1)) |||
        (~~~(w &&& (1 : Word) <<< UInt16.ofNat i) + 1)) := by
    unfold signExtend
    rw [ensure_of ⟨hpos, hlt⟩, ok_bind, sub_of_le (by omega), ok_bind, Nat.add_sub_cancel,
      shiftLeft_of_lt _ (by omega), ok_bind, shiftLeft_of_lt _ hlt, ok_bind, subWord_of_le hle]
    rfl
  rw [hchecked, Word.signExtend_eq_ofInt w hpos (by omega), ← UInt16.neg_eq_not_add]
  unfold Word.signedBits
  rw [Word.bits_low w hpos, Nat.add_sub_cancel]
  generalize w &&& ((1 : Word) <<< UInt16.ofNat (i + 1) - 1) = magnitude at hmagnitude
  generalize w &&& (1 : Word) <<< UInt16.ofNat i = sign at hsign
  rw [← hmagnitude] at hbit ⊢
  -- the sign bit is clear exactly if the field is below its value
  by_cases h : magnitude.toNat < 2 ^ i
  · have hzero : sign = 0 := by
      rw [← UInt16.toNat_inj, hsign, hbit]
      simp [h]
    simp [h, hzero, Word.ofInt_toNat]
  · have hhigh : magnitude.toNat < 2 ^ (i + 1) := by
      rw [hmagnitude]
      exact Nat.mod_lt _ (by omega)
    have hnegated : (-sign).toNat = 2 ^ 16 - 2 ^ i := by
      rw [UInt16.toNat_neg, hsign, hbit]
      simp [h, UInt16.size]
    have hwidened : (magnitude ||| -sign).toNat = 2 ^ 16 - 2 ^ (i + 1) + magnitude.toNat := by
      rw [UInt16.toNat_or, hnegated, Word.or_signBits (by omega) (by omega) hhigh]
    rw [if_neg h, ← Word.ofInt_toNat (magnitude ||| -sign), hwidened]
    have hcast : (2 : Int) ^ (i + 1) = ((2 ^ (i + 1) : Nat) : Int) := by push_cast; rfl
    rw [hcast]
    unfold UInt16.ofInt
    congr 2
    omega

/-- The operations in the order of their numbers. -/
def opcodes : Array Opcode :=
  #[.br, .add, .ld, .st, .jsr, .and, .ldr, .str, .rti, .not, .ldi, .sti, .jmp, .res, .lea, .trap]

def opcodeOf (w : Word) : Checked Opcode := do
  item opcodes (← shiftRight w 12).toNat

theorem opcodeOf_eq (w : Word) : opcodeOf w = .ok (Opcode.ofWord w) := by
  have hlt : (w >>> 12).toNat < 16 := by
    rw [Word.toNat_shiftRight_twelve]
    exact w.bits_nibble_lt
  unfold opcodeOf Opcode.ofWord
  rw [shiftRight_of_lt w (by omega), ok_bind]
  show item opcodes (w >>> 12).toNat = _
  generalize (w >>> 12).toNat = n at hlt
  interval_cases n <;> rfl

/-- The three bits of a register number from the given one on. -/
def registerField (w : Word) (low : Nat) : Checked Word := do
  pure ((← shiftRight w low) &&& 7)

def secondOperand (w : Word) : Checked Operand := do
  if w &&& 0x20 = 0 then pure (.register (w &&& 7))
  else pure (.immediate (← signExtend w 5))

/-- The instruction that a word encodes.  Both offsets are widened whether they are used
or not. -/
def decode (w : Word) : Checked Instruction := do
  let upper ← registerField w 9
  let middle ← registerField w 6
  let offset9 ← signExtend w 9
  let offset6 ← signExtend w 6
  match ← opcodeOf w with
  | .br => pure (.br upper offset9)
  | .add => pure (.add upper middle (← secondOperand w))
  | .ld => pure (.ld upper offset9)
  | .st => pure (.st upper offset9)
  | .jsr =>
      if w &&& 0x800 ≠ 0 then pure (.jsr (.offset (← signExtend w 11)))
      else pure (.jsr (.register middle))
  | .and => pure (.and upper middle (← secondOperand w))
  | .ldr => pure (.ldr upper middle offset6)
  | .str => pure (.str upper middle offset6)
  | .rti => pure .rti
  | .not => pure (.not upper middle)
  | .ldi => pure (.ldi upper offset9)
  | .sti => pure (.sti upper offset9)
  | .jmp => pure (.jmp middle)
  | .res => pure .res
  | .lea => pure (.lea upper offset9)
  | .trap => pure (.trap (w &&& 0xFF).toUInt8)

theorem secondOperand_eq (w : Word) : secondOperand w = .ok (Instruction.secondOperand w) := by
  unfold secondOperand Instruction.secondOperand
  rw [signExtend_eq w (by omega) (by omega)]
  split_ifs <;> rfl

theorem toUInt8_and_byte (w : Word) : (w &&& 0xFF).toUInt8 = w.lowByte := by
  apply UInt8.toNat_inj.mp
  have hmask : w.toNat % 256 &&& 255 = w.toNat % 256 % 256 := Nat.and_two_pow_sub_one_eq_mod _ 8
  simp [Word.lowByte, hmask]

/-- Every word is decoded without a panic. -/
theorem decode_eq (w : Word) : decode w = .ok (Instruction.decode w) := by
  have hupper : registerField w 9 = .ok (Instruction.upperField w) := rfl
  have hmiddle : registerField w 6 = .ok (Instruction.middleField w) := rfl
  unfold decode Instruction.decode
  rw [hupper, hmiddle, signExtend_eq w (by omega) (by omega), signExtend_eq w (by omega) (by omega),
    signExtend_eq w (by omega) (by omega), opcodeOf_eq, secondOperand_eq, toUInt8_and_byte]
  cases Opcode.ofWord w with
  | jsr =>
      by_cases h : w &&& 0x800 = 0
      · simp [h, pure, Except.pure]
      · simp [h, pure, Except.pure]
  | br | add | ld | st | and | ldr | str | rti | not | ldi | sti | jmp | res | lea | trap => rfl

end Checked

end Lc3
