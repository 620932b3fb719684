import Lc3.Proofs.Instruction.Decoding
import Lc3.Proofs.Machine.Trap
import Lc3.Proofs.Text.Numeral

/-!
# Disassembly is unambiguous

A line of assembler source is a name and operands.  Its words are parted by blanks, so
that its text determines them, and an assembler that knows the names finds the instruction
again.  So different instructions are never written alike: no register is taken for an
immediate, no routine for a vector and no name for a longer one.
-/

namespace Lc3

/-- An operand in a line of assembler source. -/
inductive SourceOperand
  | register (r : Word)
  | literal (value : Word)
  /-- A trap vector that has no routine. -/
  | vector (vector : UInt8)

/-- A line of assembler source. -/
structure SourceLine where
  name : String
  operands : List SourceOperand

namespace SourceOperand

/-- The operand as it is written. -/
def text : SourceOperand → String
  | register r => Text.register r
  | literal value => Text.literal value
  | vector v => "x" ++ Text.hexByte v

/-- A second operand as an operand of a line. -/
def ofOperand : Operand → SourceOperand
  | .register r => register r
  | .immediate value => literal value

/-- The second operand that is written so. -/
def operand? : SourceOperand → Option Operand
  | register r => some (.register r)
  | literal value => some (.immediate value)
  | vector _ => none

@[simp] theorem text_register (r : Word) : (register r).text = Text.register r := rfl

@[simp] theorem text_literal (value : Word) : (literal value).text = Text.literal value := rfl

@[simp] theorem text_vector (v : UInt8) : (vector v).text = "x" ++ Text.hexByte v := rfl

@[simp] theorem text_ofOperand (operand : Operand) : (ofOperand operand).text = operand.text := by
  cases operand <;> rfl

@[simp] theorem operand?_ofOperand (operand : Operand) :
    (ofOperand operand).operand? = some operand := by
  cases operand <;> rfl

/-- The first letter of an operand says of which kind it is. -/
theorem text_injective : Function.Injective text := by
  intro p q h
  cases p <;> cases q
  case register.register => exact congrArg register (Text.register_inj.mp h)
  case literal.literal => exact congrArg literal (Text.literal_inj.mp h)
  case vector.vector => simpa [text, Text.hexByte_inj] using h
  all_goals simp [text, Text.register, Text.literal, ← String.toList_inj] at h

theorem blank_not_mem_text (operand : SourceOperand) : ' ' ∉ operand.text.toList := by
  cases operand with
  | register r => exact Text.blank_not_mem_register r
  | literal value => exact Text.blank_not_mem_literal value
  | vector v => simp [text, Text.blank_not_mem_hexByte]

end SourceOperand

namespace SourceLine

/-- Every word but the last one with a comma behind it. -/
def punctuated : List String → List String
  | [] => []
  | word :: rest => (if rest.isEmpty then word else word ++ ",") :: punctuated rest

theorem punctuated_injective : Function.Injective punctuated := by
  intro first
  induction first with
  | nil =>
      intro second h
      cases second with
      | nil => rfl
      | cons => simp [punctuated] at h
  | cons word rest ih =>
      intro second h
      cases second with
      | nil => simp [punctuated] at h
      | cons word' rest' =>
          simp only [punctuated, List.cons.injEq] at h
          obtain ⟨hword, hrest⟩ := h
          -- the words behind them agree, and so both have a comma or none has
          obtain rfl := ih hrest
          split at hword <;> simp_all

theorem blank_not_mem_punctuated {words : List String} (h : ∀ word ∈ words, ' ' ∉ word.toList) :
    ∀ word ∈ punctuated words, ' ' ∉ word.toList := by
  induction words with
  | nil => simp [punctuated]
  | cons first rest ih =>
      obtain ⟨hfirst, hrest⟩ := List.forall_mem_cons.mp h
      refine List.forall_mem_cons.mpr ⟨?_, ih hrest⟩
      split <;> simp [hfirst]

/-- The words of a line: its name and its operands. -/
def words (line : SourceLine) : List String :=
  line.name :: punctuated (line.operands.map SourceOperand.text)

/-- The line as it is written. -/
def text (line : SourceLine) : String := " ".intercalate line.words

section Layout

variable (name : String) (p q r : SourceOperand)

@[simp] theorem text_nil : text ⟨name, []⟩ = name := by
  simp [text, words, punctuated]

@[simp] theorem text_single : text ⟨name, [p]⟩ = name ++ " " ++ p.text := by
  simp [text, words, punctuated]

@[simp] theorem text_pair : text ⟨name, [p, q]⟩ = name ++ " " ++ p.text ++ ", " ++ q.text := by
  simp [text, words, punctuated, ← String.toList_inj]

@[simp] theorem text_triple :
    text ⟨name, [p, q, r]⟩ = name ++ " " ++ p.text ++ ", " ++ q.text ++ ", " ++ r.text := by
  simp [text, words, punctuated, ← String.toList_inj]

end Layout

theorem words_injective : Function.Injective words := by
  rintro ⟨name, operands⟩ ⟨name', operands'⟩ h
  simp only [words, List.cons.injEq] at h
  obtain ⟨rfl, hoperands⟩ := h
  have hmap := List.map_injective_iff.mpr SourceOperand.text_injective
  rw [hmap (punctuated_injective hoperands)]

/-- Lines are told apart by their texts if their names have no blanks. -/
theorem eq_of_text_eq {first second : SourceLine} (hfirst : ' ' ∉ first.name.toList)
    (hsecond : ' ' ∉ second.name.toList) (h : first.text = second.text) : first = second := by
  have hsplit : ∀ line : SourceLine, ' ' ∉ line.name.toList →
      (line.text.split ' ').toList.map (·.copy) = line.words := by
    intro line hname
    have hwords : ∀ word ∈ line.words, ' ' ∉ word.toList := by
      refine List.forall_mem_cons.mpr ⟨hname, blank_not_mem_punctuated ?_⟩
      intro word hword
      obtain ⟨operand, -, rfl⟩ := List.mem_map.mp hword
      exact operand.blank_not_mem_text
    exact (String.toList_split_intercalate hwords).trans (if_neg (List.cons_ne_nil _ _))
  apply words_injective
  rw [← hsplit first hfirst, ← hsplit second hsecond, h]

end SourceLine

namespace Instruction

/-- The branch mask fits the three conditions. -/
def HasMask : Instruction → Prop
  | br mask _ => mask < 8
  | _ => True

/-- The line that an instruction is written as. -/
def line : Instruction → SourceLine
  | br mask offset => ⟨"BR" ++ maskText mask, [.literal offset]⟩
  | add dr sr1 src2 => ⟨"ADD", [.register dr, .register sr1, .ofOperand src2]⟩
  | ld dr offset => ⟨"LD", [.register dr, .literal offset]⟩
  | st sr offset => ⟨"ST", [.register sr, .literal offset]⟩
  | jsr (.offset offset) => ⟨"JSR", [.literal offset]⟩
  | jsr (.register base) => ⟨"JSRR", [.register base]⟩
  | and dr sr1 src2 => ⟨"AND", [.register dr, .register sr1, .ofOperand src2]⟩
  | ldr dr base offset => ⟨"LDR", [.register dr, .register base, .literal offset]⟩
  | str sr base offset => ⟨"STR", [.register sr, .register base, .literal offset]⟩
  | rti => ⟨"RTI", []⟩
  | not dr sr => ⟨"NOT", [.register dr, .register sr]⟩
  | ldi dr offset => ⟨"LDI", [.register dr, .literal offset]⟩
  | sti sr offset => ⟨"STI", [.register sr, .literal offset]⟩
  | jmp base => if base = 7 then ⟨"RET", []⟩ else ⟨"JMP", [.register base]⟩
  | res => ⟨"RES", []⟩
  | lea dr offset => ⟨"LEA", [.register dr, .literal offset]⟩
  | trap vector =>
      match TrapRoutine.ofVector? vector with
      | some routine => ⟨routine.name, []⟩
      | none => ⟨"TRAP", [.vector vector]⟩

theorem text_line (i : Instruction) : i.line.text = i.text := by
  cases i
  case jsr target => cases target <;> simp [line, text]
  case jmp base => by_cases h : base = 7 <;> simp [line, text, h]
  case trap vector =>
    cases h : TrapRoutine.ofVector? vector with
    | none => simp [line, text, h, ← String.toList_inj]
    | some routine => simp [line, text, h]
  all_goals simp [line, text, pairText, offsetText]

theorem blank_not_mem_name (i : Instruction) : ' ' ∉ i.line.name.toList := by
  cases i
  case br mask offset =>
    simp only [line, maskText]
    split <;> split <;> split <;> simp
  case jsr target => cases target <;> simp [line]
  case jmp base => by_cases h : base = 7 <;> simp [line, h]
  case trap vector =>
    cases h : TrapRoutine.ofVector? vector with
    | none => simp [line, h]
    | some routine => cases routine <;> simp [line, h, TrapRoutine.name]
  all_goals simp [line]

end Instruction

/-- The branch mask in a name. -/
def SourceLine.mask? : String → Option Word
  | "BR" => some 0
  | "BRp" => some 1
  | "BRz" => some 2
  | "BRzp" => some 3
  | "BRn" => some 4
  | "BRnp" => some 5
  | "BRnz" => some 6
  | "BRnzp" => some 7
  | _ => none

/-- The service routine of a name. -/
def TrapRoutine.ofName? : String → Option TrapRoutine
  | "GETC" => some getc
  | "OUT" => some out
  | "PUTS" => some puts
  | "IN" => some input
  | "PUTSP" => some putsp
  | "HALT" => some halt
  | _ => none

open Instruction in
/-- The instruction that an assembler finds in a line. -/
def SourceLine.instruction? (line : SourceLine) : Option Instruction :=
  match line.name, line.operands with
  | "ADD", [.register dr, .register sr1, src2] => src2.operand?.map (add dr sr1)
  | "AND", [.register dr, .register sr1, src2] => src2.operand?.map (Instruction.and dr sr1)
  | "NOT", [.register dr, .register sr] => some (Instruction.not dr sr)
  | "LD", [.register dr, .literal offset] => some (ld dr offset)
  | "LDI", [.register dr, .literal offset] => some (ldi dr offset)
  | "LDR", [.register dr, .register base, .literal offset] => some (ldr dr base offset)
  | "LEA", [.register dr, .literal offset] => some (lea dr offset)
  | "ST", [.register sr, .literal offset] => some (st sr offset)
  | "STI", [.register sr, .literal offset] => some (sti sr offset)
  | "STR", [.register sr, .register base, .literal offset] => some (str sr base offset)
  | "JMP", [.register base] => some (jmp base)
  | "RET", [] => some (jmp 7)
  | "JSR", [.literal offset] => some (jsr (.offset offset))
  | "JSRR", [.register base] => some (jsr (.register base))
  | "TRAP", [.vector v] => some (trap v)
  | "RTI", [] => some rti
  | "RES", [] => some res
  | name, [.literal offset] => (mask? name).map (br · offset)
  | name, [] => (TrapRoutine.ofName? name).map fun routine => trap routine.vector
  | _, _ => none

namespace Instruction

/-- Each of the eight masks has a name of its own. -/
theorem instruction?_line_br {mask : Word} (h : mask < 8) (offset : Word) :
    (br mask offset).line.instruction? = some (br mask offset) := by
  have hmasks : ∀ m : Fin 8, (br (UInt16.ofNat m) offset).line.instruction? =
      some (br (UInt16.ofNat m) offset) := by
    intro m
    fin_cases m <;> rfl
  have hmask := hmasks ⟨mask.toNat, UInt16.lt_iff_toNat_lt.mp h⟩
  rwa [UInt16.ofNat_toNat] at hmask

/-- An assembler finds an instruction again in the line that it is written as. -/
theorem instruction?_line {i : Instruction} (h : i.HasMask) : i.line.instruction? = some i := by
  cases i
  case br mask offset => exact instruction?_line_br h offset
  case add dr sr1 src2 => exact congrArg (Option.map (add dr sr1)) (SourceOperand.operand?_ofOperand src2)
  case and dr sr1 src2 => exact congrArg (Option.map (and dr sr1)) (SourceOperand.operand?_ofOperand src2)
  case jsr target => cases target <;> rfl
  case jmp base =>
    by_cases hbase : base = 7
    · subst hbase
      rfl
    · simp only [line, if_neg hbase]
      rfl
  case trap vector =>
    cases hroutine : TrapRoutine.ofVector? vector with
    | none =>
        simp only [line, hroutine]
        rfl
    | some routine =>
        simp only [line, hroutine]
        rw [(TrapRoutine.ofVector?_eq_some_iff _ _).mp hroutine]
        cases routine <;> rfl
  all_goals rfl

/-- Instructions with branch masks are told apart by their texts. -/
theorem text_injOn : Set.InjOn text {i | i.HasMask} := by
  intro i hi j hj h
  rw [← text_line, ← text_line] at h
  have hline := SourceLine.eq_of_text_eq i.blank_not_mem_name j.blank_not_mem_name h
  apply Option.some.inj
  rw [← instruction?_line hi, ← instruction?_line hj, hline]

theorem hasMask_decode (w : Word) : (decode w).HasMask := by
  have hformed := decode_wellFormed w
  cases hdecode : decode w with
  | br mask offset =>
      rw [hdecode] at hformed
      exact hformed.1
  | _ => exact trivial

/-- Different instructions are never written alike, whatever their register numbers,
offsets and trap vectors are, if branch masks are of three bits.  So words have the same
disassembly exactly if they decode to the same instruction. -/
theorem text_unambiguous :
    (∀ i j : Instruction, i.HasMask → j.HasMask → (i.text = j.text ↔ i = j)) ∧
      ∀ v w : Word, (decode v).text = (decode w).text ↔ decode v = decode w := by
  constructor
  · intro i j hi hj
    exact text_injOn.eq_iff hi hj
  · intro v w
    exact text_injOn.eq_iff (hasMask_decode v) (hasMask_decode w)

/-- A mask of more than three bits is written like its lowest ones. -/
example : (br 8 1).text = (br 0 1).text := rfl

end Instruction

end Lc3
