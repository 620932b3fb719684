import Lc3.Console.Dialogue
import Lc3.Word

/-!
# Memory

65536 cells, two of which belong to the keyboard.  Reading the keyboard's
status cell as a program does asks the console for a key first and stores what
it finds out in the status cell and in the data cell.  All other reads and all
writes are plain.
-/

namespace Lc3

/-- The contents of all cells. -/
structure Memory where
  cells : Vector Word 65536

namespace Memory

/-- The keyboard status cell: bit 15 says whether a key has been received. -/
def keyboardStatus : Word := 0xFE00

/-- The keyboard data cell: the last key received. -/
def keyboardData : Word := 0xFE02

/-- All cells zero. -/
def blank : Memory where
  cells := Vector.replicate 65536 0

/-- The contents of a cell, without any effect. -/
def peek (mem : Memory) (addr : Word) : Word :=
  have : addr.toNat < 65536 := addr.toNat_lt
  mem.cells[addr.toNat]

/-- Store a value in a cell. -/
def write (mem : Memory) (addr value : Word) : Memory where
  cells := mem.cells.set addr.toNat value addr.toNat_lt

@[simp] theorem peek_write_self (mem : Memory) (addr value : Word) :
    (mem.write addr value).peek addr = value := by
  simp [peek, write]

theorem peek_write_of_ne (mem : Memory) {addr other : Word} (value : Word)
    (h : addr ≠ other) : (mem.write addr value).peek other = mem.peek other := by
  have hne : addr.toNat ≠ other.toNat := fun heq => h (UInt16.toNat_inj.mp heq)
  simp [peek, write, hne]

theorem peek_write (mem : Memory) (addr value other : Word) :
    (mem.write addr value).peek other = if addr = other then value else mem.peek other := by
  by_cases h : addr = other
  · subst h
    simp
  · simp [h, peek_write_of_ne mem value h]

@[simp] theorem peek_blank (addr : Word) : blank.peek addr = 0 := by
  simp [peek, blank]

/-- Store values in the cells from `addr` on. -/
def writeAll (mem : Memory) (addr : Word) : List Word → Memory
  | [] => mem
  | value :: rest => (mem.write addr value).writeAll (addr + 1) rest

/-- The value of a cell is found at its distance from `addr`, if there are so
many values, and has not changed otherwise. -/
theorem peek_writeAll (mem : Memory) (addr : Word) (values : List Word) (other : Word)
    (h : values.length ≤ 65536) :
    (mem.writeAll addr values).peek other =
      (values[(other - addr).toNat]?).getD (mem.peek other) := by
  induction values generalizing mem addr with
  | nil => simp [writeAll]
  | cons value rest ih =>
      rw [List.length_cons] at h
      rw [writeAll, ih _ _ (by omega)]
      by_cases hother : other = addr
      · subst hother
        have hlast : (other - (other + 1)).toNat = 65535 := by
          have := other.toNat_lt
          simp only [UInt16.toNat_sub, UInt16.toNat_add, UInt16.toNat_one]
          omega
        have hnone : rest[(other - (other + 1)).toNat]? = none :=
          List.getElem?_eq_none (by omega)
        have hfirst : (other - other).toNat = 0 := by rw [UInt16.sub_self, UInt16.toNat_zero]
        rw [hnone, hfirst]
        simp
      · have hne : addr ≠ other := fun heq => hother heq.symm
        have hnext : (other - addr).toNat = (other - (addr + 1)).toNat + 1 := by
          have := other.toNat_lt
          have := addr.toNat_lt
          have : addr.toNat ≠ other.toNat := fun heq => hne (UInt16.toNat_inj.mp heq)
          simp only [UInt16.toNat_sub, UInt16.toNat_add, UInt16.toNat_one]
          omega
        rw [hnext, peek_write_of_ne _ _ hne]
        simp

/-- Store values from `origin` on, unless the last one would lie past the end
of memory. -/
def place? (mem : Memory) (origin : Word) (values : List Word) : Option Memory :=
  if origin.toNat + values.length ≤ 65536 then some (mem.writeAll origin values) else none

/-- The nonzero cells from `addr` on, at most `limit` of them, after those
already collected. -/
def collectString (mem : Memory) (collected : Array Word) (addr : Word) : Nat → Array Word
  | 0 => collected
  | limit + 1 =>
      let cell := mem.peek addr
      if cell = 0 then collected
      else mem.collectString (collected.push cell) (addr + 1) limit

/-- The cells of the string at `start`: those before the first zero cell, going
on from address zero after the last address, and each cell at most once. -/
def stringAt (mem : Memory) (start : Word) : List Word :=
  (mem.collectString #[] start 65536).toList

theorem collectString_toList (mem : Memory) (collected : Array Word) (addr : Word)
    (limit : Nat) :
    (mem.collectString collected addr limit).toList =
      collected.toList ++
        ((List.range limit).map fun i => mem.peek (addr + UInt16.ofNat i)).takeWhile
          (· != 0) := by
  induction limit generalizing collected addr with
  | zero => simp [collectString]
  | succ limit ih =>
      rw [collectString, List.range_succ_eq_map]
      by_cases h : mem.peek addr = 0
      · simp [h]
      · have hnext : ∀ i, addr + 1 + UInt16.ofNat i = addr + UInt16.ofNat (i + 1) := by
          intro i
          rw [UInt16.ofNat_add, UInt16.add_assoc, UInt16.add_comm 1]
          rfl
        simp [h, ih, hnext, Function.comp_def]

/-- The string is what precedes the first zero on one way through all cells. -/
theorem stringAt_eq_takeWhile (mem : Memory) (start : Word) :
    mem.stringAt start =
      ((List.range 65536).map fun i => mem.peek (start + UInt16.ofNat i)).takeWhile
        (· != 0) := by
  rw [stringAt, collectString_toList, Array.toList_empty, List.nil_append]

end Memory

/-- What reading a cell found out about the keyboard. -/
inductive KeyPoll
  /-- The cell is not the keyboard's status cell. -/
  | unasked
  | noKey
  | key (byte : UInt8)

namespace KeyPoll

/-- Ask the console for a key.  A failed read is the same as no key. -/
def ask : Dialogue KeyPoll :=
  .keyAvailable fun available =>
    if available then
      .readChar fun
        | .ok byte => .done (key byte)
        | .error _ => .done noKey
    else .done noKey

/-- Ask the console if the cell to be read is the keyboard's status cell. -/
def before (addr : Word) : Dialogue KeyPoll :=
  if addr = Memory.keyboardStatus then ask else .done unasked

end KeyPoll

namespace Memory

/-- Store what was found out about the keyboard in its cells. -/
def receive (mem : Memory) : KeyPoll → Memory
  | .unasked => mem
  | .noKey => mem.write keyboardStatus 0
  | .key byte => (mem.write keyboardStatus 0x8000).write keyboardData byte.toUInt16

/-- Read a cell as a running program does. -/
def read (mem : Memory) (addr : Word) : Dialogue (Word × Memory) := do
  let poll ← KeyPoll.before addr
  let mem := mem.receive poll
  pure (mem.peek addr, mem)

end Memory

end Lc3
