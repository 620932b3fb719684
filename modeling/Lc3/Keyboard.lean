/-!
# Keys

What a terminal reports about its keyboard, and the byte that a program reads
for it.  Most keys and all releases give none; control together with `c`
interrupts the machine.
-/

namespace Lc3

/-- A key of the keyboard. -/
inductive KeyCode
  | char (c : Char)
  | enter
  | tab
  | backspace
  | escape
  /-- A key that has no character. -/
  | other
  deriving DecidableEq

/-- The modifier keys held down. -/
structure Modifiers where
  shift : Bool
  control : Bool
  alt : Bool
  super : Bool
  deriving DecidableEq

/-- What happened to a key. -/
inductive KeyAction
  | press | repeated | release
  deriving DecidableEq

/-- A report of the terminal. -/
inductive TerminalEvent
  | key (code : KeyCode) (modifiers : Modifiers) (action : KeyAction)
  /-- A change that no key made. -/
  | other
  deriving DecidableEq

/-- What a report means to a running program. -/
inductive KeyMeaning
  | ignored
  | byte (value : UInt8)
  | interrupt
  deriving DecidableEq

/-- The exit status after an interrupt. -/
def interruptExitStatus : Nat := 130

/-- What an interrupt writes before the process ends: the end of the line. -/
def interruptOutput : Array UInt8 := #[0x0A]

namespace Modifiers

/-- No modifier is held down. -/
def none : Modifiers := ⟨false, false, false, false⟩

/-- Only shift is held down. -/
def onlyShift : Modifiers := ⟨true, false, false, false⟩

/-- Only control is held down. -/
def onlyControl : Modifiers := ⟨false, true, false, false⟩

end Modifiers

/-- The meaning of a pressed key.  Named keys ignore the modifiers; a character
counts only if it is ASCII and at most shift is held down. -/
def KeyCode.meaning (code : KeyCode) (modifiers : Modifiers) : KeyMeaning :=
  match code with
  | char c =>
      if c = 'c' ∧ modifiers = .onlyControl then .interrupt
      else if c.toNat < 128 ∧ (modifiers = .none ∨ modifiers = .onlyShift) then
        .byte c.toUInt8
      else .ignored
  | enter => .byte 10
  | tab => .byte 9
  | backspace => .byte 8
  | escape => .byte 27
  | other => .ignored

/-- The meaning of a terminal's report. -/
def TerminalEvent.meaning : TerminalEvent → KeyMeaning
  | key code modifiers action =>
      if action = .release then .ignored else code.meaning modifiers
  | other => .ignored

end Lc3
