import Lc3.Proofs.Checked.Procedure
import Lc3.Proofs.Console.Scanning
import Lc3.Proofs.Machine.Trap

/-!
# Checked steps

Trap routines, instructions and steps as procedures on a bare machine.  Strings are read
cell by cell while they are written.  Each procedure performs what the machine does, and
so no check fails in a step, whatever the registers and the cells hold.
-/

namespace Lc3

open Dialogue TrapRoutine

/-- A procedure that ends with the first console call that fails. -/
abbrev Service (α : Type) : Type := ExceptT ConsoleError Procedure α

namespace Procedure

variable {α β γ : Type}

def call (t : Attempt α) : Service α := ExceptT.mk (say t.run)

/-- The service makes the calls of the attempt, ends as it does, and changes nothing. -/
def Serves (a : Service α) (m : Machine) (t : Attempt α) : Prop :=
  Performs a.run m (t.run.bind fun result => .done (result, m))

theorem serves_call (t : Attempt α) (m : Machine) : Serves (call t) m t := performs_say t.run m

/-- What follows a service is left out if the service fails. -/
theorem Serves.bind {a : Service α} {f : α → Service β} {m : Machine} {t : Attempt α}
    {u : α → Attempt γ} {e : Except ConsoleError γ → Dialogue (Except ConsoleError β × Machine)}
    (ha : Serves a m t) (hf : ∀ x, Performs (f x).run m ((u x).run.bind e))
    (herror : ∀ cause, e (.error cause) = .done (.error cause, m)) :
    Performs (a >>= f).run m ((t >>= u).run.bind e) := by
  unfold Serves Performs at ha
  unfold Performs
  show (a.run >>= ExceptT.bindCont f).start (Bare.of m) = _
  rw [start_bind, ha, run_bind]
  simp only [Dialogue.bind_assoc]
  congr 1
  funext result
  -- only a call that succeeds is followed by anything
  cases result with
  | ok x =>
      have hnext := hf x
      unfold Performs at hnext
      rw [Dialogue.bind_assoc] at hnext
      exact hnext
  | error cause =>
      show _ = (e (.error cause)).bind _
      rw [herror]
      rfl

/-- A service goes on after an operation without calls. -/
theorem Performs.nextInService {a : Procedure α} {f : α → Service β} {m m' : Machine} {x : α}
    {e : Dialogue (Except ConsoleError β × Machine)} (ha : Performs a m (.done (x, m')))
    (hf : Performs (f x).run m' e) : Performs ((liftM a : Service α) >>= f).run m e :=
  (ha.map Except.ok).next hf

/-- Write the cells at the addresses up to the first zero. -/
def writeCells (emit : Word → Service Unit) : List Word → Service Unit
  | [] => pure ()
  | addr :: rest => do
      let cell ← peek addr
      if cell = 0 then pure ()
      else do
        emit cell
        writeCells emit rest

def emitLow (cell : Word) : Service Unit := call (Dialogue.write (cell &&& 0xFF).toUInt8)

/-- Write the low byte, and the high byte unless it is zero. -/
def emitBoth (cell : Word) : Service Unit := do
  emitLow cell
  let high := (← Checked.shiftRight cell 8).toUInt8
  if high ≠ 0 then call (Dialogue.write high)

def service : TrapRoutine → Service Unit
  | .getc => do
      let byte ← call Dialogue.read
      setRegister 0 byte.toUInt16
  | .out => do
      emitLow (← getRegister 0)
      call Dialogue.send
  | .puts => do
      writeCells emitLow (circuit (← getRegister 0))
      call Dialogue.send
  | .input => do
      call (Dialogue.write inputPrompt)
      call Dialogue.send
      let byte ← call Dialogue.read
      call (Dialogue.write byte)
      call Dialogue.send
      setRegister 0 byte.toUInt16
  | .putsp => do
      writeCells emitBoth (circuit (← getRegister 0))
      call Dialogue.send
  | .halt => do
      call (Dialogue.writeAll haltNotice.toUTF8.toList)
      call Dialogue.send
      stop

section Services

variable (m : Machine)

theorem writeAll_singleton (byte : UInt8) : Dialogue.writeAll [byte] = Dialogue.write byte :=
  bind_pure (Dialogue.write byte)

theorem serves_emitLow (cell : Word) :
    Serves (emitLow cell) m (Dialogue.writeAll [cell.lowByte]) := by
  unfold emitLow
  rw [Checked.toUInt8_and_byte, writeAll_singleton]
  exact serves_call _ m

theorem serves_emitBoth (cell : Word) :
    Serves (emitBoth cell) m (Dialogue.writeAll (packedBytes cell)) := by
  have hshift : Performs (check (Checked.shiftRight cell 8)) m (.done (cell >>> 8, m)) :=
    performs_check (Checked.shiftRight_of_lt cell (by omega)) m
  have hsplit : packedBytes cell =
      [cell.lowByte] ++ if cell.highByte = 0 then [] else [cell.highByte] := by
    unfold packedBytes
    split_ifs <;> rfl
  unfold emitBoth
  rw [hsplit, writeAll_append]
  refine (serves_emitLow m cell).bind (fun _ => hshift.nextInService ?_) fun _ => rfl
  show Performs (ExceptT.run (if cell.highByte ≠ 0 then call (Dialogue.write cell.highByte)
    else pure ())) m _
  by_cases hzero : cell.highByte = 0
  · rw [if_pos hzero, if_neg (not_not.mpr hzero)]
    rfl
  · rw [if_neg hzero, if_pos hzero, writeAll_singleton]
    exact serves_call _ m

/-- The cells are written as the string that they hold. -/
theorem serves_writeCells {emit : Word → Service Unit} {chars : Word → List UInt8}
    (hemit : ∀ cell, Serves (emit cell) m (Dialogue.writeAll (chars cell))) (addrs : List Word) :
    Serves (writeCells emit addrs) m
      (Dialogue.writeAll (stringIn chars m.memory.peek addrs)) := by
  induction addrs with
  | nil => rfl
  | cons addr rest ih =>
      unfold writeCells
      refine (performs_peek m addr).nextInService ?_
      -- a zero cell ends the string, and no later cell is read
      by_cases hzero : m.memory.peek addr = 0
      · simp only [hzero, stringIn, List.map_cons, List.takeWhile_cons, bne_self_eq_false]
        rfl
      · have hstring : stringIn chars m.memory.peek (addr :: rest) =
            chars (m.memory.peek addr) ++ stringIn chars m.memory.peek rest := by
          simp [stringIn, hzero]
        rw [if_neg hzero, hstring, writeAll_append]
        exact (hemit _).bind (fun _ => ih) fun _ => rfl

/-- The machine after a routine that has succeeded or failed. -/
def served : Except ConsoleError ServiceEffect → Dialogue (Except ConsoleError Unit × Machine)
  | .ok effect => .done (.ok (), m.apply effect)
  | .error cause => .done (.error cause, m)

theorem served_error (cause : ConsoleError) :
    served m (.error cause) = .done (.error cause, m) := rfl

variable {m}

/-- Bytes are written and flushed before something else is done. -/
theorem Serves.print {a : Service Unit} {bytes : List UInt8} {f : Unit → Service Unit}
    {u : Unit → Attempt ServiceEffect} (ha : Serves a m (Dialogue.writeAll bytes))
    (hf : Performs (f ()).run m ((u ()).run.bind (served m))) :
    Performs (a >>= fun _ => call Dialogue.send >>= f).run m
      ((print bytes >>= u).run.bind (served m)) := by
  unfold TrapRoutine.print
  rw [LawfulMonad.bind_assoc]
  refine ha.bind (fun _ => ?_) (served_error m)
  exact (serves_call Dialogue.send m).bind (fun _ => hf) (served_error m)

/-- Bytes are written and flushed, and nothing is changed. -/
theorem Serves.output {a : Service Unit} {bytes : List UInt8}
    (ha : Serves a m (Dialogue.writeAll bytes)) :
    Performs (a >>= fun _ => call Dialogue.send).run m
      ((TrapRoutine.print bytes >>= fun _ => pure ServiceEffect.none).run.bind (served m)) := by
  rw [← bind_pure (call Dialogue.send)]
  exact ha.print rfl

variable (m)

/-- A routine is performed as the machine serves it. -/
theorem performs_service (routine : TrapRoutine) :
    Performs (service routine).run m
      ((routine.serve (m.get 0) m.memory).run.bind (served m)) := by
  have hstart := performs_getRegister m 0
  have hread := serves_call Dialogue.read m
  have hwrite : ∀ byte, Serves (call (Dialogue.write byte)) m (Dialogue.writeAll [byte]) := by
    intro byte
    rw [writeAll_singleton]
    exact serves_call _ m
  -- the last operation of a routine is the one that changes the machine
  cases routine with
  | getc =>
      exact hread.bind (fun byte => (performs_setRegister m 0 byte.toUInt16).map Except.ok)
        (served_error m)
  | out => exact hstart.nextInService (serves_emitLow m (m.get 0)).output
  | puts =>
      have hcells := serves_writeCells m (serves_emitLow m) (circuit (m.get 0))
      rw [← stringAt_flatMap, ← List.map_eq_flatMap] at hcells
      exact hstart.nextInService hcells.output
  | input =>
      refine (hwrite inputPrompt).print (hread.bind (fun byte => ?_) (served_error m))
      exact (hwrite byte).print ((performs_setRegister m 0 byte.toUInt16).map Except.ok)
  | putsp =>
      have hcells := serves_writeCells m (serves_emitBoth m) (circuit (m.get 0))
      rw [← stringAt_flatMap] at hcells
      exact hstart.nextInService hcells.output
  | halt =>
      have hnotice := serves_call (Dialogue.writeAll haltNotice.toUTF8.toList) m
      exact hnotice.print ((performs_stop m).map Except.ok)

end Services

/-- The operations that cannot fault. -/
def operate : Instruction → Procedure Unit
  | .br mask offset => do
      if ← selectedBy mask then
        setPc (← relative offset)
  | .add dr sr1 src2 => do
      let first ← getRegister sr1
      assign dr (first + (← operand src2))
  | .ld dr offset => do
      assign dr (← read (← relative offset))
  | .st sr offset => do
      let value ← getRegister sr
      write (← relative offset) value
  | .jsr target => do
      let addr ←
        match target with
        | .offset offset => relative offset
        | .register base => getRegister base
      setRegister 7 (← pc)
      setPc addr
  | .and dr sr1 src2 => do
      let first ← getRegister sr1
      assign dr (first &&& (← operand src2))
  | .ldr dr base offset => do
      let addr ← getRegister base
      assign dr (← read (addr + offset))
  | .str sr base offset => do
      let value ← getRegister sr
      let addr ← getRegister base
      write (addr + offset) value
  | .not dr sr => do
      assign dr (~~~ (← getRegister sr))
  | .ldi dr offset => do
      let pointer ← read (← relative offset)
      assign dr (← read pointer)
  | .sti sr offset => do
      let value ← getRegister sr
      let pointer ← read (← relative offset)
      write pointer value
  | .jmp base => do
      setPc (← getRegister base)
  | .lea dr offset => do
      assign dr (← relative offset)
  | .trap _ | .rti | .res => pure ()

def trap (addr : Word) (vector : UInt8) : Procedure (Except Fault Unit) :=
  match ofVector? vector with
  | none => pure (.error (.unknownTrap vector addr))
  | some routine => Except.mapError (.console routine addr) <$> (service routine).run

def execute (addr word : Word) (instr : Instruction) : Procedure (Except Fault Unit) :=
  match instr with
  | .trap vector => trap addr vector
  | .rti => pure (.error (.reservedOpcode .rti word addr))
  | .res => pure (.error (.reservedOpcode .res word addr))
  | _ => do
      operate instr
      pure (.ok ())

def step : Procedure (Except Fault Status) := do
  match ← status with
  | .halted => pure (.ok .halted)
  | .running => do
      let addr ← pc
      let word ← read addr
      setPc (addr + 1)
      let instr ← Checked.decode word
      match ← execute addr word instr with
      | .ok () => do
          pure (.ok (← status))
      | .error fault => do
          stop
          pure (.error fault)

/-- Make steps until one does not leave the machine running, at most `limit` of them. -/
def run : Nat → Procedure (Option (Except Fault Unit))
  | 0 => pure none
  | limit + 1 => do
      match ← step with
      | .ok .running => run limit
      | .ok .halted => pure (some (.ok ()))
      | .error fault => pure (some (.error fault))

section Steps

variable (m : Machine)

/-- What an execution tells the step. -/
def verdict (execution : Execution) : Except Fault Unit × Machine :=
  match execution.fault with
  | none => (.ok (), execution.machine)
  | some fault => (.error fault, execution.machine)

/-- Reading leaves the registers as they are. -/
theorem read_bind_register {α : Type} (addr r : Word) (f : Word → Word → Machine → Dialogue α) :
    ((m.read addr).bind fun held => f (held.2.get r) held.1 held.2) =
      (m.read addr).bind fun held => f (m.get r) held.1 held.2 := by
  unfold Machine.read
  rw [Dialogue.bind_eq, Dialogue.bind_assoc, Dialogue.bind_assoc]
  rfl

theorem performs_operate (addr word : Word) (instr : Instruction)
    (hinstr : instr.opcode ≠ .trap ∧ instr.opcode ≠ .rti ∧ instr.opcode ≠ .res) :
    ∃ d, Performs (operate instr) m d ∧
      m.execute addr word instr = d.bind fun held => .done held.2.proceed := by
  obtain ⟨htrap, hrti, hres⟩ := hinstr
  cases instr with
  | trap => exact absurd rfl htrap
  | rti => exact absurd rfl hrti
  | res => exact absurd rfl hres
  | br mask offset =>
      refine ⟨.done ((), if m.registers.selectedBy mask then m.jump (m.relative offset) else m),
        ?_, rfl⟩
      refine (performs_selectedBy m mask).next ?_
      cases m.registers.selectedBy mask with
      | true => exact (performs_relative m offset).next (performs_setPc m _)
      | false => exact performs_pure () m
  | add dr sr1 src2 =>
      exact ⟨_, (performs_getRegister m sr1).next
        ((performs_operand m src2).next (performs_assign m dr _)), rfl⟩
  | and dr sr1 src2 =>
      exact ⟨_, (performs_getRegister m sr1).next
        ((performs_operand m src2).next (performs_assign m dr _)), rfl⟩
  | not dr sr =>
      exact ⟨_, (performs_getRegister m sr).next (performs_assign m dr _), rfl⟩
  | lea dr offset =>
      exact ⟨_, (performs_relative m offset).next (performs_assign m dr _), rfl⟩
  | jmp base =>
      exact ⟨_, (performs_getRegister m base).next (performs_setPc m _), rfl⟩
  | st sr offset =>
      exact ⟨_, (performs_getRegister m sr).next
        ((performs_relative m offset).next (performs_write m _ _)), rfl⟩
  | str sr base offset =>
      exact ⟨_, (performs_getRegister m sr).next
        ((performs_getRegister m base).next (performs_write m _ _)), rfl⟩
  | jsr target =>
      have hlink : ∀ addr,
          Performs (pc >>= fun next => setRegister 7 next >>= fun _ => setPc addr) m
            (.done ((), m.call addr)) := fun addr =>
        (performs_pc m).next ((performs_setRegister m 7 _).next (performs_setPc _ addr))
      cases target with
      | offset offset => exact ⟨_, (performs_relative m offset).next (hlink _), rfl⟩
      | register base => exact ⟨_, (performs_getRegister m base).next (hlink _), rfl⟩
  | ld dr offset =>
      refine ⟨(m.read (m.relative offset)).bind fun held => .done ((), held.2.assign dr held.1),
        (performs_relative m offset).next ((performs_read m _).bind fun value m' =>
          performs_assign m' dr value), ?_⟩
      rw [Dialogue.bind_assoc]
      rfl
  | ldr dr base offset =>
      refine ⟨(m.read (m.get base + offset)).bind fun held => .done ((), held.2.assign dr held.1),
        (performs_getRegister m base).next ((performs_read m _).bind fun value m' =>
          performs_assign m' dr value), ?_⟩
      rw [Dialogue.bind_assoc]
      rfl
  | ldi dr offset =>
      refine ⟨(m.read (m.relative offset)).bind fun held =>
          (held.2.read held.1).bind fun held => .done ((), held.2.assign dr held.1),
        (performs_relative m offset).next ((performs_read m _).bind fun pointer m' =>
          (performs_read m' pointer).bind fun value m'' => performs_assign m'' dr value), ?_⟩
      simp only [Dialogue.bind_assoc]
      rfl
  | sti sr offset =>
      refine ⟨(m.read (m.relative offset)).bind fun held =>
          .done ((), held.2.write held.1 (m.get sr)),
        (performs_getRegister m sr).next ((performs_relative m offset).next
          ((performs_read m _).bind fun pointer m' => performs_write m' pointer (m.get sr))), ?_⟩
      -- the value is taken before the pointer is read, in the machine after it
      rw [Dialogue.bind_assoc]
      exact read_bind_register m _ sr fun value pointer m' =>
        .done (m'.write pointer value).proceed

theorem performs_trap (addr : Word) (vector : UInt8) :
    Performs (trap addr vector) m
      ((m.trap addr vector).bind fun execution => .done (verdict execution)) := by
  unfold trap
  cases hvector : ofVector? vector with
  | none =>
      rw [Machine.trap_unknown m addr hvector]
      exact performs_pure _ m
  | some routine =>
      have hserved :=
        (performs_service m routine).map (Except.mapError (Fault.console routine addr))
      rw [Dialogue.bind_assoc] at hserved
      rw [Machine.trap_known m addr hvector, Dialogue.bind_assoc]
      convert hserved using 3 with outcome
      cases outcome <;> rfl

theorem performs_execute (addr word : Word) (instr : Instruction) :
    Performs (execute addr word instr) m
      ((m.execute addr word instr).bind fun execution => .done (verdict execution)) := by
  have hoperate : (instr.opcode ≠ .trap ∧ instr.opcode ≠ .rti ∧ instr.opcode ≠ .res) →
      Performs (operate instr >>= fun _ => pure (Except.ok ())) m
        ((m.execute addr word instr).bind fun execution => .done (verdict execution)) := by
    intro hinstr
    obtain ⟨d, hd, hexecute⟩ := performs_operate m addr word instr hinstr
    rw [hexecute, Dialogue.bind_assoc]
    exact hd.bind fun _ m' => performs_pure (Except.ok ()) m'
  cases instr with
  | trap vector => exact performs_trap m addr vector
  | rti | res => exact performs_pure _ m
  | _ => exact hoperate ⟨nofun, nofun, nofun⟩

/-- What a step makes of an execution. -/
def settled : Except Fault Unit × Machine → Dialogue (Except Fault Status × Machine)
  | (.ok (), m) => .done (.ok m.status, m)
  | (.error fault, m) => .done (.error fault, m.stop)

theorem settle_eq (record : Record) (d : Dialogue Execution) :
    (d.bind fun execution =>
        let transition := Machine.settle record execution
        .done (transition.result, transition.machine)) =
      (d.bind fun execution => .done (verdict execution)).bind settled := by
  rw [Dialogue.bind_assoc]
  congr 1
  funext execution
  rcases execution with ⟨m, _ | fault⟩ <;> rfl

/-- A step is performed as the machine makes it, so that no check fails in it. -/
theorem performs_step :
    Performs step m
      (m.step.bind fun transition => .done (transition.result, transition.machine)) := by
  refine (performs_status m).next ?_
  cases hstatus : m.status with
  | halted =>
      rw [Machine.step_halted m hstatus]
      exact performs_pure _ m
  | running =>
      rw [Machine.step_running m hstatus]
      unfold Machine.fetch
      simp only [Dialogue.bind_eq, Dialogue.bind_assoc]
      refine (performs_pc m).next ((performs_read m _).bind fun word m' => ?_)
      refine (performs_setPc m' _).next ((performs_check (Checked.decode_eq word) _).next ?_)
      have hexecute := performs_execute (m'.jump (m.registers.pc + 1)) m.registers.pc word
        (Instruction.decode word)
      refine Eq.mp (congrArg _ (settle_eq (.executing m.registers.pc word) _).symm)
        (hexecute.bind fun result m'' => ?_)
      cases result with
      | ok _ => exact (performs_status m'').next (performs_pure _ m'')
      | error fault => exact (performs_stop m'').next (performs_pure _ _)

end Steps

end Procedure

end Lc3
