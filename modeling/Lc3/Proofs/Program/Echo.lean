import Lc3.Proofs.Session.Program

/-!
# The echo program

A program that writes what it reads, up to and with the first line feed, and then
halts.  One round of its loop takes a byte from the input to the output.  From that its
whole behaviour on every input follows by induction on the bytes before the line feed:
it halts if there is a line feed, and it fails to read at the end of the input if there
is none.
-/

namespace Lc3

/-- `GETC`, `OUT`, `ADD R1, R0, #-10`, `BRnp #-4` and `HALT`. -/
def echo : Image where
  origin := 0x3000
  words := [0xF020, 0xF021, 0x1236, 0x0BFC, 0xF025]
  fits := by decide

/-- The byte is ten exactly if its difference to ten is zero. -/
theorem toInt_sub_ten (byte : UInt8) :
    Word.toInt (UInt16.ofInt (byte.toUInt16.toNat + -10)) = 0 ↔ byte = 10 := by
  have hlt := byte.toNat_lt
  have hten : byte = 10 ↔ byte.toNat = 10 := UInt8.toNat_inj.symm
  unfold Word.toInt UInt16.ofInt
  rw [hten, UInt16.toNat_ofNat', UInt8.toNat_toUInt16]
  split <;> omega

namespace ArchState

variable {σ : Type} [Console σ]

theorem row_add_minus_ten (s : ArchState σ) :
    s.row 0x1236 = s.define 1 (UInt16.ofInt ((s.register 0).toNat + -10)) := rfl

/-- `BRnp #-4` jumps unless the last value was zero. -/
theorem row_branch_nonzero (s : ArchState σ) {value : Int}
    (h : s.condition = some (Condition.ofInt value)) :
    s.row 0x0BFC = s.goto (if value = 0 then s.pc else s.relative (-4)) := by
  have hbranches : s.branches 0x0BFC = decide (value ≠ 0) := by
    unfold branches Condition.ofInt at *
    rw [h]
    split_ifs with hneg hzero
    · simp [hneg.ne, Condition.maskBit]
      decide
    · simp [hzero, Condition.maskBit]
      decide
    · simp [hzero, Condition.maskBit]
      decide
  have hoffset : (0x0BFC : Word).signedBits 9 = -4 := by decide
  rw [row_branch s (by decide), hbranches, hoffset]
  by_cases hzero : value = 0 <;> simp [hzero]

end ArchState

namespace Buffer

/-- A console with these bytes to read, to which these were written, each with a flush of
its own. -/
def echoing (unread written : List UInt8) : Buffer where
  input := unread
  output := written.toArray
  flushes := written.length

theorem print_echoing (unread written : List UInt8) (byte : UInt8) :
    (TrapRoutine.print [byte]).run.hold (echoing unread written) =
      (.ok (), echoing unread (written ++ [byte])) := by
  rw [hold_print]
  simp [echoing]

end Buffer

namespace Session

open ArchState

/-- The loop of the program: the machine is at its start, and what was read is written. -/
structure Echoing (s : Session Buffer) (unread written : List UInt8) : Prop where
  start : s.At echo 0x3000
  console : s.console = .echoing unread written

/-- A byte has been read that R0 holds, and the machine is at this address. -/
structure Echoed (s : Session Buffer) (addr : Word) (byte : UInt8)
    (unread written : List UInt8) : Prop where
  next : s.At echo addr
  console : s.console = .echoing unread written
  read : s.arch.register 0 = byte.toUInt16

variable {s : Session Buffer} {byte : UInt8} {unread written : List UInt8}

/-- `GETC` and `OUT` take a byte from the input to the output. -/
theorem Echoing.copy (h : s.Echoing (byte :: unread) written) :
    s.RunsFor 2 ∧ (s.after 2).Echoed 0x3002 byte unread (written ++ [byte]) := by
  have hgetc : Word.Invokes 0xF020 .getc := ⟨by decide, by decide⟩
  have hout : Word.Invokes 0xF021 .out := ⟨by decide, by decide⟩
  have hserved : (TrapRoutine.getc.serve (s.arch.register 0) s.machine.memory).run.hold s.console =
      (.ok (.key byte), .echoing unread written) := by
    rw [h.console]
    rfl
  obtain ⟨hok, harch⟩ := h.start.step_served rfl (by decide) hgetc hserved
  have hnext : s.step.2.At echo 0x3001 :=
    h.start.of_arch harch h.start.running rfl fun _ _ => rfl
  have hread : s.step.2.arch.register 0 = byte.toUInt16 := by
    rw [harch]
    exact carryOut_key_register (s.arch.goto 0x3001) byte
  have hserved' :
      (TrapRoutine.out.serve (s.step.2.arch.register 0) s.step.2.machine.memory).run.hold
        s.step.2.console = (.ok .none, .echoing unread (written ++ [byte])) := by
    have hconsole : s.step.2.console = .echoing unread written := congrArg ArchState.console harch
    have hbyte : Word.lowByte byte.toUInt16 = byte := UInt8.toUInt8_toUInt16 byte
    unfold TrapRoutine.serve
    rw [hread, hconsole, hbyte]
    exact (Dialogue.run_print_pure _ _ _).2 _ (Buffer.print_echoing unread written byte)
  obtain ⟨hok', harch'⟩ := hnext.step_served rfl (by decide) hout hserved'
  refine ⟨((RunsFor.zero s).succ hok).succ hok', ?_, ?_, ?_⟩
  · exact hnext.of_arch harch' hnext.running rfl fun _ _ => rfl
  · exact congrArg ArchState.console harch'
  · exact (congrFun (congrArg ArchState.register harch') 0).trans hread

/-- `ADD` and `BRnp` go back to the start unless the byte is a line feed. -/
theorem Echoed.test (h : s.Echoed 0x3002 byte unread written) :
    s.RunsFor 2 ∧
      (s.after 2).Echoed (if byte = 10 then 0x3004 else 0x3000) byte unread written := by
  have hadd : Word.HasRow 0x1236 := ⟨by decide, by decide, by decide⟩
  have hbranch : Word.HasRow 0x0BFC := ⟨by decide, by decide, by decide⟩
  obtain ⟨hok, harch, -⟩ := h.next.step_row rfl (by decide) hadd
  rw [row_add_minus_ten] at harch
  have hnext : s.step.2.At echo 0x3003 :=
    h.next.of_arch harch h.next.running rfl fun _ _ => rfl
  obtain ⟨hok', harch', -⟩ := hnext.step_row rfl (by decide) hbranch
  have hcondition : (s.step.2.arch.goto (0x3003 + 1)).condition =
      some (Condition.ofInt (Word.toInt (UInt16.ofInt (byte.toUInt16.toNat + -10)))) := by
    rw [← h.read]
    exact congrArg ArchState.condition harch
  rw [row_branch_nonzero _ hcondition] at harch'
  simp only [toInt_sub_ten] at harch'
  refine ⟨((RunsFor.zero s).succ hok).succ hok', ?_, ?_, ?_⟩
  · refine hnext.of_arch harch' hnext.running ?_ fun _ _ => rfl
    show (if byte = 10 then _ else _) = _
    split_ifs <;> rfl
  · have hconsole : s.step.2.console = s.console := congrArg ArchState.console harch
    exact (congrArg ArchState.console harch').trans (hconsole.trans h.console)
  · have hread : s.step.2.arch.register 0 = s.arch.register 0 := by
      rw [harch]
      exact define_register_of_ne (s.arch.goto 0x3003) (by decide) _
    exact (congrFun (congrArg ArchState.register harch') 0).trans (hread.trans h.read)

/-- One round of the loop. -/
theorem Echoing.round (h : s.Echoing (byte :: unread) written) :
    s.RunsFor 4 ∧
      (s.after 4).Echoed (if byte = 10 then 0x3004 else 0x3000) byte unread
        (written ++ [byte]) := by
  obtain ⟨hcopy, hcopied⟩ := h.copy
  obtain ⟨htest, htested⟩ := hcopied.test
  rw [← after_add] at htested
  exact ⟨hcopy.trans htest, htested⟩

/-- The loop takes all bytes before a line feed from the input to the output. -/
theorem Echoing.rounds {bytes : List UInt8} (hbytes : 10 ∉ bytes)
    (h : s.Echoing (bytes ++ unread) written) :
    s.RunsFor (4 * bytes.length) ∧
      (s.after (4 * bytes.length)).Echoing unread (written ++ bytes) := by
  induction bytes generalizing s written with
  | nil =>
      rw [List.append_nil]
      exact ⟨RunsFor.zero s, h⟩
  | cons byte rest ih =>
      rw [List.mem_cons, not_or] at hbytes
      obtain ⟨hne, hrest⟩ := hbytes
      obtain ⟨hround, hechoed⟩ := h.round
      have hnext := hechoed.next
      rw [if_neg (Ne.symm hne)] at hnext
      obtain ⟨hrounds, hend⟩ := ih hrest ⟨hnext, hechoed.console⟩
      have hsteps : 4 * (byte :: rest).length = 4 + 4 * rest.length := by
        rw [List.length_cons]
        omega
      rw [hsteps, after_add, List.append_cons]
      exact ⟨hround.trans hrounds, hend⟩

/-- At a line feed the loop ends and `HALT` prints its notice. -/
theorem Echoing.halt (h : s.Echoing (10 :: unread) written) :
    s.RunsFor 4 ∧ s.resultAt 4 = .ok .halted ∧
      (s.after 5).console =
        { input := unread
          output := (written ++ [10] ++ TrapRoutine.haltNotice.toUTF8.toList).toArray
          flushes := written.length + 2 } ∧
      (s.after 5).arch.register 0 = 10 := by
  have hhalt : Word.Invokes 0xF025 .halt := ⟨by decide, by decide⟩
  obtain ⟨hround, hechoed⟩ := h.round
  have hnext : (s.after 4).At echo 0x3004 := hechoed.next
  have hprinted := Buffer.hold_print (.echoing unread (written ++ [10]))
    TrapRoutine.haltNotice.toUTF8.toList
  rw [← hechoed.console] at hprinted
  have hserved := (Dialogue.run_print_pure _ ServiceEffect.halt _).2 _ hprinted
  obtain ⟨hok, harch⟩ := hnext.step_served rfl (by decide) hhalt hserved
  refine ⟨hround, hok, ?_, ?_⟩
  · rw [after_succ, show (s.after 4).step.2.console = _ from congrArg ArchState.console harch]
    simp [hechoed.console, Buffer.echoing]
  · exact (congrFun (congrArg ArchState.register harch) 0).trans hechoed.read

/-- At the end of the input `GETC` fails. -/
theorem Echoing.exhausted (h : s.Echoing [] written) :
    s.resultAt 0 = .error (.console .getc 0x3000 .inputExhausted) ∧
      (s.after 1).machine.status = .halted ∧ (s.after 1).console = .echoing [] written := by
  have hgetc : Word.Invokes 0xF020 .getc := ⟨by decide, by decide⟩
  have hserved : (TrapRoutine.getc.serve (s.arch.register 0) s.machine.memory).run.hold s.console =
      (.error .inputExhausted, .echoing [] written) := by
    rw [h.console]
    rfl
  obtain ⟨herror, harch⟩ := h.start.step_failed rfl (by decide) hgetc hserved
  exact ⟨herror, congrArg ArchState.status harch, congrArg ArchState.console harch⟩

/-- The run on an input with a line feed. -/
theorem Echoing.run_line {line rest : List UInt8} (h : s.Echoing (line ++ 10 :: rest) [])
    (hline : 10 ∉ line) {limit : Nat} (hlimit : 4 * line.length + 5 ≤ limit) :
    (s.run limit).1 = some (.ok ()) ∧
      (s.run limit).2.console =
        { input := rest
          output := (line ++ [10] ++ TrapRoutine.haltNotice.toUTF8.toList).toArray
          flushes := line.length + 2 } ∧
      (s.run limit).2.arch.register 0 = 10 := by
  obtain ⟨hrounds, hloop⟩ := h.rounds hline
  rw [List.nil_append] at hloop
  obtain ⟨hround, hhalted, hconsole, hread⟩ := hloop.halt
  rw [← resultAt_add] at hhalted
  rw [← after_add] at hconsole hread
  have hlt : 4 * line.length + 4 < limit := hlimit
  obtain ⟨hresult, hsame⟩ := (hrounds.trans hround).run_eq (by rw [hhalted]; simp) hlt
  rw [hhalted] at hresult
  refine ⟨hresult, hsame.console.trans hconsole, ?_⟩
  rw [hsame.arch_eq]
  exact hread

/-- The run on an input without a line feed. -/
theorem Echoing.run_unended {input : List UInt8} (h : s.Echoing input []) (hinput : 10 ∉ input)
    {limit : Nat} (hlimit : 4 * input.length + 1 ≤ limit) :
    (s.run limit).1 = some (.error (.console .getc 0x3000 .inputExhausted)) ∧
      (s.run limit).2.machine.status = .halted ∧
      (s.run limit).2.console = .echoing [] input := by
  rw [← List.append_nil input] at h
  obtain ⟨hrounds, hloop⟩ := h.rounds hinput
  rw [List.nil_append] at hloop
  obtain ⟨hfault, hhalted, hconsole⟩ := hloop.exhausted
  rw [← resultAt_add, Nat.add_zero] at hfault
  rw [← after_add] at hhalted hconsole
  have hlt : 4 * input.length < limit := hlimit
  obtain ⟨hresult, hsame⟩ := hrounds.run_eq (by rw [hfault]; simp) hlt
  rw [hfault] at hresult
  refine ⟨hresult, ?_, hsame.console.trans hconsole⟩
  rw [hsame.machine]
  exact hhalted

theorem echoing_start (input : List UInt8) :
    ((start (Buffer.ofInput input)).loadImage echo).Echoing input [] :=
  ⟨(start (Buffer.ofInput input)).at_loadImage echo rfl rfl, rfl⟩

/-- The echo program is correct on every input.  If there is a line feed, the run succeeds
with all bytes up to the first one written and flushed one by one, and leaves the bytes
after it unread.  If there is none, the run fails to read at the start of the program,
with the whole input written. -/
theorem echo_correct (input : List UInt8) :
    let s : Session Buffer := (start (Buffer.ofInput input)).loadImage echo
    (∀ line rest, input = line ++ [10] ++ rest → 10 ∉ line →
      ∀ limit, 4 * line.length + 5 ≤ limit →
        let ended := (s.run limit).2
        (s.run limit).1 = some (.ok ()) ∧
          ended.console.output.toList = line ++ [10] ++ "\nHalted\n".toUTF8.toList ∧
          ended.console.input = rest ∧ ended.console.flushes = line.length + 2 ∧
          ended.arch.register 0 = 10) ∧
      (10 ∉ input → ∀ limit, 4 * input.length + 1 ≤ limit →
        let ended := (s.run limit).2
        (s.run limit).1 = some (.error (.console .getc 0x3000 .inputExhausted)) ∧
          ended.machine.status = .halted ∧ ended.console.output.toList = input ∧
          ended.console.input = []) := by
  intro s
  have hstart : s.Echoing input [] := echoing_start input
  constructor
  · intro line rest hinput hline limit hlimit ended
    rw [hinput, List.append_assoc, List.singleton_append] at hstart
    obtain ⟨hresult, hconsole, hread⟩ := hstart.run_line hline hlimit
    have hended : ended.console = _ := hconsole
    rw [hended]
    exact ⟨hresult, rfl, rfl, rfl, hread⟩
  · intro hinput limit hlimit ended
    obtain ⟨hresult, hhalted, hconsole⟩ := hstart.run_unended hinput hlimit
    have hended : ended.console = _ := hconsole
    rw [hended]
    exact ⟨hresult, hhalted, rfl, rfl⟩

/-- One line and the byte after it, and an input that ends within its first line. -/
theorem echo_correct_lines :
    let whole := (start (Buffer.ofInput [0x41, 10, 0x42])).loadImage echo
    let unended := (start (Buffer.ofInput [0x41])).loadImage echo
    (whole.run 9).1 = some (.ok ()) ∧ (whole.run 9).2.console.input = [0x42] ∧
      (whole.run 9).2.console.flushes = 3 ∧
      (unended.run 5).1 = some (.error (.console .getc 0x3000 .inputExhausted)) ∧
      (unended.run 5).2.console.output.toList = [0x41] := by
  obtain ⟨hline, -⟩ := echo_correct [0x41, 10, 0x42]
  obtain ⟨-, hend⟩ := echo_correct [0x41]
  obtain ⟨hok, -, hinput, hflushes, -⟩ := hline [0x41] [0x42] rfl (by decide) 9 (by decide)
  obtain ⟨herror, -, houtput, -⟩ := hend (by decide) 5 (by decide)
  exact ⟨hok, hinput, hflushes, herror, houtput⟩

end Session

end Lc3
