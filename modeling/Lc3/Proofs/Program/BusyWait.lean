import Lc3.Proofs.Session.LateInput
import Lc3.Proofs.Session.Program

/-!
# The busy-waiting program

A program that polls the keyboard until there is a key, writes the key and halts.  It
goes round its loop once for each poll that finds none, whatever the console answers
otherwise; the first poll that finds a key ends the loop.
-/

namespace Lc3

open ArchState (askKey)

/-- `LDI R0, #4`, `BRzp #-2`, `LDI R0, #3`, `OUT`, `HALT`, and the addresses of the
keyboard's cells. -/
def busyWait : Image where
  origin := 0x3000
  words := [0xA004, 0x07FE, 0xA003, 0xF021, 0xF025, 0xFE00, 0xFE02]
  fits := by decide

/-- The program does not lie over the keyboard's cells. -/
theorem ne_of_busyWait {addr : Word} (h : (busyWait.wordAt? addr).isSome) :
    addr ≠ 0xFE00 ∧ addr ≠ 0xFE02 := by
  constructor <;> rintro rfl <;> exact absurd h (by decide)

/-- The first `k` polls of the console find no key, and the next one finds this byte. -/
def KeyComesAfter {σ : Type} [Console σ] (byte : UInt8) : Nat → σ → Prop
  | 0, console => (askKey console).1 = some byte
  | k + 1, console => (askKey console).1 = none ∧ KeyComesAfter byte k (askKey console).2

namespace ArchState

variable {σ : Type}

@[simp] theorem store_cell_self (s : ArchState σ) (addr value : Word) :
    (s.store addr value).cell addr = value := by
  show Function.update s.cell addr value addr = value
  exact Function.update_self addr value s.cell

theorem store_cell_of_ne (s : ArchState σ) {addr other : Word} (h : other ≠ addr) (value : Word) :
    (s.store addr value).cell other = s.cell other := by
  show Function.update s.cell addr value other = s.cell other
  exact Function.update_of_ne h value s.cell

variable [Console σ]

/-- A poll that finds no key. -/
theorem load_of_noKey (s : ArchState σ) (h : (askKey s.console).1 = none) :
    s.load 0xFE00 = (0, { s with console := (askKey s.console).2 }.store 0xFE00 0) := by
  rw [load_keyboardStatus, h]
  rfl

/-- A poll that finds a key. -/
theorem load_of_key (s : ArchState σ) {byte : UInt8} (h : (askKey s.console).1 = some byte) :
    s.load 0xFE00 =
      (0x8000, ({ s with console := (askKey s.console).2 }.store 0xFE00 0x8000).store 0xFE02
        byte.toUInt16) := by
  rw [load_keyboardStatus, h]
  rfl

end ArchState

namespace Session

open ArchState Dialogue

variable {σ : Type}

/-- The start of the loop, with no key found so far. -/
structure Waiting (s : Session σ) : Prop where
  start : s.At busyWait 0x3000
  status : s.arch.cell 0xFE00 = 0

/-- A poll has found no key. -/
structure Missed (s : Session σ) : Prop where
  polled : s.At busyWait 0x3001
  condition : s.arch.condition = some .zero
  status : s.arch.cell 0xFE00 = 0

/-- The keyboard's cells tell of this key. -/
structure HasKey (s : Session σ) (byte : UInt8) : Prop where
  status : s.arch.cell 0xFE00 = 0x8000
  data : s.arch.cell 0xFE02 = byte.toUInt16

/-- A poll has found this key. -/
structure Found (s : Session σ) (byte : UInt8) : Prop extends s.HasKey byte where
  polled : s.At busyWait 0x3001
  condition : s.arch.condition = some .negative

/-- The key is in R0. -/
structure Fetched (s : Session σ) (byte : UInt8) : Prop extends s.HasKey byte where
  loaded : s.At busyWait 0x3003
  read : s.arch.register 0 = byte.toUInt16

/-- The key was written and the machine has halted. -/
structure Reported (s : Session σ) (byte : UInt8) : Prop extends s.HasKey byte where
  read : s.arch.register 0 = byte.toUInt16

variable [Console σ] {s : Session σ} {byte : UInt8}

/-- The step that polls the keyboard. -/
theorem Waiting.poll (h : s.Waiting) :
    s.step.1 = .ok .running ∧ sent s.calls = [] ∧ s.step.2.At busyWait 0x3001 ∧
      s.step.2.arch =
        ((s.arch.goto 0x3001).load 0xFE00).2.define 0 ((s.arch.goto 0x3001).load 0xFE00).1 := by
  have hnear : (s.arch.goto 0x3001).relative ((0xA004 : Word).signedBits 9) = 0x3005 := rfl
  obtain ⟨hok, harch, hsent⟩ :=
    h.start.step_ldi rfl (by decide) (by decide) hnear (by decide) rfl
  have hpolled : s.step.2.At busyWait 0x3001 :=
    h.start.of_arch harch ((load_status _ _).trans h.start.running) (load_pc _ _)
      fun addr hcovered => load_cell _ _ addr fun _ => ne_of_busyWait hcovered
  exact ⟨hok, hsent, hpolled, harch⟩

theorem Waiting.miss (h : s.Waiting) (hnone : (askKey s.console).1 = none) :
    s.step.1 = .ok .running ∧ sent s.calls = [] ∧ s.step.2.console = (askKey s.console).2 ∧
      s.step.2.Missed := by
  obtain ⟨hok, hsent, hpolled, harch⟩ := h.poll
  rw [load_of_noKey (s.arch.goto 0x3001) hnone] at harch
  refine ⟨hok, hsent, congrArg ArchState.console harch, hpolled, ?_, ?_⟩
  · exact congrArg ArchState.condition harch
  · simp only [harch, define_cell, store_cell_self]

theorem Waiting.find (h : s.Waiting) (hsome : (askKey s.console).1 = some byte) :
    s.step.1 = .ok .running ∧ sent s.calls = [] ∧ s.step.2.console = (askKey s.console).2 ∧
      s.step.2.Found byte := by
  obtain ⟨hok, hsent, hpolled, harch⟩ := h.poll
  rw [load_of_key (s.arch.goto 0x3001) hsome] at harch
  refine ⟨hok, hsent, congrArg ArchState.console harch, ⟨?_, ?_⟩, hpolled, ?_⟩
  · have hne : (0xFE00 : Word) ≠ 0xFE02 := by decide
    simp only [harch, define_cell, store_cell_of_ne _ hne, store_cell_self]
  · simp only [harch, define_cell, store_cell_self]
  · exact congrArg ArchState.condition harch

/-- `BRzp #-2` leaves the loop only after a negative value. -/
theorem At.step_branch (h : s.At busyWait 0x3001) {last : Condition}
    (hlast : s.arch.condition = some last) :
    s.step.1 = .ok .running ∧ sent s.calls = [] ∧
      s.step.2.arch = s.arch.goto (if last = .negative then 0x3002 else 0x3000) := by
  have hbranch : Word.HasRow 0x07FE := ⟨by decide, by decide, by decide⟩
  obtain ⟨hok, harch, hsent⟩ := h.step_row rfl (by decide) hbranch
  have htaken : (s.arch.goto (0x3001 + 1)).branches 0x07FE = decide (last ≠ .negative) := by
    unfold branches
    rw [show (s.arch.goto (0x3001 + 1)).condition = _ from hlast]
    cases last <;> decide
  rw [row_branch _ (by decide), htaken] at harch
  refine ⟨hok, hsent, ?_⟩
  cases last <;> exact harch

/-- The branch back to the poll. -/
theorem Missed.back (h : s.Missed) :
    s.step.1 = .ok .running ∧ sent s.calls = [] ∧ s.step.2.console = s.console ∧
      s.step.2.Waiting := by
  obtain ⟨hok, hsent, harch⟩ := h.polled.step_branch h.condition
  refine ⟨hok, hsent, congrArg ArchState.console harch, ?_, ?_⟩
  · exact h.polled.of_arch harch h.polled.running rfl fun _ _ => rfl
  · exact (congrFun (congrArg ArchState.cell harch) _).trans h.status

/-- The branch is not taken, and the key is loaded from its cell. -/
theorem Found.fetch (h : s.Found byte) :
    s.RunsWriting 2 [] ∧ (s.after 2).console = s.console ∧ (s.after 2).Fetched byte := by
  obtain ⟨hok, hsent, harch⟩ := h.polled.step_branch h.condition
  have hnext : s.step.2.At busyWait 0x3002 :=
    h.polled.of_arch harch h.polled.running rfl fun _ _ => rfl
  have hnear : (s.step.2.arch.goto 0x3003).relative ((0xA003 : Word).signedBits 9) = 0x3006 := rfl
  obtain ⟨hok', harch', hsent'⟩ :=
    hnext.step_ldi rfl (by decide) (by decide) hnear (by decide) rfl
  rw [load_of_ne _ (by decide)] at harch'
  have hcell : s.step.2.arch.cell = s.arch.cell := (congrArg ArchState.cell harch).trans rfl
  have hcell' : (s.after 2).arch.cell = s.step.2.arch.cell :=
    (congrArg ArchState.cell harch').trans rfl
  have hconsole : s.step.2.console = s.console := congrArg ArchState.console harch
  have hconsole' : (s.after 2).console = s.step.2.console := congrArg ArchState.console harch'
  have hread : (s.after 2).arch.register 0 = s.step.2.arch.cell 0xFE02 := by
    rw [show (s.after 2).arch = _ from harch']
    exact define_register_self _ 0 _
  have hruns := ((RunsWriting.zero s).succ hok hsent).succ hok' hsent'
  refine ⟨hruns, hconsole'.trans hconsole, ⟨?_, ?_⟩, ?_, ?_⟩
  · rw [hcell', hcell, h.status]
  · rw [hcell', hcell, h.data]
  · exact hnext.of_arch harch' hnext.running rfl fun _ _ => rfl
  · rw [hread, hcell, h.data]

/-- `OUT` writes the key and `HALT` prints its notice. -/
theorem Fetched.report (h : s.Fetched byte)
    (haccepts : ∀ call ∈ s.callsUpTo 2, call.refuses = false) :
    s.RunsFor 1 ∧ s.resultAt 1 = .ok .halted ∧
      sent (s.callsUpTo 2) = byte :: TrapRoutine.haltNotice.toUTF8.toList ∧
      (s.after 2).Reported byte ∧
      ∃ console, (TrapRoutine.print [byte]).run.hold s.console = (.ok (), console) ∧
        (TrapRoutine.print TrapRoutine.haltNotice.toUTF8.toList).run.hold console =
          (.ok (), (s.after 2).console) := by
  have hout : Word.Invokes 0xF021 .out := ⟨by decide, by decide⟩
  have hhalt : Word.Invokes 0xF025 .halt := ⟨by decide, by decide⟩
  have hcalls : ∀ i < 2, ∀ call ∈ (s.after i).calls, call.refuses = false :=
    fun i hi call hcall => haccepts call (mem_callsUpTo.mpr ⟨i, hi, hcall⟩)
  have hbyte : Word.lowByte (s.arch.register 0) = byte := by
    rw [h.read]
    exact UInt8.toUInt8_toUInt16 byte
  obtain ⟨console, hprinted, hok, harch, hsent⟩ :=
    h.loaded.step_prints rfl (by decide) hout rfl (hcalls 0 (by decide))
  rw [hbyte] at hprinted hsent
  have hnext : s.step.2.At busyWait 0x3004 :=
    h.loaded.of_arch harch h.loaded.running rfl fun _ _ => rfl
  obtain ⟨console', hprinted', hok', harch', hsent'⟩ :=
    hnext.step_prints rfl (by decide) hhalt rfl (hcalls 1 (by decide))
  have hcell : s.step.2.arch.cell = s.arch.cell := (congrArg ArchState.cell harch).trans rfl
  have hcell' : (s.after 2).arch.cell = s.step.2.arch.cell :=
    (congrArg ArchState.cell harch').trans rfl
  have hregister : s.step.2.arch.register = s.arch.register :=
    (congrArg ArchState.register harch).trans rfl
  have hregister' : (s.after 2).arch.register = s.step.2.arch.register :=
    (congrArg ArchState.register harch').trans rfl
  refine ⟨(RunsFor.zero s).succ hok, hok', ?_, ⟨⟨?_, ?_⟩, ?_⟩, console, hprinted, ?_⟩
  · exact ((RunsWriting.zero s).succ hok hsent).sent_succ hsent'
  · rw [hcell', hcell, h.status]
  · rw [hcell', hcell, h.data]
  · rw [hregister', hregister, h.read]
  · rw [show s.step.2.console = console from congrArg ArchState.console harch] at hprinted'
    rw [hprinted', show (s.after 2).console = console' from congrArg ArchState.console harch']

/-- Each poll without a key is one way round the loop. -/
theorem Waiting.spin {k : Nat} (h : s.Waiting) (hkey : KeyComesAfter byte k s.console) :
    s.RunsWriting (2 * k) [] ∧ (s.after (2 * k)).Waiting ∧
      (askKey (s.after (2 * k)).console).1 = some byte := by
  induction k generalizing s with
  | zero => exact ⟨RunsWriting.zero s, h, hkey⟩
  | succ k ih =>
      obtain ⟨hnone, hlater⟩ := hkey
      obtain ⟨hok, hsent, hconsole, hmissed⟩ := h.miss hnone
      obtain ⟨hok', hsent', hconsole', hwaiting⟩ := hmissed.back
      have hround := ((RunsWriting.zero s).succ hok hsent).succ hok' hsent'
      rw [← hconsole, ← hconsole'] at hlater
      obtain ⟨hruns, hend, hlast⟩ := ih hwaiting hlater
      have hsteps : 2 * (k + 1) = 2 + 2 * k := by omega
      rw [hsteps, after_add]
      exact ⟨hround.trans hruns, hend, hlast⟩

/-- The run of the program at a console that accepts what it writes. -/
theorem Waiting.run {k : Nat} (h : s.Waiting) (hkey : KeyComesAfter byte k s.console)
    (haccepts : ∀ call ∈ s.callsUpTo (2 * k + 5), call.refuses = false) :
    s.RunsFor (2 * k + 4) ∧ s.resultAt (2 * k + 4) = .ok .halted ∧
      sent (s.callsUpTo (2 * k + 5)) = byte :: TrapRoutine.haltNotice.toUTF8.toList ∧
      (s.after (2 * k + 5)).Reported byte ∧
      ∃ console,
        (TrapRoutine.print [byte]).run.hold (askKey (s.after (2 * k)).console).2 =
            (.ok (), console) ∧
          (TrapRoutine.print TrapRoutine.haltNotice.toUTF8.toList).run.hold console =
            (.ok (), (s.after (2 * k + 5)).console) := by
  obtain ⟨hspin, hwaiting, hlast⟩ := h.spin hkey
  obtain ⟨hok, hsent, hconsole, hfound⟩ := hwaiting.find hlast
  obtain ⟨hfetch, hconsole', hfetched⟩ := hfound.fetch
  have hruns : s.RunsWriting (2 * k + 3) [] := (hspin.succ hok hsent).trans hfetch
  rw [← after_succ, ← after_add] at hconsole' hfetched
  have hlater : ∀ call ∈ (s.after (2 * k + 3)).callsUpTo 2, call.refuses = false := by
    intro call hcall
    apply haccepts call
    rw [show 2 * k + 5 = 2 * k + 3 + 2 from rfl, callsUpTo_add]
    exact List.mem_append_right _ hcall
  obtain ⟨hrun, hhalted, hwritten, hreported, hprinted⟩ := hfetched.report hlater
  rw [← resultAt_add] at hhalted
  rw [← after_add] at hreported hprinted
  rw [hconsole', after_succ, hconsole] at hprinted
  exact ⟨hruns.runs.trans hrun, hhalted, hruns.sent_add hwritten, hreported, hprinted⟩

/-- While no input comes, the loop goes on without output. -/
theorem waiting_or_missed {s : Session Buffer} (h : s.Waiting) (hconsole : s.console = .ofInput [])
    (n : Nat) :
    ((s.after n).Waiting ∨ (s.after n).Missed) ∧ (s.after n).console = .ofInput [] := by
  induction n with
  | zero => exact ⟨Or.inl h, hconsole⟩
  | succ n ih =>
      obtain ⟨hstate, hempty⟩ := ih
      rw [after_succ]
      rcases hstate with hwaiting | hmissed
      · have hnone : (askKey (s.after n).console).1 = none := by
          rw [hempty]
          rfl
        obtain ⟨-, -, hpolled, hmissed⟩ := hwaiting.miss hnone
        rw [hempty] at hpolled
        exact ⟨Or.inr hmissed, hpolled⟩
      · obtain ⟨-, -, hkept, hwaiting⟩ := hmissed.back
        exact ⟨Or.inl hwaiting, hkept.trans hempty⟩

/-- Input comes while the program waits. -/
theorem Waiting.run_pushed {s : Session Buffer} {rest : List UInt8} (h : s.Waiting)
    (hconsole : s.console = .ofInput (byte :: rest)) :
    s.RunsFor 4 ∧ s.resultAt 4 = .ok .halted ∧
      (s.after 5).console.output.toList = byte :: TrapRoutine.haltNotice.toUTF8.toList ∧
      (s.after 5).console.input = rest := by
  have hkey : KeyComesAfter byte 0 s.console := by
    rw [hconsole]
    rfl
  have haccepts := (accepted_callsUpTo Buffer.acceptsOutput s trivial 5).2
  obtain ⟨hruns, hhalted, -, -, console, hkeyed, hnotice⟩ := h.run hkey haccepts
  have hpolled : (askKey (s.after (2 * 0)).console).2 = .ofInput rest := by
    rw [show (s.after (2 * 0)).console = .ofInput (byte :: rest) from hconsole]
    rfl
  rw [hpolled, Buffer.hold_print] at hkeyed
  obtain ⟨-, rfl⟩ := Prod.mk.inj hkeyed
  rw [Buffer.hold_print] at hnotice
  have hended : _ = (s.after 5).console := (Prod.mk.inj hnotice).2
  refine ⟨hruns, hhalted, ?_, ?_⟩
  · rw [← hended]
    simp [Buffer.ofInput]
  · rw [← hended]
    rfl

/-- Pushed input is waited for as if it had been there, from either point of the loop. -/
theorem run_of_pushInput {s : Session Buffer} (h : s.Waiting ∨ s.Missed)
    (hconsole : s.console = .ofInput []) (byte : UInt8) (rest : List UInt8) {limit : Nat}
    (hlimit : 6 ≤ limit) :
    let ended := (s.pushInput (byte :: rest)).run limit
    ended.1 = some (.ok ()) ∧
      ended.2.console.output.toList = byte :: TrapRoutine.haltNotice.toUTF8.toList ∧
      ended.2.console.input = rest := by
  have hpushed : (s.pushInput (byte :: rest)).console = .ofInput (byte :: rest) := by
    unfold pushInput
    rw [hconsole]
    rfl
  -- from the branch there is one more step
  obtain ⟨n, hn, hruns, hhalted, houtput, hinput⟩ : ∃ n < 6,
      (s.pushInput (byte :: rest)).RunsFor n ∧
        (s.pushInput (byte :: rest)).resultAt n = .ok .halted ∧
        ((s.pushInput (byte :: rest)).after (n + 1)).console.output.toList =
          byte :: TrapRoutine.haltNotice.toUTF8.toList ∧
        ((s.pushInput (byte :: rest)).after (n + 1)).console.input = rest := by
    rcases h with hwaiting | hmissed
    · have hwaiting' : (s.pushInput (byte :: rest)).Waiting :=
        ⟨⟨hwaiting.start.running, hwaiting.start.pc, hwaiting.start.holds⟩, hwaiting.status⟩
      exact ⟨4, by decide, hwaiting'.run_pushed hpushed⟩
    · have hmissed' : (s.pushInput (byte :: rest)).Missed :=
        ⟨⟨hmissed.polled.running, hmissed.polled.pc, hmissed.polled.holds⟩, hmissed.condition,
          hmissed.status⟩
      obtain ⟨hok, -, hkept, hwaiting⟩ := hmissed'.back
      obtain ⟨hruns, hhalted, hended⟩ := hwaiting.run_pushed (hkept.trans hpushed)
      refine ⟨1 + 4, by decide, ((RunsFor.zero _).succ hok).trans hruns, ?_, ?_⟩
      · rw [resultAt_add]
        exact hhalted
      · rw [Nat.add_assoc, after_add]
        exact hended
  intro ended
  have hlast : (s.pushInput (byte :: rest)).resultAt n ≠ .ok .running := by
    rw [hhalted]
    simp
  obtain ⟨hresult, hsame⟩ := hruns.run_eq hlast (Nat.lt_of_lt_of_le hn hlimit)
  rw [hhalted] at hresult
  have hconsole : ended.2.console = _ := hsame.console
  rw [hconsole]
  exact ⟨hresult, houtput, hinput⟩

omit [Console σ] in
theorem waiting_start (console : σ) : ((start console).loadImage busyWait).Waiting := by
  have hnone : busyWait.wordAt? 0xFE00 = none := rfl
  refine ⟨(start console).at_loadImage busyWait rfl rfl, ?_⟩
  show (busyWait.placeInto Memory.blank).peek 0xFE00 = 0
  rw [busyWait.peek_placeInto, hnone, Memory.peek_blank]
  rfl

/-- Waiting for the keyboard works for any delay.  If the first `k` polls find no key and
the next one finds one, and no write or flush of the run is refused, the run halts with
exactly `2 * k + 5` steps, has written the key and the notice of the halt, and leaves the
key in R0 and in the keyboard's cells.  At a buffered console without input the program
goes on without output, and input that comes after any number of steps ends it. -/
theorem busyWait_correct :
    (∀ (σ : Type) [Console σ] (console : σ) (k : Nat) (byte : UInt8),
      KeyComesAfter byte k console →
      let s := (start console).loadImage busyWait
      (∀ call ∈ s.callsUpTo (2 * k + 5), call.refuses = false) →
      ∀ limit, 2 * k + 5 ≤ limit →
        let ended := (s.run limit).2
        (s.run limit).1 = some (.ok ()) ∧ s.stepsOfRun limit = 2 * k + 5 ∧
          sent (s.callsUpTo (2 * k + 5)) = [byte] ++ "\nHalted\n".toUTF8.toList ∧
          ended.arch.register 0 = byte.toUInt16 ∧ ended.arch.cell 0xFE00 = 0x8000 ∧
          ended.arch.cell 0xFE02 = byte.toUInt16) ∧
      ∀ n,
        let s := ((start (Buffer.ofInput [])).loadImage busyWait).after n
        s.machine.status = .running ∧ s.arch.cell 0xFE00 = 0 ∧ s.console.output = #[] ∧
          ∀ byte rest limit, 6 ≤ limit →
            let ended := (s.pushInput (byte :: rest)).run limit
            ended.1 = some (.ok ()) ∧
              ended.2.console.output.toList = [byte] ++ "\nHalted\n".toUTF8.toList ∧
              ended.2.console.input = rest := by
  constructor
  · intro σ _ console k byte hkey s haccepts limit hlimit ended
    obtain ⟨hruns, hhalted, hwritten, hreported, -⟩ := (waiting_start console).run hkey haccepts
    have hlast : s.resultAt (2 * k + 4) ≠ .ok .running := by
      rw [show s.resultAt (2 * k + 4) = _ from hhalted]
      simp
    obtain ⟨hresult, hsame⟩ := RunsFor.run_eq hruns hlast hlimit
    rw [hhalted] at hresult
    have harch : ended.arch = (s.after (2 * k + 5)).arch := hsame.arch_eq
    rw [harch]
    exact ⟨hresult, RunsFor.stepsOfRun_eq hruns hlast hlimit, hwritten, hreported.read,
      hreported.status, hreported.data⟩
  · intro n s
    obtain ⟨hstate, hempty⟩ :=
      waiting_or_missed (waiting_start (Buffer.ofInput [])) rfl n
    refine ⟨?_, ?_, ?_, fun byte rest limit => run_of_pushInput hstate hempty byte rest⟩
    · rcases hstate with hwaiting | hmissed
      · exact hwaiting.start.running
      · exact hmissed.polled.running
    · rcases hstate with hwaiting | hmissed
      · exact hwaiting.status
      · exact hmissed.status
    · rw [show s.console = _ from hempty]
      rfl

/-- There is no key at the first poll, and at the second one the read fails. -/
def lateKey : Scripted := .ofInput ⟨[0], [], [], #[false, true, true]⟩ [0x6B]

/-- The third poll ends the loop.  Without a script, a key may be pushed after three steps. -/
theorem busyWait_correct_lateKey :
    let s := (start lateKey).loadImage busyWait
    let reached := ((start (Buffer.ofInput [])).loadImage busyWait).after 3
    (s.run 9).1 = some (.ok ()) ∧ s.stepsOfRun 9 = 9 ∧
      sent (s.callsUpTo 9) = [0x6B] ++ "\nHalted\n".toUTF8.toList ∧
      (s.run 9).2.arch.register 0 = 0x6B ∧
      ((reached.pushInput [0x6B]).run 6).1 = some (.ok ()) := by
  dsimp only
  have hkey : KeyComesAfter 0x6B 2 lateKey := ⟨rfl, rfl, rfl⟩
  have haccepts :=
    (accepted_callsUpTo Scripted.acceptsOutput ((start lateKey).loadImage busyWait)
      ⟨rfl, rfl⟩ 9).2
  obtain ⟨hruns, hwaits⟩ := busyWait_correct
  obtain ⟨hok, hsteps, hwritten, hread, -⟩ :=
    hruns Scripted lateKey 2 0x6B hkey haccepts 9 (Nat.le_refl 9)
  obtain ⟨-, -, -, hpushed⟩ := hwaits 3
  have hbyte : (0x6B : UInt8).toUInt16 = 0x6B := by decide
  rw [hbyte] at hread
  exact ⟨hok, hsteps, hwritten, hread, (hpushed 0x6B [] 6 (Nat.le_refl 6)).1⟩

end Session

end Lc3
