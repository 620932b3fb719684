import Lc3.Proofs.Console.Accepting
import Lc3.Proofs.Machine.TrapCalls

/-!
# Strings in memory

A string lies in memory with one character in each cell, for `PUTS`, or with two of them,
for `PUTSP`.  Either routine writes the string that was laid out for it, wherever it
starts and whether a zero follows it or it fills all of memory.  The characters are not
zero, for a zero cell ends the string.
-/

namespace Lc3

/-- Two bytes in each word, the first one low.  An odd last byte has a zero high byte. -/
def packed : List UInt8 → List Word
  | [] => []
  | [last] => [Word.ofBytes 0 last]
  | low :: high :: rest => Word.ofBytes high low :: packed rest

/-- The cells from an address on hold the words.  A zero cell follows unless there is no
cell left. -/
structure HoldsString (cell : Word → Word) (start : Word) (words : List Word) : Prop where
  fits : words.length ≤ 65536
  holds (i : Nat) (h : i < words.length) : cell (start + UInt16.ofNat i) = words[i]
  ends (h : words.length < 65536) : cell (start + UInt16.ofNat words.length) = 0

namespace TrapRoutine

open Dialogue

/-- The words are a layout of the bytes for the routine. -/
inductive LaysOut : TrapRoutine → List UInt8 → List Word → Prop
  /-- One byte in each word, whatever the high bytes are. -/
  | puts (words : List Word) : LaysOut .puts (words.map Word.lowByte) words
  | putsp (bytes : List UInt8) : LaysOut .putsp bytes (packed bytes)

theorem length_circuit (start : Word) : (circuit start).length = 65536 := by
  simp [circuit]

/-- The string in cells that hold nonzero words are these words. -/
theorem stringCells_of_holds {cell : Word → Word} {start : Word} {words : List Word}
    (h : HoldsString cell start words) (hnonzero : ∀ word ∈ words, word ≠ 0) :
    stringCells cell start = words := by
  have hcells : (circuit start).map cell =
      words ++ ((circuit start).map cell).drop words.length := by
    have htake : ((circuit start).map cell).take words.length = words := by
      apply List.ext_getElem
      · simp [length_circuit, h.fits]
      · intro i _ hi
        simp [circuit, h.holds i hi]
    exact (List.take_append_drop words.length _).symm.trans (by rw [htake])
  have hends : (((circuit start).map cell).drop words.length).takeWhile (· != 0) = [] := by
    by_cases hlength : words.length < 65536
    · rw [List.drop_eq_getElem_cons (by simpa [length_circuit] using hlength)]
      simp [circuit, h.ends hlength]
    · rw [List.drop_of_length_le (by rw [List.length_map, length_circuit]; omega)]
      rfl
  unfold stringCells
  rw [hcells, List.takeWhile_append_of_pos (by simpa using hnonzero), hends, List.append_nil]

theorem mem_of_mem_packed {word : Word} :
    ∀ {bytes : List UInt8}, word ∈ packed bytes → word.lowByte ∈ bytes
  | [], h => by simp [packed] at h
  | [last], h => by simp_all [packed]
  | low :: high :: rest, h => by
      rcases List.mem_cons.mp h with rfl | hrest
      · simp
      · simp [mem_of_mem_packed hrest]

/-- The low byte of a word that is laid out is one of the bytes. -/
theorem LaysOut.lowByte_mem {routine : TrapRoutine} {bytes : List UInt8} {words : List Word}
    (h : routine.LaysOut bytes words) {word : Word} (hword : word ∈ words) :
    word.lowByte ∈ bytes := by
  cases h with
  | puts => exact List.mem_map_of_mem hword
  | putsp => exact mem_of_mem_packed hword

/-- The characters of packed bytes are the bytes. -/
theorem flatMap_packedBytes_packed :
    ∀ {bytes : List UInt8}, 0 ∉ bytes → (packed bytes).flatMap packedBytes = bytes
  | [], _ => rfl
  | [last], _ => by simp [packed, packedBytes]
  | low :: high :: rest, h => by
      simp only [List.mem_cons, not_or] at h
      obtain ⟨-, hhigh, hrest⟩ := h
      have hpair : packedBytes (Word.ofBytes high low) = [low, high] := by
        simp [packedBytes, Ne.symm hhigh]
      rw [packed, List.flatMap_cons, hpair, flatMap_packedBytes_packed hrest]
      rfl

/-- The plan for words that were laid out is an output of the bytes. -/
theorem LaysOut.plan_eq {routine : TrapRoutine} {bytes : List UInt8} {words : List Word}
    (h : routine.LaysOut bytes words) (hnonzero : 0 ∉ bytes) (r0 : Word) (key : UInt8) :
    routine.plan r0 words key = outputOf bytes := by
  cases h with
  | puts => simp [plan, outputOf, Word.ofNat_bits_low]
  | putsp =>
      rw [plan, funext charsOfCell_eq, flatMap_packedBytes_packed hnonzero]
      rfl

end TrapRoutine

namespace Dialogue

/-- Calls without a failure that output the bytes. -/
theorem eq_printed {bytes : List UInt8} {calls : List ConsoleCall}
    (hrequests : calls.map ConsoleCall.request = outputOf bytes)
    (hsucceed : ∀ call ∈ calls, call.failure? = none) : calls = printed bytes := by
  have hcall : ∀ call : ConsoleCall, call.failure? = none →
      (∀ byte, call.request = .writeChar byte → call = .writeChar byte (.ok ())) ∧
        (call.request = .flush → call = .flush (.ok ())) := by
    rintro (_ | _ | ⟨_, _ | _⟩ | (_ | _)) <;> simp [ConsoleCall.request, ConsoleCall.failure?]
  induction bytes generalizing calls with
  | nil =>
      obtain ⟨call, rfl, hflush⟩ := List.map_eq_singleton_iff.mp hrequests
      simp only [List.mem_singleton, forall_eq] at hsucceed
      rw [(hcall call hsucceed).2 hflush]
      rfl
  | cons byte rest ih =>
      obtain ⟨call, later, rfl, hwrite, hlater⟩ := List.map_eq_cons_iff.mp hrequests
      obtain ⟨hfirst, hrest⟩ := List.forall_mem_cons.mp hsucceed
      rw [(hcall call hfirst).1 byte hwrite, ih hlater hrest]
      rfl

end Dialogue

namespace Machine

open ArchState TrapRoutine Dialogue

variable {σ : Type} [Console σ]

/-- `PUTS` and `PUTSP` write the bytes that were laid out for them at R0, if all calls
succeed, and flush once. -/
theorem step_prints_layout (m : Machine) (console : σ) {routine : TrapRoutine}
    {bytes : List UInt8} {words : List Word} (hrunning : m.status = .running)
    (hword : (of m console).fetch.1.Invokes routine) (hnonzero : 0 ∉ bytes)
    (hlayout : routine.LaysOut bytes words)
    (hholds : HoldsString (of m console).cell ((of m console).register 0) words)
    (hsucceed : ∀ call ∈ m.step.transcript console, call.failure? = none) :
    m.step.transcript console = printed bytes := by
  have hwords : ∀ word ∈ words, word ≠ 0 := by
    rintro word hmem rfl
    exact hnonzero (hlayout.lowByte_mem hmem)
  have hplan : m.trapPlan console routine = outputOf bytes := by
    unfold trapPlan
    dsimp only
    rw [stringCells_of_holds hholds hwords]
    exact hlayout.plan_eq hnonzero _ _
  have hcarried := m.step_carried console hrunning hword
  rw [hplan] at hcarried
  exact eq_printed (hcarried.of_succeed hsucceed) hsucceed

/-- Nothing fails in a step at a `TRAP` that does not read, if the console accepts output. -/
theorem step_succeeds_of_accepts (m : Machine) {keeps : σ → Prop}
    (haccepts : AcceptsOutput keeps) {console : σ} (hkeeps : keeps console)
    {routine : TrapRoutine} (hrunning : m.status = .running)
    (hword : (of m console).fetch.1.Invokes routine) (hreads : ¬ routine.Reads) :
    ∀ call ∈ m.step.transcript console, call.failure? = none := by
  intro call hcall
  have hrefuses := (haccepts.hold m.step hkeeps).2 call hcall
  have hquiet := readsAtMost_serve routine ((of m console).register 0) m.memory
  rw [if_neg hreads] at hquiet
  rw [m.transcript_of_invokes console hrunning hword] at hcall
  have hwaits := hquiet.no_waits console call hcall
  cases hfailure : call.failure? with
  | none => rfl
  | some cause =>
      cases hrefuses.symm.trans (ConsoleCall.refuses_of_failure hfailure hwaits)

/-- A machine that is about to execute the word.  R0 is the last address, and the string
goes on in the first cell of memory. -/
def wrapping (w : Word) : Machine :=
  (((holding w).write 0xFFFF 0x6261).write 0x0000 0x0063).set 0 0xFFFF

omit [Console σ] in
theorem wrapping_holds (w : Word) (console : σ) :
    HoldsString (of (wrapping w) console).cell ((of (wrapping w) console).register 0)
      [0x6261, 0x0063] where
  fits := by simp
  holds := by
    intro i hi
    have hcases : i = 0 ∨ i = 1 := by
      simp at hi
      omega
    rcases hcases with rfl | rfl <;>
      simp [wrapping, holding, of, Machine.write, Machine.set, Registers.set, Memory.peek_write]
  ends := by
    intro _
    simp [wrapping, holding, of, Machine.write, Machine.set, Registers.set, Memory.peek_write]

theorem fetch_wrapping (w : Word) (console : σ) : (of (wrapping w) console).fetch.1 = w := by
  have hpc : (of (wrapping w) console).pc = 0x3000 := rfl
  unfold ArchState.fetch
  rw [load_of_ne _ (by rw [hpc]; decide), hpc]
  simp [wrapping, holding, of, Machine.write, Machine.set, Memory.peek_write]

/-- The cells hold the packed bytes `abc`, and in their low bytes `ac`. -/
theorem step_prints_wrapping :
    (wrapping 0xF024).step.transcript (Buffer.ofInput []) = printed [0x61, 0x62, 0x63] ∧
      (wrapping 0xF022).step.transcript (Buffer.ofInput []) = printed [0x61, 0x63] := by
  have hputsp : (of (wrapping 0xF024) (Buffer.ofInput [])).fetch.1.Invokes .putsp := by
    rw [fetch_wrapping]
    exact ⟨by decide, by decide⟩
  have hputs : (of (wrapping 0xF022) (Buffer.ofInput [])).fetch.1.Invokes .puts := by
    rw [fetch_wrapping]
    exact ⟨by decide, by decide⟩
  constructor
  · exact step_prints_layout _ _ rfl hputsp (by decide) (.putsp [0x61, 0x62, 0x63])
      (wrapping_holds _ _)
      (step_succeeds_of_accepts _ Buffer.acceptsOutput trivial rfl hputsp (by decide))
  · exact step_prints_layout _ _ rfl hputs (by decide) (.puts [0x6261, 0x0063])
      (wrapping_holds _ _)
      (step_succeeds_of_accepts _ Buffer.acceptsOutput trivial rfl hputs (by decide))

end Machine

end Lc3
