import Lc3.Proofs.Session.History

/-!
# The history of the condition code

Seven operations set the condition code, to the sign of the value that they give
their register; nothing else does.  So the condition code of a session without
host writes to registers is told by the last of these values, and with it whether
a branch is taken.
-/

namespace Lc3

namespace Word

/-- The operation sets the condition code: `ADD`, `AND`, `NOT`, `LD`, `LDI`,
`LDR` or `LEA`. -/
def SetsCondition (w : Word) : Prop :=
  w.bits 15 12 ∈ [0x1, 0x5, 0x9, 0x2, 0xA, 0x6, 0xE]

instance (w : Word) : Decidable w.SetsCondition :=
  inferInstanceAs (Decidable (w.bits 15 12 ∈ [0x1, 0x5, 0x9, 0x2, 0xA, 0x6, 0xE]))

theorem SetsCondition.hasRow {w : Word} (h : w.SetsCondition) : w.HasRow := by
  unfold SetsCondition at h
  unfold HasRow
  simp only [List.mem_cons, List.not_mem_nil, or_false] at h
  omega

/-- A branch mask selects the sign of a value: bit 2 if it is negative, bit 1 if
it is zero and bit 0 if it is positive. -/
def Selects (mask value : Word) : Prop :=
  (value.toInt < 0 ∧ mask.bits 2 2 = 1) ∨ (value.toInt = 0 ∧ mask.bits 1 1 = 1) ∨
    (0 < value.toInt ∧ mask.bits 0 0 = 1)

end Word

namespace ArchState

variable {σ : Type} [Console σ]

/-- The seven operations set the condition code to the sign of their result. -/
theorem row_condition_of_sets (s : ArchState σ) {w : Word} (h : w.SetsCondition) :
    (s.row w).condition =
      some (Condition.ofInt ((s.row w).register (w.registerAt 9)).toInt) := by
  have hdefine : ∀ (t : ArchState σ) (r : Fin 8) (value : Word),
      (t.define r value).condition =
        some (Condition.ofInt ((t.define r value).register r).toInt) := by
    intro t r value
    show _ = some (Condition.ofInt (Function.update t.register r value r).toInt)
    rw [Function.update_self]
    rfl
  have hnibble := Opcode.nibble_ofWord w
  unfold Word.SetsCondition at h
  unfold row
  cases hop : Opcode.ofWord w <;> rw [hop] at hnibble <;> rw [← hnibble] at h ⊢
  case add | and | not | ld | ldi | ldr | lea => exact hdefine _ _ _
  all_goals exact absurd h (by decide)

/-- All other rows leave the condition code alone. -/
theorem row_condition_of_not_sets (s : ArchState σ) {w : Word} (h : ¬ w.SetsCondition) :
    (s.row w).condition = s.condition := by
  have hnibble := Opcode.nibble_ofWord w
  unfold Word.SetsCondition at h
  unfold row
  cases hop : Opcode.ofWord w <;> rw [hop] at hnibble <;> rw [← hnibble] at h ⊢
  case add | and | not | ld | ldi | ldr | lea => exact absurd (by decide) h
  case br =>
    show (if s.branches w then s.goto _ else s).condition = s.condition
    split <;> rfl
  case sti => exact load_condition s _
  all_goals rfl

end ArchState

namespace Machine

open ArchState

variable {σ : Type} [Console σ]

/-- A step sets the condition code exactly if its word does. -/
theorem step_condition (m : Machine) (console : σ) (hrunning : m.status = .running) :
    let w := (of m console).fetch.1
    let after := of (m.step.hold console).1.machine (m.step.hold console).2
    after.condition =
      if w.SetsCondition then some (Condition.ofInt (after.register (w.registerAt 9)).toInt)
      else m.registers.condition := by
  intro w after
  have hfetch : (of m console).fetch.2.condition = m.registers.condition := load_condition _ _
  -- a word without a row is none of the seven operations
  have hskip : ¬ w.HasRow → after.condition = (of m console).fetch.2.condition →
      after.condition =
        if w.SetsCondition then some (Condition.ofInt (after.register (w.registerAt 9)).toInt)
        else m.registers.condition := by
    intro hrow hafter
    rw [if_neg fun h => hrow h.hasRow, hafter, hfetch]
  cases m.step_cases console hrunning with
  | row hword hcalls hresult hafter =>
      rw [show after = _ from hafter]
      by_cases h : w.SetsCondition
      · rw [if_pos h, row_condition_of_sets _ h]
      · rw [if_neg h, row_condition_of_not_sets _ h, hfetch]
  | refused fault hword hcalls hresult hfault hafter =>
      exact hskip hword.not_hasRow ((congrArg ArchState.condition hafter).trans rfl)
  | served routine effect console' hword hcalls hserved hresult hafter =>
      refine hskip hword.not_hasRow ((congrArg ArchState.condition hafter).trans ?_)
      cases effect <;> rfl
  | failed routine cause console' hword hcalls hserved hresult hafter =>
      exact hskip hword.not_hasRow ((congrArg ArchState.condition hafter).trans rfl)

end Machine

namespace Moment

variable {σ : Type} [Console σ]

/-- The value that the executed word has given its register, if the word sets the
condition code. -/
def signed? (moment : Moment σ) : Option Word :=
  moment.executed?.bind fun w =>
    if w.SetsCondition then some (moment.after.arch.register (w.registerAt 9)) else none

theorem signed?_eq_none_iff (moment : Moment σ) :
    moment.signed? = none ↔ ∀ w, moment.executed? = some w → ¬ w.SetsCondition := by
  unfold signed?
  cases moment.executed? with
  | none => simp
  | some w => by_cases h : w.SetsCondition <;> simp [h]

/-- The condition code changes to the sign of this value and not otherwise. -/
theorem condition_after (moment : Moment σ) :
    moment.after.arch.condition =
      (moment.signed?.map fun value => Condition.ofInt value.toInt).or
        moment.session.arch.condition := by
  rcases moment with ⟨s, action⟩
  cases action with
  | load stream =>
      show (s.load stream).2.machine.registers.condition = s.machine.registers.condition
      rw [Session.load_eq]
      cases stream.verdict <;> rfl
  | loadImage _ | write _ _ | adjust _ => rfl
  | step =>
      cases hstatus : s.machine.status with
      | halted =>
          have hsame : s.act .step = s := congrArg Prod.snd (s.step_of_halted hstatus)
          unfold signed? executed? after
          rw [hsame, hstatus]
          rfl
      | running =>
          have hcondition : s.step.2.arch.condition =
              if s.arch.fetch.1.SetsCondition then
                some (Condition.ofInt
                  (s.step.2.arch.register (s.arch.fetch.1.registerAt 9)).toInt)
              else s.arch.condition :=
            s.machine.step_condition s.console hstatus
          have hexecuted : executed? ⟨s, .step⟩ = some s.arch.fetch.1 :=
            (executed?_eq_some_iff _ _).mpr ⟨rfl, hstatus, rfl⟩
          show s.step.2.arch.condition = _
          unfold signed?
          rw [hcondition, hexecuted, Option.bind_some]
          by_cases h : s.arch.fetch.1.SetsCondition
          · rw [if_pos h, if_pos h]
            rfl
          · rw [if_neg h, if_neg h]
            rfl

end Moment

namespace Session

variable {σ : Type} [Console σ]

/-- The values of the executed words that set the condition code, in order. -/
def signedValues (s : Session σ) (actions : List (Action σ)) : List Word :=
  (s.history actions).flatMap fun moment => moment.signed?.toList

theorem signedValues_append (s : Session σ) (first second : List (Action σ)) :
    s.signedValues (first ++ second) =
      s.signedValues first ++ (s.actAll first).signedValues second := by
  unfold signedValues
  rw [history_append, List.flatMap_append]

theorem signedValues_step (s : Session σ) :
    s.signedValues [.step] = (Moment.signed? ⟨s, .step⟩).toList := List.append_nil _

theorem condition_actAll (s : Session σ) (actions : List (Action σ)) :
    (s.actAll actions).arch.condition =
      ((s.signedValues actions).getLast?.map fun value => Condition.ofInt value.toInt).or
        s.arch.condition := by
  refine history_induction
    (fun s values t => t.arch.condition =
      (values.getLast?.map fun value => Condition.ofInt value.toInt).or s.arch.condition)
    (fun moment => moment.signed?.toList) (fun s => rfl) ?_ ?_ s actions
  · intro s t u first rest hfirst hrest
    rw [hrest, hfirst, List.getLast?_append]
    cases rest.getLast? <;> rfl
  · intro moment
    rw [moment.condition_after]
    cases moment.signed? <;> rfl

end Session

namespace Word

/-- Selecting a sign is a test of one bit. -/
theorem selects_iff (mask value : Word) :
    mask.Selects value ↔
      mask &&& (Condition.ofInt value.toInt).bit ≠ 0 := by
  have htwo := mask.bits_single_lt 2
  have hone := mask.bits_single_lt 1
  have hzero := mask.bits_single_lt 0
  unfold Selects Condition.ofInt
  split_ifs with hneg heq
  · rw [ne_eq, and_eq_zero_iff_bit mask (show Condition.negative.bit.toNat = 2 ^ 2 from rfl)]
    omega
  · rw [ne_eq, and_eq_zero_iff_bit mask (show Condition.zero.bit.toNat = 2 ^ 1 from rfl)]
    omega
  · rw [ne_eq, and_eq_zero_iff_bit mask (show Condition.positive.bit.toNat = 2 ^ 0 from rfl)]
    omega

/-- Of a mask and its complement exactly one selects a sign. -/
theorem selects_complement (mask value : Word) (hmask : mask ≤ 7) :
    (7 - mask).Selects value ↔ ¬ mask.Selects value := by
  have hle : mask.toNat ≤ 7 := UInt16.le_iff_toNat_le.mp hmask
  have hcomplement : (7 - mask).toNat = 7 - mask.toNat := UInt16.toNat_sub_of_le _ _ hmask
  have hbit : ∀ i, i < 3 → mask.bits i i < 2 ∧ (7 - mask).bits i i = 1 - mask.bits i i := by
    intro i hi
    refine ⟨mask.bits_single_lt i, ?_⟩
    unfold bits
    rw [hcomplement]
    interval_cases i <;> omega
  have htwo := hbit 2 (by omega)
  have hone := hbit 1 (by omega)
  have hzero := hbit 0 (by omega)
  unfold Selects
  omega

end Word

namespace Registers

theorem selectedBy_iff (regs : Registers) (mask : Word) {last : Option Word}
    (h : regs.condition = last.map fun value => Condition.ofInt value.toInt) :
    regs.selectedBy mask = true ↔ ∃ value, last = some value ∧ mask.Selects value := by
  unfold selectedBy
  rw [h]
  cases last with
  | none => simp
  | some value => simp [Word.selects_iff, UInt16.and_comm]

end Registers

namespace ArchState

variable {σ : Type} [Console σ]

/-- A branch goes to its target if its mask selects the condition code and to the
next instruction otherwise. -/
theorem row_branch_pc (s : ArchState σ) {w : Word} (hop : w.bits 15 12 = 0x0) :
    (s.row w).pc = if s.branches w then s.relative (w.signedBits 9) else s.pc := by
  unfold row
  rw [hop]
  show (if s.branches w then s.goto _ else s).pc = _
  split <;> rfl

end ArchState

namespace Session

open ArchState

variable {σ : Type} [Console σ]

/-- A step of a running machine at a branch. -/
theorem step_branch_pc (s : Session σ) (hrunning : s.machine.status = .running)
    (hop : s.arch.fetch.1.bits 15 12 = 0x0) :
    s.step.2.arch.pc =
      if s.machine.registers.selectedBy (Instruction.upperField s.arch.fetch.1) then
        s.arch.fetch.2.relative (s.arch.fetch.1.signedBits 9)
      else UInt16.ofInt (s.arch.pc.toNat + 1) := by
  have hrow : s.arch.fetch.1.HasRow := by
    unfold Word.HasRow
    omega
  have hafter : s.step.2.arch = s.arch.fetch.2.row s.arch.fetch.1 :=
    s.machine.of_step_of_hasRow s.console hrunning hrow
  have hcondition : s.arch.fetch.2.condition = s.arch.condition := load_condition _ _
  have hselected : s.arch.fetch.2.branches s.arch.fetch.1 =
      s.machine.registers.selectedBy (Instruction.upperField s.arch.fetch.1) := by
    rw [s.machine.selectedBy_of s.console]
    unfold branches
    rw [hcondition]
    rfl
  rw [hafter, row_branch_pc _ hop, hselected]
  rfl

/-- The condition code of a session that began with a new machine is the sign of
the last value of an executed word that sets it; no condition is set before the
first one.  So a branch mask is selected exactly if it selects that sign, and a
branch is taken exactly if its mask is selected. -/
theorem condition_history (console : σ) (actions : List (Action σ)) :
    let reached := (start console).actAll actions
    let last := ((start console).signedValues actions).getLast?
    let selected := reached.machine.registers.selectedBy
    reached.arch.condition = last.map (fun value => Condition.ofInt value.toInt) ∧
      (reached.arch.condition = none ↔
        ∀ moment ∈ (start console).history actions, ∀ w, moment.executed? = some w →
          ¬ w.SetsCondition) ∧
      (∀ mask, selected mask = true ↔ ∃ value, last = some value ∧ mask.Selects value) ∧
      (last = none → ∀ mask, selected mask = false) ∧
      (last ≠ none → ∀ mask, mask ≤ 7 → (selected (7 - mask) = true ↔ selected mask = false)) ∧
      (reached.machine.status = .running → reached.arch.fetch.1.bits 15 12 = 0x0 →
        reached.step.2.arch.pc =
          if selected (Instruction.upperField reached.arch.fetch.1) then
            reached.arch.fetch.2.relative (reached.arch.fetch.1.signedBits 9)
          else UInt16.ofInt (reached.arch.pc.toNat + 1)) := by
  intro reached last selected
  have hcondition : reached.arch.condition =
      last.map fun value => Condition.ofInt value.toInt := by
    rw [show reached.arch.condition = _ from condition_actAll _ _]
    exact Option.or_none
  have hselected : ∀ mask, selected mask = true ↔
      ∃ value, last = some value ∧ mask.Selects value :=
    fun mask => Registers.selectedBy_iff _ mask hcondition
  refine ⟨hcondition, ?_, hselected, ?_, ?_, reached.step_branch_pc⟩
  · rw [hcondition, Option.map_eq_none_iff, List.getLast?_eq_none_iff]
    unfold signedValues
    rw [List.flatMap_eq_nil_iff]
    refine forall₂_congr fun moment _ => ?_
    rw [Option.toList_eq_nil_iff]
    exact moment.signed?_eq_none_iff
  · intro hnone mask
    rw [Bool.eq_false_iff, ne_eq, hselected, hnone]
    simp
  · intro hsome mask hmask
    obtain ⟨value, hlast⟩ := Option.ne_none_iff_exists'.mp hsome
    rw [Bool.eq_false_iff, ne_eq, hselected, hselected, hlast]
    simp [Word.selects_complement mask value hmask]

/-- `LEA R0, #0` at the start address makes a positive value. -/
theorem step_lea (s : Session σ) (hrunning : s.machine.status = .running)
    (hpc : s.arch.pc = 0x3000) (hcell : s.arch.cell 0x3000 = 0xE000) :
    s.step.2.arch = (s.arch.goto 0x3001).define 0 0x3001 ∧
      Moment.signed? ⟨s, .step⟩ = some 0x3001 := by
  have hne : s.arch.pc ≠ 0xFE00 := by
    rw [hpc]
    decide
  have hword : s.arch.cell s.arch.pc = 0xE000 := by rw [hpc, hcell]
  have hstep : s.step.2.arch = (s.arch.goto 0x3001).define 0 0x3001 := by
    rw [(s.step_of_cell hrunning hne hword ⟨by decide, by decide, by decide⟩).2, hpc]
    rfl
  have hexecuted : Moment.executed? ⟨s, .step⟩ = some 0xE000 :=
    (Moment.executed?_eq_some_iff _ _).mpr
      ⟨rfl, hrunning, congrArg Prod.fst (s.fetch_of_cell hne hword)⟩
  refine ⟨hstep, ?_⟩
  unfold Moment.signed?
  rw [hexecuted, Option.bind_some, if_pos (by decide),
    show (Moment.after ⟨s, .step⟩).arch = _ from hstep]
  rfl

/-- `LEA R0, #0`, then `BRp #1`. -/
def signThenBranch : List (Action Buffer) := [.write 0x3000 0xE000, .write 0x3001 0x0201]

/-- The address that was loaded is positive, so the branch is taken. -/
theorem condition_history_signThenBranch :
    let reached := (start (Buffer.ofInput [])).actAll (signThenBranch ++ [.step])
    reached.arch.condition = some .positive ∧
      reached.machine.registers.selectedBy 6 = false ∧ reached.step.2.arch.pc = 0x3003 := by
  have hhistory := condition_history (Buffer.ofInput []) (signThenBranch ++ [.step])
  have hlea : ((start (Buffer.ofInput [])).actAll signThenBranch).arch.cell 0x3000 = 0xE000 :=
    (Memory.peek_write_of_ne _ _ (by decide)).trans (Memory.peek_write_self _ _ _)
  have hbranch : ((start (Buffer.ofInput [])).actAll signThenBranch).arch.cell 0x3001 = 0x0201 :=
    Memory.peek_write_self _ _ _
  have hrunning : ((start (Buffer.ofInput [])).actAll signThenBranch).machine.status = .running :=
    rfl
  have hpc : ((start (Buffer.ofInput [])).actAll signThenBranch).arch.pc = 0x3000 := rfl
  have hnone : (start (Buffer.ofInput [])).signedValues signThenBranch = [] := rfl
  rw [actAll_append, actAll_cons, actAll_nil, act_step, signedValues_append, signedValues_step,
    hnone] at hhistory
  rw [actAll_append, actAll_cons, actAll_nil, act_step]
  -- from here on only the state that the step has left matters
  generalize (start (Buffer.ofInput [])).actAll signThenBranch = before at *
  obtain ⟨hstep, hsigned⟩ := before.step_lea hrunning hpc hlea
  rw [hsigned] at hhistory
  generalize before.step.2 = reached at hhistory hstep ⊢
  obtain ⟨hcondition, -, hselected, -, hcomplement, hpc⟩ := hhistory
  have hpositive : Word.Selects (7 - 6) 0x3001 := Or.inr (Or.inr ⟨by decide, by decide⟩)
  have hone := (hselected (7 - 6)).mpr ⟨0x3001, rfl, hpositive⟩
  have hfetch : reached.arch.fetch = (0x0201, reached.arch.goto 0x3002) := by
    have hpc : reached.arch.pc = 0x3001 := by rw [hstep]; rfl
    have hcell : reached.arch.cell 0x3001 = 0x0201 := by rw [hstep]; exact hbranch
    rw [reached.fetch_of_cell (by rw [hpc]; decide) (by rw [hpc, hcell]), hpc]
    rfl
  have hrunning : reached.machine.status = .running := by
    rw [← reached.arch_status, hstep]
    exact hrunning
  have htaken : reached.machine.registers.selectedBy (Instruction.upperField 0x0201) = true :=
    (hselected _).mpr ⟨0x3001, rfl, Or.inr (Or.inr ⟨by decide, by decide⟩)⟩
  rw [hfetch] at hpc
  have htarget := hpc hrunning (show (0x0201 : Word).bits 15 12 = 0x0 by decide)
  dsimp only at htarget
  rw [if_pos htaken] at htarget
  exact ⟨hcondition, (hcomplement (by simp) 6 (by decide)).mp hone, htarget⟩

end Session

end Lc3
