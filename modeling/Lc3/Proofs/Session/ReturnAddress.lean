import Lc3.Proofs.Session.Conditions
import Lc3.Proofs.Session.Footprint

/-!
# Return addresses

A subroutine call keeps the address after it in R7.  Trap routines do not link
through R7, so what it holds is changed only by another call or by an operation that
has R7 as its destination.  Hence a return address is safe until one of these is
executed, whatever else is.
-/

namespace Lc3

namespace Word

/-- The word is a subroutine call: `JSR` or `JSRR`. -/
def Calls (w : Word) : Prop := w.bits 15 12 = 0x4

instance (w : Word) : Decidable w.Calls := inferInstanceAs (Decidable (w.bits 15 12 = 0x4))

/-- The operation gives the register a value: it is the destination of an operation that
sets the condition, or the link register of a subroutine call. -/
def Assigns (w : Word) (r : Fin 8) : Prop :=
  (w.SetsCondition ∧ w.registerAt 9 = r) ∨ (w.Calls ∧ r = ArchState.r7)

instance (w : Word) (r : Fin 8) : Decidable (w.Assigns r) :=
  inferInstanceAs
    (Decidable ((w.SetsCondition ∧ w.registerAt 9 = r) ∨ (w.Calls ∧ r = ArchState.r7)))

/-- The word is `RET`, the jump through R7. -/
def Returns (w : Word) : Prop := w.bits 15 12 = 0xC ∧ w.registerAt 6 = ArchState.r7

instance (w : Word) : Decidable w.Returns :=
  inferInstanceAs (Decidable (w.bits 15 12 = 0xC ∧ w.registerAt 6 = ArchState.r7))

theorem Calls.hasRow {w : Word} (h : w.Calls) : w.HasRow := by
  unfold Calls at h
  unfold HasRow
  omega

theorem Returns.hasRow {w : Word} (h : w.Returns) : w.HasRow := by
  have hop := h.1
  unfold HasRow
  omega

end Word

namespace ArchState

variable {σ : Type}

@[simp] theorem link_register (s : ArchState σ) (target : Word) :
    (s.link target).register 7 = s.pc := by
  show Function.update s.register 7 s.pc 7 = s.pc
  exact Function.update_self _ _ _

@[simp] theorem link_cell (s : ArchState σ) (target : Word) : (s.link target).cell = s.cell := rfl

variable [Console σ]

/-- A row gives no other register a value than its word assigns. -/
theorem row_register_of_not_assigns (s : ArchState σ) {w : Word} {r : Fin 8}
    (h : ¬ w.Assigns r) : (s.row w).register r = s.register r := by
  have hdefine : ∀ (t : ArchState σ) (value : Word), t.register = s.register →
      w.SetsCondition → (t.define (w.registerAt 9) value).register r = s.register r := by
    intro t value ht hsets
    have hne : r ≠ w.registerAt 9 := fun heq => h (Or.inl ⟨hsets, heq.symm⟩)
    show Function.update t.register _ value r = _
    rw [Function.update_of_ne hne, ht]
  have hnibble := Opcode.nibble_ofWord w
  have hsets : (Opcode.ofWord w).nibble.toNat ∈ [0x1, 0x5, 0x9, 0x2, 0xA, 0x6, 0xE] →
      w.SetsCondition := by
    rw [hnibble]
    exact id
  unfold row
  cases hop : Opcode.ofWord w <;> rw [hop] at hnibble hsets <;> rw [← hnibble]
  case add | and | not | lea => exact hdefine s _ rfl (hsets (by decide))
  case ld | ldr => exact hdefine _ _ (load_register s _) (hsets (by decide))
  case ldi => exact hdefine _ _ (by simp) (hsets (by decide))
  case jsr =>
    have hne : r ≠ 7 := fun heq => h (Or.inr ⟨hnibble.symm, heq⟩)
    exact Function.update_of_ne hne _ _
  case br =>
    show (if s.branches w then s.goto _ else s).register r = s.register r
    split <;> rfl
  case sti => exact congrFun (load_register s _) r
  all_goals rfl

/-- The row of a call links through R7, also if R7 is its base. -/
theorem row_of_calls (s : ArchState σ) {w : Word} (h : w.Calls) :
    s.row w =
      s.link (if w.bits 11 11 = 1 then s.relative (w.signedBits 11)
        else s.register (w.registerAt 6)) := by
  unfold row
  rw [show w.bits 15 12 = 0x4 from h]
  rfl

theorem row_of_returns (s : ArchState σ) {w : Word} (h : w.Returns) :
    s.row w = s.goto (s.register 7) := by
  unfold row
  rw [h.1, h.2]
  rfl

end ArchState

namespace Session

open ArchState

variable {σ : Type} [Console σ]

theorem fetched_register (s : Session σ) : s.arch.fetch.2.register = s.arch.register :=
  load_register _ _

/-- A trap routine gives no register but R0 a value. -/
theorem step_register (s : Session σ) (hrunning : s.machine.status = .running) {r : Fin 8}
    (hr : r ≠ 0) (h : ¬ s.arch.fetch.1.Assigns r) :
    s.step.2.arch.register r = s.arch.register r := by
  rw [← s.fetched_register, s.step_arch]
  cases s.machine.step_cases s.console hrunning with
  | row hword hcalls hresult hafter =>
      rw [hafter]
      exact s.arch.fetch.2.row_register_of_not_assigns h
  | refused fault hword hcalls hresult hfault hafter =>
      rw [hafter]
      rfl
  | served routine effect console' hword hcalls hserved hresult hafter =>
      rw [hafter]
      cases effect with
      | none | halt => rfl
      | key byte => exact Function.update_of_ne hr _ _
  | failed routine cause console' hword hcalls hserved hresult hafter =>
      rw [hafter]
      rfl

end Session

namespace Moment

variable {σ : Type} [Console σ]

theorem after_step (s : Session σ) : after ⟨s, .step⟩ = s.step.2 := rfl

/-- An action leaves a register alone that its executed word does not assign. -/
theorem register_after (moment : Moment σ) {r : Fin 8} (hr : r ≠ 0)
    (h : ∀ w, moment.executed? = some w → ¬ w.Assigns r) :
    moment.after.arch.register r = moment.session.arch.register r := by
  rcases moment with ⟨s, action⟩
  cases action with
  | load stream =>
      show (s.load stream).2.arch.register r = s.arch.register r
      rw [Session.load_eq]
      cases stream.verdict <;> rfl
  | loadImage _ | write _ _ | adjust _ => rfl
  | step =>
      show s.step.2.arch.register r = s.arch.register r
      cases hstatus : s.machine.status with
      | halted => rw [s.step_of_halted hstatus]
      | running =>
          exact s.step_register hstatus hr
            (h _ ((executed?_eq_some_iff _ _).mpr ⟨rfl, hstatus, rfl⟩))

end Moment

namespace Session

open ArchState

variable {σ : Type} [Console σ]

/-- A register keeps its value throughout a history whose executed words do not assign it. -/
theorem register_history (s : Session σ) (actions : List (Action σ)) {r : Fin 8} (hr : r ≠ 0)
    (h : ∀ moment ∈ s.history actions, ∀ w, moment.executed? = some w → ¬ w.Assigns r) :
    (∀ moment ∈ s.history actions, moment.session.arch.register r = s.arch.register r ∧
        moment.after.arch.register r = s.arch.register r) ∧
      (s.actAll actions).arch.register r = s.arch.register r := by
  induction actions generalizing s with
  | nil => exact ⟨fun moment hmem => absurd hmem List.not_mem_nil, rfl⟩
  | cons action rest ih =>
      rw [history_cons] at h ⊢
      obtain ⟨hfirst, hrest⟩ := List.forall_mem_cons.mp h
      have hafter : (s.act action).arch.register r = s.arch.register r :=
        Moment.register_after ⟨s, action⟩ hr hfirst
      obtain ⟨hmoments, hlast⟩ := ih (s.act action) hrest
      rw [hafter] at hmoments hlast
      exact ⟨List.forall_mem_cons.mpr ⟨⟨rfl, hafter⟩, hmoments⟩, hlast⟩

/-- A call links and jumps, both by what it has found in the registers. -/
theorem step_of_calls (s : Session σ) (hrunning : s.machine.status = .running)
    (hcalls : s.arch.fetch.1.Calls) :
    s.step.1 = .ok .running ∧
      s.step.2.arch.register 7 = UInt16.ofInt (s.arch.pc.toNat + 1) ∧
      s.step.2.arch.pc =
        if s.arch.fetch.1.bits 11 11 = 1 then
          UInt16.ofInt (s.arch.pc.toNat + 1 + s.arch.fetch.1.signedBits 11)
        else s.arch.register (s.arch.fetch.1.registerAt 6) := by
  obtain ⟨-, hresult, hafter⟩ := s.machine.step_of_hasRow s.console hrunning hcalls.hasRow
  have harch : s.step.2.arch = s.arch.fetch.2.row s.arch.fetch.1 := hafter
  rw [harch, row_of_calls _ hcalls, link_register]
  refine ⟨hresult, rfl, ?_⟩
  have hnear : s.arch.fetch.2.relative (s.arch.fetch.1.signedBits 11) =
      UInt16.ofInt (s.arch.pc.toNat + 1 + s.arch.fetch.1.signedBits 11) := by
    show UInt16.ofInt ((UInt16.ofInt (s.arch.pc.toNat + 1)).toNat + _) = _
    rw [UInt16.ofInt_add, Word.ofInt_toNat, ← UInt16.ofInt_add]
  rw [hnear, s.fetched_register]
  rfl

/-- `RET` continues at the address in R7. -/
theorem step_of_returns (s : Session σ) (hrunning : s.machine.status = .running)
    (hreturns : s.arch.fetch.1.Returns) : s.step.2.arch.pc = s.arch.register 7 := by
  have harch : s.step.2.arch = s.arch.fetch.2.row s.arch.fetch.1 :=
    s.machine.of_step_of_hasRow s.console hrunning hreturns.hasRow
  rw [harch, row_of_returns _ hreturns, ← s.fetched_register]
  rfl

/-- Return addresses are safe.  A call keeps the address after it in R7 and jumps to the
target that the registers before it give, also if its base is R7.  In every history after
that in which no word is executed that assigns R7, this is what R7 holds before and after
each action, whichever trap routines, stores, branches, jumps and polls are executed and
whether or not they fail.  So every `RET` continues there. -/
theorem return_address_kept (s : Session σ) (hrunning : s.machine.status = .running)
    (hcalls : s.arch.fetch.1.Calls) :
    let called := s.step.2
    let back : Word := UInt16.ofInt (s.arch.pc.toNat + 1)
    s.step.1 = .ok .running ∧ called.arch.register 7 = back ∧
      called.arch.pc =
        (if s.arch.fetch.1.bits 11 11 = 1 then
          UInt16.ofInt (s.arch.pc.toNat + 1 + s.arch.fetch.1.signedBits 11)
        else s.arch.register (s.arch.fetch.1.registerAt 6)) ∧
      ∀ actions : List (Action σ),
        (∀ moment ∈ called.history actions, ∀ w, moment.executed? = some w → ¬ w.Assigns 7) →
        (called.actAll actions).arch.register 7 = back ∧
          ∀ moment ∈ called.history actions,
            moment.session.arch.register 7 = back ∧ moment.after.arch.register 7 = back ∧
              ∀ w, moment.executed? = some w → w.Returns → moment.after.arch.pc = back := by
  intro called back
  obtain ⟨hresult, hlink, htarget⟩ := s.step_of_calls hrunning hcalls
  refine ⟨hresult, hlink, htarget, fun actions hkept => ?_⟩
  obtain ⟨hmoments, hlast⟩ := called.register_history actions (by decide) hkept
  rw [show called.arch.register 7 = back from hlink] at hmoments hlast
  refine ⟨hlast, fun moment hmem => ?_⟩
  obtain ⟨hbefore, hafter⟩ := hmoments moment hmem
  refine ⟨hbefore, hafter, fun w hexecuted hreturns => ?_⟩
  obtain ⟨haction, hstatus, hword⟩ := (moment.executed?_eq_some_iff w).mp hexecuted
  rcases moment with ⟨reached, action⟩
  dsimp only at haction hstatus hword hbefore
  rw [haction, Moment.after_step, reached.step_of_returns hstatus (hword ▸ hreturns), hbefore]

/-- `JSRR R7` to a subroutine that is `RET` alone. -/
def linkThroughBase : Session Buffer where
  machine := ((Machine.holding 0x41C0).write 0x4000 0xC1C0).set 7 0x4000
  console := .ofInput []
  log := none

/-- The step after such a call executes the `RET`. -/
theorem executed_after_jsrr (s : Session Buffer) (hrunning : s.machine.status = .running)
    (hpc : s.arch.pc = 0x3000) (hbase : s.arch.register 7 = 0x4000)
    (hcall : s.arch.cell 0x3000 = 0x41C0) (hret : s.arch.cell 0x4000 = 0xC1C0) :
    s.arch.fetch.1 = 0x41C0 ∧ s.step.2.arch.pc = 0x4000 ∧
      Moment.executed? ⟨s.step.2, .step⟩ = some 0xC1C0 := by
  have hfetch := s.fetch_at_start hpc hcall
  have hword : s.arch.fetch.1 = 0x41C0 := congrArg Prod.fst hfetch
  have hcalls : s.arch.fetch.1.Calls := by
    rw [hword]
    decide
  obtain ⟨hresult, -, htarget⟩ := s.step_of_calls hrunning hcalls
  have hcells : s.step.2.arch.cell = s.arch.cell := by
    have hrow : s.step.2.arch = s.arch.fetch.2.row s.arch.fetch.1 :=
      s.machine.of_step_of_hasRow s.console hrunning hcalls.hasRow
    rw [hrow, row_of_calls _ hcalls, link_cell, hfetch]
    rfl
  have hpc' : s.step.2.arch.pc = 0x4000 := by
    have hfield : (0x41C0 : Word).registerAt 6 = 7 := by decide
    rw [htarget, hword, if_neg (by decide), hfield, hbase]
  refine ⟨hword, hpc', ?_⟩
  have hcell : s.step.2.arch.cell s.step.2.arch.pc = 0xC1C0 := by rw [hpc', hcells, hret]
  have hfetch' := s.step.2.fetch_of_cell (by rw [hpc']; decide) hcell
  exact (Moment.executed?_eq_some_iff _ _).mpr
    ⟨rfl, (running_of_step hresult).2, congrArg Prod.fst hfetch'⟩

/-- The call jumps to the old value of R7, and the subroutine returns to the new one. -/
theorem return_address_kept_linkThroughBase :
    let called := linkThroughBase.step.2
    called.arch.pc = 0x4000 ∧ called.arch.register 7 = 0x3001 ∧
      called.step.2.arch.pc = 0x3001 := by
  dsimp only
  have hcall : linkThroughBase.arch.cell 0x3000 = 0x41C0 :=
    (Memory.peek_write_of_ne _ _ (by decide)).trans (Memory.peek_write_self _ _ _)
  obtain ⟨hword, htarget, hexecuted⟩ := linkThroughBase.executed_after_jsrr rfl rfl rfl hcall
    (Memory.peek_write_self _ _ _)
  have hcalls : linkThroughBase.arch.fetch.1.Calls := by
    rw [hword]
    decide
  obtain ⟨-, hlink, -, hkept⟩ := return_address_kept linkThroughBase rfl hcalls
  have hback : UInt16.ofInt ((0x3000 : Word).toNat + 1) = 0x3001 := by decide
  rw [show linkThroughBase.arch.pc = 0x3000 from rfl, hback] at hlink hkept
  have hassigns : ∀ moment ∈ linkThroughBase.step.2.history [.step], ∀ w,
      moment.executed? = some w → ¬ w.Assigns 7 := by
    intro moment hmem w hw
    obtain rfl := List.mem_singleton.mp hmem
    obtain rfl := Option.some.inj (hexecuted.symm.trans hw)
    decide
  obtain ⟨-, hmoments⟩ := hkept [.step] hassigns
  obtain ⟨-, -, hreturn⟩ := hmoments ⟨linkThroughBase.step.2, .step⟩ (List.mem_singleton_self _)
  rw [Moment.after_step] at hreturn
  exact ⟨htarget, hlink, hreturn _ hexecuted (by decide)⟩

end Session

end Lc3
