import Lc3.Proofs.Machine.StepCases
import Lc3.Proofs.Session.Loading
import Lc3.Proofs.Session.Run

/-!
# Histories of a session

A host loads images, stores values, feeds the console and makes steps.  The
history of a session keeps every action with the session that it was applied to,
so that what the actions have done can be told from the history alone.
-/

namespace Lc3

/-- One action of a host that leaves the registers to the program. -/
inductive Action (σ : Type)
  | load (stream : ByteStream)
  | loadImage (image : Image)
  /-- Store a value in a cell. -/
  | write (addr value : Word)
  /-- Change the console other than by the machine's calls. -/
  | adjust (change : σ → σ)
  | step

namespace Session

variable {σ : Type}

/-- The architectural state of the machine at its console. -/
def arch (s : Session σ) : ArchState σ := .of s.machine s.console

@[simp] theorem arch_status (s : Session σ) : s.arch.status = s.machine.status := rfl

variable [Console σ]

/-- Apply one action. -/
def act (s : Session σ) : Action σ → Session σ
  | .load stream => (s.load stream).2
  | .loadImage image => s.loadImage image
  | .write addr value => { s with machine := s.machine.write addr value }
  | .adjust change => { s with console := change s.console }
  | .step => s.step.2

/-- Apply actions in order. -/
def actAll (s : Session σ) (actions : List (Action σ)) : Session σ := actions.foldl act s

end Session

/-- An action with the session that it is applied to. -/
structure Moment (σ : Type) where
  session : Session σ
  action : Action σ

namespace Moment

variable {σ : Type} [Console σ]

/-- The session after the action. -/
def after (moment : Moment σ) : Session σ := moment.session.act moment.action

/-- The word that is executed, if the action is a step of a running machine. -/
def executed? (moment : Moment σ) : Option Word :=
  match moment.action, moment.session.machine.status with
  | .step, .running => some moment.session.arch.fetch.1
  | _, _ => none

theorem executed?_eq_some_iff (moment : Moment σ) (w : Word) :
    moment.executed? = some w ↔
      moment.action = .step ∧ moment.session.machine.status = .running ∧
        moment.session.arch.fetch.1 = w := by
  rcases moment with ⟨s, action⟩
  unfold executed?
  cases action <;> cases s.machine.status <;> simp

end Moment

namespace Session

variable {σ : Type} [Console σ]

/-- Outside the keyboard's status cell the fetched word is what the cell holds. -/
theorem fetch_of_cell (s : Session σ) {w : Word} (hpc : s.arch.pc ≠ 0xFE00)
    (hcell : s.arch.cell s.arch.pc = w) :
    s.arch.fetch = (w, s.arch.goto (UInt16.ofInt (s.arch.pc.toNat + 1))) := by
  unfold ArchState.fetch
  rw [ArchState.load_of_ne _ hpc, hcell]

theorem fetch_at_start (s : Session σ) {w : Word} (hpc : s.arch.pc = 0x3000)
    (hcell : s.arch.cell 0x3000 = w) : s.arch.fetch = (w, s.arch.goto 0x3001) := by
  have hne : s.arch.pc ≠ 0xFE00 := by
    rw [hpc]
    decide
  rw [s.fetch_of_cell hne (by rw [hpc, hcell]), hpc]
  rfl

/-- A step at a word of the table that is held outside the status cell. -/
theorem step_of_cell (s : Session σ) {w : Word} (hrunning : s.machine.status = .running)
    (hpc : s.arch.pc ≠ 0xFE00) (hcell : s.arch.cell s.arch.pc = w) (hrow : w.HasRow) :
    s.step.1 = .ok .running ∧
      s.step.2.arch = (s.arch.goto (UInt16.ofInt (s.arch.pc.toNat + 1))).row w := by
  have hfetch := s.fetch_of_cell hpc hcell
  have hfetched : s.arch.fetch.1.HasRow := by
    rw [hfetch]
    exact hrow
  have hafter := s.machine.of_step_of_hasRow s.console hrunning hfetched
  rw [show ArchState.of s.machine s.console = s.arch from rfl, hfetch] at hafter
  exact ⟨s.machine.step_result_of_hasRow s.console hrunning hfetched, hafter⟩

/-- Each action with the session that it is applied to, in order. -/
def history (s : Session σ) : List (Action σ) → List (Moment σ)
  | [] => []
  | action :: rest => ⟨s, action⟩ :: (s.act action).history rest

theorem act_step (s : Session σ) : s.act .step = s.step.2 := rfl

theorem actAll_nil (s : Session σ) : s.actAll [] = s := rfl

theorem actAll_cons (s : Session σ) (action : Action σ) (rest : List (Action σ)) :
    s.actAll (action :: rest) = (s.act action).actAll rest := rfl

theorem history_cons (s : Session σ) (action : Action σ) (rest : List (Action σ)) :
    s.history (action :: rest) = ⟨s, action⟩ :: (s.act action).history rest := rfl

theorem actAll_append (s : Session σ) (first second : List (Action σ)) :
    s.actAll (first ++ second) = (s.actAll first).actAll second := List.foldl_append

theorem history_append (s : Session σ) (first second : List (Action σ)) :
    s.history (first ++ second) = s.history first ++ (s.actAll first).history second := by
  induction first generalizing s with
  | nil => rfl
  | cons action rest ih =>
      rw [List.cons_append, history_cons, history_cons, ih, actAll_cons]
      rfl

/-- What comes after a moment is the history from the session that it has left. -/
theorem exists_rest_of_history_eq {s : Session σ} {actions : List (Action σ)}
    {before later : List (Moment σ)} {moment : Moment σ}
    (h : s.history actions = before ++ moment :: later) :
    ∃ rest, later = moment.after.history rest ∧ s.actAll actions = moment.after.actAll rest := by
  induction actions generalizing s before with
  | nil => simp [history] at h
  | cons action rest ih =>
      rw [history_cons] at h
      cases before with
      | nil =>
          obtain ⟨rfl, rfl⟩ := List.cons_eq_cons.mp h
          exact ⟨rest, rfl, rfl⟩
      | cons first before =>
          obtain ⟨-, hrest⟩ := List.cons_eq_cons.mp h
          exact ih hrest

/-- A quantity that each action changes by a contribution of its own is changed
by a history through the contributions of all its moments, in order. -/
theorem history_induction {α : Type} (relates : Session σ → List α → Session σ → Prop)
    (contribution : Moment σ → List α)
    (hrefl : ∀ s, relates s [] s)
    (hcons : ∀ s t u first rest, relates s first t → relates t rest u →
      relates s (first ++ rest) u)
    (hact : ∀ moment, relates moment.session (contribution moment) moment.after)
    (s : Session σ) (actions : List (Action σ)) :
    relates s ((s.history actions).flatMap contribution) (s.actAll actions) := by
  induction actions generalizing s with
  | nil => exact hrefl s
  | cons action rest ih =>
      rw [history_cons, List.flatMap_cons, actAll_cons]
      exact hcons _ _ _ _ _ (hact ⟨s, action⟩) (ih (s.act action))

end Session

end Lc3
