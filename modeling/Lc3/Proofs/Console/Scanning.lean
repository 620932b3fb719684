import Lc3.Proofs.Console.Attempt

/-!
# The cells of a string

`PUTS` and `PUTSP` read the cells of a string one after the other and write each
before they read the next one.  They stop at the first zero, at a write that fails,
or after one way through all cells.  What they do depends on the cells that they
read and on no others.
-/

namespace Lc3

namespace Dialogue

variable {α β σ : Type} [Console σ]

/-- The attempts make the same calls at the console and end in the same way. -/
def SameAt (console : σ) (a b : Attempt α) : Prop :=
  a.run.hold console = b.run.hold console ∧ a.run.transcript console = b.run.transcript console

theorem SameAt.refl (console : σ) (a : Attempt α) : SameAt console a a := ⟨rfl, rfl⟩

/-- What follows is the same at the console that the first attempt leaves. -/
theorem SameAt.bind {console : σ} {a b : Attempt α} {f g : α → Attempt β}
    (h : SameAt console a b)
    (hnext : ∀ x console', a.run.hold console = (.ok x, console') → SameAt console' (f x) (g x)) :
    SameAt console (a >>= f) (b >>= g) := by
  obtain ⟨hhold, hcalls⟩ := h
  unfold SameAt
  rw [hold_run_bind, hold_run_bind, transcript_run_bind, transcript_run_bind, ← hhold, ← hcalls]
  rcases hheld : a.run.hold console with ⟨cause | x, console'⟩
  · exact ⟨rfl, rfl⟩
  · obtain ⟨hhold', hcalls'⟩ := hnext x console' hheld
    exact ⟨hhold', congrArg _ hcalls'⟩

theorem writeAll_append (first second : List UInt8) :
    writeAll (first ++ second) = (writeAll first >>= fun _ => writeAll second) := by
  induction first with
  | nil => exact (pure_bind () fun _ => writeAll second).symm
  | cons byte rest ih =>
      show (write byte >>= fun _ => writeAll (rest ++ second)) = _
      rw [ih]
      exact (LawfulMonad.bind_assoc (m := Attempt) (write byte) (fun _ => writeAll rest)
        fun _ => writeAll second).symm

end Dialogue

namespace TrapRoutine

open Dialogue

variable {σ : Type} [Console σ]

/-- All addresses from `start` on, which go on from zero after the last one. -/
def circuit (start : Word) : List Word :=
  (List.range 65536).map fun i => start + UInt16.ofNat i

theorem circuit_eq_cons (start : Word) : ∃ rest, circuit start = start :: (start + 1) :: rest := by
  unfold circuit
  rw [show 65536 = 65534 + 1 + 1 from rfl, List.range_succ_eq_map, List.range_succ_eq_map]
  simp

/-- The bytes of the string in the cells at the addresses. -/
def stringIn (chars : Word → List UInt8) (cell : Word → Word) (addrs : List Word) : List UInt8 :=
  ((addrs.map cell).takeWhile (· != 0)).flatMap chars

/-- Those of the addresses whose cells are read to write the string in them. -/
def scan (chars : Word → List UInt8) (cell : Word → Word) : List Word → σ → List Word
  | [], _ => []
  | addr :: rest, console =>
      addr ::
        if cell addr = 0 then []
        else
          match (writeAll (chars (cell addr))).run.hold console with
          | (.ok _, console') => scan chars cell rest console'
          | (.error _, _) => []

theorem scan_of_zero (chars : Word → List UInt8) {cell : Word → Word} {addr : Word}
    (h : cell addr = 0) (rest : List Word) (console : σ) :
    scan chars cell (addr :: rest) console = [addr] := by
  rw [scan, if_pos h]

theorem scan_of_ok {chars : Word → List UInt8} {cell : Word → Word} {addr : Word}
    (h : cell addr ≠ 0) (rest : List Word) {console console' : σ}
    (hheld : (writeAll (chars (cell addr))).run.hold console = (.ok (), console')) :
    scan chars cell (addr :: rest) console = addr :: scan chars cell rest console' := by
  rw [scan, if_neg h, hheld]

/-- A string is written in the same way if the cells that are read are the same. -/
theorem writeAll_scan (chars : Word → List UInt8) {cell other : Word → Word} (addrs : List Word)
    (console : σ) (h : ∀ addr ∈ scan chars cell addrs console, other addr = cell addr) :
    SameAt console (writeAll (stringIn chars cell addrs)) (writeAll (stringIn chars other addrs)) := by
  induction addrs generalizing console with
  | nil => exact SameAt.refl console _
  | cons addr rest ih =>
      unfold scan at h
      obtain ⟨hfirst, hrest⟩ := List.forall_mem_cons.mp h
      unfold stringIn at ih ⊢
      rw [List.map_cons, List.map_cons, List.takeWhile_cons, List.takeWhile_cons, hfirst]
      by_cases hzero : cell addr = 0
      · simp only [hzero, bne_self_eq_false]
        exact SameAt.refl console _
      · rw [if_neg hzero] at hrest
        simp only [bne_iff_ne, ne_eq, hzero, not_false_eq_true, if_true, List.flatMap_cons,
          writeAll_append]
        refine (SameAt.refl console _).bind fun x console' hheld => ih console' ?_
        rw [hheld] at hrest
        exact hrest

/-- The addresses whose cells the routine reads. -/
def scanned (routine : TrapRoutine) (r0 : Word) (cell : Word → Word) (console : σ) : List Word :=
  match routine with
  | puts => scan (fun word => [word.lowByte]) cell (circuit r0) console
  | putsp => scan packedBytes cell (circuit r0) console
  | getc | out | input | halt => []

theorem scanned_puts (r0 : Word) (cell : Word → Word) (console : σ) :
    scanned .puts r0 cell console = scan (fun word => [word.lowByte]) cell (circuit r0) console :=
  rfl

theorem stringAt_flatMap (mem : Memory) (start : Word) (chars : Word → List UInt8) :
    (mem.stringAt start).flatMap chars = stringIn chars mem.peek (circuit start) := by
  unfold stringIn circuit
  rw [Memory.stringAt_eq_takeWhile, List.map_map]
  rfl

/-- A trap routine does the same in two memories that agree on the cells it reads. -/
theorem serve_scanned (routine : TrapRoutine) (r0 : Word) {mem other : Memory} (console : σ)
    (h : ∀ addr ∈ routine.scanned r0 mem.peek console, other.peek addr = mem.peek addr) :
    SameAt console (routine.serve r0 mem) (routine.serve r0 other) := by
  have hstring : ∀ chars : Word → List UInt8,
      (∀ addr ∈ scan chars mem.peek (circuit r0) console, other.peek addr = mem.peek addr) →
        SameAt console
          (print ((mem.stringAt r0).flatMap chars) >>= fun _ => pure ServiceEffect.none)
          (print ((other.stringAt r0).flatMap chars) >>= fun _ => pure ServiceEffect.none) := by
    intro chars hcells
    rw [stringAt_flatMap, stringAt_flatMap]
    have hwrites := writeAll_scan chars (circuit r0) console hcells
    have hprint := hwrites.bind (f := fun _ => send) (g := fun _ => send)
      fun _ console' _ => SameAt.refl console' _
    exact hprint.bind fun _ console' _ => SameAt.refl console' _
  cases routine with
  | puts =>
      unfold serve
      rw [List.map_eq_flatMap, List.map_eq_flatMap]
      exact hstring _ h
  | putsp => exact hstring _ h
  | getc | out | input | halt => exact SameAt.refl console _

end TrapRoutine

end Lc3
