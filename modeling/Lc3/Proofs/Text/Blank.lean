import Lc3.Text.Blank
import Mathlib.Data.List.DropRight

/-!
# Blanks around a text

Every text is, in one way only, a text that neither begins nor ends with a blank, with
blanks around it.  Trimming finds the text between the blanks.
-/

namespace Lc3.Text

/-- The text is `inner` with blanks around it, and `inner` neither begins nor ends with
a blank. -/
def StripsTo (text inner : List Char) : Prop :=
  ∃ before after, text = before ++ inner ++ after ∧
    (∀ c ∈ before, isBlank c = true) ∧ (∀ c ∈ after, isBlank c = true) ∧
    (∀ c, inner.head? = some c → isBlank c = false) ∧
    ∀ c, inner.getLast? = some c → isBlank c = false

theorem trimBlanks_eq (text : List Char) :
    trimBlanks text = (text.dropWhile isBlank).rdropWhile isBlank := rfl

theorem stripsTo_trimBlanks (text : List Char) : StripsTo text (trimBlanks text) := by
  rw [trimBlanks_eq]
  refine ⟨text.takeWhile isBlank, (text.dropWhile isBlank).rtakeWhile isBlank, ?_,
    fun c => List.mem_takeWhile_imp, fun c => List.mem_rtakeWhile_imp, ?_, ?_⟩
  · rw [List.append_assoc, List.rdropWhile_append_rtakeWhile, List.takeWhile_append_dropWhile]
  · intro c hc
    -- trimming the end keeps the first character
    have hfirst : (text.dropWhile isBlank).head? = some c := by
      rw [← List.rdropWhile_append_rtakeWhile (p := isBlank) (l := text.dropWhile isBlank),
        List.head?_append, hc, Option.some_or]
    have hnot := List.head?_dropWhile_not isBlank text
    rw [hfirst] at hnot
    exact hnot
  · intro c hc
    have hne : (text.dropWhile isBlank).rdropWhile isBlank ≠ [] := by
      intro h
      simp [h] at hc
    have hnot := List.rdropWhile_last_not isBlank (text.dropWhile isBlank) hne
    rw [List.getLast?_eq_some_getLast hne, Option.some.injEq] at hc
    simpa [hc] using hnot

theorem trimBlanks_eq_of_stripsTo {text inner : List Char} (h : StripsTo text inner) :
    trimBlanks text = inner := by
  obtain ⟨before, after, rfl, hbefore, hafter, hfirst, hlast⟩ := h
  rw [trimBlanks_eq, List.append_assoc, List.dropWhile_append_of_pos hbefore]
  cases inner with
  | nil =>
      have hnone : after.dropWhile isBlank = [] := List.dropWhile_eq_nil_iff.mpr hafter
      rw [List.nil_append, hnone, List.rdropWhile_nil]
  | cons c rest =>
      have hc : ¬ isBlank c = true := by simp [hfirst c rfl]
      rw [List.cons_append, List.dropWhile_cons_of_neg hc, ← List.cons_append]
      have hafter' : ∀ d ∈ after.reverse, isBlank d = true := by simpa using hafter
      have hself : (c :: rest).rdropWhile isBlank = c :: rest := by
        rw [List.rdropWhile_eq_self_iff]
        intro hne
        simp [hlast _ (List.getLast?_eq_some_getLast hne)]
      rw [List.rdropWhile, List.reverse_append, List.dropWhile_append_of_pos hafter']
      exact hself

theorem stripsTo_iff (text inner : List Char) : StripsTo text inner ↔ trimBlanks text = inner := by
  constructor
  · exact trimBlanks_eq_of_stripsTo
  · rintro rfl
    exact stripsTo_trimBlanks text

end Lc3.Text
