import Lc3.Launch.Expansion
import Mathlib.Data.List.Forall2
import Mathlib.Data.Set.List

/-!
# Expansion of arguments, from left to right

Which paths a list of arguments stands for, and which argument decides the error if
they stand for none.  Every argument is judged by itself: neither what the arguments
before it have given nor what the ones behind it would give has an influence.
-/

namespace Lc3.Launch

section InTurn

variable {α β ε : Type}

/-- A function that is applied in turn gives results if it gives one for each element. -/
theorem mapM_eq_ok_iff (f : α → Except ε β) (xs : List α) (ys : List β) :
    xs.mapM f = .ok ys ↔ List.Forall₂ (fun x y => f x = .ok y) xs ys := by
  induction xs generalizing ys with
  | nil => simp [pure, Except.pure, eq_comm]
  | cons x xs ih =>
      rw [List.mapM_cons, List.forall₂_cons_left_iff]
      simp only [← ih]
      cases f x with
      | error error => simp [bind, Except.bind]
      | ok y => cases xs.mapM f <;> simp [bind, Except.bind, pure, Except.pure, eq_comm]

/-- Its first failure decides the error. -/
theorem mapM_eq_error_iff (f : α → Except ε β) (xs : List α) (error : ε) :
    xs.mapM f = .error error ↔
      ∃ before ys x later, xs = before ++ x :: later ∧
        List.Forall₂ (fun x y => f x = .ok y) before ys ∧ f x = .error error := by
  induction xs with
  | nil => simp [pure, Except.pure]
  | cons x xs ih =>
      rw [List.mapM_cons]
      constructor
      · intro h
        cases hx : f x with
        | error cause =>
            rw [hx] at h
            cases h
            exact ⟨[], [], x, xs, rfl, .nil, hx⟩
        | ok y =>
            cases hxs : xs.mapM f with
            | ok ys =>
                rw [hx, hxs] at h
                cases h
            | error cause =>
                rw [hx, hxs] at h
                cases h
                obtain ⟨before, ys, other, later, rfl, hbefore, hother⟩ := ih.mp hxs
                exact ⟨x :: before, y :: ys, other, later, rfl, .cons hx hbefore, hother⟩
      · rintro ⟨before, ys, other, later, hsplit, hbefore, hother⟩
        cases hbefore with
        | nil =>
            obtain ⟨rfl, rfl⟩ := List.cons_eq_cons.mp hsplit
            rw [hother]
            rfl
        | cons hx hbefore =>
            obtain ⟨rfl, rfl⟩ := List.cons_eq_cons.mp hsplit
            rw [hx, ih.mpr ⟨_, _, other, later, rfl, hbefore, hother⟩]
            rfl

/-- All elements have something that they are related to exactly if each has. -/
theorem exists_forall₂_iff (R : α → β → Prop) (xs : List α) :
    (∃ ys, List.Forall₂ R xs ys) ↔ ∀ x ∈ xs, ∃ y, R x y := by
  induction xs with
  | nil => exact iff_of_true ⟨[], .nil⟩ (List.forall_mem_nil _)
  | cons x xs ih =>
      rw [List.forall_mem_cons, ← ih]
      constructor
      · rintro ⟨ys, h⟩
        obtain ⟨y, others, hx, hothers, -⟩ := List.forall₂_cons_left_iff.mp h
        exact ⟨⟨y, hx⟩, others, hothers⟩
      · rintro ⟨⟨y, hx⟩, others, hothers⟩
        exact ⟨y :: others, .cons hx hothers⟩

end InTurn

/-- The argument has a wildcard. -/
def HasWildcard (argument : String) : Prop :=
  '*' ∈ argument.toList ∨ '?' ∈ argument.toList ∨ '[' ∈ argument.toList

theorem isPattern_iff (argument : String) : isPattern argument = true ↔ HasWildcard argument := by
  simp [isPattern, HasWildcard, and_or_left, exists_or, or_assoc]

theorem isPattern_eq_false_iff (argument : String) :
    isPattern argument = false ↔ ¬ HasWildcard argument := by
  rw [← isPattern_iff, Bool.not_eq_true]

/-- The argument stands for these paths: for itself if it has no wildcard, and else for
the matches of the glob, in the glob's order.  A glob stands for nothing if one of its
matches cannot be read. -/
inductive StandsFor (globbed : Matches) (argument : String) : List String → Prop
  | itself (h : ¬ HasWildcard argument) : StandsFor globbed argument [argument]
  | matched {paths : List String} (h : HasWildcard argument)
      (hglobbed : globbed argument = .ok (paths.map .ok)) (hpaths : paths ≠ []) :
      StandsFor globbed argument paths

/-- Why an argument stands for nothing: it is no glob, one of its matches is the first that
cannot be read, or it has no matches. -/
inductive Refused (globbed : Matches) (argument : String) : LoadError → Prop
  | invalid {cause : Glob.PatternError} (h : HasWildcard argument)
      (hglobbed : globbed argument = .error cause) :
      Refused globbed argument (.invalidPattern argument cause)
  | unreadable {before : List String} {entry : Glob.Unreadable}
      {later : List (Except Glob.Unreadable String)} (h : HasWildcard argument)
      (hglobbed : globbed argument = .ok (before.map .ok ++ .error entry :: later)) :
      Refused globbed argument (.unopened entry.path entry.cause)
  | unmatched (h : HasWildcard argument) (hglobbed : globbed argument = .ok []) :
      Refused globbed argument (.noMatch argument)

section Matches

theorem pathOfMatch_eq_ok_iff (entry : Except Glob.Unreadable String) (path : String) :
    pathOfMatch entry = .ok path ↔ entry = .ok path := by
  cases entry <;> simp [pathOfMatch]

/-- Matches that can all be read. -/
theorem forall₂_pathOfMatch_iff {found : List (Except Glob.Unreadable String)}
    {paths : List String} :
    List.Forall₂ (fun entry path => pathOfMatch entry = .ok path) found paths ↔
      found = paths.map .ok := by
  simp only [pathOfMatch_eq_ok_iff]
  rw [← List.forall₂_eq_eq_eq, List.forall₂_map_right_iff]

/-- Matches can each be read exactly if they are the matches of some paths. -/
theorem forall_readable_iff {found : List (Except Glob.Unreadable String)} :
    (∀ entry ∈ found, ∃ path, entry = .ok path) ↔ ∃ paths : List String, found = paths.map .ok := by
  let readable : String → Except Glob.Unreadable String := .ok
  have hrange := Set.ext_iff.mp (Set.range_list_map readable) found
  simpa [readable, eq_comm] using hrange.symm

end Matches

section Argument

variable {globbed : Matches} {argument : String}

theorem expandArgument_of_wildcard (h : HasWildcard argument) :
    expandArgument globbed argument =
      match globbed argument with
      | .error cause => .error (.invalidPattern argument cause)
      | .ok [] => .error (.noMatch argument)
      | .ok found => found.mapM pathOfMatch :=
  if_pos ((isPattern_iff argument).mpr h)

theorem expandArgument_of_path (h : ¬ HasWildcard argument) :
    expandArgument globbed argument = .ok [argument] :=
  if_neg fun hwild => h ((isPattern_iff argument).mp hwild)

theorem expandArgument_eq_ok_iff {paths : List String} :
    expandArgument globbed argument = .ok paths ↔ StandsFor globbed argument paths := by
  constructor
  · intro h
    by_cases hwild : HasWildcard argument
    · rw [expandArgument_of_wildcard hwild] at h
      split at h
      case h_1 | h_2 => cases h
      case h_3 found hfound hglobbed =>
        rw [mapM_eq_ok_iff, forall₂_pathOfMatch_iff] at h
        subst h
        exact .matched hwild hglobbed fun hnone => hfound (by rw [hnone]; rfl)
    · rw [expandArgument_of_path hwild] at h
      cases h
      exact .itself hwild
  · intro h
    cases h with
    | itself hpath => exact expandArgument_of_path hpath
    | matched hwild hglobbed hpaths =>
        rw [expandArgument_of_wildcard hwild, hglobbed]
        cases paths with
        | nil => exact absurd rfl hpaths
        | cons path rest => exact (mapM_eq_ok_iff _ _ _).mpr (forall₂_pathOfMatch_iff.mpr rfl)

theorem expandArgument_eq_error_iff {error : LoadError} :
    expandArgument globbed argument = .error error ↔ Refused globbed argument error := by
  constructor
  · intro h
    by_cases hwild : HasWildcard argument
    · rw [expandArgument_of_wildcard hwild] at h
      split at h
      case h_1 cause hglobbed =>
        cases h
        exact .invalid hwild hglobbed
      case h_2 hglobbed =>
        cases h
        exact .unmatched hwild hglobbed
      case h_3 found hfound hglobbed =>
        obtain ⟨before, paths, entry, later, rfl, hbefore, hentry⟩ :=
          (mapM_eq_error_iff _ _ _).mp h
        obtain rfl := forall₂_pathOfMatch_iff.mp hbefore
        cases entry with
        | ok path => cases hentry
        | error unreadable =>
            cases hentry
            exact .unreadable hwild hglobbed
    · rw [expandArgument_of_path hwild] at h
      cases h
  · intro h
    cases h with
    | invalid hwild hglobbed | unmatched hwild hglobbed =>
        rw [expandArgument_of_wildcard hwild, hglobbed]
    | @unreadable before entry later hwild hglobbed =>
        have hfirst : List.mapM pathOfMatch (before.map .ok ++ .error entry :: later) =
            .error (.unopened entry.path entry.cause) :=
          (mapM_eq_error_iff _ _ _).mpr
            ⟨_, before, _, later, rfl, forall₂_pathOfMatch_iff.mpr rfl, rfl⟩
        rw [expandArgument_of_wildcard hwild, hglobbed]
        cases before <;> exact hfirst

end Argument

variable (globbed : Matches)

theorem exists_standsFor_iff (argument : String) :
    (∃ paths, StandsFor globbed argument paths) ↔
      (HasWildcard argument → ∃ found, globbed argument = .ok found ∧ found ≠ [] ∧
        ∀ entry ∈ found, ∃ path, entry = .ok path) := by
  constructor
  · rintro ⟨paths, h⟩ hwild
    cases h with
    | itself h => exact absurd hwild h
    | matched h hglobbed hpaths =>
        exact ⟨paths.map .ok, hglobbed, by simpa using hpaths,
          forall_readable_iff.mpr ⟨paths, rfl⟩⟩
  · intro h
    by_cases hwild : HasWildcard argument
    · obtain ⟨found, hglobbed, hfound, hentries⟩ := h hwild
      obtain ⟨paths, rfl⟩ := forall_readable_iff.mp hentries
      exact ⟨paths, .matched hwild hglobbed (by simpa using hfound)⟩
    · exact ⟨[argument], .itself hwild⟩

/-- The arguments are expanded in turn. -/
theorem expand_eq_mapM (arguments : List String) :
    expand globbed arguments =
      (arguments.mapM (expandArgument globbed)).map List.flatten := by
  induction arguments with
  | nil => rfl
  | cons argument rest ih =>
      rw [expand, ih, List.mapM_cons]
      cases expandArgument globbed argument with
      | error error => rfl
      | ok paths => cases rest.mapM (expandArgument globbed) <;> rfl

theorem expand_eq_ok_iff (arguments paths : List String) :
    expand globbed arguments = .ok paths ↔
      ∃ parts, List.Forall₂ (StandsFor globbed) arguments parts ∧ paths = parts.flatten := by
  have hparts : ∀ parts, List.Forall₂ (StandsFor globbed) arguments parts ↔
      arguments.mapM (expandArgument globbed) = .ok parts := by
    simp only [mapM_eq_ok_iff, expandArgument_eq_ok_iff, implies_true]
  simp only [hparts]
  rw [expand_eq_mapM]
  cases arguments.mapM (expandArgument globbed) <;> simp [Except.map, eq_comm]

/-- The first argument that stands for nothing decides the error. -/
theorem expand_eq_error_iff (arguments : List String) (error : LoadError) :
    expand globbed arguments = .error error ↔
      ∃ before argument later, arguments = before ++ argument :: later ∧
        (∀ earlier ∈ before, ∃ part, StandsFor globbed earlier part) ∧
        Refused globbed argument error := by
  have herror : expand globbed arguments = .error error ↔
      arguments.mapM (expandArgument globbed) = .error error := by
    rw [expand_eq_mapM]
    cases arguments.mapM (expandArgument globbed) <;> simp [Except.map]
  rw [herror, mapM_eq_error_iff]
  simp only [expandArgument_eq_ok_iff, expandArgument_eq_error_iff]
  constructor
  · rintro ⟨before, parts, argument, later, hsplit, hbefore, hargument⟩
    exact ⟨before, argument, later, hsplit, (exists_forall₂_iff _ before).mp ⟨parts, hbefore⟩,
      hargument⟩
  · rintro ⟨before, argument, later, hsplit, hbefore, hargument⟩
    obtain ⟨parts, hparts⟩ := (exists_forall₂_iff (StandsFor globbed) before).mpr hbefore
    exact ⟨before, parts, argument, later, hsplit, hparts, hargument⟩

theorem expand_append (first second : List String) :
    expand globbed (first ++ second) =
      (expand globbed first).bind fun paths => (expand globbed second).map (paths ++ ·) := by
  induction first with
  | nil => cases h : expand globbed second <;> simp [expand, h, Except.bind, Except.map]
  | cons argument rest ih =>
      rw [List.cons_append, expand, expand, ih]
      cases expandArgument globbed argument with
      | error error => rfl
      | ok paths =>
          cases expand globbed rest with
          | error error => rfl
          | ok others =>
              cases expand globbed second with
              | error error => rfl
              | ok more => simp [bind, Except.bind, Except.map, pure, Except.pure]

/-- The arguments can be expanded exactly if every glob among them is valid and has
matches that can all be read.  They then stand for what each of them stands for, in
order; otherwise the first one that stands for nothing decides the error.  So two lists
one after the other stand for the paths of the first and then those of the second, and
an error of the first comes before any of the second. -/
theorem expand_left_to_right (arguments more : List String) :
    ((∃ paths, expand globbed arguments = .ok paths) ↔
        ∀ argument ∈ arguments, HasWildcard argument →
          ∃ found, globbed argument = .ok found ∧ found ≠ [] ∧
            ∀ entry ∈ found, ∃ path, entry = .ok path) ∧
      (∀ paths, expand globbed arguments = .ok paths ↔
        ∃ parts, List.Forall₂ (StandsFor globbed) arguments parts ∧ paths = parts.flatten) ∧
      (∀ error, expand globbed arguments = .error error ↔
        ∃ before argument later, arguments = before ++ argument :: later ∧
          (∀ earlier ∈ before, ∃ part, StandsFor globbed earlier part) ∧
          Refused globbed argument error) ∧
      expand globbed (arguments ++ more) =
        (expand globbed arguments).bind fun paths => (expand globbed more).map (paths ++ ·) := by
  refine ⟨?_, expand_eq_ok_iff globbed arguments, expand_eq_error_iff globbed arguments,
    expand_append globbed arguments more⟩
  simp only [expand_eq_ok_iff, ← exists_standsFor_iff, ← exists_forall₂_iff (StandsFor globbed)]
  exact ⟨fun ⟨_, parts, hparts, _⟩ => ⟨parts, hparts⟩,
    fun ⟨parts, hparts⟩ => ⟨_, parts, hparts, rfl⟩⟩

/-- The matches of one glob do not make up for another one that has none. -/
example : expand (fun pattern => .ok (if pattern = "a*" then [.ok "a1"] else [])) ["a*", "b*", "["] =
    .error (.noMatch "b*") := rfl

end Lc3.Launch
