import Lc3.Proofs.Text.Blank
import Lc3.Settings
import Mathlib.Data.Nat.Digits.Defs
import Mathlib.Data.Set.List

/-!
# The waiting time as it is written

A waiting time is written in decimal, with at most one plus sign before the digits and
any blanks around it.  Reading a variable finds exactly the numbers of this grammar that
fit in 64 bits, and every other variable stands for the default.
-/

namespace Lc3.Settings

/-- Decimal digits as they are written, the first one counting most. -/
def digitsText (digits : List (Fin 10)) : List Char :=
  digits.map fun digit => Nat.digitChar digit.val

/-- The number that decimal digits stand for, the first one counting most. -/
def digitsValue (digits : List (Fin 10)) : Nat := Nat.ofDigits 10 (digits.reverse.map Fin.val)

/-- The text is a decimal number of at least one digit, after at most one plus sign. -/
inductive Writes (n : Nat) : List Char → Prop
  | digits (digits : List (Fin 10)) (hdigits : digits ≠ []) (hvalue : digitsValue digits = n) :
      Writes n (digitsText digits)
  | plus (digits : List (Fin 10)) (hdigits : digits ≠ []) (hvalue : digitsValue digits = n) :
      Writes n ('+' :: digitsText digits)

/-- The waiting time that a variable stands for: the one that is written in it, or ten
milliseconds if it is unset or what is written in it is no number of 64 bits. -/
inductive WaitsFor (value : Option String) : Nat → Prop
  | written {text : String} {inner : List Char} {n : Nat} (hvalue : value = some text)
      (hstrips : Text.StripsTo text.toList inner) (hwrites : Writes n inner) (hlt : n < 2 ^ 64) :
      WaitsFor value n
  | default (hnone : ∀ text inner n, value = some text → Text.StripsTo text.toList inner →
      Writes n inner → ¬ n < 2 ^ 64) :
      WaitsFor value 10

section Digits

theorem isDigit_iff (c : Char) :
    c.isDigit = true ↔ ∃ digit : Fin 10, Nat.digitChar digit.val = c := by
  constructor
  · intro h
    obtain ⟨hlow, hhigh⟩ : 48 ≤ c.toNat ∧ c.toNat ≤ 57 := Char.isDigit_iff_toNat.mp h
    refine ⟨⟨c.toNat - 48, by omega⟩, Char.toNat_inj.mp ?_⟩
    rw [Nat.toNat_digitChar_of_lt_ten (by omega)]
    exact Nat.add_sub_cancel' hlow
  · rintro ⟨digit, rfl⟩
    rw [Nat.isDigit_digitChar]
    exact decide_eq_true digit.isLt

theorem all_isDigit_iff (text : List Char) :
    text.all Char.isDigit = true ↔ ∃ digits, digitsText digits = text := by
  let write : Fin 10 → Char := fun digit => Nat.digitChar digit.val
  have hrange := Set.ext_iff.mp (Set.range_list_map write) text
  rw [List.all_eq_true]
  simp only [isDigit_iff]
  exact hrange.symm

theorem digitsText_eq_nil_iff (digits : List (Fin 10)) : digitsText digits = [] ↔ digits = [] :=
  List.map_eq_nil_iff

theorem digitsText_ne_plus (digits : List (Fin 10)) (rest : List Char) :
    digitsText digits ≠ '+' :: rest := by
  intro h
  have hall := (all_isDigit_iff ('+' :: rest)).mpr ⟨digits, h⟩
  simp at hall

/-- Reading digits from left to right gives their value. -/
theorem foldl_digitsText (digits : List (Fin 10)) :
    (digitsText digits).foldl (fun value c => value * 10 + (c.toNat - '0'.toNat)) 0 =
      digitsValue digits := by
  unfold digitsText digitsValue
  -- the digit read last counts least
  induction digits using List.reverseRecOn with
  | nil => rfl
  | append_singleton digits digit ih =>
      have hdigit : (Nat.digitChar digit.val).toNat - '0'.toNat = digit.val :=
        Nat.toNat_digitChar_sub_48_of_lt_ten digit.isLt
      rw [List.map_append, List.foldl_append, ih, List.reverse_append, List.map_append,
        Nat.ofDigits_append]
      simp only [List.map_cons, List.map_nil, List.foldl_cons, List.foldl_nil, hdigit,
        List.reverse_singleton, List.length_singleton, Nat.ofDigits_singleton]
      omega

theorem natOfDigits?_eq_some_iff (text : List Char) (n : Nat) :
    natOfDigits? text = some n ↔
      ∃ digits, digits ≠ [] ∧ digitsText digits = text ∧ digitsValue digits = n := by
  unfold natOfDigits?
  constructor
  · intro h
    split at h
    · cases h
    · rename_i hdigits
      obtain ⟨hne, hall⟩ : text ≠ [] ∧ text.all Char.isDigit = true := by simpa using hdigits
      obtain ⟨digits, rfl⟩ := (all_isDigit_iff text).mp hall
      rw [foldl_digitsText, Option.some.injEq] at h
      exact ⟨digits, fun hnil => hne ((digitsText_eq_nil_iff digits).mpr hnil), rfl, h⟩
  · rintro ⟨digits, hne, rfl, rfl⟩
    have hall := (all_isDigit_iff (digitsText digits)).mpr ⟨digits, rfl⟩
    rw [hall, foldl_digitsText]
    simp [digitsText_eq_nil_iff, hne]

end Digits

theorem writes_plus_iff (n : Nat) (rest : List Char) :
    Writes n ('+' :: rest) ↔ natOfDigits? rest = some n := by
  rw [natOfDigits?_eq_some_iff]
  constructor
  · intro h
    generalize htext : '+' :: rest = text at h
    cases h with
    | digits digits => exact absurd htext.symm (digitsText_ne_plus digits rest)
    | plus digits hdigits hvalue =>
        obtain ⟨-, rfl⟩ := List.cons_eq_cons.mp htext
        exact ⟨digits, hdigits, rfl, hvalue⟩
  · rintro ⟨digits, hdigits, rfl, hvalue⟩
    exact .plus digits hdigits hvalue

theorem writes_iff_of_ne {text : List Char} (n : Nat) (hplus : ∀ rest, text ≠ '+' :: rest) :
    Writes n text ↔ natOfDigits? text = some n := by
  rw [natOfDigits?_eq_some_iff]
  constructor
  · intro h
    cases h with
    | digits digits hdigits hvalue => exact ⟨digits, hdigits, rfl, hvalue⟩
    | plus digits => exact absurd rfl (hplus (digitsText digits))
  · rintro ⟨digits, hdigits, rfl, hvalue⟩
    exact .digits digits hdigits hvalue

/-- Reading accepts exactly the decimal numbers of 64 bits. -/
theorem parseNumber?_eq_some_iff (text : List Char) (n : Nat) :
    parseNumber? text = some n ↔ Writes n text ∧ n < 2 ^ 64 := by
  have hlimit : numberLimit = 2 ^ 64 := by decide
  unfold parseNumber?
  rw [Option.filter_eq_some_iff, decide_eq_true_iff, hlimit]
  split
  · rw [writes_plus_iff]
  · rename_i hplus
    rw [writes_iff_of_ne n hplus]

/-- Only what stands between the blanks is read. -/
theorem parseNumber?_trimBlanks_eq_some_iff (text : List Char) (n : Nat) :
    parseNumber? (Text.trimBlanks text) = some n ↔
      ∃ inner, Text.StripsTo text inner ∧ Writes n inner ∧ n < 2 ^ 64 := by
  simp only [parseNumber?_eq_some_iff, Text.stripsTo_iff, exists_eq_left']

theorem pollMillisOf_some (text : String) :
    pollMillisOf (some text) = (parseNumber? (Text.trimBlanks text.toList)).getD 10 := rfl

/-- A variable stands for one waiting time only, the one that is read from it. -/
theorem waitsFor_iff (value : Option String) (n : Nat) :
    WaitsFor value n ↔ pollMillisOf value = n := by
  cases value with
  | none =>
      constructor
      · rintro (⟨⟨⟩, -, -, -⟩ | -)
        rfl
      · rintro rfl
        exact .default fun _ _ _ hvalue => by cases hvalue
  | some text =>
      have hread := parseNumber?_trimBlanks_eq_some_iff text.toList
      rw [pollMillisOf_some]
      constructor
      · intro h
        cases h with
        | written hvalue hstrips hwrites hlt =>
            cases hvalue
            rw [(hread n).mpr ⟨_, hstrips, hwrites, hlt⟩, Option.getD_some]
        | default hnone =>
            have hparse : parseNumber? (Text.trimBlanks text.toList) = none := by
              refine Option.eq_none_iff_forall_ne_some.mpr fun n hn => ?_
              obtain ⟨inner, hstrips, hwrites, hlt⟩ := (hread n).mp hn
              exact hnone text inner n rfl hstrips hwrites hlt
            rw [hparse, Option.getD_none]
      · rintro rfl
        cases hparse : parseNumber? (Text.trimBlanks text.toList) with
        | none =>
            refine .default ?_
            rintro _ inner n ⟨⟩ hstrips hwrites hlt
            rw [(hread n).mpr ⟨inner, hstrips, hwrites, hlt⟩] at hparse
            cases hparse
        | some n =>
            obtain ⟨inner, hstrips, hwrites, hlt⟩ := (hread n).mp hparse
            exact .written rfl hstrips hwrites hlt

/-- Leading zeros and a plus sign do not count, and the limit is exact. -/
example :
    parseNumber? "+0018446744073709551615".toList = some 18446744073709551615 ∧
      parseNumber? "18446744073709551616".toList = none ∧ parseNumber? "++1".toList = none := by
  decide

end Lc3.Settings
