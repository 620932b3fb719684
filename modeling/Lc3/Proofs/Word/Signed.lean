import Lc3.Instruction.Encoding
import Lc3.Proofs.Word.Field

/-!
# Words as signed integers

The signed value of a word is its balanced remainder modulo 65536, and that of a field is
the balanced remainder modulo the field's power of two.  So widening a field keeps its
signed value, and it gives exactly the words whose signed value fits the field.  Of two
fields widened one after the other the narrower one counts, and the terms of a sum may be
widened before the sum is.
-/

namespace Lc3.Word

theorem toInt_eq_bmod (w : Word) : w.toInt = Int.bmod w.toNat 65536 := by
  have hlt := w.toNat_lt
  unfold toInt
  rw [Int.bmod_def]
  split_ifs <;> omega

theorem toNat_ofInt (value : Int) : ((UInt16.ofInt value).toNat : Int) = value % 65536 := by
  have hpos := Int.emod_nonneg value (show (65536 : Int) ≠ 0 by decide)
  have hlt := Int.emod_lt_of_pos value (show (0 : Int) < 65536 by decide)
  unfold UInt16.ofInt
  rw [UInt16.toNat_ofNat']
  omega

theorem toInt_ofInt (value : Int) : toInt (UInt16.ofInt value) = value.bmod 65536 := by
  rw [toInt_eq_bmod, toNat_ofInt]
  exact Int.emod_bmod value 65536

theorem ofInt_toInt (w : Word) : UInt16.ofInt w.toInt = w := by
  have hlt := w.toNat_lt
  have hword := toNat_ofInt w.toInt
  apply UInt16.toNat_inj.mp
  unfold toInt at hword ⊢
  split_ifs at hword ⊢ <;> omega

theorem toInt_inj {v w : Word} : v.toInt = w.toInt ↔ v = w :=
  ⟨fun h => by rw [← ofInt_toInt v, h, ofInt_toInt], congrArg toInt⟩

theorem toInt_add (v w : Word) : (v + w).toInt = (v.toInt + w.toInt).bmod 65536 := by
  rw [← toInt_ofInt, UInt16.ofInt_add, ofInt_toInt, ofInt_toInt]

section Field

variable {width : Nat}

theorem two_pow_width (hpos : 0 < width) : 2 ^ width = 2 * 2 ^ (width - 1) :=
  (mul_pow_sub_one (by omega) 2).symm

theorem signedBits_eq_bmod (w : Word) (hpos : 0 < width) :
    w.signedBits width = Int.bmod w.toNat (2 ^ width) := by
  have hdouble := two_pow_width hpos
  have hcast : (2 : Int) ^ width = (2 ^ width : Nat) := by push_cast; rfl
  unfold signedBits
  rw [bits_low w hpos, Int.bmod_def, ← Int.natCast_emod, hcast]
  generalize w.toNat % 2 ^ width = field
  generalize 2 ^ (width - 1) = half at hdouble
  dsimp only
  split_ifs <;> omega

/-- Words agree on a field exactly if it has the same signed value in both. -/
theorem signedBits_eq_iff (v w : Word) (hpos : 0 < width) :
    v.signedBits width = w.signedBits width ↔ v.bits (width - 1) 0 = w.bits (width - 1) 0 := by
  rw [bits_low v hpos, bits_low w hpos]
  constructor
  · intro h
    rw [signedBits_eq_bmod v hpos, signedBits_eq_bmod w hpos] at h
    have hmod := congrArg (· % ((2 ^ width : Nat) : Int)) h
    simp only [Int.bmod_emod] at hmod
    exact_mod_cast hmod
  · intro h
    unfold signedBits
    rw [bits_low v hpos, bits_low w hpos, h]

/-- The signed value of a field is the only integer of its range with its remainder. -/
theorem signedBits_eq_iff_modEq (w : Word) (hpos : 0 < width) (value : Int) :
    w.signedBits width = value ↔
      -2 ^ (width - 1) ≤ value ∧ value < 2 ^ (width - 1) ∧ value ≡ w.toNat [ZMOD 2 ^ width] := by
  have hdouble := two_pow_width hpos
  have hone : 0 < 2 ^ width := Nat.two_pow_pos width
  have hhalf : (2 : Int) ^ (width - 1) = (2 ^ (width - 1) : Nat) := by push_cast; rfl
  have hwhole : (2 : Int) ^ width = (2 ^ width : Nat) := by push_cast; rfl
  have hmod : value ≡ w.toNat [ZMOD 2 ^ width] ↔ ((2 ^ width : Nat) : Int) ∣ value - w.toNat := by
    rw [Int.modEq_comm, Int.modEq_iff_dvd, hwhole]
  rw [signedBits_eq_bmod w hpos, Int.bmod_eq_iff hone, hmod, hhalf]
  constructor
  · rintro ⟨hlow, hhigh, hdvd⟩
    exact ⟨by omega, by omega, hdvd⟩
  · rintro ⟨hlow, hhigh, hdvd⟩
    exact ⟨by omega, by omega, hdvd⟩

theorem fieldBound_eq (width : Nat) : fieldBound width = 2 ^ (width - 1) := Nat.one_shiftLeft _

/-- A word that fits a field is its own balanced remainder. -/
theorem fits_iff_bmod (w : Word) (hpos : 0 < width) :
    w.Fits width ↔ w.toInt.bmod (2 ^ width) = w.toInt := by
  have hdouble := two_pow_width hpos
  have hone : 0 < 2 ^ width := Nat.two_pow_pos width
  rw [Int.bmod_eq_iff hone, Fits, fieldBound_eq, hdouble]
  push_cast
  constructor
  · rintro ⟨hlow, hhigh⟩
    exact ⟨by omega, by omega, by simp⟩
  · rintro ⟨hlow, hhigh, -⟩
    exact ⟨by omega, by omega⟩

theorem fits_of_le {narrow wide : Nat} {w : Word} (hle : narrow ≤ wide) (h : w.Fits narrow) :
    w.Fits wide := by
  have hpow : 2 ^ (narrow - 1) ≤ 2 ^ (wide - 1) := Nat.pow_le_pow_right (by omega) (by omega)
  unfold Fits at h ⊢
  rw [fieldBound_eq] at h ⊢
  omega

variable (hpos : 0 < width) (hle : width ≤ 15)
include hpos hle

theorem two_pow_dvd : 2 ^ width ∣ 65536 := pow_dvd_pow 2 (show width ≤ 16 by omega)

theorem toInt_bmod (w : Word) : w.toInt.bmod (2 ^ width) = w.signedBits width := by
  rw [toInt_eq_bmod, signedBits_eq_bmod w hpos]
  exact Int.bmod_bmod_of_dvd (two_pow_dvd hpos hle)

theorem toInt_signExtend (w : Word) : (signExtend width w).toInt = w.signedBits width := by
  have hpow : 2 ^ width ≤ 2 ^ 15 := Nat.pow_le_pow_right (by omega) hle
  have hone : 0 < 2 ^ width := Nat.two_pow_pos width
  rw [signExtend_eq_ofInt w hpos hle, toInt_ofInt, signedBits_eq_bmod w hpos]
  have hlow := Int.le_bmod (x := w.toNat) hone
  have hhigh := Int.bmod_lt (x := w.toNat) hone
  exact Int.bmod_eq_of_le (by omega) (by omega)

/-- Widening gives a word that fits the field. -/
theorem fits_signExtend (w : Word) : (signExtend width w).Fits width := by
  rw [fits_iff_bmod _ hpos, toInt_signExtend hpos hle, signedBits_eq_bmod w hpos, Int.bmod_bmod]

theorem signedBits_of_fits {w : Word} (h : w.Fits width) : w.signedBits width = w.toInt := by
  rw [← toInt_bmod hpos hle, (fits_iff_bmod w hpos).mp h]

/-- A word that fits the field is what its low bits widen to, in any word. -/
theorem signExtend_eq_of_fits {v w : Word} (h : v.Fits width)
    (hbits : w.bits (width - 1) 0 = v.bits (width - 1) 0) : signExtend width w = v := by
  rw [← toInt_inj, toInt_signExtend hpos hle, (signedBits_eq_iff w v hpos).mpr hbits,
    signedBits_of_fits hpos hle h]

theorem signExtend_eq_iff (v w : Word) :
    signExtend width v = signExtend width w ↔ v.bits (width - 1) 0 = w.bits (width - 1) 0 := by
  rw [← toInt_inj, toInt_signExtend hpos hle, toInt_signExtend hpos hle, signedBits_eq_iff v w hpos]

theorem signedBits_add (v w : Word) :
    (v + w).signedBits width = (v.signedBits width + w.signedBits width).bmod (2 ^ width) := by
  rw [← toInt_bmod hpos hle, toInt_add, Int.bmod_bmod_of_dvd (two_pow_dvd hpos hle),
    Int.add_bmod, toInt_bmod hpos hle, toInt_bmod hpos hle]

theorem signedBits_signExtend (w : Word) :
    (signExtend width w).signedBits width = w.signedBits width := by
  rw [signedBits_of_fits hpos hle (fits_signExtend hpos hle w), toInt_signExtend hpos hle]

/-- The terms of a sum may be widened before the sum is. -/
theorem signExtend_add (v w : Word) :
    signExtend width (v + w) = signExtend width (signExtend width v + signExtend width w) := by
  rw [← toInt_inj, toInt_signExtend hpos hle, toInt_signExtend hpos hle, signedBits_add hpos hle,
    signedBits_add hpos hle, signedBits_signExtend hpos hle, signedBits_signExtend hpos hle]

end Field

/-- Widening twice is widening the narrower of the two fields. -/
theorem signExtend_signExtend {m n : Nat} (hm : 0 < m) (hm' : m ≤ 15) (hn : 0 < n) (hn' : n ≤ 15)
    (w : Word) : signExtend n (signExtend m w) = signExtend (min m n) w := by
  rcases Nat.le_total m n with hmn | hnm
  · rw [Nat.min_eq_left hmn]
    exact signExtend_eq_of_fits hn hn' (fits_of_le hmn (fits_signExtend hm hm' w)) rfl
  · rw [Nat.min_eq_right hnm, ← toInt_inj, toInt_signExtend hn hn', toInt_signExtend hn hn',
      ← toInt_bmod hn hn', toInt_signExtend hm hm', signedBits_eq_bmod w hm, signedBits_eq_bmod w hn]
    exact Int.bmod_bmod_of_dvd (pow_dvd_pow 2 hnm)

/-- A widened field is the only integer of the field's range that is congruent to the word
modulo the field's power of two, so that the bits above the field do not matter.  Widening
twice is widening the narrower field, and a sum is widened the same if its terms have been. -/
theorem signExtend_widens {m n : Nat} (hm : 0 < m) (hm' : m ≤ 15) (hn : 0 < n) (hn' : n ≤ 15)
    (u v : Word) :
    (∀ value : Int, (signExtend n v).toInt = value ↔
        -2 ^ (n - 1) ≤ value ∧ value < 2 ^ (n - 1) ∧ value ≡ v.toNat [ZMOD 2 ^ n]) ∧
      (∀ w : Word, signExtend n w = signExtend n v ↔ w.toNat % 2 ^ n = v.toNat % 2 ^ n) ∧
      signExtend n (signExtend m v) = signExtend (min m n) v ∧
      signExtend n (u + v) = signExtend n (signExtend n u + signExtend n v) := by
  refine ⟨?_, ?_, signExtend_signExtend hm hm' hn hn' v, signExtend_add hn hn' u v⟩
  · intro value
    rw [toInt_signExtend hn hn', signedBits_eq_iff_modEq v hn]
  · intro w
    rw [signExtend_eq_iff hn hn', bits_low w hn, bits_low v hn]

/-- The low nine bits of `0xF0F0` are positive and the low five negative, and with those of
`0xF01F` the latter leave their range. -/
theorem signExtend_widens_carry :
    (signExtend 5 0xF0F0).toInt = -16 ∧ signExtend 5 0x10 = signExtend 5 0xF0F0 ∧
      signExtend 5 (signExtend 9 0xF0F0) = signExtend 5 0xF0F0 ∧
      signExtend 5 (0xF01F + 0xF0F0) =
        signExtend 5 (signExtend 5 0xF01F + signExtend 5 0xF0F0) := by
  obtain ⟨hvalue, hbits, hnested, hsum⟩ :=
    @signExtend_widens 9 5 (by decide) (by decide) (by decide) (by decide) 0xF01F 0xF0F0
  exact ⟨(hvalue (-16)).mpr (by decide), (hbits 0x10).mpr (by decide), hnested, hsum⟩

end Lc3.Word
