import Lc3.Instruction.Disassembly
import Lc3.Proofs.Word.Signed

/-!
# Numbers are read in one way

Written numbers and the operands made of them differ where what they stand for differs,
and they contain no blank, so that a blank can part them from what stands beside them.
-/

namespace Lc3.Text

theorem decimal_inj {m n : Nat} : decimal m = decimal n ↔ m = n := Nat.repr_inj

theorem signed_eq_repr (value : Int) : signed value = value.repr := by
  cases value <;> rfl

theorem signed_inj {m n : Int} : signed m = signed n ↔ m = n := by
  rw [signed_eq_repr, signed_eq_repr, Int.repr_inj]

theorem register_inj {r s : Word} : register r = register s ↔ r = s := by
  simp [register, decimal_inj, UInt16.toNat_inj]

theorem literal_inj {v w : Word} : literal v = literal w ↔ v = w := by
  simp [literal, signed_inj, Word.toInt_inj]

/-- A digit of a byte, as it is written. -/
theorem hexDigit_inj {m n : Nat} (hm : m < 16) (hn : n < 16)
    (h : (Nat.digitChar m).toUpper = (Nat.digitChar n).toUpper) : m = n := by
  have hdigits : ∀ m : Fin 16, ∀ n : Fin 16,
      (Nat.digitChar m).toUpper = (Nat.digitChar n).toUpper → m = n := by decide
  exact congrArg Fin.val (hdigits ⟨m, hm⟩ ⟨n, hn⟩ h)

theorem hexByte_eq (b : UInt8) :
    hexByte b = String.ofList
      [(Nat.digitChar (b.toNat / 16)).toUpper, (Nat.digitChar (b.toNat % 16)).toUpper] := by
  have hlt := b.toNat_lt
  have hlow : b.toNat &&& 15 = b.toNat % 16 := Nat.and_two_pow_sub_one_eq_mod _ 4
  have hhigh : b.toNat >>> 4 &&& 15 = b.toNat / 16 := by
    rw [Nat.shiftRight_eq_div_pow, Nat.and_two_pow_sub_one_eq_mod _ 4]
    exact Nat.mod_eq_of_lt (by omega)
  simp [hexByte, hhigh, hlow]

theorem hexByte_inj {a b : UInt8} : hexByte a = hexByte b ↔ a = b := by
  refine ⟨fun h => ?_, congrArg hexByte⟩
  have ha := a.toNat_lt
  have hb := b.toNat_lt
  rw [hexByte_eq, hexByte_eq, ← String.toList_inj, String.toList_ofList, String.toList_ofList] at h
  obtain ⟨hhigh, hlow, -⟩ := by simpa only [List.cons.injEq] using h
  have hhigh' := hexDigit_inj (by omega) (by omega) hhigh
  have hlow' := hexDigit_inj (by omega) (by omega) hlow
  apply UInt8.toNat_inj.mp
  omega

section Blank

theorem blank_not_mem_decimal (n : Nat) : ' ' ∉ (decimal n).toList := by
  intro h
  rw [decimal, Nat.repr_eq_ofList_toDigits, String.toList_ofList] at h
  have hdigit := Nat.isDigit_of_mem_toDigits (by omega) (by omega) h
  revert hdigit
  decide

theorem blank_not_mem_signed (value : Int) : ' ' ∉ (signed value).toList := by
  cases value with
  | ofNat n => exact blank_not_mem_decimal n
  | negSucc n => simp [signed, blank_not_mem_decimal]

theorem blank_not_mem_register (r : Word) : ' ' ∉ (register r).toList := by
  simp [register, blank_not_mem_decimal]

theorem blank_not_mem_literal (value : Word) : ' ' ∉ (literal value).toList := by
  simp [literal, blank_not_mem_signed]

theorem blank_not_mem_hexByte (b : UInt8) : ' ' ∉ (hexByte b).toList := by
  have hlt := b.toNat_lt
  have hdigit : ∀ n : Fin 16, ' ' ≠ (Nat.digitChar n).toUpper := by decide
  have hhigh := hdigit ⟨b.toNat / 16, by omega⟩
  have hlow := hdigit ⟨b.toNat % 16, by omega⟩
  simp [hexByte_eq, hhigh, hlow]

end Blank

end Lc3.Text
