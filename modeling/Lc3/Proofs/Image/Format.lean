import Lc3.Image.Basic
import Mathlib

/-!
# The image format

An image file is an origin and words in big-endian order.  A byte sequence is decoded
exactly if it is the big-endian form of an image that fits into memory, and then
decoding undoes it.  What is wrong with any other sequence is told by its length and by
its first word.
-/

namespace Lc3

namespace Word

/-- The bytes of words, the high byte of each word first. -/
def bigEndian (words : List Word) : List UInt8 := words.flatMap fun w => [w.highByte, w.lowByte]

@[simp] theorem bigEndian_nil : bigEndian [] = [] := rfl

@[simp] theorem bigEndian_cons (w : Word) (words : List Word) :
    bigEndian (w :: words) = w.highByte :: w.lowByte :: bigEndian words := rfl

@[simp] theorem bigEndian_append (first second : List Word) :
    bigEndian (first ++ second) = bigEndian first ++ bigEndian second := List.flatMap_append

@[simp] theorem length_bigEndian (words : List Word) :
    (bigEndian words).length = 2 * words.length := by
  induction words with
  | nil => rfl
  | cons w words ih =>
      simp [ih]
      omega

end Word

open Word

namespace Image

theorem decodeWords_bigEndian (words : List Word) :
    (decodeWords #[] (bigEndian words)).toList = words := by
  have hdecoded := decodeWords_flatMap #[] words
  simp [bigEndian, hdecoded]

/-- No byte of an even number of bytes is lost in decoding. -/
theorem bigEndian_decodeWords (decoded : Array Word) (bytes : List UInt8)
    (heven : bytes.length % 2 = 0) :
    bigEndian (decodeWords decoded bytes).toList = bigEndian decoded.toList ++ bytes := by
  fun_induction decodeWords decoded bytes with
  | case1 decoded high low rest ih =>
      have hrest : rest.length % 2 = 0 := by
        simp only [List.length_cons] at heven
        omega
      simp [ih hrest]
  | case2 bytes decoded hshort =>
      -- fewer than two bytes, and an even number of them
      match bytes with
      | [] => simp
      | [byte] => simp at heven
      | high :: low :: rest => exact absurd rfl (hshort high low rest)

/-- Every even number of bytes is the big-endian form of words. -/
theorem exists_bigEndian (bytes : List UInt8) (heven : bytes.length % 2 = 0) :
    ∃ words, bigEndian words = bytes :=
  ⟨(decodeWords #[] bytes).toList, by simp [bigEndian_decodeWords #[] bytes heven]⟩

theorem ofBytes_bigEndian (words : List Word) :
    ofBytes (bigEndian words) =
      match words with
      | [] => .error .missingOrigin
      | origin :: words => ofWords origin words := by
  have heven : ¬ (bigEndian words).length % 2 = 1 := by
    simp
  cases words with
  | nil => rfl
  | cons origin words => simp only [ofBytes, if_neg heven, decodeWords_bigEndian]

theorem ofWords_of_fits {origin : Word} {words : List Word}
    (h : origin.toNat + words.length ≤ 65536) : ofWords origin words = .ok ⟨origin, words, h⟩ :=
  dif_pos h

theorem ofWords_of_not_fits {origin : Word} {words : List Word}
    (h : 65536 < origin.toNat + words.length) :
    ofWords origin words = .error (.tooLarge origin words.length) :=
  dif_neg (by omega)

theorem ofWords_eq_error_iff (origin : Word) (words : List Word) (error : LoadError) :
    ofWords origin words = .error error ↔
      65536 < origin.toNat + words.length ∧ error = .tooLarge origin words.length := by
  by_cases hfits : origin.toNat + words.length ≤ 65536
  · rw [ofWords_of_fits hfits]
    exact iff_of_false (by simp) (by omega)
  · rw [ofWords_of_not_fits (by omega), Except.error.injEq, eq_comm]
    exact (and_iff_right (by omega)).symm

theorem ofBytes_toBytes (image : Image) : ofBytes image.toBytes = .ok image := by
  have hwords : ofBytes image.toBytes = ofWords image.origin image.words :=
    ofBytes_bigEndian (image.origin :: image.words)
  rw [hwords]
  exact ofWords_of_fits image.fits

/-- What can be wrong with the bytes of an image file: there are none, the last one is no
whole word, or the words behind the first one do not fit into memory from there on. -/
inductive Defect (bytes : List UInt8) : LoadError → Prop
  | empty (hempty : bytes = []) : Defect bytes .missingOrigin
  | odd (hodd : bytes.length % 2 = 1) : Defect bytes (.misaligned bytes.length)
  | large (high low : UInt8) (rest : List UInt8) (hbytes : bytes = high :: low :: rest)
      (heven : bytes.length % 2 = 0)
      (hlarge : 65536 < (Word.ofBytes high low).toNat + (bytes.length / 2 - 1)) :
      Defect bytes (.tooLarge (Word.ofBytes high low) (bytes.length / 2 - 1))

theorem ofBytes_of_defect {bytes : List UInt8} {error : LoadError} (h : Defect bytes error) :
    ofBytes bytes = .error error := by
  cases h with
  | empty hempty =>
      subst hempty
      rfl
  | odd hodd => exact if_pos hodd
  | large high low rest hbytes heven hlarge =>
      subst hbytes
      simp only [List.length_cons] at heven
      obtain ⟨words, rfl⟩ := exists_bigEndian rest (by omega)
      have hbytes :
          high :: low :: bigEndian words = bigEndian (Word.ofBytes high low :: words) := by
        simp
      have hcount : (high :: low :: bigEndian words).length / 2 - 1 = words.length := by
        simp only [List.length_cons, length_bigEndian]
        omega
      rw [hcount] at hlarge ⊢
      rw [hbytes, ofBytes_bigEndian]
      exact ofWords_of_not_fits hlarge

/-- Bytes without a defect are those of an image. -/
theorem defect_or_toBytes (bytes : List UInt8) :
    (∃ error, Defect bytes error) ∨ ∃ image : Image, image.toBytes = bytes := by
  by_cases hodd : bytes.length % 2 = 1
  · exact Or.inl ⟨_, .odd hodd⟩
  obtain ⟨words, rfl⟩ := exists_bigEndian bytes (by omega)
  cases words with
  | nil => exact Or.inl ⟨_, .empty rfl⟩
  | cons origin words =>
      by_cases hfits : origin.toNat + words.length ≤ 65536
      · exact Or.inr ⟨⟨origin, words, hfits⟩, rfl⟩
      · refine Or.inl ⟨_, .large origin.highByte origin.lowByte (bigEndian words) rfl ?_ ?_⟩
        · rw [length_bigEndian]
          omega
        · rw [Word.ofBytes_bytes, length_bigEndian, List.length_cons]
          omega

/-- Bytes are decoded to the image that is written as these bytes. -/
theorem ofBytes_eq_ok_iff (bytes : List UInt8) (image : Image) :
    ofBytes bytes = .ok image ↔ image.toBytes = bytes := by
  constructor
  · intro h
    rcases defect_or_toBytes bytes with ⟨error, hdefect⟩ | ⟨other, rfl⟩
    · rw [ofBytes_of_defect hdefect] at h
      cases h
    · rw [ofBytes_toBytes] at h
      cases h
      rfl
  · rintro rfl
    exact ofBytes_toBytes image

/-- Only bytes with a defect are refused, and every defect is reported as what it is. -/
theorem ofBytes_eq_error_iff (bytes : List UInt8) (error : LoadError) :
    ofBytes bytes = .error error ↔ Defect bytes error := by
  refine ⟨fun h => ?_, ofBytes_of_defect⟩
  rcases defect_or_toBytes bytes with ⟨other, hdefect⟩ | ⟨image, himage⟩
  · rw [ofBytes_of_defect hdefect] at h
    cases h
    exact hdefect
  · rw [(ofBytes_eq_ok_iff bytes image).mpr himage] at h
    cases h

/-- The images are the bytes in whole words, at least one, that fit into memory from the
first word on. -/
theorem exists_image_iff (bytes : List UInt8) :
    (∃ image, ofBytes bytes = .ok image) ↔
      bytes.length % 2 = 0 ∧ ∃ high low rest, bytes = high :: low :: rest ∧
        (Word.ofBytes high low).toNat + (bytes.length / 2 - 1) ≤ 65536 := by
  constructor
  · rintro ⟨image, h⟩
    obtain rfl := (ofBytes_eq_ok_iff bytes image).mp h
    have hlength : image.toBytes.length = 2 * (image.words.length + 1) := length_bigEndian _
    have hfits := image.fits
    refine ⟨by omega, image.origin.highByte, image.origin.lowByte, bigEndian image.words, rfl, ?_⟩
    rw [Word.ofBytes_bytes]
    omega
  · rintro ⟨heven, high, low, rest, hbytes, hfits⟩
    rcases defect_or_toBytes bytes with ⟨error, hdefect⟩ | ⟨image, himage⟩
    · exfalso
      cases hdefect with
      | empty hempty => cases hempty.symm.trans hbytes
      | odd hodd => omega
      | large high' low' rest' hbytes' _ hlarge =>
          obtain ⟨rfl, rfl, -⟩ : high = high' ∧ low = low' ∧ rest = rest' := by
            simpa using hbytes.symm.trans hbytes'
          omega
    · exact ⟨image, (ofBytes_eq_ok_iff bytes image).mpr himage⟩

/-- A byte sequence is refused as empty, as odd or as too large exactly if it is, and
otherwise it is decoded to the image that is written as these bytes.  Conversely the
bytes of any origin and words are decoded to what the origin and the words give as an
image, and they give one exactly if they fit into memory. -/
theorem ofBytes_inverts_serialization (bytes : List UInt8) :
    (ofBytes bytes = .error .missingOrigin ↔ bytes = []) ∧
      (∀ length, ofBytes bytes = .error (.misaligned length) ↔
        bytes.length % 2 = 1 ∧ length = bytes.length) ∧
      (∀ origin count, ofBytes bytes = .error (.tooLarge origin count) ↔
        bytes.length % 2 = 0 ∧
          (∃ high low rest, bytes = high :: low :: rest ∧ origin = Word.ofBytes high low) ∧
          count = bytes.length / 2 - 1 ∧ 65536 < origin.toNat + count) ∧
      ((∃ image, ofBytes bytes = .ok image) ↔
        bytes.length % 2 = 0 ∧ ∃ high low rest, bytes = high :: low :: rest ∧
          (Word.ofBytes high low).toNat + (bytes.length / 2 - 1) ≤ 65536) ∧
      (∀ image, ofBytes bytes = .ok image ↔ bigEndian (image.origin :: image.words) = bytes) ∧
      ∀ (origin : Word) (words : List Word),
        ofBytes (bigEndian (origin :: words)) = ofWords origin words ∧
          ((∃ image, ofWords origin words = .ok image ∧ image.origin = origin ∧
            image.words = words) ↔ origin.toNat + words.length ≤ 65536) ∧
          (∀ error, ofWords origin words = .error error ↔
            65536 < origin.toNat + words.length ∧ error = .tooLarge origin words.length) := by
  refine ⟨?_, ?_, ?_, exists_image_iff bytes, ofBytes_eq_ok_iff bytes, ?_⟩
  · rw [ofBytes_eq_error_iff]
    constructor
    · intro h
      cases h with
      | empty hempty => exact hempty
    · exact .empty
  · intro length
    rw [ofBytes_eq_error_iff]
    constructor
    · intro h
      cases h with
      | odd hodd => exact ⟨hodd, rfl⟩
    · rintro ⟨hodd, rfl⟩
      exact .odd hodd
  · intro origin count
    rw [ofBytes_eq_error_iff]
    constructor
    · intro h
      cases h with
      | large high low rest hbytes heven hlarge =>
          exact ⟨heven, ⟨high, low, rest, hbytes, rfl⟩, rfl, hlarge⟩
    · rintro ⟨heven, ⟨high, low, rest, hbytes, rfl⟩, rfl, hlarge⟩
      exact .large high low rest hbytes heven hlarge
  · intro origin words
    refine ⟨ofBytes_bigEndian (origin :: words), ?_, ofWords_eq_error_iff origin words⟩
    constructor
    · rintro ⟨image, -, rfl, rfl⟩
      exact image.fits
    · intro hfits
      exact ⟨⟨origin, words, hfits⟩, ofWords_of_fits hfits, rfl, rfl⟩

/-- An odd number of bytes is refused as odd, also where the words would not fit. -/
example : ofBytes [0xFF, 0xFF, 0x00, 0x01, 0x00] = .error (.misaligned 5) := rfl

end Image

end Lc3
