import Lc3.Image.File
import Lc3.Proofs.Checked.Procedure
import Lc3.Proofs.Image.Format
import Lc3.Proofs.Session.Loading

/-!
# Checked images

An image that was made from words, bytes, a stream or a file fits into memory, so that it
is copied there without a panic.  Words that do not fit are not copied at all.
-/

namespace Lc3

/-- An image without the proof that it fits into memory. -/
structure BareImage where
  origin : Word
  words : List Word

def BareImage.of (image : Image) : BareImage where
  origin := image.origin
  words := image.words

/-- Items in one allocation.  The sizes of allocations have 63 bits. -/
structure Allocation (α : Type) where
  items : List α
  bounded : items.length < 2 ^ 63

/-- What an image is made from. -/
inductive ImageSource
  | words (origin : Word) (words : Allocation Word)
  | bytes (bytes : Allocation UInt8)
  | stream (stream : ByteStream) (bounded : stream.content.length < 2 ^ 63)
  | file (path : String) (content : Except SystemError (Allocation UInt8))

/-- The image, or why there is none. -/
def ImageSource.image : ImageSource → Except LoadError Image
  | words origin held => Image.ofWords origin held.items
  | bytes held => Image.ofBytes held.items
  | stream deliveries _ => Image.ofStream deliveries
  | file path content => Image.ofFile path (content.map Allocation.items)

namespace Checked

def imageOfWords (origin : Word) (words : List Word) : Checked (Except LoadError BareImage) := do
  if 65536 < (← addSize origin.toNat words.length) then
    pure (.error (.tooLarge origin words.length))
  else pure (.ok ⟨origin, words⟩)

/-- The bytes two by two, without an odd last one. -/
def pairs : List UInt8 → List (Array UInt8)
  | high :: low :: rest => #[high, low] :: pairs rest
  | _ => []

def wordOf (pair : Array UInt8) : Checked Word := do
  let high ← item pair 0
  let low ← item pair 1
  pure (Word.ofBytes high low)

def imageOfBytes (bytes : List UInt8) : Checked (Except LoadError BareImage) := do
  if bytes.isEmpty then pure (.error .missingOrigin)
  else if bytes.length % 2 ≠ 0 then pure (.error (.misaligned bytes.length))
  else
    match ← (pairs bytes).mapM wordOf with
    | [] => pure (.error .missingOrigin)
    | origin :: words => imageOfWords origin words

def imageOfStream (stream : ByteStream) : Checked (Except LoadError BareImage) :=
  match stream.readToEnd with
  | .ok bytes => imageOfBytes bytes
  | .error cause => pure (.error (.unread cause))

def imageOfFile (path : String) :
    Except SystemError (List UInt8) → Checked (Except LoadError BareImage)
  | .ok bytes => imageOfBytes bytes
  | .error cause => pure (.error (.unopened path cause))

theorem imageOfWords_eq (origin : Word) {words : List Word} (h : words.length < 2 ^ 63) :
    imageOfWords origin words = .ok ((Image.ofWords origin words).map BareImage.of) := by
  have horigin := origin.toNat_lt
  unfold imageOfWords Image.ofWords
  rw [addSize_of_lt (by omega), ok_bind]
  by_cases hfits : origin.toNat + words.length ≤ 65536
  · rw [if_neg (by omega), dif_pos hfits]
    rfl
  · rw [if_pos (by omega), dif_neg hfits]
    rfl

theorem pairs_bigEndian (words : List Word) :
    pairs (Word.bigEndian words) = words.map fun w => #[w.highByte, w.lowByte] := by
  induction words with
  | nil => rfl
  | cons w rest ih => simp [pairs, ih]

/-- Each pair of bytes gives its word without a panic. -/
theorem mapM_wordOf (words : List Word) :
    (words.map fun w => #[w.highByte, w.lowByte]).mapM wordOf = .ok words := by
  induction words with
  | nil => rfl
  | cons w rest ih =>
      have hword : wordOf #[w.highByte, w.lowByte] = .ok w := by
        show Checked.item #[w.highByte, w.lowByte] 0 >>= _ = _
        simp [item, pure, Except.pure]
      rw [List.map_cons, List.mapM_cons, hword, ok_bind, ih]
      rfl

theorem imageOfBytes_eq {bytes : List UInt8} (h : bytes.length < 2 ^ 63) :
    imageOfBytes bytes = .ok ((Image.ofBytes bytes).map BareImage.of) := by
  unfold imageOfBytes
  -- the empty input is found before the parity is looked at
  by_cases hempty : bytes = []
  · subst hempty
    rfl
  rw [if_neg (by simpa using hempty)]
  by_cases hodd : bytes.length % 2 = 1
  · rw [if_pos (by omega), Image.ofBytes_of_defect (.odd hodd)]
    rfl
  rw [if_neg (by omega)]
  obtain ⟨words, rfl⟩ := Image.exists_bigEndian bytes (by omega)
  rw [pairs_bigEndian, mapM_wordOf, ok_bind, Image.ofBytes_bigEndian]
  cases words with
  | nil => exact absurd rfl hempty
  | cons origin words =>
      rw [Word.length_bigEndian, List.length_cons] at h
      exact imageOfWords_eq origin (by omega)

theorem imageOfStream_eq {stream : ByteStream} (h : stream.content.length < 2 ^ 63) :
    imageOfStream stream = .ok ((Image.ofStream stream).map BareImage.of) := by
  unfold imageOfStream Image.ofStream
  rw [ByteStream.readToEnd_eq]
  cases stream.failure? with
  | none => exact imageOfBytes_eq h
  | some cause => rfl

end Checked

namespace ImageSource

open Checked

/-- Make the image. -/
def build : ImageSource → Checked (Except LoadError BareImage)
  | words origin held => imageOfWords origin held.items
  | bytes held => imageOfBytes held.items
  | stream deliveries _ => imageOfStream deliveries
  | file path content => imageOfFile path (content.map Allocation.items)

/-- An image is made without a panic. -/
theorem build_eq (source : ImageSource) :
    source.build = .ok (source.image.map BareImage.of) := by
  cases source with
  | words origin words => exact imageOfWords_eq origin words.bounded
  | bytes bytes => exact imageOfBytes_eq bytes.bounded
  | stream deliveries bounded => exact imageOfStream_eq bounded
  | file path content =>
      cases content with
      | ok bytes => exact imageOfBytes_eq bytes.bounded
      | error cause => rfl

end ImageSource

namespace Procedure

/-- Copy words to memory. -/
def copyFrom (origin : Word) (words : List Word) : Procedure Unit :=
  change fun bare => do
    let stop ← Checked.addSize origin.toNat words.length
    let cells ← Checked.copyRange bare.cells origin.toNat stop words
    pure { bare with cells := cells }

theorem getElem_cells (mem : Memory) {i : Nat} (h : i < 65536) :
    mem.cells[i] = mem.peek (UInt16.ofNat i) := by
  simp [Memory.peek, Nat.mod_eq_of_lt h]

/-- The cells with words in a range of them. -/
theorem toArray_writeAll (mem : Memory) {origin : Word} {words : List Word}
    (h : origin.toNat + words.length ≤ 65536) :
    mem.cells.toArray.extract 0 origin.toNat ++ words.toArray ++
        mem.cells.toArray.extract (origin.toNat + words.length) 65536 =
      (mem.writeAll origin words).cells.toArray := by
  have horigin := origin.toNat_lt
  have hmin : min origin.toNat 65536 = origin.toNat := by omega
  apply Array.ext
  · simp
    omega
  · -- a cell is before the words, among them or after them
    intro i _ hi
    rw [Vector.size_toArray] at hi
    have hindex : (UInt16.ofNat i).toNat = i := UInt16.toNat_ofNat_of_lt' hi
    have hdistance : (UInt16.ofNat i - origin).toNat = (65536 - origin.toNat + i) % 65536 := by
      rw [UInt16.toNat_sub, hindex]
    rw [Vector.getElem_toArray, getElem_cells _ hi, Memory.peek_writeAll _ _ _ _ (by omega),
      hdistance]
    by_cases hbefore : i < origin.toNat
    · have hnone : words[(65536 - origin.toNat + i) % 65536]? = none :=
        List.getElem?_eq_none (by omega)
      rw [Array.getElem_append_left (by simp; omega), Array.getElem_append_left (by simp; omega),
        hnone]
      simp [getElem_cells _ hi]
    by_cases hwithin : i < origin.toNat + words.length
    · have hsome : words[(65536 - origin.toNat + i) % 65536]? = some words[i - origin.toNat] := by
        rw [show (65536 - origin.toNat + i) % 65536 = i - origin.toNat by omega]
        exact List.getElem?_eq_getElem _
      rw [Array.getElem_append_left (by simp; omega), Array.getElem_append_right (by simp; omega),
        hsome]
      simp [hmin]
    · have hnone : words[(65536 - origin.toNat + i) % 65536]? = none :=
        List.getElem?_eq_none (by omega)
      have hindex : origin.toNat + words.length + (i - (origin.toNat + words.length)) = i := by
        omega
      rw [Array.getElem_append_right (by simp; omega), hnone]
      simp [hmin, hindex, getElem_cells _ hi]

theorem performs_copyFrom (m : Machine) {origin : Word} {words : List Word}
    (h : origin.toNat + words.length ≤ 65536) :
    Performs (copyFrom origin words) m
      (.done ((), { m with memory := m.memory.writeAll origin words })) := by
  have hcopied : Checked.copyRange (Bare.of m).cells origin.toNat (origin.toNat + words.length)
      words = .ok (m.memory.writeAll origin words).cells.toArray := by
    unfold Checked.copyRange
    rw [if_neg (by simp; omega), if_neg (by omega), Bare.size_cells, ← toArray_writeAll _ h]
    rfl
  apply performs_change
  rw [Checked.addSize_of_lt (by omega), Checked.ok_bind, hcopied]
  rfl

/-- Words that do not fit are refused before any of them is copied. -/
theorem start_copyFrom_of_not_fits (m : Machine) {origin : Word} {words : List Word}
    (hbounded : words.length < 2 ^ 63) (h : 65536 < origin.toNat + words.length) :
    (copyFrom origin words).start (Bare.of m) = .done (.error .slice, Bare.of m) := by
  have horigin := origin.toNat_lt
  have hrefused : Checked.copyRange (Bare.of m).cells origin.toNat (origin.toNat + words.length)
      words = .error .slice := if_pos (Or.inr (by simpa using h))
  unfold copyFrom
  rw [start_change, Checked.addSize_of_lt (by omega), Checked.ok_bind, hrefused]
  rfl

end Procedure

end Lc3
