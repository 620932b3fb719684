import Lc3.Session
import Mathlib

/-!
# Loading sequences of images

What a stream delivers is decided by the bytes before its end and by the
failure that ends it, however the bytes are cut into pieces.  A load without an
image changes nothing, and after any sequence of loads each cell holds the word
of the last image that covers it.
-/

namespace Lc3

namespace Delivery

/-- The bytes of one delivery. -/
def piece : Delivery → List UInt8
  | bytes piece => piece
  | _ => []

/-- Whether the stream ends here. -/
def isLast : Delivery → Bool
  | bytes piece => piece.isEmpty
  | interrupted => false
  | failed _ => true

/-- The cause of a failed delivery. -/
def cause? : Delivery → Option SystemError
  | failed cause => some cause
  | _ => none

end Delivery

namespace ByteStream

/-- The bytes that are delivered before the end of the stream. -/
def content (stream : ByteStream) : List UInt8 :=
  (stream.takeWhile fun delivery => !delivery.isLast).flatMap Delivery.piece

/-- The failure that ends the stream, if it ends by one. -/
def failure? (stream : ByteStream) : Option SystemError :=
  (stream.find? Delivery.isLast).bind Delivery.cause?

/-- The image of a stream, or why there is none. -/
def verdict (stream : ByteStream) : Except LoadError Image :=
  match stream.failure? with
  | some cause => .error (.unread cause)
  | none => Image.ofBytes stream.content

theorem content_cons (delivery : Delivery) (rest : ByteStream) :
    content (delivery :: rest) = if delivery.isLast then [] else delivery.piece ++ content rest := by
  unfold content
  cases h : delivery.isLast <;> simp [h]

theorem failure?_cons (delivery : Delivery) (rest : ByteStream) :
    failure? (delivery :: rest) =
      if delivery.isLast then delivery.cause? else failure? rest := by
  unfold failure?
  cases h : delivery.isLast <;> simp [h]

/-- Whatever has been read already, the bytes before the end are added to it. -/
theorem collect_eq (pieces : Array UInt8) (stream : ByteStream) :
    stream.collect pieces =
      match stream.failure? with
      | some cause => .error cause
      | none => .ok (pieces ++ stream.content) := by
  -- over the deliveries, with what was read so far as the accumulator
  induction stream generalizing pieces with
  | nil => simp [collect, failure?, content]
  | cons delivery rest ih =>
      rw [failure?_cons, content_cons]
      rcases delivery with (_ | ⟨byte, more⟩) | _ | cause
      · simp [collect, Delivery.isLast, Delivery.cause?]
      · have happend : pieces ++ (byte :: more) ++ content rest =
            pieces ++ (byte :: more ++ content rest) := by
          apply Array.ext'
          simp
        show collect (pieces ++ (byte :: more)) rest = _
        rw [ih, happend]
        rfl
      · exact ih pieces
      · rfl

theorem readToEnd_eq (stream : ByteStream) :
    stream.readToEnd =
      match stream.failure? with
      | some cause => .error cause
      | none => .ok stream.content := by
  unfold readToEnd
  rw [collect_eq]
  cases stream.failure? <;> simp [Except.map]

theorem ofStream_eq_verdict (stream : ByteStream) : Image.ofStream stream = stream.verdict := by
  unfold Image.ofStream verdict
  rw [readToEnd_eq]
  cases stream.failure? <;> rfl

end ByteStream

namespace Image

/-- The image's word for an address, if the image covers it. -/
def wordAt? (image : Image) (addr : Word) : Option Word :=
  if image.origin ≤ addr then image.words[addr.toNat - image.origin.toNat]? else none

/-- An image replaces the cells that it covers and no others. -/
theorem peek_placeInto (image : Image) (mem : Memory) (addr : Word) :
    (image.placeInto mem).peek addr = (image.wordAt? addr).getD (mem.peek addr) := by
  have hfits := image.fits
  have horigin := image.origin.toNat_lt
  have haddr := addr.toNat_lt
  unfold placeInto wordAt?
  rw [Memory.peek_writeAll _ _ _ _ (by omega)]
  by_cases hle : image.origin ≤ addr
  · have hindex : (addr - image.origin).toNat = addr.toNat - image.origin.toNat :=
      UInt16.toNat_sub_of_le _ _ hle
    rw [if_pos hle, hindex]
  -- below the origin the distance wraps around to behind the last word
  · have hlt : addr.toNat < image.origin.toNat := UInt16.lt_iff_toNat_lt.mp (UInt16.not_le.mp hle)
    have hindex : image.words.length ≤ (addr - image.origin).toNat := by
      rw [UInt16.toNat_sub]
      omega
    rw [if_neg hle, List.getElem?_eq_none hindex]

end Image

namespace Session

variable {σ : Type}

/-- Load images one after the other, whether or not earlier loads have failed. -/
def loadAll (session : Session σ) : List ByteStream → List (Except LoadError Unit) × Session σ
  | [] => ([], session)
  | stream :: rest =>
      let (result, session) := session.load stream
      let (results, session) := session.loadAll rest
      (result :: results, session)

/-- The images among the streams, in order. -/
def imagesOf (streams : List ByteStream) : List Image :=
  streams.filterMap fun stream => stream.verdict.toOption

theorem load_eq (session : Session σ) (stream : ByteStream) :
    session.load stream =
      match stream.verdict with
      | .ok image => (.ok (), session.loadImage image)
      | .error error => (.error error, session) := by
  unfold load
  cases h : stream.verdict with
  | ok image => rw [ByteStream.ofStream_eq_verdict, h]
  | error error => rw [ByteStream.ofStream_eq_verdict, h]

theorem load_of_ok (session : Session σ) {stream : ByteStream} {image : Image}
    (h : stream.verdict = .ok image) :
    session.load stream = (.ok (), session.loadImage image) := by
  rw [load_eq, h]

theorem load_of_error (session : Session σ) {stream : ByteStream} {error : LoadError}
    (h : stream.verdict = .error error) : session.load stream = (.error error, session) := by
  rw [load_eq, h]

theorem loadAll_cons (session : Session σ) (stream : ByteStream) (rest : List ByteStream) :
    session.loadAll (stream :: rest) =
      ((session.load stream).1 :: ((session.load stream).2.loadAll rest).1,
        ((session.load stream).2.loadAll rest).2) := rfl

/-- A load takes nothing from its stream but the content and the failure. -/
theorem loadAll_congr (session : Session σ) {streams others : List ByteStream}
    (h : others.map (fun stream => (stream.content, stream.failure?)) =
      streams.map (fun stream => (stream.content, stream.failure?))) :
    session.loadAll others = session.loadAll streams := by
  induction streams generalizing session others with
  | nil => rw [List.map_eq_nil_iff.mp h]
  | cons stream rest ih =>
      cases others with
      | nil => cases h
      | cons other others =>
          rw [List.map_cons, List.map_cons, List.cons.injEq, Prod.mk.injEq] at h
          obtain ⟨⟨hcontent, hfailure⟩, hrest⟩ := h
          have hload : session.load other = session.load stream := by
            rw [load_eq, load_eq]
            unfold ByteStream.verdict
            rw [hcontent, hfailure]
          rw [loadAll_cons, loadAll_cons, hload, ih _ hrest]

/-- Each load of a sequence succeeds or fails by its own stream. -/
theorem loadAll_results (session : Session σ) (streams : List ByteStream) :
    (session.loadAll streams).1 = streams.map fun stream => stream.verdict.map fun _ => () := by
  induction streams generalizing session with
  | nil => rfl
  | cons stream rest ih =>
      cases h : stream.verdict with
      | ok image =>
          rw [loadAll_cons, load_of_ok session h, List.map_cons, h]
          exact congrArg _ (ih _)
      | error error =>
          rw [loadAll_cons, load_of_error session h, List.map_cons, h]
          exact congrArg _ (ih _)

/-- A sequence of loads places its images in order. -/
theorem loadAll_session (session : Session σ) (streams : List ByteStream) :
    (session.loadAll streams).2 = (imagesOf streams).foldl loadImage session := by
  induction streams generalizing session with
  | nil => rfl
  | cons stream rest ih =>
      unfold imagesOf
      cases h : stream.verdict with
      | ok image =>
          rw [loadAll_cons, load_of_ok session h, List.filterMap_cons, h]
          exact ih _
      | error error =>
          rw [loadAll_cons, load_of_error session h, List.filterMap_cons, h]
          exact ih _

/-- Placing images changes memory only, and there the last image wins. -/
theorem foldl_loadImage (session : Session σ) (images : List Image) :
    let after := images.foldl loadImage session
    (∀ addr, after.machine.memory.peek addr =
      (images.reverse.findSome? fun image => image.wordAt? addr).getD
        (session.machine.memory.peek addr)) ∧
      after.machine.registers = session.machine.registers ∧
      after.machine.status = session.machine.status ∧
      after.console = session.console := by
  induction images generalizing session with
  | nil => exact ⟨fun _ => rfl, rfl, rfl, rfl⟩
  | cons image rest ih =>
      obtain ⟨hcells, hregisters, hstatus, hconsole⟩ := ih (session.loadImage image)
      refine ⟨?_, hregisters, hstatus, hconsole⟩
      intro addr
      have hplaced : (session.loadImage image).machine.memory.peek addr =
          (image.wordAt? addr).getD (session.machine.memory.peek addr) :=
        image.peek_placeInto session.machine.memory addr
      rw [List.foldl_cons, hcells, hplaced, List.reverse_cons, List.findSome?_append]
      -- the word of a later image hides the one just placed
      cases rest.reverse.findSome? fun image => image.wordAt? addr with
      | some value => rfl
      | none => cases h : image.wordAt? addr <;> simp [h]

/-- A load has the image of the stream's whole content or changes nothing.
After a sequence of loads each cell holds the word of the last image covering
it, and nothing but memory has changed.  How the bytes are cut into pieces has
no influence. -/
theorem loadAll_lastWins (session : Session σ) (streams : List ByteStream) :
    let after := (session.loadAll streams).2
    (∀ (reached : Session σ) (stream : ByteStream),
      reached.load stream =
        match stream.failure?, Image.ofBytes stream.content with
        | some cause, _ => (.error (.unread cause), reached)
        | none, .error error => (.error error, reached)
        | none, .ok image => (.ok (), reached.loadImage image)) ∧
      (session.loadAll streams).1 =
        streams.map (fun stream => stream.verdict.map fun _ => ()) ∧
      (∀ addr, after.machine.memory.peek addr =
        ((imagesOf streams).reverse.findSome? fun image => image.wordAt? addr).getD
          (session.machine.memory.peek addr)) ∧
      after.machine.registers = session.machine.registers ∧
      after.machine.status = session.machine.status ∧
      after.console = session.console ∧
      ∀ others : List ByteStream,
        others.map (fun stream => (stream.content, stream.failure?)) =
          streams.map (fun stream => (stream.content, stream.failure?)) →
        session.loadAll others = session.loadAll streams := by
  intro after
  have hafter : after = (imagesOf streams).foldl loadImage session :=
    loadAll_session session streams
  obtain ⟨hcells, hregisters, hstatus, hconsole⟩ := foldl_loadImage session (imagesOf streams)
  rw [hafter]
  refine ⟨?_, loadAll_results session streams, hcells, hregisters, hstatus, hconsole, ?_⟩
  · intro reached stream
    rw [load_eq]
    unfold ByteStream.verdict
    cases stream.failure? with
    | some cause => rfl
    | none => cases Image.ofBytes stream.content <;> rfl
  · intro others h
    exact loadAll_congr session h

/-- An image file of one word that halts the machine. -/
def haltingFile : ByteStream := [.bytes [0x30, 0x00, 0xF0, 0x25]]

/-- The same file, delivered in pieces across its words. -/
def haltingPieces : ByteStream :=
  [.bytes [0x30], .interrupted, .bytes [0x00, 0xF0], .bytes [0x25], .bytes [], .bytes [0xFF]]

theorem loadAll_haltingPieces :
    (start ()).loadAll [haltingPieces, []] = (start ()).loadAll [haltingFile, []] ∧
      ((start ()).loadAll [haltingFile, []]).2.machine.memory.peek 0x3000 = 0xF025 := by
  obtain ⟨-, -, hcells, -, -, -, hpieces⟩ := loadAll_lastWins (start ()) [haltingFile, []]
  refine ⟨hpieces [haltingPieces, []] (by decide), ?_⟩
  rw [hcells]
  rfl

end Session

end Lc3
