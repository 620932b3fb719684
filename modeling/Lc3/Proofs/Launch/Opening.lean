import Lc3.Launch.Batch
import Lc3.Proofs.Image.Format
import Lc3.Proofs.Launch.Expansion

/-!
# Opening a batch

All arguments are expanded before a path is opened, and all paths are opened
before anything else is done.  What comes of it is told here by the globs' matches,
by what the files hold and by the image format: in both phases the first failure
is the end.
-/

namespace Lc3

/-- The records of reading these images from the files at these paths. -/
def Record.reads (paths : List String) (images : List Image) : List Record :=
  List.zipWith (fun path image => .imageRead path image.words.length image.origin) paths images

namespace Launch

/-- The file at a path holds an image: the image's origin and its words, in big-endian
order. -/
def HoldsImage (files : Files) (path : String) (image : Image) : Prop :=
  files.read path = .ok (Word.bigEndian (image.origin :: image.words))

/-- Why the file at a path gives no image: it cannot be read, or its bytes are those of no
image. -/
inductive Unusable (files : Files) (path : String) : LoadError → Prop
  | unread {cause : SystemError} (hread : files.read path = .error cause) :
      Unusable files path (.unopened path cause)
  | malformed {bytes : List UInt8} {error : LoadError} (hread : files.read path = .ok bytes)
      (hdefect : Image.Defect bytes error) : Unusable files path error

/-- How a batch is opened: the paths that are announced, the images that are read from
them, and the error if there is one.  No path is announced before all arguments are
expanded. -/
inductive Opening (files : Files) (arguments : List String) :
    List String → List Image → Option LoadError → Prop
  /-- The first argument that stands for nothing. -/
  | unexpanded (before later : List String) {argument : String} {error : LoadError}
      (harguments : arguments = before ++ argument :: later)
      (hbefore : ∀ earlier ∈ before, ∃ part, StandsFor files.globbed earlier part)
      (hargument : Refused files.globbed argument error) :
      Opening files arguments [] [] (some error)
  /-- The first path whose file gives no image. -/
  | unusable {parts : List (List String)} {images : List Image} (opened later : List String)
      {path : String} {error : LoadError}
      (hparts : List.Forall₂ (StandsFor files.globbed) arguments parts)
      (hpaths : parts.flatten = opened ++ path :: later)
      (hopened : List.Forall₂ (HoldsImage files) opened images)
      (hpath : Unusable files path error) :
      Opening files arguments (opened ++ [path]) images (some error)
  | good {parts : List (List String)} {images : List Image}
      (hparts : List.Forall₂ (StandsFor files.globbed) arguments parts)
      (hopened : List.Forall₂ (HoldsImage files) parts.flatten images) :
      Opening files arguments parts.flatten images none

section File

variable {files : Files} {path : String}

theorem ofFile_eq_ok_iff {image : Image} :
    Image.ofFile path (files.read path) = .ok image ↔ HoldsImage files path image := by
  unfold Image.ofFile HoldsImage
  cases files.read path with
  | error cause => simp
  | ok bytes =>
      show Image.ofBytes bytes = .ok image ↔ _
      rw [Image.ofBytes_eq_ok_iff, Except.ok.injEq]
      exact eq_comm

theorem ofFile_eq_error_iff {error : LoadError} :
    Image.ofFile path (files.read path) = .error error ↔ Unusable files path error := by
  constructor
  · intro h
    unfold Image.ofFile at h
    cases hread : files.read path with
    | error cause =>
        rw [hread] at h
        cases h
        exact .unread hread
    | ok bytes =>
        rw [hread] at h
        exact .malformed hread ((Image.ofBytes_eq_error_iff bytes error).mp h)
  · intro h
    unfold Image.ofFile
    cases h with
    | unread hread => rw [hread]
    | malformed hread hdefect =>
        rw [hread]
        exact (Image.ofBytes_eq_error_iff _ error).mpr hdefect

end File

variable {files : Files}

/-- Good files are announced and read, and then the others are opened. -/
theorem openImages_append (display : Display) {opened : List String} {images : List Image}
    (h : List.Forall₂ (HoldsImage files) opened images) (rest : List String) :
    let others := openImages display files rest
    openImages display files (opened ++ rest) =
      { output := String.join (opened.map (display.fileMessage .green "Loading")) ++ others.output
        records := Record.reads opened images ++ others.records
        images := others.images.map (images ++ ·) } := by
  intro others
  induction h with
  | nil =>
      rw [List.nil_append, List.map_nil, String.join_nil, String.empty_append]
      show others = _
      cases himages : others.images <;> simp [Record.reads, Except.map, ← himages]
  | @cons path image opened images hfirst hrest ih =>
      rw [List.cons_append, openImages, ofFile_eq_ok_iff.mpr hfirst, ih, List.map_cons,
        String.join_cons, String.append_assoc]
      cases himages : others.images <;> rfl

namespace Opening

variable {arguments announced : List String} {images : List Image} {failure : Option LoadError}

theorem exists_failure (files : Files) (arguments : List String) :
    ∃ announced images failure, Opening files arguments announced images failure := by
  cases hexpand : expand files.globbed arguments with
  | error error =>
      obtain ⟨before, argument, later, hsplit, hbefore, hargument⟩ :=
        (expand_eq_error_iff files.globbed arguments error).mp hexpand
      exact ⟨_, _, _, .unexpanded before later hsplit hbefore hargument⟩
  | ok paths =>
      obtain ⟨parts, hparts, rfl⟩ := (expand_eq_ok_iff files.globbed arguments paths).mp hexpand
      cases hopen : parts.flatten.mapM fun path => Image.ofFile path (files.read path) with
      | error error =>
          obtain ⟨opened, images, path, later, hpaths, hopened, hpath⟩ :=
            (mapM_eq_error_iff _ _ error).mp hopen
          simp only [ofFile_eq_ok_iff, ofFile_eq_error_iff] at hopened hpath
          exact ⟨_, _, _, .unusable opened later hparts hpaths hopened hpath⟩
      | ok images =>
          have hopened := (mapM_eq_ok_iff _ _ images).mp hopen
          simp only [ofFile_eq_ok_iff] at hopened
          exact ⟨_, _, _, .good hparts hopened⟩

theorem prepare_eq (display : Display) (h : Opening files arguments announced images failure) :
    prepare display files arguments =
      { output := String.join (announced.map (display.fileMessage .green "Loading"))
        records := Record.reads announced images
        images := failure.elim (.ok images) .error } := by
  unfold prepare
  cases h with
  | @unexpanded before later argument error harguments hbefore hargument =>
      rw [(expand_eq_error_iff _ _ error).mpr ⟨_, _, _, harguments, hbefore, hargument⟩]
      rfl
  | @unusable parts images opened later path error hparts hpaths hopened hpath =>
      have hrest : openImages display files (path :: later) =
          ⟨display.fileMessage .green "Loading" path, [], .error error⟩ := by
        rw [openImages, ofFile_eq_error_iff.mpr hpath]
      have hreads : Record.reads (opened ++ [path]) images = Record.reads opened images := by
        unfold Record.reads
        rw [← List.append_nil images, List.zipWith_append hopened.length_eq]
        simp
      rw [(expand_eq_ok_iff _ _ _).mpr ⟨parts, hparts, rfl⟩, hpaths]
      show openImages display files (opened ++ path :: later) = _
      rw [openImages_append display hopened, hrest, hreads]
      simp [String.join_cons, Except.map]
  | @good parts images hparts hopened =>
      rw [(expand_eq_ok_iff _ _ _).mpr ⟨parts, hparts, rfl⟩]
      show openImages display files parts.flatten = _
      rw [← List.append_nil parts.flatten, openImages_append display hopened]
      simp [openImages, Except.map]

end Opening

end Launch

end Lc3
