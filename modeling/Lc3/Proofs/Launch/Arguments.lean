import Lc3.Process.Libraries

/-!
# Arguments of a batch

A command line of images with at most one option, which asks for minimal output,
asks to run these images in the order in which they stand.  This is all that is
assumed of the library that reads it, and the reader of the process satisfies it.
-/

namespace Lc3

namespace Launch

/-- The argument is neither empty nor an option. -/
def NamesImage (text : String) : Prop :=
  text ≠ "" ∧ ∀ c letters, text.toList ≠ '-' :: c :: letters

/-- The argument is an option that asks for minimal output. -/
def AsksMinimal (text : String) : Prop := text = "-m" ∨ text = "--minimal"

/-- A command line of at least one image, with at most one option that asks for minimal
output, is read as a batch of these images in order. -/
def ReadsBatches (parse : List String → Except Ending Arguments) : Prop :=
  ∀ (before after : List String) (flag : Option String),
    (∀ text ∈ flag, AsksMinimal text) → (∀ image ∈ before ++ after, NamesImage image) →
      before ++ after ≠ [] →
        parse (before ++ flag.toList ++ after) = .ok ⟨before ++ after, flag.isSome⟩

end Launch

namespace Process

open Launch (NamesImage AsksMinimal ReadsBatches)

namespace Reading

theorem arguments_cons (reading : Reading) {text : String} (h : text ≠ "--") (rest : List String) :
    reading.arguments (text :: rest) =
      (do
        let reading ← reading.argument text
        reading.arguments rest) := by
  rw [arguments]
  exact h

theorem argument_of_namesImage (reading : Reading) {text : String} (h : NamesImage text) :
    reading.argument text = .ok { reading with images := text :: reading.images } := by
  obtain ⟨hne, hoption⟩ := h
  unfold argument
  split
  case h_1 name htext => exact absurd htext (hoption _ _)
  case h_2 c letters _ htext => exact absurd htext (hoption _ _)
  case h_3 =>
    unfold addImage
    rw [if_neg (by simpa using hne)]

theorem arguments_of_namesImage (reading : Reading) {images : List String}
    (h : ∀ image ∈ images, NamesImage image) (rest : List String) :
    reading.arguments (images ++ rest) =
      { reading with images := images.reverse ++ reading.images }.arguments rest := by
  induction images generalizing reading with
  | nil => rfl
  | cons image images ih =>
      obtain ⟨himage, himages⟩ := List.forall_mem_cons.mp h
      have hdashes : image ≠ "--" := by
        rintro rfl
        exact himage.2 '-' [] rfl
      rw [List.cons_append, arguments_cons _ hdashes, argument_of_namesImage _ himage]
      show arguments _ (images ++ rest) = _
      rw [ih _ himages, List.reverse_cons, List.append_assoc]
      rfl

theorem arguments_images (reading : Reading) {images : List String}
    (h : ∀ image ∈ images, NamesImage image) :
    reading.arguments images = .ok { reading with images := images.reverse ++ reading.images } := by
  have hread := reading.arguments_of_namesImage h []
  rw [List.append_nil] at hread
  rw [hread, arguments]

theorem arguments_of_asksMinimal (reading : Reading) (hfirst : reading.minimal = false)
    {text : String} (h : AsksMinimal text) (rest : List String) :
    reading.arguments (text :: rest) = { reading with minimal := true }.arguments rest := by
  have hasks : reading.askMinimal = .ok { reading with minimal := true } := by
    simp [askMinimal, hfirst]
  rcases h with rfl | rfl
  · rw [arguments_cons _ (by decide)]
    simp [argument, shortOptions, hasks, bind, Except.bind]
  · rw [arguments_cons _ (by decide)]
    simp [argument, hasks, bind, Except.bind]

end Reading

theorem readArguments_eq {before after : List String} {flag : Option String}
    (hflag : ∀ text ∈ flag, AsksMinimal text)
    (himages : ∀ image ∈ before ++ after, NamesImage image)
    (hsome : before ++ after ≠ []) :
    readArguments (before ++ flag.toList ++ after) = .ok ⟨before ++ after, flag.isSome⟩ := by
  obtain ⟨hbefore, hafter⟩ := List.forall_mem_append.mp himages
  have hread : (Reading.mk [] false).arguments (before ++ flag.toList ++ after) =
      .ok ⟨(before ++ after).reverse, flag.isSome⟩ := by
    rw [List.append_assoc, Reading.arguments_of_namesImage _ hbefore]
    cases flag with
    | none =>
        show Reading.arguments _ after = _
        rw [Reading.arguments_images _ hafter]
        simp
    | some text =>
        show Reading.arguments _ (text :: after) = _
        rw [Reading.arguments_of_asksMinimal _ rfl (hflag text rfl),
          Reading.arguments_images _ hafter]
        simp
  have hnonempty : (before ++ after).reverse.isEmpty = false := by
    rw [List.isEmpty_reverse, List.isEmpty_eq_false_iff]
    exact hsome
  unfold readArguments
  rw [hread]
  simp only [bind, Except.bind, hnonempty, Bool.false_eq_true, if_false, List.reverse_reverse]

/-- The process reads the command lines of batches so, in every environment. -/
theorem readsBatches (lookup : String → Option String) (stdoutIsTerminal stderrIsTerminal : Bool) :
    ReadsBatches (libraries lookup stdoutIsTerminal stderrIsTerminal).parse := by
  intro before after flag hflag himages hsome
  exact congrArg (Except.mapError _) (readArguments_eq hflag himages hsome)

end Process

end Lc3
