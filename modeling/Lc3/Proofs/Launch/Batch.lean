import Lc3.Launch.StoredFiles
import Lc3.Proofs.Launch.Arguments
import Lc3.Proofs.Launch.Opening
import Lc3.Proofs.Session.Program

/-!
# Running a batch

A batch runs only if all its images are good.  A bad one ends it with its error
before an instruction is executed.  Otherwise the exit status tells how the run has
ended, and the standard output is what the program has written, between the status
lines if output is not minimal.
-/

namespace Lc3

/-- The records of placing these images in memory. -/
def Record.loads (images : List Image) : List Record :=
  images.map fun image => .loading image.words.length image.origin

namespace Session

open OutputConsole (output)

section Output

variable {σ : Type} [Console σ] [OutputConsole σ]

theorem output_after (s : Session σ) (n : Nat) :
    output (s.after n).console = output s.console ++ sent (s.callsUpTo n) := by
  induction n with
  | zero => exact (List.append_nil _).symm
  | succ n ih =>
      have hstep : output (s.after (n + 1)).console =
          output (s.after n).console ++ sent (s.after n).calls :=
        Dialogue.output_hold _ _
      rw [hstep, ih, callsUpTo_succ, List.append_assoc, sent_append]

theorem output_run (s : Session σ) (limit : Nat) :
    output (s.run limit).2.console =
      output s.console ++ sent (s.callsUpTo (s.stepsOfRun limit)) := by
  rw [(s.run_sameState limit).console, output_after]

end Output

/-- Each image that is placed is noted. -/
theorem log_foldl_loadImage {σ : Type} (s : Session σ) (images : List Image) :
    (images.foldl loadImage s).log = s.log.addAll (Record.loads images) := by
  unfold Record.loads
  induction images generalizing s with
  | nil => exact s.log.addAll_nil.symm
  | cons image rest ih =>
      have hnoted : (s.loadImage image).log =
          s.log.add (.loading image.words.length image.origin) := rfl
      rw [List.foldl_cons, ih, hnoted, List.map_cons]
      cases s.log <;> simp [Log.add, Log.addAll]

end Session

namespace Launch

namespace Batch

/-- What a new machine is that has the images loaded in order. -/
theorem arch_session {σ : Type} (batch : Batch) (console : σ) :
    (batch.session console).arch =
      { register := fun _ => 0
        pc := 0x3000
        condition := none
        cell := fun addr =>
          (batch.images.reverse.findSome? fun image => image.wordAt? addr).getD 0
        status := .running
        console := console } := by
  obtain ⟨hcells, hregisters, hstatus, hconsole⟩ := Session.foldl_loadImage
    { Session.start console with log := batch.libraries.logOf batch.records } batch.images
  unfold session Session.arch ArchState.of
  rw [hregisters, hstatus, hconsole, funext hcells]
  congr 1
  · funext r
    exact Vector.getElem_replicate r.isLt
  · funext addr
    exact congrArg (Option.getD _) (Memory.peek_blank addr)

theorem log_session {σ : Type} (batch : Batch) (console : σ) :
    (batch.session console).log =
      batch.libraries.logger.map fun _ => (batch.records ++ Record.loads batch.images).toArray := by
  unfold session
  rw [Session.log_foldl_loadImage]
  unfold Libraries.logOf
  cases batch.libraries.logger <;> simp [Log.addAll]

/-- The standard output of a run holds what the program has sent. -/
theorem run_eq (batch : Batch) (limit : Nat) (stdin : List UInt8) :
    let session := batch.session (Piped.ofStream stdin)
    batch.run limit stdin =
      (session.run limit).1.map fun result =>
        let closing := batch.closing (session.run limit).2.log result
        { closing with
          stdout := bytesOf batch.output
            ++ (sent (session.callsUpTo (session.stepsOfRun limit))).toArray
            ++ closing.stdout } := by
  intro session
  have hconsole : session.console = Piped.ofStream stdin :=
    congrArg ArchState.console (batch.arch_session (Piped.ofStream stdin))
  have houtput := session.output_run limit
  rw [hconsole] at houtput
  have hwritten : (session.run limit).2.console.output =
      (sent (session.callsUpTo (session.stepsOfRun limit))).toArray := Array.toList_inj.mp houtput
  unfold run
  rw [← hwritten]

end Batch

theorem Display.message_of_minimal {display : Display} (h : display.minimal = true)
    (colour : Colour) (left right : String) : display.message colour left right = "" := if_pos h

theorem Display.join_fileMessage_of_minimal {display : Display} (h : display.minimal = true)
    (colour : Colour) (left : String) (paths : List String) :
    String.join (paths.map (display.fileMessage colour left)) = "" := by
  induction paths with
  | nil => rfl
  | cons path rest ih =>
      rw [List.map_cons, String.join_cons, ih, String.append_empty]
      exact display.message_of_minimal h _ _ _

/-- The batch of these images, once the paths have been announced. -/
def Batch.opened (libraries : Libraries) (minimal : Bool) (announced : List String)
    (images : List Image) : Batch :=
  let display : Display := ⟨minimal, libraries.paint⟩
  { libraries := libraries
    display := display
    output := String.join (announced.map (display.fileMessage .green "Loading"))
      ++ display.message .green "Running" "loaded images"
    records := Record.reads announced images
    images := images }

theorem Batch.output_opened_of_minimal (libraries : Libraries) (announced : List String)
    (images : List Image) : (opened libraries true announced images).output = "" := by
  show String.join (announced.map _) ++ "" = ""
  rw [Display.join_fileMessage_of_minimal rfl]
  rfl

theorem Batch.stdout_closing_of_minimal (libraries : Libraries) (announced : List String)
    (images : List Image) (log : Log) (result : Except Fault Unit) :
    ((opened libraries true announced images).closing log result).stdout = #[] := by
  cases result <;> rfl

section CarryOut

variable {libraries : Libraries} {lookup : String → Option String} {files : Files} {limit : Nat}
  {arguments : List String} {parsed : Arguments} {stdin : List UInt8} {announced : List String}
  {images : List Image} {minimal : Bool} (hparsed : libraries.parse arguments = .ok parsed)
  (hminimal : minimal = (parsed.minimal || lookup "LCVM_MINIMAL" == some "1"))

include hparsed hminimal

/-- A batch that cannot be opened ends the process. -/
theorem carryOut_of_error {error : LoadError}
    (h : Opening files parsed.images announced images (some error)) :
    carryOut libraries limit lookup files arguments stdin =
      some
        { exitStatus := 1
          stdout := bytesOf (String.join
            (announced.map (Display.fileMessage ⟨minimal, libraries.paint⟩ .green "Loading")))
          stderr := libraries.logText (Record.reads announced images) ++ "Error: "
            ++ libraries.render (.load error) ++ "\n" } := by
  subst hminimal
  unfold carryOut ready
  rw [hparsed]
  dsimp only
  rw [h.prepare_eq]
  rfl

theorem carryOut_of_good (h : Opening files parsed.images announced images none) :
    carryOut libraries limit lookup files arguments stdin =
      (Batch.opened libraries minimal announced images).run limit stdin := by
  subst hminimal
  unfold carryOut ready
  rw [hparsed]
  dsimp only
  rw [h.prepare_eq]
  rfl

end CarryOut

/-- A batch that cannot be opened ends with its error, even if no step may be made, and
without minimal output the paths up to the bad one have been announced.  Any other batch
is run from a new machine with all its images, on the standard input.  With minimal output
nothing is written but what the program writes, and this stands between the status lines
otherwise.  What libraries do is arbitrary, but for the command line of a batch being read
as one. -/
theorem batch_runs_if_opened (libraries : Libraries) (hparse : ReadsBatches libraries.parse)
    (lookup : String → Option String) (files : Files) {before after : List String}
    {flag : Option String} (hflag : ∀ text ∈ flag, AsksMinimal text)
    (himages : ∀ image ∈ before ++ after, NamesImage image) (hsome : before ++ after ≠ [])
    (stdin : List UInt8) :
    let arguments := before ++ flag.toList ++ after
    let minimal := flag.isSome || lookup "LCVM_MINIMAL" == some "1"
    let line (colour : Colour) (left right : String) : String :=
      libraries.paint colour 12 left ++ " " ++ right ++ "\n"
    let loading (paths : List String) : String :=
      String.join (paths.map fun path => line .green "Loading" ("image " ++ path))
    let logged (records : List Record) : String :=
      libraries.logger.elim "" fun text => text records
    (∃ announced images failure, Opening files (before ++ after) announced images failure) ∧
      (∀ announced images error,
        Opening files (before ++ after) announced images (some error) → ∀ limit,
          carryOut libraries limit lookup files arguments stdin =
            some
              { exitStatus := 1
                stdout := if minimal then #[] else (loading announced).toUTF8.data
                stderr := logged (Record.reads announced images) ++ "Error: "
                  ++ libraries.render (.load error) ++ "\n" }) ∧
      ∀ announced images, Opening files (before ++ after) announced images none →
        ∃ session : Session Piped,
          session.arch =
              { register := fun _ => 0
                pc := 0x3000
                condition := none
                cell := fun addr =>
                  (images.reverse.findSome? fun image => image.wordAt? addr).getD 0
                status := .running
                console :=
                  { stream := stdin
                    ahead := { pending := none, ended := false }
                    output := #[] } } ∧
            session.log = (libraries.logger.map fun _ =>
              (Record.reads announced images ++ Record.loads images).toArray) ∧
            ∀ limit,
              let written := (sent (session.callsUpTo (session.stepsOfRun limit))).toArray
              let records := ((session.run limit).2.log.getD #[]).toList
              carryOut libraries limit lookup files arguments stdin =
                (session.run limit).1.map fun result =>
                  { exitStatus := match result with
                      | .ok () => 0
                      | .error _ => 3
                    stdout :=
                      if minimal then written
                      else
                        (loading announced ++ line .green "Running" "loaded images").toUTF8.data
                          ++ written
                          ++ (match result with
                            | .ok () => line .green "Completed" "program halted"
                            | .error _ => line .red "Faulted" "program stopped").toUTF8.data
                    stderr := match result with
                      | .ok () => logged records
                      | .error fault =>
                          logged records ++ libraries.render (.fault fault) ++ "\n" } := by
  intro arguments minimal line loading logged
  have hparsed : libraries.parse arguments = .ok ⟨before ++ after, flag.isSome⟩ :=
    hparse before after flag hflag himages hsome
  refine ⟨Opening.exists_failure files _, ?_, ?_⟩
  · intro announced images error h limit
    rw [carryOut_of_error hparsed (show minimal = _ from rfl) h]
    cases hminimal : minimal with
    | false => rfl
    | true =>
        rw [Display.join_fileMessage_of_minimal rfl]
        rfl
  · intro announced images h
    let session := (Batch.opened libraries minimal announced images).session (Piped.ofStream stdin)
    refine ⟨session, Batch.arch_session _ _, Batch.log_session _ _, ?_⟩
    intro limit written records
    rw [carryOut_of_good hparsed (show minimal = _ from rfl) h, Batch.run_eq]
    congr 1
    funext result
    cases hminimal : minimal with
    | false => cases result <;> rfl
    | true =>
        have hempty : bytesOf "" = #[] := rfl
        dsimp only
        rw [Batch.output_opened_of_minimal, Batch.stdout_closing_of_minimal, hempty,
          Array.empty_append, Array.append_empty]
        cases result <;> rfl

section Sample

/-- A program that halts at once. -/
def haltingImage : Image := ⟨0x3000, [0xF025], by decide⟩

/-- A program that prints a zero byte and then faults. -/
def faultingImage : Image := ⟨0x3000, [0xF021, 0x8000], by decide⟩

/-- The files of the two programs, and one that holds half a word. -/
def sampleFiles : Files where
  globbed _ := .ok []
  read path :=
    match path with
    | "halt.obj" => .ok haltingImage.toBytes
    | "fault.obj" => .ok faultingImage.toBytes
    | "half.obj" => .ok [0x30]
    | _ => .error .notFound

variable {s : Session Piped} {limit : Nat}

theorem run_haltingImage (hat : s.At haltingImage 0x3000) (hlimit : 0 < limit) :
    (s.run limit).1 = some (.ok ()) ∧
      sent (s.callsUpTo (s.stepsOfRun limit)) = TrapRoutine.haltNotice.toUTF8.toList := by
  have hinvokes : (0xF025 : Word).Invokes .halt := ⟨by decide, by decide⟩
  have haccepted : ∀ call ∈ s.calls, call.refuses = false :=
    (Piped.acceptsOutput.hold s.machine.step trivial).2
  obtain ⟨-, -, hresult, -, hsent⟩ := hat.step_prints rfl (by decide) hinvokes rfl haccepted
  have hhalted : s.resultAt 0 = .ok .halted := hresult
  obtain ⟨hrun, hwritten⟩ :=
    (Session.RunsWriting.zero s).run_eq (by rw [hhalted]; simp) hsent hlimit
  rw [hhalted] at hrun
  exact ⟨hrun, hwritten⟩

theorem run_faultingImage (hat : s.At faultingImage 0x3000) (hregister : s.arch.register 0 = 0)
    (hlimit : 1 < limit) :
    (s.run limit).1 = some (.error (.reservedOpcode .rti 0x8000 0x3001)) ∧
      sent (s.callsUpTo (s.stepsOfRun limit)) = [0x00] := by
  have hinvokes : (0xF021 : Word).Invokes .out := ⟨by decide, by decide⟩
  have haccepted : ∀ call ∈ s.calls, call.refuses = false :=
    (Piped.acceptsOutput.hold s.machine.step trivial).2
  obtain ⟨console, -, hresult, harch, hsent⟩ :=
    hat.step_prints rfl (by decide) hinvokes rfl haccepted
  rw [hregister] at hsent
  have hrunning : s.resultAt 0 = .ok .running := hresult
  have hat' : (s.after 1).At faultingImage 0x3001 :=
    hat.of_arch harch hat.running rfl fun _ _ => rfl
  obtain ⟨hfault, hsilent⟩ :=
    hat'.step_refused rfl (by decide) (Or.inl (by decide)) (.rti (by decide))
  have hfaulted : s.resultAt 1 = .error (.reservedOpcode .rti 0x8000 0x3001) := hfault
  obtain ⟨hrun, hwritten⟩ := ((Session.RunsWriting.zero s).succ hrunning hsent).run_eq
    (by rw [hfaulted]; simp) hsilent hlimit
  rw [hfaulted] at hrun
  exact ⟨hrun, hwritten⟩

theorem namesImage_of_cons {text : String} {c : Char} {letters : List Char}
    (htext : text.toList = c :: letters) (hc : c ≠ '-') : NamesImage text := by
  refine ⟨?_, ?_⟩
  · rintro rfl
    cases htext
  · intro first rest h
    rw [htext] at h
    exact hc (List.cons.inj h).1

theorem forall₂_standsFor_pair {first second : String} (hfirst : isPattern first = false)
    (hsecond : isPattern second = false) :
    List.Forall₂ (StandsFor sampleFiles.globbed) [first, second] [[first], [second]] :=
  .cons (.itself ((isPattern_eq_false_iff first).mp hfirst))
    (.cons (.itself ((isPattern_eq_false_iff second).mp hsecond)) .nil)

/-- The second argument decides: its file is not there, it is a glob without matches, its
file holds half a word, or its program is the one that runs and halts or faults. -/
theorem batch_runs_if_opened_sampleFiles :
    let libraries := Process.libraries (fun _ => none) false false
    let ending (arguments : List String) (limit : Nat) : Option Ending :=
      carryOut libraries limit (fun _ => none) sampleFiles arguments [0x41]
    ReadsBatches libraries.parse ∧
      (∀ limit, ending ["halt.obj", "-m", "none.obj"] limit =
        some
          { exitStatus := 1
            stdout := #[]
            stderr := "Error: " ++ libraries.render (.load (.unopened "none.obj" .notFound))
              ++ "\n" }) ∧
      (∀ limit, ending ["halt.obj", "*.img"] limit =
        some
          { exitStatus := 1
            stdout := #[]
            stderr := "Error: " ++ libraries.render (.load (.noMatch "*.img")) ++ "\n" }) ∧
      (∀ limit, ending ["halt.obj", "half.obj"] limit =
        some
          { exitStatus := 1
            stdout := "     Loading image halt.obj\n     Loading image half.obj\n".toUTF8.data
            stderr := "Error: " ++ libraries.render (.load (.misaligned 1)) ++ "\n" }) ∧
      (∀ limit, 0 < limit → ending ["fault.obj", "halt.obj"] limit =
        some
          { exitStatus := 0
            stdout := ("     Loading image fault.obj\n     Loading image halt.obj\n"
              ++ "     Running loaded images\n\nHalted\n   Completed program halted\n").toUTF8.data
            stderr := "" }) ∧
      ∀ limit, 1 < limit → ending ["halt.obj", "fault.obj"] limit =
        some
          { exitStatus := 3
            stdout := ("     Loading image halt.obj\n     Loading image fault.obj\n"
              ++ "     Running loaded images\n\x00     Faulted program stopped\n").toUTF8.data
            stderr := libraries.render (.fault (.reservedOpcode .rti 0x8000 0x3001)) ++ "\n" } := by
  intro libraries ending
  have hparse : ReadsBatches libraries.parse := Process.readsBatches _ _ _
  have hnames (images : List String)
      (hsubset : images ⊆ ["halt.obj", "fault.obj", "half.obj", "none.obj", "*.img"]) :
      ∀ image ∈ images, NamesImage image := by
    intro image himage
    have hmem := hsubset himage
    simp only [List.mem_cons, List.not_mem_nil, or_false] at hmem
    rcases hmem with rfl | rfl | rfl | rfl | rfl <;> exact namesImage_of_cons rfl (by decide)
  have hflag : ∀ text ∈ some "-m", AsksMinimal text := by
    intro text htext
    exact Or.inl (Option.mem_some_iff.mp htext).symm
  have hplain : ∀ text ∈ (none : Option String), AsksMinimal text := fun _ h => by cases h
  have hpair (first second : String)
      (himages : ∀ image ∈ [first, second] ++ [], NamesImage image) :=
    batch_runs_if_opened libraries hparse (fun _ => none) sampleFiles hplain himages
      (List.cons_ne_nil _ _) [0x41]
  have hhalt : HoldsImage sampleFiles "halt.obj" haltingImage := rfl
  have hfault : HoldsImage sampleFiles "fault.obj" faultingImage := rfl
  refine ⟨hparse, ?_, ?_, ?_, ?_, ?_⟩
  · have himages : ∀ image ∈ ["halt.obj"] ++ ["none.obj"], NamesImage image := hnames _ (by decide)
    obtain ⟨-, herror, -⟩ := batch_runs_if_opened libraries hparse (fun _ => none) sampleFiles hflag
      himages (by decide) [0x41]
    exact herror _ _ _ (.unusable ["halt.obj"] [] (forall₂_standsFor_pair rfl rfl) rfl
      (.cons hhalt .nil) (.unread rfl))
  · obtain ⟨-, herror, -⟩ := hpair "halt.obj" "*.img" (hnames _ (by decide))
    refine herror _ _ _ (.unexpanded ["halt.obj"] [] rfl ?_
      (.unmatched ((isPattern_iff _).mp rfl) rfl))
    intro earlier hearlier
    obtain rfl := List.mem_singleton.mp hearlier
    exact ⟨_, .itself ((isPattern_eq_false_iff _).mp rfl)⟩
  · obtain ⟨-, herror, -⟩ := hpair "halt.obj" "half.obj" (hnames _ (by decide))
    exact herror _ _ _ (.unusable ["halt.obj"] [] (forall₂_standsFor_pair rfl rfl) rfl
      (.cons hhalt .nil) (.malformed rfl (.odd rfl)))
  · intro limit hlimit
    obtain ⟨-, -, hgood⟩ := hpair "fault.obj" "halt.obj" (hnames _ (by decide))
    obtain ⟨session, harch, -, hending⟩ := hgood _ _
      (.good (forall₂_standsFor_pair rfl rfl) (.cons hfault (.cons hhalt .nil)))
    have hat : session.At haltingImage 0x3000 :=
      Session.at_of_cells [faultingImage] (congrArg ArchState.status harch)
        (congrArg ArchState.pc harch) (congrFun (congrArg ArchState.cell harch))
    obtain ⟨hresult, hwritten⟩ := run_haltingImage hat hlimit
    have hstdout :
        ("     Loading image fault.obj\n     Loading image halt.obj\n"
              ++ "     Running loaded images\n").toUTF8.data
            ++ TrapRoutine.haltNotice.toUTF8.toList.toArray
            ++ "   Completed program halted\n".toUTF8.data =
          ("     Loading image fault.obj\n     Loading image halt.obj\n"
            ++ "     Running loaded images\n\nHalted\n   Completed program halted\n").toUTF8.data := by
      decide +kernel
    have hended := hending limit
    dsimp only at hended
    rw [hresult, hwritten] at hended
    exact hended.trans (congrArg (fun stdout => some (Ending.mk 0 stdout "")) hstdout)
  · intro limit hlimit
    obtain ⟨-, -, hgood⟩ := hpair "halt.obj" "fault.obj" (hnames _ (by decide))
    obtain ⟨session, harch, -, hending⟩ := hgood _ _
      (.good (forall₂_standsFor_pair rfl rfl) (.cons hhalt (.cons hfault .nil)))
    have hat : session.At faultingImage 0x3000 :=
      Session.at_of_cells [haltingImage] (congrArg ArchState.status harch)
        (congrArg ArchState.pc harch) (congrFun (congrArg ArchState.cell harch))
    have hregister : session.arch.register 0 = 0 := congrFun (congrArg ArchState.register harch) 0
    obtain ⟨hresult, hwritten⟩ := run_faultingImage hat hregister hlimit
    have hstdout :
        ("     Loading image halt.obj\n     Loading image fault.obj\n"
              ++ "     Running loaded images\n").toUTF8.data
            ++ #[0x00] ++ "     Faulted program stopped\n".toUTF8.data =
          ("     Loading image halt.obj\n     Loading image fault.obj\n"
            ++ "     Running loaded images\n\x00     Faulted program stopped\n").toUTF8.data := by
      decide +kernel
    have hended := hending limit
    dsimp only at hended
    rw [hresult, hwritten] at hended
    exact hended.trans (congrArg (fun stdout => some (Ending.mk 3 stdout
      (libraries.render (.fault (.reservedOpcode .rti 0x8000 0x3001)) ++ "\n"))) hstdout)

end Sample

end Launch

end Lc3
