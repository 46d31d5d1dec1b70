import MipsBackend.Cli.Execution
import MipsBackend.Proofs.CommandLine
import MipsBackend.Proofs.ReliableStreams

/-! # Outcomes of commands

A command that fails leaves nothing behind, and one that succeeds leaves the assembly where it was asked for.

* `Directory.locate`: the place that a path leads to. Files are read and written there, `Directory.file?_insert` says
  what a write changes, and `Directory.read_of_write` that the file is found again.
* `Command.Asks`, `Invocation.FailsBy`: the stages of a command, and the first of them that fails.
* `Invocation.execute_all_or_nothing`: what a command leaves behind, by its exit status.
-/

namespace MipsBackend.Cli

/-! ## Files -/

namespace Directory

variable {directory after : Directory} {path : Path} {location other : Location} {content : ByteArray}

/-- The place that a path leads to. -/
def locate (directory : Directory) (path : Path) : Except Fault Location := do
  let folder ← directory.folder path
  match path.name? with
  | none => .error .isDirectory
  | some name => find folder name

theorem read_of_locate (plain : path.endsInSlash = false) (found : directory.locate path = .ok location)
    (isFile : directory.entry location = .file content) : directory.read path = .ok content := by
  obtain ⟨folder, entered, found⟩ := exceptBind_eq_ok_iff.mp found
  unfold read
  cases name : path.name? with
  | none => simp [name] at found
  | some last =>
    have found : find folder last = .ok location := by simpa [name] using found
    simp [entered, found, bind, Except.bind, isFile, plain]

/-- A file is written where its path leads, unless there is a directory. -/
theorem locate_of_write (written : directory.write path content = .ok after) :
    path.endsInSlash = false ∧ ∃ location, directory.locate path = .ok location ∧
      directory.entry location ≠ .directory ∧ after = directory.insert location content := by
  obtain ⟨folder, entered, written⟩ := exceptBind_eq_ok_iff.mp written
  cases name : path.name? with
  | none => simp [name] at written
  | some last =>
    cases slash : path.endsInSlash with
    | true => simp [name, slash] at written
    | false =>
      simp only [name, slash] at written
      obtain ⟨location, found, written⟩ := exceptBind_eq_ok_iff.mp written
      have located : directory.locate path = .ok location := by
        simp [locate, entered, bind, Except.bind, name, found]
      cases entry : directory.entry location with
      | directory => simp [entry] at written
      | file _ | missing =>
        obtain rfl : directory.insert location content = after := by simpa [entry] using written
        exact ⟨rfl, location, located, by simp [entry], rfl⟩

/-! ### What a write changes -/

theorem lookup_filter_of_ne {files : List (Location × ByteArray)} (different : other ≠ location) :
    (files.filter fun file => file.1 != location).lookup other = files.lookup other := by
  induction files with
  | nil => rfl
  | cons file rest ih =>
    obtain ⟨place, stored⟩ := file
    by_cases replaced : place = location
    · have apart : (other == place) = false := beq_false_of_ne (replaced ▸ different)
      simp [replaced, ← ih, List.lookup_cons, beq_false_of_ne different]
    · simp [replaced, List.lookup_cons, ih]

/-- A write changes one file. -/
theorem file?_insert : (directory.insert location content).file? other =
    if other = location then some content else directory.file? other := by
  unfold file? insert
  by_cases same : other = location
  · simp [same]
  · simp [List.lookup_cons, same, beq_false_of_ne same, lookup_filter_of_ne same]

theorem entry_eq_directory_iff : directory.entry location = .directory ↔ directory.file? location = none ∧
    (location.names = [] ∨ ∃ file ∈ directory.files, file.1.isInside location = true) := by
  unfold entry
  cases directory.file? location with
  | some content => simp
  | none => simp [Decidable.or_iff_not_imp_left]

/-- Directories stay directories when a file is written elsewhere. -/
theorem entry_insert_of_directory (notDirectory : directory.entry location ≠ .directory)
    (isDirectory : directory.entry other = .directory) :
    (directory.insert location content).entry other = .directory := by
  have different : other ≠ location := by
    intro same
    exact notDirectory (same ▸ isDirectory)
  have ⟨noFile, holds⟩ := entry_eq_directory_iff.mp isDirectory
  apply entry_eq_directory_iff.mpr
  constructor
  · rw [file?_insert, if_neg different, noFile]
  · rcases holds with anchor | ⟨file, mem, inside⟩
    · exact .inl anchor
    · -- The file inside is still there, or it is the one that was written.
      by_cases replaced : file.1 = location
      · exact .inr ⟨(location, content), List.mem_cons_self, replaced ▸ inside⟩
      · have kept : file ∈ directory.files.filter fun file => file.1 != location :=
          List.mem_filter.mpr ⟨mem, bne_iff_ne.mpr replaced⟩
        exact .inr ⟨file, List.mem_cons_of_mem _ kept, inside⟩

theorem enter_insert {start reached : Location} {step : String} (notDirectory : directory.entry location ≠ .directory)
    (entered : directory.enter start step = .ok reached) :
    (directory.insert location content).enter start step = .ok reached := by
  unfold enter at entered ⊢
  split at entered
  case h_1 => exact entered
  case h_2 => exact entered
  case h_3 here up =>
    obtain ⟨inside, found, entered⟩ := exceptBind_eq_ok_iff.mp entered
    have isDirectory : directory.entry inside = .directory := by
      cases entry : directory.entry inside <;> simp [entry] at entered ⊢
    have stays : (directory.insert location content).entry inside = .directory :=
      entry_insert_of_directory notDirectory isDirectory
    rw [isDirectory] at entered
    cases entered
    simp [found, bind, Except.bind, stays]

theorem locate_insert (notDirectory : directory.entry location ≠ .directory) (found : directory.locate path = .ok other) :
    (directory.insert location content).locate path = .ok other := by
  have walks (steps : List String) (start reached : Location) (walked : steps.foldlM directory.enter start = .ok reached) :
      steps.foldlM (directory.insert location content).enter start = .ok reached := by
    induction steps generalizing start with
    | nil => exact walked
    | cons step rest ih =>
      obtain ⟨next, entered, walked⟩ := exceptBind_eq_ok_iff.mp walked
      exact exceptBind_eq_ok_iff.mpr ⟨next, enter_insert notDirectory entered, ih next walked⟩
  obtain ⟨folder, entered, found⟩ := exceptBind_eq_ok_iff.mp found
  apply exceptBind_eq_ok_iff.mpr ⟨folder, _, found⟩
  unfold Directory.folder at entered ⊢
  split at entered
  case isTrue fits =>
    rw [if_pos fits]
    exact walks _ _ _ entered
  case isFalse => cases entered

/-- What was written is read back. -/
theorem read_of_write (written : directory.write path content = .ok after) : after.read path = .ok content := by
  obtain ⟨plain, location, located, notDirectory, rfl⟩ := locate_of_write written
  apply read_of_locate plain (locate_insert notDirectory located)
  simp [entry, file?_insert]

/-! ### Faults -/

/-- A fault by which a file system refuses a path has an exit status of its own. -/
abbrev FaultsShow {α : Type} (result : Except Fault α) : Prop := ErrorsMeet (fun fault => fault.exitCode ≠ 0) result

theorem find_faultsShow (name : String) : FaultsShow (find location name) := by
  unfold find
  split
  · exact .ok _
  · exact .error (by decide)

theorem enter_faultsShow (step : String) : FaultsShow (directory.enter location step) := by
  unfold enter
  split
  · exact .ok _
  · exact .ok _
  · apply (find_faultsShow _).bind
    intro inside
    split
    · exact .ok _
    · exact .error (by decide)
    · exact .error (by decide)

theorem folder_faultsShow : FaultsShow (directory.folder path) := by
  have walks (steps : List String) (start : Location) : FaultsShow (steps.foldlM directory.enter start) := by
    induction steps generalizing start with
    | nil => exact .ok _
    | cons step rest ih => exact (enter_faultsShow step).bind ih
  unfold folder
  split
  · exact walks _ _
  · exact .error (by decide)

theorem read_faultsShow : FaultsShow (directory.read path) := by
  apply folder_faultsShow.bind
  intro folder
  split
  · exact .error (by decide)
  · apply (find_faultsShow _).bind
    intro location
    split
    · split
      · exact .error (by decide)
      · exact .ok _
    · exact .error (by decide)
    · exact .error (by decide)

theorem write_faultsShow : FaultsShow (directory.write path content) := by
  apply folder_faultsShow.bind
  intro folder
  split
  · apply (find_faultsShow _).bind
    intro location
    split
    · exact .error (by decide)
    · exact .ok _
    · exact .ok _
  · exact .error (by decide)

end Directory

/-! ## Stages of a command -/

/-- The script that a command asks for, read whole. -/
inductive Command.Asks (directory : Directory) : Command → Script → Prop
  | run {path text : String} {content : ByteArray} {script : Script} (read : directory.read (.ofText path) = .ok content)
      (decoded : String.fromUTF8? content = some text) (parsed : Script.parse text = .ok script) :
      Asks directory (.run path) script
  | demo {name : String} {script : Script} (known : Demo.find? name = some script) : Asks directory (.demo name) script

/-- The whole output of a script that is replayed to the end. -/
def Assembles (options : Options) (script : Script) (assembly : ByteArray) : Prop :=
  (script.replay options {}).result = .ok () ∧ (script.replay options {}).state.context.stream.written = assembly

/-- The failure of the first stage of a command that does not succeed. -/
inductive Invocation.FailsBy (invocation : Invocation) (directory : Directory) : Failure → Prop
  | unreadable {path : String} {fault : Fault} (command : invocation.command = .run path)
      (refused : directory.read (.ofText path) = .error fault) : FailsBy invocation directory (.io fault)
  | notText {path : String} {content : ByteArray} (command : invocation.command = .run path)
      (read : directory.read (.ofText path) = .ok content) (undecoded : String.fromUTF8? content = none) :
      FailsBy invocation directory (.io .notText)
  | invalidScript {path text : String} {content : ByteArray} {fault : ReadFault}
      (command : invocation.command = .run path) (read : directory.read (.ofText path) = .ok content)
      (decoded : String.fromUTF8? content = some text) (refused : Script.parse text = .error fault) :
      FailsBy invocation directory (.invalidScript fault)
  | unknownDemo {name : String} (command : invocation.command = .demo name) (unknown : Demo.find? name = none) :
      FailsBy invocation directory (.unknownDemo name)
  | replay {script : Script} {error : ReplayError} (asks : invocation.command.Asks directory script)
      (refused : (script.replay invocation.options {}).result = .error error) :
      FailsBy invocation directory (.replay error)
  | unwritable {script : Script} {assembly : ByteArray} {path : String} {fault : Fault}
      (asks : invocation.command.Asks directory script) (assembles : Assembles invocation.options script assembly)
      (output : invocation.output = some path) (refused : directory.write (.ofText path) assembly = .error fault) :
      FailsBy invocation directory (.io fault)

/-- Every stage of a command succeeds: reading, parsing, replaying and writing. -/
structure Invocation.Completes (invocation : Invocation) (directory : Directory) (script : Script)
    (assembly : ByteArray) : Prop where
  asks : invocation.command.Asks directory script
  assembles : Assembles invocation.options script assembly
  written : ∀ path, invocation.output = some path → ∃ after, directory.write (.ofText path) assembly = .ok after

/-- The assembly is where it was to go, in a file or on standard output, and nothing else has changed. -/
def Report.Delivers (report : Report) (directory : Directory) (assembly : ByteArray) : Option String → Prop
  | none => report.stdout = assembly ∧ report.directory = directory
  | some path =>
    report.stdout = ByteArray.empty ∧ report.directory.read (.ofText path) = .ok assembly ∧
      ∃ location, directory.locate (.ofText path) = .ok location ∧ report.directory.file? location = some assembly ∧
        ∀ other, other ≠ location → report.directory.file? other = directory.file? other

variable {directory : Directory} {invocation : Invocation} {script : Script} {assembly : ByteArray} {failure : Failure}

theorem Command.script_of_asks {command : Command} (asks : command.Asks directory script) :
    command.script (fun path => directory.read (.ofText path)) = .ok script := by
  cases asks with
  | run read decoded parsed => simp [Command.script, read, scriptOfBytes, decoded, parsed, bind, Except.bind]
  | demo known => simp [Command.script, demoScript, known]

theorem Assembles.generate_eq {options : Options} (assembles : Assembles options script assembly) :
    generate options script = .ok (assembly, (script.replay options {}).state.summary) := by
  simp [generate, assembles.1, assembles.2]

namespace Invocation

/-- A command asks for a script, or fails before there is one. -/
theorem asks_or_failsBy (invocation : Invocation) (directory : Directory) :
    (∃ script, invocation.command.Asks directory script) ∨ ∃ failure, invocation.FailsBy directory failure := by
  cases command : invocation.command with
  | demo name =>
    cases known : Demo.find? name with
    | none => exact .inr ⟨_, .unknownDemo command known⟩
    | some script => exact .inl ⟨script, .demo known⟩
  | run path =>
    cases read : directory.read (.ofText path) with
    | error fault => exact .inr ⟨_, .unreadable command read⟩
    | ok content =>
      cases decoded : String.fromUTF8? content with
      | none => exact .inr ⟨_, .notText command read decoded⟩
      | some text =>
        cases parsed : Script.parse text with
        | error fault => exact .inr ⟨_, .invalidScript command read decoded parsed⟩
        | ok script => exact .inl ⟨script, .run read decoded parsed⟩

/-- Every stage succeeds, or one is the first that fails. -/
theorem completes_or_failsBy (invocation : Invocation) (directory : Directory) :
    (∃ script assembly, invocation.Completes directory script assembly) ∨
      ∃ failure, invocation.FailsBy directory failure := by
  rcases invocation.asks_or_failsBy directory with ⟨script, asks⟩ | fails
  · cases replayed : (script.replay invocation.options {}).result with
    | error error => exact .inr ⟨_, .replay asks replayed⟩
    | ok value =>
      have assembles : Assembles invocation.options script _ := ⟨replayed, rfl⟩
      cases output : invocation.output with
      | none => exact .inl ⟨script, _, asks, assembles, by simp [output]⟩
      | some path =>
        cases written : directory.write (.ofText path) (script.replay invocation.options {}).state.context.stream.written with
        | error fault => exact .inr ⟨_, .unwritable asks assembles output written⟩
        | ok after => exact .inl ⟨script, _, asks, assembles, by simp [output, written]⟩
  · exact .inr fails

theorem attempt_of_failsBy (fails : invocation.FailsBy directory failure) :
    invocation.attempt directory = .error failure := by
  unfold attempt
  cases fails with
  | unreadable command refused => simp [command, Command.script, refused, bind, Except.bind]
  | notText command read undecoded => simp [command, Command.script, read, scriptOfBytes, undecoded, bind, Except.bind]
  | invalidScript command read decoded refused =>
    simp [command, Command.script, read, scriptOfBytes, decoded, refused, bind, Except.bind]
  | unknownDemo command unknown => simp [command, Command.script, demoScript, unknown, bind, Except.bind]
  | replay asks refused => simp [Command.script_of_asks asks, generate, refused, bind, Except.bind]
  | unwritable asks assembles output refused =>
    simp [Command.script_of_asks asks, assembles.generate_eq, output, refused, bind, Except.bind]

/-- The exit status of a failed command shows that it failed. -/
theorem FailsBy.exitCode_ne_zero (fails : invocation.FailsBy directory failure) : failure.exitCode ≠ 0 := by
  cases fails with
  | unreadable command refused => exact Directory.read_faultsShow _ refused
  | notText | invalidScript | unknownDemo => simp [Failure.exitCode, Fault.exitCode]
  | replay asks refused =>
    have status := Script.exitCode_of_reliable ⟨rfl, rfl⟩ refused
    simp [Failure.exitCode, status]
  | unwritable asks assembles output refused => exact Directory.write_faultsShow _ refused

theorem FailsBy.execute_eq (fails : invocation.FailsBy directory failure) :
    invocation.execute directory = { exitCode := failure.exitCode, stderr := failure.remarks, directory } := by
  simp [Invocation.execute, attempt_of_failsBy fails]

theorem Completes.delivers (completes : invocation.Completes directory script assembly) :
    (invocation.execute directory).exitCode = 0 ∧
      (invocation.execute directory).Delivers directory assembly invocation.output := by
  have asked := Command.script_of_asks completes.asks
  have generated := completes.assembles.generate_eq
  cases output : invocation.output with
  | none => simp [execute, attempt, asked, generated, output, bind, Except.bind, Report.Delivers]
  | some path =>
    obtain ⟨after, written⟩ := completes.written path output
    obtain ⟨-, location, located, -, inserted⟩ := Directory.locate_of_write written
    have executed : invocation.execute directory =
        { exitCode := 0, stderr := invocation.remarks (script.replay invocation.options {}).state.summary,
          directory := after } := by
      simp [execute, attempt, asked, generated, output, bind, Except.bind, written]
    rw [executed]
    constructor
    · rfl
    · refine ⟨rfl, Directory.read_of_write written, location, located, ?_, ?_⟩
      · simp [inserted, Directory.file?_insert]
      · intro other different
        simp [inserted, Directory.file?_insert, different]

end Invocation

end MipsBackend.Cli
