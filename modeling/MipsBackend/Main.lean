import MipsBackend.Cli.Execution

/-! # The command

Carries out the command line on real files. All decisions are made by `MipsBackend.Cli`; this module
reads, prints and writes.
-/

namespace MipsBackend.Cli

def usageText : String :=
  "usage: cmc [-v] run SCRIPT [-o FILE] [--max-depth N] [--buffer-capacity N] [--annotate] [--stats]\n" ++
  "       cmc [-v] demo [NAME] [-o FILE] [--max-depth N] [--buffer-capacity N] [--annotate] [--stats]\n" ++
  "       cmc --version\n"

/-- The fault behind an error of the file system. -/
def faultOf : IO.Error → Fault
  | .alreadyExists _ code _ | .otherError code _ | .resourceBusy code _ | .resourceVanished code _
  | .unsupportedOperation code _ | .hardwareFault code _ | .unsatisfiedConstraints code _
  | .illegalOperation code _ | .protocolError code _ | .timeExpired code _ | .interrupted _ code _
  | .noFileOrDirectory _ code _ | .invalidArgument _ code _ | .permissionDenied _ code _
  | .resourceExhausted _ code _ | .inappropriateType _ code _ | .noSuchThing _ code _ =>
    .system code.toNat
  | .unexpectedEof => .described "unexpected end of file"
  | .userError text => .described text

/-- Runs an action and keeps its fault as a value. -/
def caught {α : Type} (action : IO α) : IO (Except Fault α) := do
  try
    return .ok (← action)
  catch error => return .error (faultOf error)

/-- The content of the file a command reads, if it reads one. -/
def Command.content : Command → IO (Except Fault ByteArray)
  | .run path => caught (IO.FS.readBinFile path)
  | .demo _ => return .ok ByteArray.empty

/-- Writes the assembly where it was asked for. -/
def deliver (output : Option String) (assembly : ByteArray) : IO (Except Fault Unit) :=
  match output with
  | some path => caught (IO.FS.writeBinFile path assembly)
  | none => caught do
    let stdout ← IO.getStdout
    stdout.write assembly
    stdout.flush

def printTrace (options : Options) (script : Script) : IO Unit :=
  for event in (script.replay options {}).events do
    if event.severity = .debug then IO.eprintln ("[DEBUG] " ++ event.message)

/-- Carries out an invocation on real files. -/
def Invocation.carryOut (invocation : Invocation) : IO (Except Failure Unit) := do
  let content ← invocation.command.content
  match invocation.command.script fun _ => content with
  | .error failure => return .error failure
  | .ok script =>
    if invocation.verbose then printTrace invocation.options script
    match generate invocation.options script with
    | .error failure => return .error failure
    | .ok (assembly, summary) =>
      match ← deliver invocation.output assembly with
      | .error fault => return .error (.io fault)
      | .ok () =>
        IO.eprint (invocation.remarks summary)
        return .ok ()

end MipsBackend.Cli

open MipsBackend.Cli in
/-- Runs the command; the exit status tells how it went. -/
def main (words : List String) : IO UInt32 := do
  match Invocation.parse words with
  | .error .usage =>
    IO.eprint usageText
    return 2
  | .error .version =>
    IO.print versionText
    return 0
  | .ok invocation =>
    match ← invocation.carryOut with
    | .ok () => return 0
    | .error failure =>
      IO.eprint failure.remarks
      return failure.exitCode.toInt32.toUInt32
