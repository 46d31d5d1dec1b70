import MipsBackend.Cli.Directory
import MipsBackend.Cli.Invocation
import MipsBackend.Script.Demo
import MipsBackend.Script.Reader
import MipsBackend.Script.Replay

/-! # Carrying out commands

A command reads its script, replays it in memory and only then writes the assembly, so a failed
command leaves nothing behind.
-/

namespace MipsBackend.Cli

inductive Failure
  | io (fault : Fault)
  | invalidScript (fault : ReadFault)
  | unknownDemo (name : String)
  | replay (error : ReplayError)
deriving DecidableEq

namespace Failure

def message : Failure → String
  | io fault => fault.message
  | invalidScript _ => "invalid script"
  | unknownDemo name =>
    "unknown demo '" ++ name ++ "', expected one of: " ++ ", ".intercalate Demo.names
  | replay error => error.message

def exitCode : Failure → Int
  | io fault => fault.exitCode
  | invalidScript _ => 1
  | unknownDemo _ => 2
  | replay error => error.exitCode

end Failure

def versionText : String := "cmc 0.1.0\n"

/-- The script in a file with the given bytes. -/
def scriptOfBytes (content : ByteArray) : Except Failure Script :=
  match String.fromUTF8? content with
  | none => .error (.io .notText)
  | some text => (Script.parse text).mapError .invalidScript

def demoScript (name : String) : Except Failure Script :=
  match Demo.find? name with
  | some script => .ok script
  | none => .error (.unknownDemo name)

/-- The script a command replays; `readFile` gives the content of a file. -/
def Command.script (readFile : String → Except Fault ByteArray) : Command → Except Failure Script
  | .run path => do
    let content ← (readFile path).mapError Failure.io
    scriptOfBytes content
  | .demo name => demoScript name

def generate (options : Options) (script : Script) : Except Failure (ByteArray × Summary) :=
  let outcome := script.replay options {}
  match outcome.result with
  | .ok () => .ok (outcome.state.context.stream.written, outcome.state.summary)
  | .error error => .error (.replay error)

/-- What a command leaves behind. -/
structure Report where
  exitCode : Int
  stdout : ByteArray := ByteArray.empty
  stderr : String := ""
  directory : Directory

/-- What a successful command prints about the run. -/
def Invocation.remarks (invocation : Invocation) (summary : Summary) : String :=
  if invocation.stats then summary.render ++ "\n" else ""

def Failure.remarks (failure : Failure) : String := "Error: " ++ failure.message ++ "\n"

/-- Carries out a command in a directory, up to its report. -/
def Invocation.attempt (invocation : Invocation) (directory : Directory) : Except Failure Report := do
  let script ← invocation.command.script fun path => directory.read (.ofText path)
  let (assembly, summary) ← generate invocation.options script
  let remarks := invocation.remarks summary
  match invocation.output with
  | none => .ok { exitCode := 0, stdout := assembly, stderr := remarks, directory }
  | some path =>
    let directory ← (directory.write (.ofText path) assembly).mapError Failure.io
    .ok { exitCode := 0, stderr := remarks, directory }

/-- Carries out a command in a directory. -/
def Invocation.execute (invocation : Invocation) (directory : Directory) : Report :=
  match invocation.attempt directory with
  | .ok report => report
  | .error failure => { exitCode := failure.exitCode, stderr := failure.remarks, directory }

end MipsBackend.Cli
