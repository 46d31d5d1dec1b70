import MipsBackend.Context

/-! # Command line arguments

A command is `run` with a script file or `demo` with the name of a built-in script. Options may
stand before or after that operand; each may be given once. Words after `--` are operands.
-/

namespace MipsBackend.Cli

inductive Command
  | run (script : String)
  | demo (name : String)
deriving DecidableEq

structure Invocation where
  command : Command
  /-- File to write; standard output if there is none. -/
  output : Option String := none
  options : Options := {}
  stats : Bool := false
  verbose : Bool := false
deriving DecidableEq

/-- Why no command is carried out. -/
inductive Stop
  | usage
  | version
deriving DecidableEq

inductive Switch
  | verbose | annotate | stats | version
deriving DecidableEq

inductive Setting
  | output | maxDepth | bufferCapacity
deriving DecidableEq

/-- Words that choose a command. -/
inductive Verb
  | run | demo
deriving DecidableEq

namespace Verb

def ofWord? : String → Option Verb
  | "run" => some run
  | "demo" => some demo
  | _ => none

end Verb

/-- What was read of a command line so far. -/
structure Draft where
  verb : Option Verb := none
  /-- An option that waits for its value. -/
  pending : Option Setting := none
  /-- Whether every further word is an operand. -/
  operandsOnly : Bool := false
  operand : Option String := none
  /-- Switches given since the command was chosen, or before it. -/
  switches : List Switch := []
  /-- Whether the trace was asked for before the command. -/
  verboseBefore : Bool := false
  output : Option String := none
  maxDepth : Option Nat := none
  bufferCapacity : Option Nat := none

def digits? (digits : List Char) : Option Nat :=
  if digits.isEmpty || !digits.all Char.isDigit then none else some (Nat.ofDigitChars 10 digits 0)

/-- A number of at most 64 bits, with an optional plus sign. -/
def number? (word : String) : Option Nat := do
  let value ← digits? (match word.toList with
    | '+' :: digits => digits
    | digits => digits)
  if value < UInt64.size then some value else none

namespace Draft

/-- The draft with a switch turned on, which may be done once. The version is known only before the
command is chosen, the other switches except the trace only after it. -/
def turnOn (draft : Draft) (switch : Switch) : Except Stop Draft :=
  let known := match switch, draft.verb with
    | .verbose, _ => true
    | .version, verb => verb.isNone
    | _, verb => verb.isSome
  if !known then .error .usage
  else if switch = .version then .error .version
  else if draft.switches.contains switch then .error .usage
  else .ok { draft with switches := switch :: draft.switches }

/-- The draft with a value for an option, which may be given once. -/
def store (draft : Draft) (setting : Setting) (value : String) : Except Stop Draft :=
  match setting with
  | .output =>
    if draft.output.isSome || value.isEmpty then .error .usage
    else .ok { draft with output := some value, pending := none }
  | .maxDepth =>
    match draft.maxDepth, number? value with
    | none, some number => .ok { draft with maxDepth := some number, pending := none }
    | _, _ => .error .usage
  | .bufferCapacity =>
    match draft.bufferCapacity, number? value with
    | none, some number => .ok { draft with bufferCapacity := some number, pending := none }
    | _, _ => .error .usage

/-- The draft waiting for the value of an option, which exist only after the command. -/
def await (draft : Draft) (setting : Setting) : Except Stop Draft :=
  if draft.verb.isNone then .error .usage else .ok { draft with pending := some setting }

/-- The draft with a word that is not an option: the command, or else its operand. -/
def takeWord (draft : Draft) (word : String) : Except Stop Draft :=
  match draft.verb with
  | none =>
    match Verb.ofWord? word with
    | none => .error .usage
    | some verb =>
      .ok { draft with verb := some verb, switches := [], verboseBefore := draft.switches.contains .verbose }
  | some _ =>
    if draft.operand.isSome then .error .usage else .ok { draft with operand := some word }

def longOption? : String → Option (Switch ⊕ Setting)
  | "verbose" => some (.inl .verbose)
  | "version" => some (.inl .version)
  | "annotate" => some (.inl .annotate)
  | "stats" => some (.inl .stats)
  | "output" => some (.inr .output)
  | "max-depth" => some (.inr .maxDepth)
  | "buffer-capacity" => some (.inr .bufferCapacity)
  | _ => none

/-- The part of a word before its first equals sign, and the part after it. -/
def splitAtEquals (word : List Char) : String × Option String :=
  match word.dropWhile (· != '=') with
  | [] => (String.ofList word, none)
  | _ :: value => (String.ofList (word.takeWhile (· != '=')), some (String.ofList value))

/-- Reads a long option, given without its dashes. -/
def takeLong (draft : Draft) (word : List Char) : Except Stop Draft :=
  let (name, value) := splitAtEquals word
  match longOption? name, value with
  | some (.inl switch), none => draft.turnOn switch
  | some (.inr setting), none => draft.await setting
  | some (.inr setting), some value =>
    if draft.verb.isNone then .error .usage else draft.store setting value
  | _, _ => .error .usage

/-- Reads a run of short options. The rest of the run after an option with a value is the value. -/
def takeShort (draft : Draft) : List Char → Except Stop Draft
  | [] => .ok draft
  | 'v' :: rest => do
    let draft ← draft.turnOn .verbose
    draft.takeShort rest
  | 'V' :: rest => do
    let draft ← draft.turnOn .version
    draft.takeShort rest
  | ['o'] => draft.await .output
  | 'o' :: '=' :: value | 'o' :: value =>
    if draft.verb.isNone then .error .usage else draft.store .output (String.ofList value)
  | _ => .error .usage

def take (draft : Draft) (word : String) : Except Stop Draft :=
  match draft.pending, draft.operandsOnly, word.toList with
  | some _, _, '-' :: _ :: _ => .error .usage
  | some setting, _, _ => draft.store setting word
  | none, true, _ => draft.takeWord word
  | none, false, ['-', '-'] =>
    if draft.verb.isNone then .error .usage else .ok { draft with operandsOnly := true }
  | none, false, '-' :: '-' :: name => draft.takeLong name
  | none, false, '-' :: option :: run => draft.takeShort (option :: run)
  | none, false, _ => draft.takeWord word

def command (draft : Draft) : Except Stop Command :=
  match draft.verb, draft.operand with
  | some .run, some script => if script.isEmpty then .error .usage else .ok (.run script)
  | some .demo, some name => .ok (.demo name)
  | some .demo, none => .ok (.demo "arith")
  | _, _ => .error .usage

def finish (draft : Draft) : Except Stop Invocation := do
  if draft.pending.isSome then .error .usage
  let command ← draft.command
  let standard : Options := {}
  .ok {
    command
    output := draft.output
    options := {
      maxDepth := draft.maxDepth.getD standard.maxDepth
      bufferCapacity := draft.bufferCapacity.getD standard.bufferCapacity
      annotate := draft.switches.contains .annotate }
    stats := draft.switches.contains .stats
    verbose := draft.verboseBefore || draft.switches.contains .verbose }

end Draft

/-- The invocation that command line words stand for. -/
def Invocation.parse (words : List String) : Except Stop Invocation := do
  let draft ← words.foldlM Draft.take {}
  draft.finish

end MipsBackend.Cli
