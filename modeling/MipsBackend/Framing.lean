import MipsBackend.Context

/-! # Framing programs

Each operation is emitted in one piece. A program is framed by a prolog and by an epilog with the
string data; its end is refused while levels are open.
-/

namespace MipsBackend.Emission

def emitFragment (fragment : Fragment) : Emission Unit := do
  let context ← Action.read
  append (fragment.text context.options.annotate)

def emit (operation : Operation) : Emission Unit := emitFragment operation.fragment

def prolog : Emission Unit := emitFragment .prolog

/-- Refuses to go on while levels are open. -/
def ensureUnbuffered : Emission Unit := do
  let context ← Action.read
  if context.stack.depth = 0 then pure ()
  else Action.fail (.unclosedLevels context.stack.depth)

def epilog : Emission Unit := do
  ensureUnbuffered
  emitFragment .epilog

/-- Emits the data section with every string literal, or nothing if one is missing. -/
def stringLiterals (table : StringTable) : Emission Unit := do
  ensureUnbuffered
  let entries ← Action.ofExcept (table.entries.mapError .missingLiteral)
  Action.report (.literals table.count)
  emitFragment (.dataSection entries)

/-- Ends a program: the exit sequence, then the string data. -/
def finish (table : StringTable) : Emission Unit := do
  epilog
  stringLiterals table

end MipsBackend.Emission
