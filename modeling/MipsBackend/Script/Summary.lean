/-! # Run summaries

What a finished run used.
-/

namespace MipsBackend

structure Summary where
  requests : Nat := 0
  labelsIssued : Nat := 0
  maxDepth : Nat := 0
  maxLiveRegisters : Nat := 0
  stringLiterals : Nat := 0
deriving DecidableEq

namespace Summary

/-- The figures with their names, in order. -/
def figures (summary : Summary) : List (String × Nat) :=
  [("requests", summary.requests), ("labels_issued", summary.labelsIssued),
   ("max_depth", summary.maxDepth), ("max_live_registers", summary.maxLiveRegisters),
   ("string_literals", summary.stringLiterals)]

/-- A summary as trace messages show it. -/
def describe (summary : Summary) : String :=
  "RunStats \x7b " ++
    ", ".intercalate (summary.figures.map fun figure => figure.1 ++ ": " ++ Nat.repr figure.2) ++
    " \x7d"

/-- A summary as an indented JSON object. -/
def render (summary : Summary) : String :=
  "\x7b\n" ++
    ",\n".intercalate (summary.figures.map fun figure => "  \"" ++ figure.1 ++ "\": " ++ Nat.repr figure.2) ++
    "\n\x7d"

end Summary

end MipsBackend
