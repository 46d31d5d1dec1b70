/-! # String literals

A table answers how many literals there are and what each name holds. Literals are named by
their position.
-/

namespace MipsBackend

def literalName (index : Nat) : String := "__str" ++ Nat.repr index

/-- The string literals of a program, as its front end collected them. -/
structure StringTable where
  count : Nat
  lookup : String → Option String

/-- Literals stored in order of arrival, each under the name of its position. -/
structure StringLiterals where
  entries : List (String × String) := []
  count : Nat := 0
deriving DecidableEq

namespace StringLiterals

/-- Stores a literal and gives its name. -/
def insert (literals : StringLiterals) (text : String) : String × StringLiterals :=
  let name := literalName literals.count
  (name, ⟨(name, text) :: literals.entries, literals.count + 1⟩)

def lookup (literals : StringLiterals) (name : String) : Option String := literals.entries.lookup name

def ofList (texts : List String) : StringLiterals :=
  texts.foldl (fun literals text => (literals.insert text).2) {}

def table (literals : StringLiterals) : StringTable := ⟨literals.count, literals.lookup⟩

end StringLiterals

namespace StringTable

/-- The entries of `count` positions from `index` on, or the first name among them that is not
stored. -/
def entriesFrom (table : StringTable) : (count index : Nat) → Except String (List (String × String))
  | 0, _ => .ok []
  | count + 1, index =>
    match table.lookup (literalName index) with
    | none => .error (literalName index)
    | some text => (table.entriesFrom count (index + 1)).map fun rest => (literalName index, text) :: rest

/-- Every entry in order of position, or the first name that is not stored. -/
def entries (table : StringTable) : Except String (List (String × String)) :=
  table.entriesFrom table.count 0

end StringTable

end MipsBackend
