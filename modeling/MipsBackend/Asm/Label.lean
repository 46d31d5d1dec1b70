/-! # Labels

Jump targets, and the supply that numbers them in increasing order from zero.
-/

namespace MipsBackend

structure Label where
  id : Nat
deriving DecidableEq, Inhabited

namespace Label

def text (label : Label) : String := ".L" ++ Nat.repr label.id

end Label

/-- Hands out labels in increasing order; `issued` of them so far. -/
structure LabelSupply where
  issued : Nat := 0
deriving DecidableEq, Inhabited

namespace LabelSupply

def peek (supply : LabelSupply) : Label := ⟨supply.issued⟩

/-- Hands out a label that this supply never handed out before. -/
def next (supply : LabelSupply) : Label × LabelSupply := (supply.peek, ⟨supply.issued + 1⟩)

end LabelSupply

end MipsBackend
