import MipsBackend.Script.Request

/-! # Well-nested scripts

The grammar of structured control. A block is a sequence of plain requests and of complete
conditionals and loops; the condition of a loop is tested only where the loop is the innermost open
construct.
-/

namespace MipsBackend

/-- The part a request plays in the structure of a script. -/
inductive ControlMark
  | plain | beginIf | beginElse | endIf | beginWhile | loopTest | endWhile
deriving DecidableEq

/-- The part a request plays, if it leaves the structure to the control requests: requests that
handle labels or levels themselves have none. -/
def Request.controlMark? : Request → Option ControlMark
  | .label _ | .place _ | .jump _ | .beq _ _ _ | .pushIf _ _ | .pushElse _ _ | .pushLoop _ _ | .merge _
  | .close => none
  | .beginIf _ => some .beginIf
  | .beginElse => some .beginElse
  | .endIf => some .endIf
  | .beginWhile => some .beginWhile
  | .loopTest _ => some .loopTest
  | .endWhile => some .endWhile
  | _ => some .plain

/-- Marks that form a block; `inLoop` tells whether a loop is the innermost construct around it. -/
inductive WellNested : (inLoop : Bool) → List ControlMark → Prop
  | nil {inLoop : Bool} : WellNested inLoop []
  | plain {inLoop : Bool} {rest : List ControlMark} :
      WellNested inLoop rest → WellNested inLoop (.plain :: rest)
  | loopTest {rest : List ControlMark} : WellNested true rest → WellNested true (.loopTest :: rest)
  | ifThen {inLoop : Bool} {body rest : List ControlMark} :
      WellNested false body → WellNested inLoop rest →
      WellNested inLoop (.beginIf :: body ++ .endIf :: rest)
  | ifElse {inLoop : Bool} {first second rest : List ControlMark} :
      WellNested false first → WellNested false second → WellNested inLoop rest →
      WellNested inLoop (.beginIf :: first ++ .beginElse :: second ++ .endIf :: rest)
  | whileLoop {inLoop : Bool} {body rest : List ControlMark} :
      WellNested true body → WellNested inLoop rest →
      WellNested inLoop (.beginWhile :: body ++ .endWhile :: rest)

end MipsBackend
