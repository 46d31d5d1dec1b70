import MipsBackend.Text.Quoted

/-! # Requests

A request asks for one step of code generation. Registers and labels are named by text: a slot
or label name chosen by the script, or a fixed register with its sigil. `RequestKind` lists the kinds of
request with the name and the fields of each, so that reading, writing and describing a request
follow one table.
-/

namespace MipsBackend

inductive RequestKind
  | alloc | free | label | place
  | binop | binopImm | lw | sw | li | la | jump | beq | move
  | writeNewline | writeInt | writeReg | writeString | readInt
  | pushIf | pushElse | pushLoop | merge | close
  | beginIf | beginElse | endIf | beginWhile | loopTest | endWhile
deriving DecidableEq

/-- What kind of value a field of a request takes. -/
inductive FieldType
  | text
  /-- A signed integer of 64 bits. -/
  | integer
  /-- An unsigned integer of 64 bits. -/
  | count
deriving DecidableEq

inductive FieldValue
  | text (value : String)
  | integer (value : Int64)
  | count (value : UInt64)
deriving DecidableEq

namespace FieldValue

def type : FieldValue → FieldType
  | text _ => .text
  | integer _ => .integer
  | count _ => .count

/-- A value as trace messages show it. -/
def describe : FieldValue → String
  | text value => Text.quoted value
  | integer value => Int.repr value.toInt
  | count value => Nat.repr value.toNat

end FieldValue

namespace RequestKind

def all : List RequestKind :=
  [alloc, free, label, place,
   binop, binopImm, lw, sw, li, la, jump, beq, move,
   writeNewline, writeInt, writeReg, writeString, readInt,
   pushIf, pushElse, pushLoop, merge, close,
   beginIf, beginElse, endIf, beginWhile, loopTest, endWhile]

def name : RequestKind → String
  | alloc => "alloc" | free => "free" | label => "label" | place => "place"
  | binop => "binop" | binopImm => "binop_imm" | lw => "lw" | sw => "sw" | li => "li" | la => "la"
  | jump => "jump" | beq => "beq" | move => "move"
  | writeNewline => "write_newline" | writeInt => "write_int" | writeReg => "write_reg"
  | writeString => "write_string" | readInt => "read_int"
  | pushIf => "push_if" | pushElse => "push_else" | pushLoop => "push_loop"
  | merge => "merge" | close => "close"
  | beginIf => "begin_if" | beginElse => "begin_else" | endIf => "end_if"
  | beginWhile => "begin_while" | loopTest => "loop_test" | endWhile => "end_while"

def ofName? (name : String) : Option RequestKind := all.find? fun kind => kind.name == name

def fields : RequestKind → List (String × FieldType)
  | alloc | free | label => [("name", .text)]
  | place | jump => [("label", .text)]
  | binop => [("operator", .text), ("dst", .text), ("lhs", .text), ("rhs", .text)]
  | binopImm => [("operator", .text), ("dst", .text), ("src", .text), ("value", .integer)]
  | lw => [("dst", .text), ("base", .text), ("offset", .integer)]
  | sw => [("src", .text), ("base", .text), ("offset", .integer)]
  | li => [("dst", .text), ("value", .integer)]
  | la => [("dst", .text), ("symbol", .text)]
  | beq => [("lhs", .text), ("rhs", .text), ("label", .text)]
  | move => [("dst", .text), ("src", .text)]
  | writeInt => [("value", .integer)]
  | writeReg | writeString => [("reg", .text)]
  | readInt => [("dst", .text)]
  | pushIf | pushElse => [("else_label", .text), ("end_label", .text)]
  | pushLoop => [("entry", .text), ("exit", .text)]
  | merge => [("levels", .count)]
  | beginIf | loopTest => [("cond", .text)]
  | writeNewline | close | beginElse | endIf | beginWhile | endWhile => []

/-- Words joined by underscores, each started by a capital and joined without a mark. -/
def titleChars (startsWord : Bool) : List Char → List Char
  | [] => []
  | '_' :: rest => titleChars true rest
  | c :: rest => (if startsWord then c.toUpper else c) :: titleChars false rest

/-- Name of a kind in trace messages. -/
def title (kind : RequestKind) : String := String.ofList (titleChars true kind.name.toList)

theorem mem_all (kind : RequestKind) : kind ∈ all := by
  cases kind <;> decide

end RequestKind

/-- One step of code generation that a script asks for. -/
inductive Request
  /-- Binds a slot to a fresh register. -/
  | alloc (name : String)
  /-- Gives the register of a slot back. -/
  | free (name : String)
  /-- Binds a name to a fresh label. -/
  | label (name : String)
  | place (target : String)
  | binop (operator dst lhs rhs : String)
  | binopImm (operator dst src : String) (value : Int64)
  | lw (dst base : String) (offset : Int64)
  | sw (src base : String) (offset : Int64)
  | li (dst : String) (value : Int64)
  | la (dst symbol : String)
  | jump (target : String)
  | beq (lhs rhs target : String)
  | move (dst src : String)
  | writeNewline
  | writeInt (value : Int64)
  | writeReg (reg : String)
  | writeString (reg : String)
  | readInt (dst : String)
  | pushIf (elseLabel endLabel : String)
  | pushElse (elseLabel endLabel : String)
  | pushLoop (entryLabel exitLabel : String)
  | merge (levels : UInt64)
  | close
  | beginIf (cond : String)
  | beginElse
  | endIf
  | beginWhile
  | loopTest (cond : String)
  | endWhile
deriving DecidableEq

namespace Request

def kind : Request → RequestKind
  | alloc _ => .alloc
  | free _ => .free
  | label _ => .label
  | place _ => .place
  | binop _ _ _ _ => .binop
  | binopImm _ _ _ _ => .binopImm
  | lw _ _ _ => .lw
  | sw _ _ _ => .sw
  | li _ _ => .li
  | la _ _ => .la
  | jump _ => .jump
  | beq _ _ _ => .beq
  | move _ _ => .move
  | writeNewline => .writeNewline
  | writeInt _ => .writeInt
  | writeReg _ => .writeReg
  | writeString _ => .writeString
  | readInt _ => .readInt
  | pushIf _ _ => .pushIf
  | pushElse _ _ => .pushElse
  | pushLoop _ _ => .pushLoop
  | merge _ => .merge
  | close => .close
  | beginIf _ => .beginIf
  | beginElse => .beginElse
  | endIf => .endIf
  | beginWhile => .beginWhile
  | loopTest _ => .loopTest
  | endWhile => .endWhile

/-- Name of a request in scripts and messages. -/
def name (request : Request) : String := request.kind.name

/-- The values of the fields of a request, in order. -/
def values : Request → List FieldValue
  | alloc name | free name | label name => [.text name]
  | place target | jump target => [.text target]
  | binop operator dst lhs rhs => [.text operator, .text dst, .text lhs, .text rhs]
  | binopImm operator dst src value => [.text operator, .text dst, .text src, .integer value]
  | lw dst base offset => [.text dst, .text base, .integer offset]
  | sw src base offset => [.text src, .text base, .integer offset]
  | li dst value => [.text dst, .integer value]
  | la dst symbol => [.text dst, .text symbol]
  | beq lhs rhs target => [.text lhs, .text rhs, .text target]
  | move dst src => [.text dst, .text src]
  | writeInt value => [.integer value]
  | writeReg reg | writeString reg => [.text reg]
  | readInt dst => [.text dst]
  | pushIf elseLabel endLabel | pushElse elseLabel endLabel => [.text elseLabel, .text endLabel]
  | pushLoop entryLabel exitLabel => [.text entryLabel, .text exitLabel]
  | merge levels => [.count levels]
  | beginIf cond | loopTest cond => [.text cond]
  | writeNewline | close | beginElse | endIf | beginWhile | endWhile => []

/-- The request of a kind with the given field values. -/
def ofValues? : RequestKind → List FieldValue → Option Request
  | .alloc, [.text name] => some (alloc name)
  | .free, [.text name] => some (free name)
  | .label, [.text name] => some (label name)
  | .place, [.text target] => some (place target)
  | .binop, [.text operator, .text dst, .text lhs, .text rhs] => some (binop operator dst lhs rhs)
  | .binopImm, [.text operator, .text dst, .text src, .integer value] =>
    some (binopImm operator dst src value)
  | .lw, [.text dst, .text base, .integer offset] => some (lw dst base offset)
  | .sw, [.text src, .text base, .integer offset] => some (sw src base offset)
  | .li, [.text dst, .integer value] => some (li dst value)
  | .la, [.text dst, .text symbol] => some (la dst symbol)
  | .jump, [.text target] => some (jump target)
  | .beq, [.text lhs, .text rhs, .text target] => some (beq lhs rhs target)
  | .move, [.text dst, .text src] => some (move dst src)
  | .writeNewline, [] => some writeNewline
  | .writeInt, [.integer value] => some (writeInt value)
  | .writeReg, [.text reg] => some (writeReg reg)
  | .writeString, [.text reg] => some (writeString reg)
  | .readInt, [.text dst] => some (readInt dst)
  | .pushIf, [.text elseLabel, .text endLabel] => some (pushIf elseLabel endLabel)
  | .pushElse, [.text elseLabel, .text endLabel] => some (pushElse elseLabel endLabel)
  | .pushLoop, [.text entryLabel, .text exitLabel] => some (pushLoop entryLabel exitLabel)
  | .merge, [.count levels] => some (merge levels)
  | .close, [] => some close
  | .beginIf, [.text cond] => some (beginIf cond)
  | .beginElse, [] => some beginElse
  | .endIf, [] => some endIf
  | .beginWhile, [] => some beginWhile
  | .loopTest, [.text cond] => some (loopTest cond)
  | .endWhile, [] => some endWhile
  | _, _ => none

def members (request : Request) : List (String × FieldValue) :=
  (request.kind.fields.map Prod.fst).zip request.values

/-- A request with all its fields, as trace messages show it. -/
def describe (request : Request) : String :=
  match request.members with
  | [] => request.kind.title
  | members =>
    request.kind.title ++ " \x7b " ++
      ", ".intercalate (members.map fun member => member.1 ++ ": " ++ member.2.describe) ++ " \x7d"

theorem ofValues?_values (request : Request) : ofValues? request.kind request.values = some request := by
  cases request <;> rfl

theorem types_values (request : Request) :
    request.values.map FieldValue.type = request.kind.fields.map Prod.snd := by
  cases request <;> rfl

end Request

/-- String literals and the requests to replay, in order. -/
structure Script where
  strings : List String
  requests : List Request
deriving DecidableEq

end MipsBackend
