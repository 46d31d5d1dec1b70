import MipsBackend.Script.Request

/-! # Built-in scripts

Small scripts that show the backend at work without a front end.
-/

namespace MipsBackend.Demo

/-- `write((1 + 2) * 3);` -/
def arith : Script where
  strings := []
  requests := [
    .alloc "a",
    .li "a" 1,
    .alloc "b",
    .li "b" 2,
    .alloc "r",
    .binop "add" "r" "a" "b",
    .free "a",
    .free "b",
    .binopImm "mul" "r" "r" 3,
    .writeReg "r",
    .free "r",
    .writeNewline]

/-- `read(i); while (i > 0) ... i = i - 1;`, printing each value. -/
def countdown : Script where
  strings := []
  requests := [
    .alloc "i",
    .readInt "i",
    .beginWhile,
    .alloc "c",
    .binop "sgt" "c" "i" "$zero",
    .loopTest "c",
    .free "c",
    .writeReg "i",
    .writeNewline,
    .binopImm "sub" "i" "i" 1,
    .endWhile,
    .free "i"]

/-- `read(x); if (x == 0) write("zero"); else write("nonzero");` -/
def branch : Script where
  strings := ["zero", "nonzero"]
  requests := [
    .alloc "x",
    .readInt "x",
    .alloc "c",
    .binopImm "seq" "c" "x" 0,
    .beginIf "c",
    .free "c",
    .alloc "p",
    .la "p" "__str0",
    .writeString "p",
    .beginElse,
    .la "p" "__str1",
    .writeString "p",
    .endIf,
    .free "p",
    .free "x",
    .writeNewline]

/-- Every built-in script with its name. -/
def all : List (String × Script) := [("arith", arith), ("loop", countdown), ("branch", branch)]

/-- Names of the built-in scripts. -/
def names : List String := all.map Prod.fst

/-- The built-in script with a given name. -/
def find? (name : String) : Option Script := all.lookup name

end MipsBackend.Demo
