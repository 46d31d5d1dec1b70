import MipsBackend.Device.SystemError

/-! # Device faults

Why reading or writing failed. Faults of the operating system carry its error number, which is
also the exit status they lead to.
-/

namespace MipsBackend

/-- A failure of a file or an output stream. -/
inductive Fault
  /-- The operating system reported an error number. -/
  | system (code : Int)
  | described (text : String)
  /-- The device accepts no further bytes and gives no reason. -/
  | exhausted
  /-- A file that should hold text is not valid UTF-8. -/
  | notText
deriving DecidableEq

namespace Fault

def text : Fault → String
  | system code => SystemError.name code ++ " (os error " ++ Int.repr code ++ ")"
  | described text => text
  | exhausted => "failed to write whole buffer"
  | notText => "stream did not contain valid UTF-8"

def message (fault : Fault) : String := "IO error: " ++ fault.text

/-- Exit status of a program stopped by the fault. -/
def exitCode : Fault → Int
  | system code => code
  | _ => 1

/-- A file or one of its directories does not exist. -/
def notFound : Fault := system 2

/-- A path leads through something that is not a directory. -/
def notDirectory : Fault := system 20

/-- A directory was opened as a file. -/
def isDirectory : Fault := system 21

/-- A path, or a name in it, is longer than the file system takes. -/
def nameTooLong : Fault := system 36

end Fault

end MipsBackend
