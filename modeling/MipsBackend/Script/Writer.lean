import MipsBackend.Json.Writer
import MipsBackend.Script.Request

/-! # Writing scripts

The text of a script: an object with both keys, each request an object that starts with its tag.
-/

namespace MipsBackend

namespace FieldValue

def written : FieldValue → List Char
  | text value => Json.writeString value
  | integer value => Json.writeInt value.toInt
  | count value => Json.writeInt value.toNat

end FieldValue

namespace Request

def written (request : Request) : List Char :=
  Json.writeObject
    (("op", Json.writeString request.name) ::
      request.members.map fun member => (member.1, member.2.written))

end Request

namespace Script

def written (script : Script) : List Char :=
  Json.writeObject
    [("strings", Json.writeArray (script.strings.map Json.writeString)),
     ("requests", Json.writeArray (script.requests.map Request.written))]

def render (script : Script) : String := String.ofList script.written

end Script

end MipsBackend
