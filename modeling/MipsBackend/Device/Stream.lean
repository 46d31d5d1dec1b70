import MipsBackend.Device.Fault

/-! # Output streams

A stream keeps the bytes written to it. It may have a limit: then the bytes that still fit are
written and the limit's fault is reported. Flushing may fail on its own.
-/

namespace MipsBackend

/-- The most bytes a stream takes, and how it refuses the next one. -/
structure Limit where
  size : Nat
  fault : Fault

/-- An output stream with what reached it so far. -/
structure Stream where
  written : ByteArray := ByteArray.empty
  limit : Option Limit := none
  flushFault : Option Fault := none

namespace Stream

/-- Writes a text: all of it, or the bytes up to the limit followed by the limit's fault. -/
def write (stream : Stream) (text : String) : Except Fault Unit × Stream :=
  let bytes := text.toUTF8
  match stream.limit with
  | none => (.ok (), { stream with written := stream.written ++ bytes })
  | some limit =>
    let room := limit.size - stream.written.size
    if bytes.size ≤ room then
      (.ok (), { stream with written := stream.written ++ bytes })
    else
      (.error limit.fault, { stream with written := stream.written ++ bytes.extract 0 room })

def flush (stream : Stream) : Except Fault Unit :=
  match stream.flushFault with
  | none => .ok ()
  | some fault => .error fault

/-- A stream that never fails. -/
def IsReliable (stream : Stream) : Prop := stream.limit = none ∧ stream.flushFault = none

theorem write_of_reliable {stream : Stream} (h : stream.limit = none) (text : String) :
    stream.write text = (.ok (), { stream with written := stream.written ++ text.toUTF8 }) := by
  simp [write, h]

end Stream

end MipsBackend
