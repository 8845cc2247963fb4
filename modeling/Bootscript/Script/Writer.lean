import Bootscript.Script.Basic

/-! Writing a script into a buffer of limited room, line by line. What is written is
always a beginning of the script's text. -/
namespace Bootscript

/-- A buffer that takes `capacity` bytes. A write that does not fit fills it. -/
structure Sink where
  capacity : Nat
  written : Array UInt8 := #[]
  overflowed : Bool := false
  deriving DecidableEq, Repr

/-- Nothing is written after a write that did not fit. -/
def Sink.write (sink : Sink) (chunk : Bytes) : Sink :=
  if sink.overflowed then sink
  else
    let room := sink.capacity - sink.written.size
    { sink with written := sink.written ++ chunk.take room, overflowed := room < chunk.length }

/-- A buffer that is full refuses the rest of a write. -/
inductive Sink.Fault where
  | writeZero
  deriving DecidableEq, Repr

def Sink.Fault.message : Sink.Fault → Text
  | .writeZero => "failed to write whole buffer".toList

def Sink.outcome (sink : Sink) : Except Sink.Fault Unit :=
  if sink.overflowed then .error .writeZero else .ok ()

namespace Script

def writeLine (sink : Sink) (line : Line) : Sink :=
  (sink.write (Text.encode ['\n'])).write line.encode

def write (s : Script) (sink : Sink) : Sink :=
  s.body.foldl writeLine (sink.write directiveLine.encode)

end Script
end Bootscript
