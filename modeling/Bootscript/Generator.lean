import Bootscript.RuntimeSource
import Bootscript.Script.Install

/-! Making a script start itself, in place or from input to output. A run that fails
yields nothing to write, and a run in place yields one file to put where the script was. -/
namespace Bootscript

inductive ScriptPath where
  | standard
  | file (path : Bytes)
  deriving DecidableEq, Repr

namespace ScriptPath

/-- A single dash stands for input and output. -/
def ofBytes (path : Bytes) : ScriptPath := if path = Text.encode ['-'] then standard else file path

def display : ScriptPath → Text
  | standard => "<stdin>".toList
  | file path => Text.decodeLossy path

end ScriptPath

/-- A file to put in the place of another. It is written under a temporary name in the
same directory and renamed, so that the old file is there until the new one is whole. -/
structure Replacement where
  path : Bytes
  data : Bytes
  mode : Nat
  deriving DecidableEq, Repr

namespace Replacement

/-- A hidden name next to the file, told apart from others by a tag of six characters. -/
def temporaryName (path : Bytes) (tag : Text) : Text :=
  let name := match Path.fileName? path with
    | some name => Text.decodeLossy name
    | none => "script".toList
  '.' :: name ++ '.' :: tag ++ ".tmp".toList

def tagLength : Nat := 6

def directory (path : Bytes) : Bytes :=
  if (Path.parent path).isEmpty then [Path.dot] else Path.parent path

/-- The absolute path of the temporary file, from the working directory on. -/
def temporaryPath (working path : Bytes) (tag : Text) : Bytes :=
  Path.join (Path.absolute working (directory path)) [(temporaryName path tag).encode]

/-- Whether the temporary name is one that a directory can hold, and its path one that can
be walked. -/
def hasRoom (working path : Bytes) : Bool :=
  let tag := List.replicate tagLength 'x'
  (temporaryName path tag).byteLength ≤ FileTree.maxName &&
    (temporaryPath working path tag).length ≤ FileTree.maxPath

end Replacement

structure Product where
  output : Bytes := []
  replacement : Option Replacement := none
  deriving DecidableEq, Repr

/-- The settings of a launcher and the runtime to embed. `canonical` accepts only the
directive that is written, not every line that starts with `#!`. -/
structure Generator where
  launcher : Launcher
  source : RuntimeSource
  canonical : Bool := false
  deriving DecidableEq, Repr

namespace Generator

variable {m : Type → Type} [Monad m] [Host m]

def parse (g : Generator) (data : Bytes) : Except Failure Script :=
  (Script.parse g.canonical data).mapError .malformed

def payload (g : Generator) (distributable : Bool) : m (Except Failure (Option Payload)) := do
  if distributable then return (← g.source.archive).map some else return .ok none

/-- Reads a script and puts the launcher in. The runtime is only looked at when the
script is well formed. -/
def render (g : Generator) (data : Bytes) (distributable : Bool) : m (Except Failure Script) := do
  match g.parse data with
  | .error failure => return .error failure
  | .ok script =>
    match ← g.payload distributable with
    | .error failure => return .error failure
    | .ok payload => return .ok (script.install g.launcher payload)

def source? (path : ScriptPath) : m (Except Failure Bytes) := do
  match path with
  | .standard => return .ok (← Host.input)
  | .file path => return (← Host.read path).mapError .os

def read (g : Generator) (path : ScriptPath) : m (Except Failure Script) := do
  match ← source? path with
  | .error failure => return .error failure
  | .ok data => return g.parse data

/-- The permission bits that a path's file had, and the owner may run it. -/
def executable (mode : Nat) : Nat := (mode % 0o10000) ||| 0o100

def replacement (path data : Bytes) : m (Except Failure Replacement) := do
  match ← Host.mode path with
  | .error cause => return .error (.os cause)
  | .ok mode =>
    if Replacement.hasRoom (← Host.workingDirectory) path then
      return .ok ⟨path, data, executable mode⟩
    else return .error (.os .nameTooLong)

def generate (g : Generator) (path : ScriptPath) (distributable : Bool) :
    m (Except Failure Product) := do
  match ← source? path with
  | .error failure => return .error failure
  | .ok data =>
    match ← g.render data distributable with
    | .error failure => return .error failure
    | .ok script =>
      match path with
      | .standard => return .ok { output := script.bytes }
      | .file path => return (← replacement path script.bytes).map ({ replacement := some · })

end Generator
end Bootscript
