import Bootscript.Command.Run

/-! The program: a host that asks the machine, and the writing of what a run yields. -/
namespace Bootscript
namespace Machine

/-- A cause by the number that the machine gives it, on some ways with its sign turned. -/
def numbered (number : UInt32) (description : String) : OsError :=
  let code := if number < 0x80000000 then number else 0 - number
  if code = 2 then .notFound
  else if code = 20 then .notDirectory
  else if code = 21 then .isDirectory
  else if code = 36 then .nameTooLong
  else if code = 40 then .tooManyLinks
  else .other description.capitalize code.toNat

def cause : IO.Error → OsError
  | .alreadyExists _ code text | .interrupted _ code text | .noFileOrDirectory _ code text
  | .invalidArgument _ code text | .permissionDenied _ code text
  | .resourceExhausted _ code text | .inappropriateType _ code text
  | .noSuchThing _ code text | .otherError code text | .resourceBusy code text
  | .resourceVanished code text | .unsupportedOperation code text | .hardwareFault code text
  | .unsatisfiedConstraints code text | .illegalOperation code text
  | .protocolError code text | .timeExpired code text => numbered code text
  | .unexpectedEof => numbered 5 "Input/output error"
  | .userError text => numbered 5 text

def attempt {α : Type} (action : IO α) : IO (Except OsError α) := do
  try return .ok (← action) catch e => return .error (cause e)

/-- Runs an action on a path. Paths of the machine are text without a NUL. -/
def withPath {α : Type} (path : Bytes) (action : String → IO α) : IO (Except OsError α) :=
  if path.contains 0 then return .error .nul
  else
    match Text.decode? path with
    | none => return .error .notFound
    | some text => attempt (action (String.ofList text))

def typeOf (follow : Bool) (path : Bytes) : IO (Except Unreadable IO.FS.FileType) := do
  let seen ← withPath path fun name =>
    let file := System.mkFilePath [name]
    return (← if follow then file.metadata else file.symlinkMetadata).type
  return seen.mapError (Unreadable.mk path)

/-- The regular files beneath a directory; links are not followed. -/
partial def filesBelow (root : Bytes) (names : List Path.Name) :
    IO (Except Unreadable (List (List Path.Name))) := do
  let directory := Path.join root names
  match ← withPath directory fun name => (System.mkFilePath [name]).readDir with
  | .error cause => return .error ⟨directory, cause⟩
  | .ok entries =>
    let below := entries.toList.map fun entry => names ++ [Text.encode entry.fileName.toList]
    let mut found := []
    for steps in below.mergeSort (lexicographic Bytes.le) do
      match ← typeOf false (Path.join root steps) with
      | .error unreadable => return .error unreadable
      | .ok .file => found := found ++ [steps]
      | .ok .dir =>
        match ← filesBelow root steps with
        | .error unreadable => return .error unreadable
        | .ok more => found := found ++ more
      | .ok _ => pure ()
    return .ok found

def survey (root : Bytes) : IO (Except Unreadable Survey) := do
  match ← typeOf false root, ← typeOf true root with
  | .error unreadable, _ | _, .error unreadable => return .error unreadable
  | _, .ok .dir => return (← filesBelow root []).map .directory
  | .ok .file, _ => return .ok .file
  | _, _ => return .ok .other

partial def readAll (stream : IO.FS.Stream) (before : ByteArray) : IO ByteArray := do
  let more ← stream.read 65536
  if more.isEmpty then return before else readAll stream (before ++ more)

/-- The permission bits taken for any file: the machine does not tell them. -/
def assumedMode : Nat := 0o644

def accessRight (bits : Nat) : IO.AccessRight where
  read := bits.testBit 2
  write := bits.testBit 1
  execution := bits.testBit 0

def fileRight (mode : Nat) : IO.FileRight where
  user := accessRight (mode / 64)
  group := accessRight (mode / 8)
  other := accessRight mode

/-- Letters and digits drawn at random, for a name that is not taken. -/
def tag : IO Text := do
  let alphabet := "abcdefghijklmnopqrstuvwxyz0123456789".toList
  let drawn ← IO.getRandomBytes Replacement.tagLength.toUSize
  return drawn.toList.map fun byte => (alphabet[byte.toNat % alphabet.length]?).getD 'x'

/-- A file that was made, by its absolute path. -/
structure Temporary where
  path : String
  stream : IO.FS.Handle

/-- Makes a file that is not there. The number of the refusal tells a name that is taken. -/
def create (directory : Bytes) (name : Path.Name) : IO (Except OsError (Option Temporary)) := do
  let working := Text.encode (← IO.currentDir).toString.toList
  let path := Path.join (Path.absolute working directory) [name]
  match ← withPath path fun text => Temporary.mk text <$> IO.FS.Handle.mk text .writeNew with
  | .ok temporary => return .ok (some temporary)
  | .error (.other _ 17) => return .ok none
  | .error cause => return .error cause

def usage : String :=
  "Turn Python scripts into self-bootstrapping shell executables\n\n" ++
  "Usage: pysh [OPTIONS] gen SCRIPT\n" ++
  "       pysh [OPTIONS] dist [--runtime DIR] SCRIPT\n" ++
  "       pysh [OPTIONS] inspect SCRIPT\n\n" ++
  "Options: -v, --verbose   -i, --interpreter BIN   --config FILE\n"

end Machine

instance : Host IO where
  read path := Machine.withPath path fun name => return (← IO.FS.readBinFile name).toList
  mode path := Machine.withPath path fun name => do
    let _ ← (System.mkFilePath [name]).metadata
    return Machine.assumedMode
  survey root := Machine.survey root
  workingDirectory := return Text.encode (← IO.currentDir).toString.toList
  input := do return (← Machine.readAll (← IO.getStdin) .empty).toList
  pack members := return Archive.write members
  help _ := return Machine.usage.toList

instance : Disk IO Machine.Temporary where
  draw := Machine.tag
  create := Machine.create
  write temporary data := Machine.attempt (temporary.stream.write data.toByteArray)
  sync temporary := Machine.attempt temporary.stream.flush
  setMode temporary mode :=
    Machine.attempt (IO.setAccessRights temporary.path (Machine.fileRight mode))
  rename temporary path := Machine.withPath path fun text => IO.FS.rename temporary.path text
  remove temporary := do
    let _ ← Machine.attempt (IO.FS.removeFile temporary.path)

end Bootscript

open Bootscript in
def main (arguments : List String) : IO UInt32 := do
  let report ← Command.run (arguments.map fun argument => Text.encode argument.toList)
  let report ← report.carryOut
  let output ← IO.getStdout
  output.write report.output.toByteArray
  output.flush
  if let some complaint := report.complaint then IO.eprintln ("pysh: " ++ complaint)
  return report.status.toUInt32
