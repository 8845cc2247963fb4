import Bootscript.Text

/-! Paths as byte strings. Components are separated by slashes; empty components mean
nothing, and a slash at the end asks for a directory. -/
namespace Bootscript.Path

abbrev Name := Bytes

def slash : UInt8 := 0x2F
def dot : UInt8 := 0x2E

def isAbsolute (path : Bytes) : Bool := path.head? == some slash

def names (path : Bytes) : List Name := (split slash path).filter (!·.isEmpty)

/-- The components to walk. A slash at the end counts as one more step to `.`. -/
def steps (path : Bytes) : List Name :=
  names path ++ if path.getLast? = some slash then [[dot]] else []

/-- The steps from the root of the machine, for a run in the directory to which the names
`working` lead from there. -/
def route (working : List Name) (path : Bytes) : List Name :=
  if isAbsolute path then steps path else working ++ steps path

def join (root : Bytes) (names : List Name) : Bytes :=
  names.foldl (fun path name =>
    if path.isEmpty || path.getLast? == some slash then path ++ name
    else path ++ slash :: name) root

def fileName? (path : Bytes) : Option Name :=
  match ((steps path).filter (· ≠ [dot])).getLast? with
  | none => none
  | some name => if name = [dot, dot] then none else some name

/-- What follows the last dot of a file name. A dot at the very start opens no extension. -/
def extension? (name : Name) : Option Bytes :=
  let tail := name.reverse.takeWhile (· ≠ dot)
  if tail.length + 1 < name.length ∧ name ≠ [dot, dot] then some tail.reverse else none

/-- Drops slashes and steps to `.` from the front of a reversed path. A path that starts
with either keeps it. -/
def trimReversed : Bytes → Bytes
  | [] => []
  | [c] => [c]
  | c :: d :: rest =>
    if c = slash ∨ c = dot ∧ d = slash then trimReversed (d :: rest) else c :: d :: rest

/-- The path of the directory that holds what a path names. It is empty for a lone name. -/
def parent (path : Bytes) : Bytes :=
  (trimReversed ((trimReversed path.reverse).dropWhile (· ≠ slash))).reverse

def ofNames (names : List Name) : Bytes := join [slash] names

def absolute (working path : Bytes) : Bytes :=
  if isAbsolute path then path else join working [path]

end Bootscript.Path
