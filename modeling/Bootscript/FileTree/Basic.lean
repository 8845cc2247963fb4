import Bootscript.Path

/-! The files of a machine as a value: files with their bytes and permission bits,
directories, and symbolic links. A place in the tree is the list of names that leads to it
from the root. -/
namespace Bootscript

open Bootscript.Path (Name)

/-- Why a path could not be used. No path holds a NUL; `other` is for what a tree of files
cannot raise. -/
inductive OsError where
  | notFound
  | notDirectory
  | isDirectory
  | nameTooLong
  | tooManyLinks
  | nul
  | other (description : String) (code : Nat)
  deriving DecidableEq, Repr

def OsError.message : OsError → String
  | notFound => "No such file or directory (os error 2)"
  | notDirectory => "Not a directory (os error 20)"
  | isDirectory => "Is a directory (os error 21)"
  | nameTooLong => "File name too long (os error 36)"
  | tooManyLinks => "Too many levels of symbolic links (os error 40)"
  | nul => "file name contained an unexpected NUL byte"
  | other description code => description ++ " (os error " ++ toString code ++ ")"

inductive Node where
  | file (mode : Nat) (data : Bytes)
  | directory
  | link (target : Bytes)
  deriving DecidableEq, Repr

/-- Everything beneath the root, which is itself the empty place. -/
structure FileTree where
  nodes : List (List Name × Node) := []
  deriving DecidableEq, Repr

namespace FileTree

def node? (t : FileTree) (place : List Name) : Option Node :=
  if place = [] then some .directory else t.nodes.lookup place

/-- The longest name a directory can hold, and the longest path that can be walked. -/
def maxName : Nat := 255
def maxPath : Nat := 4095

/-- The links that may be followed on one walk. -/
def maxLinks : Nat := 40

/-- What a path means that ends in a link: the link itself or its target. -/
inductive Ending where
  | itself
  | target
  deriving DecidableEq, Repr

def start (here : List Name) (path : Bytes) : List Name := if Path.isAbsolute path then [] else here

section Walk

variable (t : FileTree)

/-- Walks steps from a directory. The parent of the root is the root. `expand` goes on
behind a link. -/
def walk (ending : Ending) (expand : List Name → List Name → Except OsError (List Name)) :
    List Name → List Name → Except OsError (List Name)
  | here, [] => .ok here
  | here, name :: rest =>
    if name = [Path.dot] then walk ending expand here rest
    else if name = [Path.dot, Path.dot] then walk ending expand here.dropLast rest
    else if maxName < name.length then .error .nameTooLong
    else
      match t.node? (here ++ [name]) with
      | none => .error .notFound
      | some .directory => walk ending expand (here ++ [name]) rest
      | some (.file ..) => if rest.isEmpty then .ok (here ++ [name]) else .error .notDirectory
      | some (.link target) =>
        if rest.isEmpty ∧ ending = .itself then .ok (here ++ [name])
        else expand (start here target) (Path.steps target ++ rest)

def walkWithin (ending : Ending) : Nat → List Name → List Name → Except OsError (List Name)
  | 0 => t.walk ending fun _ _ => .error .tooManyLinks
  | links + 1 => t.walk ending (walkWithin ending links)

-- The names `working` lead from the root to the directory in which a run works.
variable (working : List Name)

def locate (ending : Ending) (path : Bytes) : Except OsError (List Name) :=
  if path.contains 0 then .error .nul
  else if path.isEmpty then .error .notFound
  else if maxPath < path.length then .error .nameTooLong
  else t.walkWithin ending maxLinks [] (Path.route working path)

def stat (ending : Ending) (path : Bytes) : Except OsError Node :=
  match t.locate working ending path with
  | .error e => .error e
  | .ok place => .ok ((t.node? place).getD .directory)

def read (path : Bytes) : Except OsError Bytes :=
  match t.stat working .target path with
  | .error e => .error e
  | .ok (.file _ data) => .ok data
  | .ok _ => .error .isDirectory

def mode (path : Bytes) : Except OsError Nat :=
  match t.stat working .target path with
  | .error e => .error e
  | .ok (.file mode _) => .ok mode
  | .ok _ => .ok 0o755

end Walk
end FileTree
end Bootscript
