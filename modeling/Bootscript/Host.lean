import Bootscript.Archive.Zip
import Bootscript.FileTree.Basic

/-! What a run may ask of the machine it runs on: bytes of files, permission bits, the files
of a directory tree, the directory it works in, its own input, and what others make of its
data. Nothing can be changed through a host. -/
namespace Bootscript

open Bootscript.Path (Name)

/-- What is found at the root of a tree of sources. Files beneath a directory are those
that are reached without following a link, as the names that lead to them. -/
inductive Survey where
  | file
  | directory (files : List (List Name))
  | other
  deriving DecidableEq, Repr

structure Unreadable where
  path : Bytes
  cause : OsError
  deriving DecidableEq, Repr

class Host (m : Type → Type) where
  read : Bytes → m (Except OsError Bytes)
  mode : Bytes → m (Except OsError Nat)
  survey : Bytes → m (Except Unreadable Survey)
  workingDirectory : m Bytes
  input : m Bytes
  /-- Makes an archive of members. -/
  pack : List Archive.Member → m Bytes
  /-- The text that explains the command line. -/
  help : (arguments : List Bytes) → m Text

namespace FileTree

def below (t : FileTree) (place : List Name) : List (List Name × Node) :=
  t.nodes.filterMap fun (other, node) =>
    if place.isPrefixOf other ∧ place ≠ other then some (other.drop place.length, node) else none

def filesBelow (t : FileTree) (place : List Name) : List (List Name) :=
  (t.below place).filterMap fun (steps, node) =>
    match node with
    | .file .. => some steps
    | _ => none

/-- The directories beneath a directory, each before what is in it, and siblings in the
order of their bytes. -/
def directoriesBelow (t : FileTree) (place : List Name) : List (List Name) :=
  ((t.below place).filterMap fun (steps, node) =>
    if node = .directory then some steps else none).mergeSort (lexicographic Bytes.le)

end FileTree

/-- What is asked for at a path: what stands there, or what is in it. -/
inductive Access where
  | status
  | content
  deriving DecidableEq, Repr

/-- A tree of files, the names that lead from its root to the directory in which a run works,
the input of the run, and what the machine does not let it look at. What becomes of members
and what explains the command line is the work of others. -/
structure Surroundings where
  tree : FileTree
  working : List Name := []
  input : Bytes := []
  refusal : Access → Bytes → Option OsError := fun _ _ => none
  pack : List Archive.Member → Bytes := Archive.write
  help : List Bytes → Text := fun _ => []

namespace Surroundings

variable (s : Surroundings)

def allow {α : Type} (access : Access) (path : Bytes) (found : Except OsError α) :
    Except OsError α :=
  match s.refusal access path with
  | some cause => .error cause
  | none => found

def read (path : Bytes) : Except OsError Bytes :=
  s.allow .content path (s.tree.read s.working path)

def mode (path : Bytes) : Except OsError Nat :=
  s.allow .status path (s.tree.mode s.working path)

/-- Why a directory cannot be listed, which it is by its path. -/
def obstacle? (path : Bytes) : Option Unreadable :=
  if FileTree.maxPath < path.length then some ⟨path, .nameTooLong⟩
  else (s.refusal .content path).map (Unreadable.mk path)

def surveyAt (root : Bytes) (place : List Name) : Except Unreadable Survey :=
  match s.tree.node? place with
  | some (.file ..) => .ok .file
  | some .directory =>
    match (([] :: s.tree.directoriesBelow place).map (Path.join root)).findSome? s.obstacle? with
    | some unreadable => .error unreadable
    | none => .ok (.directory (s.tree.filesBelow place))
  | _ => .ok .other

/-- A link at the root is followed to a directory, but a file behind it does not count. -/
def survey (root : Bytes) : Except Unreadable Survey := do
  let seen ← (s.allow .status root (s.tree.stat s.working .itself root)).mapError
    (Unreadable.mk root)
  let place ← (s.tree.locate s.working .target root).mapError (Unreadable.mk root)
  match seen, ← s.surveyAt root place with
  | .link _, .file => return .other
  | _, found => return found

end Surroundings

instance : Host (ReaderM Surroundings) where
  read path := fun s => s.read path
  mode path := fun s => s.mode path
  survey root := fun s => s.survey root
  workingDirectory := fun s => Path.ofNames s.working
  input := fun s => s.input
  pack members := fun s => s.pack members
  help arguments := fun s => s.help arguments

end Bootscript
