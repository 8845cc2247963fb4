import Bootscript.FileTree.Basic

/-! Changing a tree: setting and removing single nodes, making an empty file, and moving a
node to where a path leads. -/
namespace Bootscript

open Bootscript.Path (Name)

def Node.withData (data : Bytes) : Node → Node
  | .file mode _ => .file mode data
  | node => node

def Node.withMode (mode : Nat) : Node → Node
  | .file _ data => .file mode data
  | node => node

namespace FileTree

def setNode (place : List Name) (node : Node) : List (List Name × Node) → List (List Name × Node)
  | [] => [(place, node)]
  | (other, old) :: rest =>
    if other = place then (place, node) :: rest else (other, old) :: setNode place node rest

/-- Puts a node in its place, whatever was there before. The root stays. -/
def set (t : FileTree) (place : List Name) (node : Node) : FileTree :=
  if place = [] then t else ⟨setNode place node t.nodes⟩

def erase (t : FileTree) (place : List Name) : FileTree :=
  ⟨t.nodes.filter (·.1 ≠ place)⟩

def update (t : FileTree) (place : List Name) (change : Node → Node) : FileTree :=
  match t.node? place with
  | none => t
  | some node => t.set place (change node)

def privateMode : Nat := 0o600

section Paths

variable (t : FileTree) (working : List Name)

/-- Makes an empty file. Its place is returned, or nothing if something is there. -/
def create (directory : Bytes) (name : Name) : Except OsError (Option (List Name) × FileTree) :=
  match t.locate working .target directory with
  | .error cause => .error cause
  | .ok parent =>
    if t.node? parent ≠ some .directory then .error .notDirectory
    else if maxName < name.length then .error .nameTooLong
    else
      match t.node? (parent ++ [name]) with
      | some _ => .ok (none, t)
      | none => .ok (some (parent ++ [name]), t.set (parent ++ [name]) (.file privateMode []))

def rename (place : List Name) (path : Bytes) : Except OsError FileTree :=
  match t.locate working .itself path with
  | .error cause => .error cause
  | .ok target =>
    match t.node? place, t.node? target with
    | none, _ => .error .notFound
    | _, some .directory => .error .isDirectory
    | some node, _ => .ok ((t.erase place).set target node)

end Paths
end FileTree
end Bootscript
