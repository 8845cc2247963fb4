import Bootscript.Archive.Directory
import Bootscript.Failure
import Bootscript.Host
import Bootscript.Payload

/-! The source tree of the runtime module and the archive made of it. Members are
ordered by name and carry nothing but names and bytes of the files. -/
namespace Bootscript

open Bootscript.Path (Name)

structure RuntimeSource where
  root : Bytes
  package : Text
  extensions : List Text
  deriving DecidableEq, Repr

namespace RuntimeSource

structure Item where
  name : Text
  steps : List Name
  deriving DecidableEq, Repr

def Item.path (source : RuntimeSource) (item : Item) : Bytes := Path.join source.root item.steps

/-- By member name, and files whose names look alike by their bytes. -/
def Item.le (a b : Item) : Bool :=
  if a.name = b.name then lexicographic Bytes.le a.steps b.steps else Text.le a.name b.name

/-- Whether a file has one of the extensions. An extension that is not UTF-8 is none of them. -/
def wants (source : RuntimeSource) (name : Name) : Bool :=
  match (Path.extension? name).bind Text.decode? with
  | none => false
  | some extension => source.extensions.contains extension

/-- The package and the path below the root. Bytes that are not UTF-8 are replaced. -/
def memberName (source : RuntimeSource) (steps : List Name) : Text :=
  source.package ++ steps.flatMap fun name => '/' :: Text.decodeLossy name

def select (source : RuntimeSource) : Survey → List Item
  | .file => if (Path.fileName? source.root).any source.wants then [⟨source.package, []⟩] else []
  | .directory files =>
    ((files.filter fun steps => steps.getLast?.any source.wants).map fun steps =>
      ⟨source.memberName steps, steps⟩).mergeSort Item.le
  | .other => []

def collect {m : Type → Type} [Monad m] [Host m] (source : RuntimeSource) :
    List Item → List Archive.Member → m (Except Failure (List Archive.Member))
  | [], members => return .ok members.reverse
  | item :: rest, members => do
    match ← Host.read (item.path source) with
    | .error cause => return .error (.os cause)
    | .ok data =>
      if members.any (·.name = item.name) then return .error (.duplicateMember item.name)
      else collect source rest (⟨item.name, data⟩ :: members)

/-- The wanted files under the root, in the order of their member names. -/
def items {m : Type → Type} [Monad m] [Host m] (source : RuntimeSource) :
    m (Except Failure (List Item)) := do
  match ← Host.survey source.root with
  | .error unreadable => return .error (.unreadableSources unreadable)
  | .ok found => return .ok (source.select found)

def members {m : Type → Type} [Monad m] [Host m] (source : RuntimeSource) :
    m (Except Failure (List Archive.Member)) := do
  match ← source.items with
  | .error failure => return .error failure
  | .ok [] => return .error (.noSources source.root)
  | .ok items => source.collect items []

def archive {m : Type → Type} [Monad m] [Host m] (source : RuntimeSource) :
    m (Except Failure Payload) := do
  match ← source.members with
  | .error failure => return .error failure
  | .ok members => return .ok (Payload.ofArchive (← Host.pack members))

end RuntimeSource

/-- The archive in the lines of a payload, if they are one. -/
def Payload.entries? (lines : List Line) : Option (List Archive.Entry) :=
  if isBlock lines then
    (Base64.decode? ((lines.drop 1).dropLast.dropLast.flatten)).bind Archive.read?
  else none

end Bootscript
