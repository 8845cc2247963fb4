import Bootscript.Disk
import Bootscript.FileTree.Edit

/-! A tree of files as the disk of a run. Any step of a replacement may be refused. -/
namespace Bootscript

open Bootscript.Path (Name)

inductive Stage where
  | create
  | write
  | sync
  | setMode
  | rename
  deriving DecidableEq, Repr

/-- What a run meets on a machine when it writes: the letters that are drawn, the steps that
are refused, and how many bytes a write makes that is refused. -/
structure Conditions where
  tags : Nat → Text := fun n => (Nat.toDigits 10 (100000 + n))
  refusal : Stage → Option OsError := fun _ => none
  written : Nat := 0

/-- A tree of files, the directory in which a run works, and what the run meets. -/
structure Volume where
  tree : FileTree
  working : List Name
  conditions : Conditions

namespace Volume

def drawn (v : Volume) : Volume :=
  { v with conditions.tags := fun n => v.conditions.tags (n + 1) }

def attempt {α : Type} (v : Volume) (stage : Stage) (step : Except OsError (α × FileTree)) :
    Except OsError α × Volume :=
  match v.conditions.refusal stage, step with
  | some cause, _ | none, .error cause => (.error cause, v)
  | none, .ok (result, tree) => (.ok result, { v with tree })

/-- A write that is refused may have written something. -/
def write (v : Volume) (place : List Name) (data : Bytes) : Except OsError Unit × Volume :=
  match v.conditions.refusal .write with
  | some cause =>
    (.error cause, { v with tree := v.tree.update place (.withData (data.take v.conditions.written)) })
  | none => (.ok (), { v with tree := v.tree.update place (.withData data) })

end Volume

instance : Disk (StateM Volume) (List Name) where
  draw := fun v => (v.conditions.tags 0, v.drawn)
  create directory name := fun v => v.attempt .create (v.tree.create v.working directory name)
  write place data := fun v => v.write place data
  sync _ := fun v => v.attempt .sync (.ok ((), v.tree))
  setMode place mode := fun v => v.attempt .setMode (.ok ((), v.tree.update place (.withMode mode)))
  rename place path := fun v =>
    v.attempt .rename ((v.tree.rename v.working place path).map ((), ·))
  remove place := fun v => ((), { v with tree := v.tree.erase place })

end Bootscript
