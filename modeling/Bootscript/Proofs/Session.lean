import Bootscript.Proofs.Task

/-! Runs one after another on one tree of files. Each does what a single run may do, so that
nothing comes to the tree, nothing goes, and what changed is the script of a run. -/
namespace Bootscript

open Bootscript.Path (Name)
open Command (Report)

structure Use where
  task : Task
  input : Bytes := []
  refusal : Access → Bytes → Option OsError := fun _ _ => none
  conditions : Conditions := {}

structure Run where
  use : Use
  before : Surroundings
  report : Report
  after : FileTree

namespace Use

def run (use : Use) (s : Surroundings) : Run :=
  let before : Surroundings := { s with input := use.input, refusal := use.refusal }
  let (report, after) := use.task.run before use.conditions
  ⟨use, before, report, after⟩

/-- The runs of some uses, each in the tree that the one before it leaves. -/
def history : Surroundings → List Use → List Run
  | _, [] => []
  | s, use :: uses => use.run s :: history { s with tree := (use.run s).after } uses

def leave (s : Surroundings) (uses : List Use) : FileTree :=
  uses.foldl (fun tree use => (use.run { s with tree }).after) s.tree

end Use

namespace Run

def IsSafe (run : Run) : Prop :=
  run.use.task.IsSafe run.before run.use.conditions run.report run.after

def Rewrites (run : Run) (place : List Name) : Prop :=
  run.report.status = 0 ∧ ∃ g path distributable,
    run.use.task.Regenerates run.before g (.file path) distributable ∧
      run.before.tree.locate run.before.working .itself path = .ok place

variable {run : Run} (safe : run.IsSafe)
include safe

theorem IsSafe.places : run.after.nodes.map Prod.fst = run.before.tree.nodes.map Prod.fst := by
  by_cases same : run.after = run.before.tree
  · rw [same]
  · obtain ⟨success, g, path, distributable, regenerates⟩ := safe.changed same
    obtain ⟨_, _, _, _, _, _, _, rewrite, _⟩ := safe.rewrote g path distributable regenerates success
    exact rewrite.places

theorem IsSafe.rewrites_of_node?_ne {place : List Name}
    (other : run.after.node? place ≠ run.before.tree.node? place) : run.Rewrites place := by
  have changed : run.after ≠ run.before.tree := fun same => other (by rw [same])
  obtain ⟨success, g, path, distributable, regenerates⟩ := safe.changed changed
  obtain ⟨entry, _, _, _, _, _, _, rewrite, _⟩ :=
    safe.rewrote g path distributable regenerates success
  have same : place = entry := by
    by_contra apart
    exact other (rewrite.others place apart)
  exact ⟨success, g, path, distributable, regenerates, same ▸ rewrite.located⟩

end Run

namespace Use

theorem isSafe_run (use : Use) (s : Surroundings) : (use.run s).IsSafe :=
  Task.isSafe_run use.task { s with input := use.input, refusal := use.refusal } use.conditions

theorem isSafe_of_mem_history {s : Surroundings} {uses : List Use} {run : Run}
    (member : run ∈ history s uses) : run.IsSafe := by
  induction uses generalizing s with
  | nil => cases member
  | cons use uses ih =>
    rcases List.mem_cons.1 member with rfl | later
    · exact use.isSafe_run s
    · exact ih later

theorem leave_cons (use : Use) (uses : List Use) (s : Surroundings) :
    leave s (use :: uses) = leave { s with tree := (use.run s).after } uses := rfl

theorem places_leave (s : Surroundings) (uses : List Use) :
    (leave s uses).nodes.map Prod.fst = s.tree.nodes.map Prod.fst := by
  induction uses generalizing s with
  | nil => rfl
  | cons use uses ih =>
    have first : (use.run s).after.nodes.map Prod.fst = s.tree.nodes.map Prod.fst :=
      (use.isSafe_run s).places
    exact (ih { s with tree := (use.run s).after }).trans first

theorem exists_rewrites_of_node?_ne {s : Surroundings} {uses : List Use} {place : List Name}
    (other : (leave s uses).node? place ≠ s.tree.node? place) :
    ∃ run ∈ history s uses, run.Rewrites place := by
  induction uses generalizing s with
  | nil => exact absurd rfl other
  | cons use uses ih =>
    rw [leave_cons] at other
    by_cases same : (use.run s).after.node? place = s.tree.node? place
    · rw [← same] at other
      obtain ⟨run, member, rewrites⟩ := ih other
      exact ⟨run, List.mem_cons_of_mem _ member, rewrites⟩
    · exact ⟨use.run s, List.mem_cons_self .., (use.isSafe_run s).rewrites_of_node?_ne same⟩

/-- However the machine treats them, runs one after another are safe each by itself. No place
in the tree is new or gone after them, and one at which something else stands now is that of
the script of a run that went well. -/
theorem history_isSafe (s : Surroundings) (uses : List Use) :
    (∀ run ∈ history s uses, run.IsSafe) ∧
      (leave s uses).nodes.map Prod.fst = s.tree.nodes.map Prod.fst ∧
      ∀ place, (leave s uses).node? place ≠ s.tree.node? place →
        ∃ run ∈ history s uses, run.Rewrites place :=
  ⟨fun _ => isSafe_of_mem_history, places_leave s uses, fun _ => exists_rewrites_of_node?_ne⟩

end Use
end Bootscript
