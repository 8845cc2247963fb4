import Bootscript.Command.Run
import Bootscript.Proofs.Success

/-! Reports, and what comes of carrying one out. A failure asks for nothing to be printed or
written; what cannot be written makes a failure. -/
namespace Bootscript

namespace Command.Report

def IsSound (report : Report) : Prop :=
  report.status ≠ 0 → report.output = [] ∧ report.replacement = none

theorem isSound_failed (failure : Failure) : (failed failure).IsSound := fun _ => ⟨rfl, rfl⟩

theorem isSound_ofStop (help : Text) (stop : Stop) : (ofStop help stop).IsSound := by
  cases stop with
  | usage => exact fun _ => ⟨rfl, rfl⟩
  | version => exact fun failed => absurd rfl failed
  | help => exact fun failed => absurd rfl failed

theorem isSound_ofResult (result : Except Failure Product) : (ofResult result).IsSound := by
  cases result with
  | error failure => exact isSound_failed failure
  | ok product => exact fun failed => absurd rfl failed

inductive Carried (t : FileTree) (working : List Path.Name) (planned : Report) :
    Report × Volume → Prop
  | idle {v} (nothing : planned.replacement = none) (same : v.tree = t) :
    Carried t working planned (planned, v)
  | refused {cause v r} (something : planned.replacement = some r) (same : v.tree = t) :
    Carried t working planned (failed (.os cause), v)
  | replaced {v r} {later : FileTree} {target} (something : planned.replacement = some r)
    (more : later.Extends t) (located : later.locate working .itself r.path = .ok target)
    (whole : v.tree = t.set target (.file r.mode r.data)) : Carried t working planned (planned, v)

theorem carried_carryOut (planned : Report) (v : Volume) :
    Carried v.tree v.working planned (planned.carryOut (m := StateM Volume) v) := by
  unfold carryOut
  cases something : planned.replacement with
  | none => exact .idle something rfl
  | some r =>
    have committed := Replacement.committed_commit r v
    simp only [Volume.bind_apply]
    generalize r.commit (m := StateM Volume) v = outcome at committed
    cases committed with
    | refused same => exact .refused something same
    | replaced more located whole => exact .replaced something more located whole

/-- A report with nothing to write, or with something that can be put in its place. -/
theorem carryOut_eq {planned : Report} {v : Volume}
    (possible : ∀ r, planned.replacement = some r →
      ((r.commit : StateM Volume (Except OsError Unit)) v).1 = .ok ()) :
    ((planned.carryOut : StateM Volume Report) v).1 = planned := by
  unfold carryOut
  cases something : planned.replacement with
  | none => rfl
  | some r => simp only [Volume.bind_apply, possible r something, Volume.pure_apply]

section Carried

variable {t : FileTree} {working : List Path.Name} {planned : Report} {outcome : Report × Volume}
  (carried : Carried t working planned outcome)
include carried

theorem Carried.failed (sound : planned.IsSound) (failed : outcome.1.status ≠ 0) :
    outcome.2.tree = t ∧ outcome.1.output = [] := by
  cases carried with
  | idle nothing same => exact ⟨same, (sound failed).1⟩
  | refused something same => exact ⟨same, rfl⟩
  | replaced something =>
    rw [(sound failed).2] at something
    cases something

theorem Carried.kept (nothing : planned.replacement = none) : outcome.2.tree = t := by
  cases carried with
  | idle _ same => exact same
  | refused _ same => exact same
  | replaced something =>
    rw [nothing] at something
    cases something

theorem Carried.changed (sound : planned.IsSound) (other : outcome.2.tree ≠ t) :
    outcome.1.status = 0 ∧ planned.replacement ≠ none := by
  constructor
  · by_contra failed
    exact other (carried.failed sound failed).1
  · exact fun nothing => other (carried.kept nothing)

end Carried
end Command.Report
end Bootscript
