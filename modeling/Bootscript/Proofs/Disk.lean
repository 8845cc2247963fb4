import Bootscript.FileTree.Volume
import Bootscript.Proofs.FileTree.Walk

/-! Replacements on a volume. Whatever the machine refuses, a replacement that fails leaves
the tree as it was, and one that succeeds has set a single node. -/
namespace Bootscript

open Bootscript.Path (Name)

theorem FileTree.create_cases (t : FileTree) (working : List Name) (directory : Bytes) (name : Name) :
    (∃ cause, t.create working directory name = .error cause) ∨
      t.create working directory name = .ok (none, t) ∨
      ∃ place, t.node? place = none ∧
        t.create working directory name = .ok (some place, t.set place (.file privateMode [])) := by
  unfold create
  split
  · exact .inl ⟨_, rfl⟩
  split
  · exact .inl ⟨_, rfl⟩
  split
  · exact .inl ⟨_, rfl⟩
  split
  · exact .inr (.inl rfl)
  · rename_i vacant
    exact .inr (.inr ⟨_, vacant, rfl⟩)

theorem FileTree.exists_of_rename {t after : FileTree} {working place : List Name} {path : Bytes}
    (renamed : t.rename working place path = .ok after) : ∃ target node,
      t.locate working .itself path = .ok target ∧ t.node? place = some node ∧
        after = (t.erase place).set target node := by
  unfold rename at renamed
  split at renamed
  · cases renamed
  rename_i target located
  split at renamed
  · cases renamed
  · cases renamed
  · rename_i node found _
    cases renamed
    exact ⟨target, node, located, found, rfl⟩

namespace Volume

@[simp] theorem bind_apply {α β : Type} (x : StateM Volume α) (f : α → StateM Volume β) (v : Volume) :
    (x >>= f) v = f (x v).1 (x v).2 := rfl

@[simp] theorem pure_apply {α : Type} (a : α) (v : Volume) : (pure a : StateM Volume α) v = (a, v) :=
  rfl

/-- Steps in order, of which the first that is refused is the last. -/
theorem run_bind_apply (x : StateM Volume (Except OsError Unit))
    (rest : Unit → ExceptT OsError (StateM Volume) Unit) (v : Volume) :
    ExceptT.run (ExceptT.mk x >>= rest) v =
      match x v with
      | (.error cause, v) => (.error cause, v)
      | (.ok (), v) => (rest ()).run v := by
  rw [ExceptT.run_bind, ExceptT.run_mk, bind_apply]
  rcases x v with ⟨_ | _, v⟩ <;> rfl

section Steps

variable (v : Volume) (place : List Name) (path : Bytes)

@[simp] theorem draw_apply : (Disk.draw : StateM Volume Text) v = (v.conditions.tags 0, v.drawn) :=
  rfl

@[simp] theorem create_apply (name : Name) :
    (Disk.create path name : StateM Volume (Except OsError (Option (List Name)))) v =
      v.attempt .create (v.tree.create v.working path name) := rfl

@[simp] theorem write_apply (data : Bytes) :
    (Disk.write place data : StateM Volume (Except OsError Unit)) v = v.write place data := rfl

@[simp] theorem sync_apply : (Disk.sync place : StateM Volume (Except OsError Unit)) v =
    v.attempt .sync (.ok ((), v.tree)) := rfl

@[simp] theorem setMode_apply (mode : Nat) :
    (Disk.setMode place mode : StateM Volume (Except OsError Unit)) v =
      v.attempt .setMode (.ok ((), v.tree.update place (.withMode mode))) := rfl

@[simp] theorem rename_apply : (Disk.rename place path : StateM Volume (Except OsError Unit)) v =
    v.attempt .rename ((v.tree.rename v.working place path).map ((), ·)) := rfl

end Steps

theorem attempt_cases {α : Type} (v : Volume) (stage : Stage)
    (step : Except OsError (α × FileTree)) :
    (∃ cause, v.attempt stage step = (.error cause, v)) ∨
      ∃ result tree, step = .ok (result, tree) ∧
        v.attempt stage step = (.ok result, { v with tree }) := by
  unfold attempt
  split
  · exact .inl ⟨_, rfl⟩
  · exact .inl ⟨_, rfl⟩
  · exact .inr ⟨_, _, rfl, rfl⟩

end Volume

namespace Replacement

inductive Created (t : FileTree) (working : List Name) : Except OsError (List Name) × Volume → Prop
  | refused {cause v} (same : v.tree = t) : Created t working (.error cause, v)
  | made {place v} (vacant : t.node? place = none) (fixed : v.working = working)
    (made : v.tree = t.set place (.file FileTree.privateMode [])) : Created t working (.ok place, v)

theorem created_create (path : Bytes) (left : Nat) (v : Volume) :
    Created v.tree v.working ((create path left : StateM Volume (Except OsError (List Name))) v) := by
  induction left generalizing v with
  | zero => exact .refused rfl
  | succ left ih =>
    have kept : v.drawn.tree = v.tree := rfl
    simp only [create, Volume.bind_apply, Volume.draw_apply, Volume.create_apply]
    rcases v.drawn.attempt_cases .create (v.drawn.tree.create v.drawn.working (directory path)
      (temporaryName path (v.conditions.tags 0)).encode) with
      ⟨cause, refused⟩ | ⟨result, tree, allowed, made⟩
    · rw [refused]
      exact .refused kept
    · rw [made]
      rcases v.drawn.tree.create_cases v.drawn.working (directory path)
        (temporaryName path (v.conditions.tags 0)).encode with
        ⟨cause, refused⟩ | taken | ⟨place, vacant, found⟩
      · cases allowed.symm.trans refused
      · cases allowed.symm.trans taken
        exact ih v.drawn
      · cases allowed.symm.trans found
        exact .made vacant rfl rfl

inductive Filled (t : FileTree) (working place : List Name) (r : Replacement) :
    Except OsError Unit × Volume → Prop
  | refused {cause v} (node : Node) (begun : v.tree = t.set place node) :
    Filled t working place r (.error cause, v)
  | renamed {v target} (located :
      (t.set place (.file r.mode r.data)).locate working .itself r.path = .ok target)
    (whole : v.tree = t.set target (.file r.mode r.data)) : Filled t working place r (.ok (), v)

section Fill

variable {t : FileTree} {working place : List Name} (vacant : t.node? place = none) {r : Replacement}
include vacant

theorem filled_rename {v : Volume} (fixed : v.working = working)
    (begun : v.tree = t.set place (.file r.mode r.data)) :
    Filled t working place r
      (v.attempt .rename ((v.tree.rename v.working place r.path).map ((), ·))) := by
  have nonempty : place ≠ [] := FileTree.ne_nil_of_node?_eq_none vacant
  rcases v.attempt_cases .rename ((v.tree.rename v.working place r.path).map ((), ·)) with
    ⟨cause, refused⟩ | ⟨result, tree, allowed, moved⟩
  · rw [refused]
    exact .refused _ begun
  · rw [moved]
    rcases renamed : v.tree.rename v.working place r.path with cause | after <;> rw [renamed] at allowed
    · cases allowed
    cases allowed
    rw [begun, fixed] at renamed
    obtain ⟨target, node, located, found, rfl⟩ := FileTree.exists_of_rename renamed
    rw [FileTree.node?_set_self _ _ nonempty] at found
    cases found
    exact .renamed located (by rw [t.erase_set_of_vacant _ vacant])

omit vacant in
/-- A step that the machine may refuse, and what is done after it. -/
theorem Filled.step {v : Volume} {tree : FileTree} {node later : Node} {stage : Stage}
    {x : StateM Volume (Except OsError Unit)} {rest : Unit → ExceptT OsError (StateM Volume) Unit}
    (fixed : v.working = working) (begun : v.tree = t.set place node)
    (tried : x v = v.attempt stage (.ok ((), tree))) (changed : tree = t.set place later)
    (further : ∀ v : Volume, v.working = working → v.tree = t.set place later →
      Filled t working place r ((rest ()).run v)) :
    Filled t working place r ((ExceptT.mk x >>= rest).run v) := by
  rw [Volume.run_bind_apply, tried]
  rcases v.attempt_cases stage (.ok ((), tree)) with ⟨cause, refused⟩ | ⟨_, _, allowed, done⟩
  · rw [refused]
    exact .refused node begun
  · rw [done]
    cases allowed
    exact further _ fixed changed

theorem filled_fill {mode : Nat} {data : Bytes} {v : Volume} (fixed : v.working = working)
    (begun : v.tree = t.set place (.file mode data)) :
    Filled t working place r ((fill place r : StateM Volume (Except OsError Unit)) v) := by
  have nonempty : place ≠ [] := FileTree.ne_nil_of_node?_eq_none vacant
  have update (change : Node → Node) (node : Node) :
      (t.set place node).update place change = t.set place (change node) :=
    t.update_set node nonempty change
  rw [fill, Volume.run_bind_apply, Volume.write_apply, Volume.write, begun, update, update]
  cases v.conditions.refusal .write with
  | some cause => exact .refused _ rfl
  | none =>
    refine Filled.step (v := { v with tree := _ }) fixed rfl (Volume.sync_apply ..) rfl ?_
    intro v fixed begun
    apply Filled.step fixed begun (Volume.setMode_apply ..) (by rw [begun, update])
    exact fun v fixed begun => filled_rename vacant fixed begun

end Fill

inductive Committed (t : FileTree) (working : List Name) (r : Replacement) :
    Except OsError Unit × Volume → Prop
  | refused {cause v} (same : v.tree = t) : Committed t working r (.error cause, v)
  | replaced {v} {later : FileTree} {target} (more : later.Extends t)
    (located : later.locate working .itself r.path = .ok target)
    (whole : v.tree = t.set target (.file r.mode r.data)) : Committed t working r (.ok (), v)

theorem committed_commit (r : Replacement) (v : Volume) :
    Committed v.tree v.working r ((r.commit : StateM Volume (Except OsError Unit)) v) := by
  have created := created_create r.path attempts v
  unfold commit
  rw [Volume.bind_apply]
  generalize (create r.path attempts : StateM Volume (Except OsError (List Name))) v = outcome
    at created
  cases created with
  | refused same => exact .refused same
  | @made place begun vacant fixed made =>
    have filled := filled_fill vacant (r := r) fixed made
    simp only [Volume.bind_apply]
    generalize (fill place r : StateM Volume (Except OsError Unit)) begun = outcome at filled
    cases filled with
    | refused node begun =>
      apply Committed.refused
      rw [← v.tree.erase_set_of_vacant node vacant, ← begun]
    | renamed located whole =>
      exact .replaced (v.tree.extends_set_of_vacant _ vacant) located whole

end Replacement
end Bootscript
