import Bootscript.Proofs.FileTree.Entry
import Bootscript.Proofs.Disk

/-! Replacements that nothing stands in the way of. A file or a link can be replaced if there
is room for a name beside it, one is free, and the machine refuses no step. -/
namespace Bootscript

open Bootscript.Path (Name)

namespace FileTree

section Create

variable {t : FileTree} {working parent : List Name} {directory : Bytes} {name : Name}
  (led : t.locate working .target directory = .ok parent)
  (there : t.node? parent = some .directory) (fits : name.length ≤ maxName)
include led there fits

theorem create_of_vacant (vacant : t.node? (parent ++ [name]) = none) :
    t.create working directory name =
      .ok (some (parent ++ [name]), t.set (parent ++ [name]) (.file privateMode [])) := by
  simp only [create, led, there, ne_eq, not_true_eq_false, ↓reduceIte, Nat.not_lt.2 fits, vacant]

theorem create_of_taken {node : Node} (taken : t.node? (parent ++ [name]) = some node) :
    t.create working directory name = .ok (none, t) := by
  simp only [create, led, there, ne_eq, not_true_eq_false, ↓reduceIte, Nat.not_lt.2 fits, taken]

end Create

theorem rename_of_located {t : FileTree} {working place target : List Name} {path : Bytes}
    {node old : Node} (located : t.locate working .itself path = .ok target)
    (found : t.node? place = some node) (there : t.node? target = some old)
    (other : old ≠ .directory) :
    t.rename working place path = .ok ((t.erase place).set target node) := by
  cases old with
  | directory => exact absurd rfl other
  | _ => simp only [rename, located, found, there]

end FileTree

namespace Volume

def IsWilling (v : Volume) : Prop := ∀ stage, v.conditions.refusal stage = none

def withTree (v : Volume) (tree : FileTree) : Volume := { v with tree }

@[simp] theorem tree_withTree (v : Volume) (tree : FileTree) : (v.withTree tree).tree = tree := rfl

theorem run_bind_of_ok {x : StateM Volume (Except OsError Unit)} {v w : Volume}
    (done : x v = (.ok (), w)) (rest : Unit → ExceptT OsError (StateM Volume) Unit) :
    ExceptT.run (ExceptT.mk x >>= rest) v = (rest ()).run w := by
  rw [run_bind_apply, done]

namespace IsWilling

variable {v : Volume} (willing : v.IsWilling) (place : List Name)
include willing

theorem withTree (tree : FileTree) : (v.withTree tree).IsWilling := willing

theorem attempt_eq {α : Type} (stage : Stage) (result : α) (tree : FileTree) :
    v.attempt stage (.ok (result, tree)) = (.ok result, v.withTree tree) := by
  simp only [attempt, willing stage, Volume.withTree]

theorem write (data : Bytes) : (Disk.write place data : StateM Volume (Except OsError Unit)) v =
    (.ok (), v.withTree (v.tree.update place (.withData data))) := by
  simp only [write_apply, Volume.write, willing .write, Volume.withTree]

theorem sync : (Disk.sync place : StateM Volume (Except OsError Unit)) v = (.ok (), v) :=
  willing.attempt_eq .sync () v.tree

theorem setMode (mode : Nat) : (Disk.setMode place mode : StateM Volume (Except OsError Unit)) v =
    (.ok (), v.withTree (v.tree.update place (.withMode mode))) :=
  willing.attempt_eq .setMode () _

theorem rename {path : Bytes} {after : FileTree}
    (renamed : v.tree.rename v.working place path = .ok after) :
    (Disk.rename place path : StateM Volume (Except OsError Unit)) v =
      (.ok (), v.withTree after) := by
  rw [rename_apply, renamed]
  exact willing.attempt_eq .rename () after

end IsWilling
end Volume

namespace Replacement

theorem byteLength_temporaryName (path : Bytes) (tag : Text) :
    (temporaryName path tag).byteLength = (temporaryName path []).byteLength + tag.byteLength := by
  simp only [temporaryName, Text.byteLength, Text.encode_append, Text.encode_cons, Text.encode_nil,
    List.length_append, List.length_nil]
  omega

/-- The name of a new file can be held by a directory if there is room for it. -/
theorem length_temporaryName_le {working path : Bytes} (room : hasRoom working path)
    {tag : Text} (sized : tag.byteLength = tagLength) :
    (temporaryName path tag).encode.length ≤ FileTree.maxName := by
  have same : Text.byteLength (List.replicate tagLength 'x') = tagLength := by decide
  have fits := (Bool.and_eq_true_iff.1 room).1
  rw [decide_eq_true_iff, byteLength_temporaryName, same] at fits
  change (temporaryName path tag).byteLength ≤ FileTree.maxName
  rw [byteLength_temporaryName, sized]
  exact fits

theorem exists_create_eq_ok {path : Bytes} {parent : List Name} (left : Nat) (v : Volume)
    (willing : v.IsWilling)
    (led : v.tree.locate v.working .target (directory path) = .ok parent)
    (there : v.tree.node? parent = some .directory)
    (fits : ∀ n < left,
      (temporaryName path (v.conditions.tags n)).encode.length ≤ FileTree.maxName)
    (free : ∃ n < left,
      v.tree.node? (parent ++ [(temporaryName path (v.conditions.tags n)).encode]) = none) :
    ∃ place w,
      (create path left : StateM Volume (Except OsError (List Name))) v = (.ok place, w) ∧
        w.IsWilling := by
  induction left generalizing v with
  | zero =>
    obtain ⟨_, none, _⟩ := free
    cases none
  | succ left ih =>
    have drawn : v.drawn.IsWilling := willing
    have located : v.drawn.tree.locate v.drawn.working .target (directory path) =
      .ok parent := led
    simp only [create, Volume.bind_apply, Volume.draw_apply, Volume.create_apply]
    have first := fits 0 left.succ_pos
    cases node : v.tree.node? (parent ++ [(temporaryName path (v.conditions.tags 0)).encode]) with
    | none =>
      rw [FileTree.create_of_vacant located there first node, drawn.attempt_eq]
      exact ⟨_, _, rfl, willing⟩
    | some old =>
      -- A name that is taken costs a tag and leaves the tree as it is, so the next is tried there.
      rw [FileTree.create_of_taken located there first node, drawn.attempt_eq]
      obtain ⟨n, few, vacant⟩ := free
      cases n with
      | zero => cases node.symm.trans vacant
      | succ n =>
        exact ih v.drawn drawn located there (fun n few => fits (n + 1) (Nat.succ_lt_succ few))
          ⟨n, Nat.lt_of_succ_lt_succ few, vacant⟩

theorem fill_eq_ok {r : Replacement} {t : FileTree} {place target : List Name} {old : Node}
    {mode : Nat} {data : Bytes} {v : Volume} (willing : v.IsWilling)
    (vacant : t.node? place = none) (begun : v.tree = t.set place (.file mode data))
    (located :
      (t.set place (.file r.mode r.data)).locate v.working .itself r.path = .ok target)
    (there : (t.set place (.file r.mode r.data)).node? target = some old)
    (other : old ≠ .directory) :
    ((fill place r : StateM Volume (Except OsError Unit)) v).1 = .ok () := by
  have nonempty : place ≠ [] := FileTree.ne_nil_of_node?_eq_none vacant
  have update (change : Node → Node) (node : Node) :
      (t.set place node).update place change = t.set place (change node) :=
    t.update_set node nonempty change
  have written : (Disk.write place r.data : StateM Volume (Except OsError Unit)) v =
      (.ok (), v.withTree (t.set place (.file mode r.data))) := by
    rw [willing.write, begun, update, Node.withData]
  have synced := (willing.withTree (t.set place (.file mode r.data))).sync place
  have permitted : (Disk.setMode place r.mode : StateM Volume (Except OsError Unit))
      (v.withTree (t.set place (.file mode r.data))) =
        (.ok (), v.withTree (t.set place (.file r.mode r.data))) := by
    rw [(willing.withTree _).setMode, Volume.tree_withTree, update]
    rfl
  have renamed := (willing.withTree (t.set place (.file r.mode r.data))).rename place
    (FileTree.rename_of_located located (t.node?_set_self _ nonempty) there other)
  rw [fill, Volume.run_bind_of_ok written, Volume.run_bind_of_ok synced,
    Volume.run_bind_of_ok permitted, ExceptT.run_mk, renamed]

/-- A machine that refuses nothing, and of the names that it tries one that is free. -/
structure IsAllowed (path : Bytes) (t : FileTree) (c : Conditions) : Prop where
  allowed : ∀ stage, c.refusal stage = none
  sized : ∀ n < attempts, (c.tags n).byteLength = tagLength
  free : ∃ n < attempts, ∀ directory,
    t.node? (directory ++ [(temporaryName path (c.tags n)).encode]) = none

/-- What is drawn where the conditions say nothing of it is as long as a tag. -/
theorem byteLength_digits {n : Nat} (few : n < attempts) :
    Text.byteLength (Nat.toDigits 10 (100000 + n)) = tagLength := by
  have ascii : ∀ c ∈ Nat.toDigits 10 (100000 + n), (String.utf8EncodeChar c).length = 1 := by
    intro c member
    have digit := Nat.isDigit_of_mem_toDigits (by decide) (by decide) member
    rw [String.length_utf8EncodeChar, Char.utf8Size_eq_one_iff, UInt32.le_iff_toNat_le]
    exact (Char.isDigit_iff_toNat.1 digit).2.trans (by decide)
  have length (k : Nat) (some : 0 < k) :=
    Nat.length_toDigits_le_iff (b := 10) (n := 100000 + n) (by decide) some
  have most := (length 6 (by decide)).2 (by unfold attempts at few; omega)
  have least := (length 5 (by decide)).not.2 (by omega)
  rw [Text.byteLength, Text.encode, List.length_flatMap, List.map_congr_left ascii,
    List.map_const', List.sum_replicate_nat, Nat.mul_one, tagLength]
  omega

theorem isAllowed_default {path : Bytes} {t : FileTree} (free : ∃ n < attempts, ∀ directory,
    t.node? (directory ++ [(temporaryName path (Nat.toDigits 10 (100000 + n))).encode]) = none) :
    IsAllowed path t {} := ⟨fun _ => rfl, fun _ => byteLength_digits, free⟩

theorem commit_eq_ok {r : Replacement} {v : Volume} {directory : Bytes} {target : List Name}
    {old : Node} (allowed : IsAllowed r.path v.tree v.conditions) (room : hasRoom directory r.path)
    (located : v.tree.locate v.working .itself r.path = .ok target)
    (there : v.tree.node? target = some old) (other : old ≠ .directory) :
    ((r.commit : StateM Volume (Except OsError Unit)) v).1 = .ok () := by
  have kept : v.tree.node? target ≠ some .directory := by
    rw [there]
    exact fun same => other (Option.some.inj same)
  obtain ⟨parent, _, _, inner, led⟩ := FileTree.exists_directory located kept
  obtain ⟨n, few, free⟩ := allowed.free
  obtain ⟨place, w, begun, willing⟩ := exists_create_eq_ok attempts v allowed.allowed led inner
    (fun n few => length_temporaryName_le room (allowed.sized n few)) ⟨n, few, free parent⟩
  have created := created_create r.path attempts v
  rw [begun] at created
  cases created with
  | made vacant fixed made =>
    have more := v.tree.extends_set_of_vacant (.file r.mode r.data) vacant
    have located := FileTree.locate_of_extends more located
    rw [← fixed] at located
    have filled := fill_eq_ok willing vacant made located (more _ _ there) other
    rw [commit, Volume.bind_apply, begun]
    simp only [Volume.bind_apply, filled, Volume.pure_apply]

end Replacement

end Bootscript
