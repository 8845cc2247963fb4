import Bootscript.Proofs.FileTree.Walk
import Bootscript.Proofs.Path

/-! The directory that holds what a path leads to. It is where the path of that directory
leads, though links on the way and steps to `.` may be written otherwise there. -/
namespace Bootscript.FileTree

open Bootscript.Path (Name)

def IsOpen (t : FileTree) (place : List Name) : Prop :=
  ∀ front, front <+: place → t.node? front = some .directory

section Open

variable {t : FileTree} {here : List Name}

theorem isOpen_root : t.IsOpen [] := by
  intro front above
  rw [List.prefix_nil.1 above]
  rfl

theorem IsOpen.start (isOpen : t.IsOpen here) (path : Bytes) : t.IsOpen (start here path) := by
  unfold FileTree.start
  split
  · exact isOpen_root
  · exact isOpen

theorem IsOpen.parent (isOpen : t.IsOpen here) : t.IsOpen here.dropLast :=
  fun front above => isOpen front (above.trans (List.dropLast_prefix _))

theorem IsOpen.child (isOpen : t.IsOpen here) {name : Name}
    (found : t.node? (here ++ [name]) = some .directory) : t.IsOpen (here ++ [name]) := by
  intro front above
  rcases List.prefix_concat_iff.1 above with rfl | above
  · exact found
  · exact isOpen front above

theorem IsOpen.node?_eq (isOpen : t.IsOpen here) : t.node? here = some .directory :=
  isOpen here List.prefix_rfl

end Open

namespace Arrives

variable {t : FileTree} {links : Nat} {here place steps : List Name}

/-- A walk that stops at a file or a link looks for its name in a directory, to which the
steps before it lead. -/
theorem exists_entry (arrived : t.Arrives .itself links here steps place)
    (isOpen : t.IsOpen here) (closed : ¬t.IsOpen place) :
    ∃ init name parent, steps = init ++ [name] ∧ IsEntryName name ∧ place = parent ++ [name] ∧
      t.IsOpen parent ∧ t.Arrives .target links here init parent := by
  induction arrived with
  | stay => exact absurd isOpen closed
  | here _ ih =>
    obtain ⟨init, name, parent, rfl, entry, rfl, inner, led⟩ := ih isOpen closed
    exact ⟨_ :: init, name, parent, rfl, entry, rfl, inner, .here led⟩
  | parent _ ih =>
    obtain ⟨init, name, parent, rfl, entry, rfl, inner, led⟩ := ih isOpen.parent closed
    exact ⟨_ :: init, name, parent, rfl, entry, rfl, inner, .parent led⟩
  | enter entered found _ ih =>
    obtain ⟨init, name, parent, rfl, entry, rfl, inner, led⟩ := ih (isOpen.child found) closed
    exact ⟨_ :: init, name, parent, rfl, entry, rfl, inner, .enter entered found led⟩
  | file entry => exact ⟨[], _, _, rfl, entry, rfl, isOpen, .stay⟩
  | link entry => exact ⟨[], _, _, rfl, entry, rfl, isOpen, .stay⟩
  | @follow links here linked rest target place entered found other _ ih =>
    -- The path goes on behind the link, so that its last name is that of the steps to walk.
    have further : rest ≠ [] := fun last => other last rfl
    obtain ⟨rest, name, rfl⟩ := (List.eq_nil_or_concat rest).resolve_left further
    obtain ⟨init, last, parent, same, entry, rfl, inner, led⟩ := ih (isOpen.start target) closed
    rw [List.concat_eq_append, ← List.append_assoc] at same
    obtain ⟨rfl, named⟩ := List.append_inj' same rfl
    obtain rfl := List.singleton_inj.1 named
    rw [List.concat_eq_append]
    exact ⟨linked :: rest, name, parent, rfl, entry, rfl, inner, .follow entered found nofun led⟩

theorem prepend_dots {dots rest : List Name} (stays : ∀ name ∈ dots, name = [Path.dot])
    (arrived : t.Arrives .target links here rest place) :
    t.Arrives .target links here (dots ++ rest) place := by
  induction dots with
  | nil => exact arrived
  | cons name dots ih =>
    obtain rfl := stays name (List.mem_cons_self ..)
    exact .here (ih fun name member => stays name (List.mem_cons_of_mem _ member))

/-- Steps to `.` do not matter on the way to a directory. -/
theorem of_moves_eq {others : List Name} (arrived : t.Arrives .target links here steps place)
    (isOpen : t.IsOpen place) (same : Path.moves others = Path.moves steps) :
    t.Arrives .target links here others place := by
  induction arrived generalizing others with
  | stay =>
    have stays := Path.eq_dot_of_moves_eq_nil same
    rw [← others.append_nil]
    exact prepend_dots stays .stay
  | here _ ih => exact ih isOpen same
  | parent _ ih =>
    obtain ⟨dots, rest, rfl, stays, same⟩ := Path.exists_of_moves_eq_cons same
    exact prepend_dots stays (.parent (ih isOpen same))
  | enter entry found _ ih =>
    rw [Path.moves_cons entry.notHere] at same
    obtain ⟨dots, rest, rfl, stays, same⟩ := Path.exists_of_moves_eq_cons same
    exact prepend_dots stays (.enter entry found (ih isOpen same))
  | file entry found => cases isOpen.node?_eq.symm.trans found
  | link _ _ itself => cases itself
  | follow entry found other _ ih =>
    rw [Path.moves_cons entry.notHere] at same
    obtain ⟨dots, rest, rfl, stays, same⟩ := Path.exists_of_moves_eq_cons same
    refine prepend_dots stays (.follow entry found nofun (ih isOpen ?_))
    rw [Path.moves_append, same, Path.moves_append]

end Arrives

theorem IsUsable.directory {path front : Bytes} {name : Name}
    (ends : Path.EndsIn path front name) (usable : IsUsable path) :
    IsUsable (Replacement.directory path) := by
  unfold Replacement.directory
  split
  · exact ⟨by decide, by decide, by decide⟩
  · rename_i some
    have within := ends.parent_prefix
    exact ⟨fun nul => usable.noNul (within.subset nul), fun none => some (List.isEmpty_iff.2 none),
      within.length_le.trans usable.short⟩

/-- What is at a path, if it is no directory, is in the directory of the path. -/
theorem exists_directory {t : FileTree} {working place : List Name} {path : Bytes}
    (located : t.locate working .itself path = .ok place)
    (other : t.node? place ≠ some .directory) : ∃ parent name, place = parent ++ [name] ∧
      t.node? parent = some .directory ∧
        t.locate working .target (Replacement.directory path) = .ok parent := by
  obtain ⟨usable, arrived⟩ := locate_eq_ok_iff.1 located
  obtain ⟨init, name, parent, named, entry, same, isOpen, led⟩ :=
    arrived.exists_entry isOpen_root fun isOpen => other isOpen.node?_eq
  obtain ⟨front, ends, moved⟩ :=
    Path.exists_route_directory usable.nonempty named entry.notHere
  exact ⟨parent, name, same, isOpen.node?_eq,
    locate_eq_ok_iff.2 ⟨usable.directory ends, led.of_moves_eq isOpen moved⟩⟩

end Bootscript.FileTree
