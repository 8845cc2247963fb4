import Bootscript.Proofs.FileTree.Node

/-! Walks that arrive. What a tree with more in it leads to is the same, and a walk that
follows a last link has a companion that stops there. -/
namespace Bootscript.FileTree

open Bootscript.Path (Name)

structure IsEntryName (name : Name) : Prop where
  notHere : name ≠ [Path.dot]
  notParent : name ≠ [Path.dot, Path.dot]
  fits : name.length ≤ maxName

/-- The steps from one place lead to another, over no more than so many links. -/
inductive Arrives (t : FileTree) (ending : Ending) :
    Nat → List Name → List Name → List Name → Prop
  | stay {links here} : Arrives t ending links here [] here
  | here {links here rest place} (onward : Arrives t ending links here rest place) :
    Arrives t ending links here ([Path.dot] :: rest) place
  | parent {links here rest place} (onward : Arrives t ending links here.dropLast rest place) :
    Arrives t ending links here ([Path.dot, Path.dot] :: rest) place
  | enter {links here name rest place} (entry : IsEntryName name)
    (found : t.node? (here ++ [name]) = some .directory)
    (onward : Arrives t ending links (here ++ [name]) rest place) :
    Arrives t ending links here (name :: rest) place
  | file {links here name mode data} (entry : IsEntryName name)
    (found : t.node? (here ++ [name]) = some (.file mode data)) :
    Arrives t ending links here [name] (here ++ [name])
  | link {links here name target} (entry : IsEntryName name)
    (found : t.node? (here ++ [name]) = some (.link target)) (itself : ending = .itself) :
    Arrives t ending links here [name] (here ++ [name])
  | follow {links here name rest target place} (entry : IsEntryName name)
    (found : t.node? (here ++ [name]) = some (.link target))
    (other : rest = [] → ending ≠ .itself)
    (onward : Arrives t ending links (start here target) (Path.steps target ++ rest) place) :
    Arrives t ending (links + 1) here (name :: rest) place

section Walk

variable {t : FileTree} {ending : Ending} {links : Nat} {here place steps : List Name}

def beyond (t : FileTree) (ending : Ending) :
    Nat → List Name → List Name → Except OsError (List Name)
  | 0 => fun _ _ => .error .tooManyLinks
  | links + 1 => t.walkWithin ending links

theorem walkWithin_eq_walk :
    t.walkWithin ending links = t.walk ending (t.beyond ending links) := by
  cases links <;> rfl

theorem arrives_of_walk
    (further : ∀ {here steps}, t.beyond ending links here steps = .ok place →
      ∃ fewer, links = fewer + 1 ∧ t.Arrives ending fewer here steps place)
    (walked : t.walk ending (t.beyond ending links) here steps = .ok place) :
    t.Arrives ending links here steps place := by
  fun_induction walk t ending (t.beyond ending links) here steps with
  | case1 => cases walked; exact .stay
  | case2 here rest ih => exact .here (ih walked)
  | case3 here rest _ ih => exact .parent (ih walked)
  | case4 => cases walked
  | case5 => cases walked
  | case6 here name rest notHere notParent fits found ih =>
    exact .enter ⟨notHere, notParent, Nat.not_lt.1 fits⟩ found (ih walked)
  | case7 here name rest notHere notParent fits mode data found last =>
    obtain rfl := List.isEmpty_iff.1 last
    cases walked
    exact .file ⟨notHere, notParent, Nat.not_lt.1 fits⟩ found
  | case8 => cases walked
  | case9 here name rest notHere notParent fits target found last =>
    obtain rfl := List.isEmpty_iff.1 last.1
    cases walked
    exact .link ⟨notHere, notParent, Nat.not_lt.1 fits⟩ found last.2
  | case10 here name rest notHere notParent fits target found other =>
    obtain ⟨fewer, rfl, onward⟩ := further walked
    exact .follow ⟨notHere, notParent, Nat.not_lt.1 fits⟩ found
      (fun last itself => other ⟨List.isEmpty_iff.2 last, itself⟩) onward

theorem arrives_of_walkWithin (walked : t.walkWithin ending links here steps = .ok place) :
    t.Arrives ending links here steps place := by
  induction links generalizing here steps with
  | zero => exact arrives_of_walk nofun walked
  | succ links ih => exact arrives_of_walk (fun onward => ⟨links, rfl, ih onward⟩) walked

theorem Arrives.walkWithin (arrived : t.Arrives ending links here steps place) :
    t.walkWithin ending links here steps = .ok place := by
  induction arrived with
  | stay => rw [walkWithin_eq_walk, walk]
  | here onward ih => rw [walkWithin_eq_walk, walk, if_pos rfl, ← walkWithin_eq_walk, ih]
  | parent onward ih =>
    rw [walkWithin_eq_walk, walk, if_neg (by decide), if_pos rfl, ← walkWithin_eq_walk, ih]
  | enter entry found onward ih =>
    rw [walkWithin_eq_walk, walk, if_neg entry.notHere, if_neg entry.notParent,
      if_neg (Nat.not_lt.2 entry.fits), found]
    simpa [← walkWithin_eq_walk] using ih
  | file entry found =>
    simp [walkWithin_eq_walk, walk, entry.notHere, entry.notParent, Nat.not_lt.2 entry.fits, found]
  | link entry found itself =>
    simp [walkWithin_eq_walk, walk, entry.notHere, entry.notParent, Nat.not_lt.2 entry.fits,
      found, itself]
  | @follow links here name rest target place entry found other onward ih =>
    rw [walkWithin_eq_walk, walk, if_neg entry.notHere, if_neg entry.notParent,
      if_neg (Nat.not_lt.2 entry.fits), found]
    have further : ¬(rest.isEmpty ∧ ending = .itself) :=
      fun last => other (List.isEmpty_iff.1 last.1) last.2
    exact (if_neg further).trans ih

end Walk

namespace Arrives

variable {t later : FileTree} {ending : Ending} {links : Nat} {here place steps : List Name}

theorem mono (more : later.Extends t) (arrived : t.Arrives ending links here steps place) :
    later.Arrives ending links here steps place := by
  induction arrived with
  | stay => exact .stay
  | here _ ih => exact .here ih
  | parent _ ih => exact .parent ih
  | enter entry found _ ih => exact .enter entry (more _ _ found) ih
  | file entry found => exact .file entry (more _ _ found)
  | link entry found itself => exact .link entry (more _ _ found) itself
  | follow entry found other _ ih => exact .follow entry (more _ _ found) other ih

/-- Where a walk to a target ends that stops at a last link. -/
theorem itself (arrived : t.Arrives .target links here steps place) :
    ∃ entry, t.Arrives .itself links here steps entry ∧
      (entry = place ∨ ∃ target, t.node? entry = some (.link target)) := by
  induction arrived with
  | stay => exact ⟨_, .stay, .inl rfl⟩
  | here _ ih => exact ih.imp fun _ => And.imp_left .here
  | parent _ ih => exact ih.imp fun _ => And.imp_left .parent
  | enter entry found _ ih => exact ih.imp fun _ => And.imp_left (.enter entry found)
  | file entry found => exact ⟨_, .file entry found, .inl rfl⟩
  | link _ _ absurd => cases absurd
  | @follow links here name rest target place entry found _ _ ih =>
    by_cases last : rest = []
    · subst last
      exact ⟨_, .link entry found rfl, .inr ⟨target, found⟩⟩
    · exact ih.imp fun _ => And.imp_left (.follow entry found fun absurd _ => last absurd)

end Arrives

structure IsUsable (path : Bytes) : Prop where
  noNul : 0 ∉ path
  nonempty : path ≠ []
  short : path.length ≤ maxPath

instance : DecidablePred IsUsable := fun path => decidable_of_iff
  (0 ∉ path ∧ path ≠ [] ∧ path.length ≤ maxPath)
  ⟨fun ⟨noNul, nonempty, short⟩ => ⟨noNul, nonempty, short⟩,
    fun h => ⟨h.noNul, h.nonempty, h.short⟩⟩

section Locate

variable {t : FileTree} {working : List Name} {ending : Ending} {path : Bytes} {place : List Name}

theorem locate_eq_ok_iff : t.locate working ending path = .ok place ↔ IsUsable path ∧
    t.Arrives ending maxLinks [] (Path.route working path) place := by
  unfold locate
  split
  · rename_i nul
    exact ⟨nofun, fun found => absurd (List.contains_iff_mem.1 nul) found.1.noNul⟩
  split
  · rename_i empty
    exact ⟨nofun, fun found => absurd (List.isEmpty_iff.1 empty) found.1.nonempty⟩
  split
  · rename_i long
    exact ⟨nofun, fun found => absurd found.1.short (Nat.not_le.2 long)⟩
  · rename_i noNul nonempty short
    have usable : IsUsable path := ⟨fun nul => noNul (List.contains_iff_mem.2 nul),
      fun empty => nonempty (List.isEmpty_iff.2 empty), Nat.not_lt.1 short⟩
    exact ⟨fun walked => ⟨usable, arrives_of_walkWithin walked⟩, fun found => found.2.walkWithin⟩

theorem locate_of_extends {later : FileTree} (more : later.Extends t)
    (located : t.locate working ending path = .ok place) :
    later.locate working ending path = .ok place := by
  rw [locate_eq_ok_iff] at located ⊢
  exact located.imp_right (.mono more)

end Locate

section File

variable {t : FileTree} {working : List Name} {path : Bytes} {mode : Nat} {data : Bytes}

theorem stat_of_locate {ending : Ending} {place : List Name} {node : Node}
    (located : t.locate working ending path = .ok place) (found : t.node? place = some node) :
    t.stat working ending path = .ok node := by
  simp only [stat, located, found, Option.getD_some]

theorem stat_of_read (read : t.read working path = .ok data) :
    ∃ mode, t.stat working .target path = .ok (.file mode data) := by
  unfold FileTree.read at read
  split at read
  · cases read
  · cases read
    exact ⟨_, ‹_›⟩
  · cases read

theorem read_of_stat_file (seen : t.stat working .target path = .ok (.file mode data)) :
    t.read working path = .ok data := by
  rw [FileTree.read, seen]

theorem mode_of_stat_file (seen : t.stat working .target path = .ok (.file mode data)) :
    t.mode working path = .ok mode := by
  rw [FileTree.mode, seen]

theorem locate_of_stat_file (seen : t.stat working .target path = .ok (.file mode data)) :
    ∃ place, t.locate working .target path = .ok place ∧
      t.node? place = some (.file mode data) := by
  unfold stat at seen
  split at seen
  · cases seen
  · rename_i place located
    refine ⟨place, located, ?_⟩
    cases node : t.node? place with
    | none => simp [node] at seen
    | some found => simpa [node] using seen

/-- A path that leads to a file has an entry, which is the file or a link. -/
theorem locate_itself_of_stat_file (seen : t.stat working .target path = .ok (.file mode data)) :
    ∃ place, t.locate working .itself path = .ok place ∧
      (t.node? place = some (.file mode data) ∨ ∃ target, t.node? place = some (.link target)) := by
  obtain ⟨place, located, node⟩ := locate_of_stat_file seen
  rw [locate_eq_ok_iff] at located
  obtain ⟨entry, arrived, rfl | link⟩ := located.2.itself
  · exact ⟨_, locate_eq_ok_iff.2 ⟨located.1, arrived⟩, .inl node⟩
  · exact ⟨entry, locate_eq_ok_iff.2 ⟨located.1, arrived⟩, .inr link⟩

end File
end Bootscript.FileTree
