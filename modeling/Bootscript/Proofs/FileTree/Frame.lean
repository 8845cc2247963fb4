import Bootscript.Proofs.FileTree.Formed

/-! What a walk meets after a file has been put in the place of another, or of a link to one.
The way to a directory passes by neither, so it leads where it did. -/
namespace Bootscript.FileTree

open Bootscript.Path (Name)

variable {t : FileTree} {links : Nat} {here spot steps : List Name}

inductive IsBlind (t : FileTree) : List Name → Prop
  | file {place mode data} (found : t.node? place = some (.file mode data)) : IsBlind t place
  | link {parent name target links spot}
    (found : t.node? (parent ++ [name]) = some (.link target))
    (leads : t.Arrives .target links (start parent target) (Path.steps target) spot)
    (closed : ¬t.IsOpen spot) : IsBlind t (parent ++ [name])

theorem IsBlind.exists_node {place : List Name} (blind : t.IsBlind place) :
    ∃ node ≠ .directory, t.node? place = some node := by
  cases blind with
  | file found => exact ⟨.file _ _, nofun, found⟩
  | link found => exact ⟨.link _, nofun, found⟩

theorem IsBlind.not_directory {place : List Name} (blind : t.IsBlind place) :
    t.node? place ≠ some .directory := by
  obtain ⟨node, other, found⟩ := blind.exists_node
  rw [found]
  exact fun same => other (Option.some.inj same)

/-- What was a file is one when a file is put in the place of another, or of a link to one. -/
theorem IsBlind.exists_file_set {place other : List Name} (blind : t.IsBlind other) {mode : Nat}
    {data : Bytes} (found : t.node? place = some (.file mode data)) (mode' : Nat) (data' : Bytes) :
    ∃ mode data, (t.set other (.file mode' data')).node? place = some (.file mode data) := by
  obtain ⟨_, closed, node⟩ := blind.exists_node
  by_cases same : place = other
  · rw [same]
    exact ⟨_, _, t.node?_set_self _ (ne_nil_of_node?_eq_some node closed)⟩
  · exact ⟨mode, data, by rw [node?_set_of_ne _ _ same, found]⟩

namespace Arrives

section Inversion

variable {ending : Ending} {name : Name} {rest : List Name}

theorem of_here (arrived : t.Arrives ending links here ([Path.dot] :: rest) spot) :
    t.Arrives ending links here rest spot := by
  cases arrived with
  | here onward => exact onward
  | enter entry | file entry | link entry | follow entry => exact absurd rfl entry.notHere

theorem of_parent (arrived : t.Arrives ending links here ([Path.dot, Path.dot] :: rest) spot) :
    t.Arrives ending links here.dropLast rest spot := by
  cases arrived with
  | parent onward => exact onward
  | enter entry | file entry | link entry | follow entry => exact absurd rfl entry.notParent

variable (arrived : t.Arrives ending links here (name :: rest) spot) (entry : IsEntryName name)
include arrived entry

theorem of_directory (found : t.node? (here ++ [name]) = some .directory) :
    t.Arrives ending links (here ++ [name]) rest spot := by
  cases arrived with
  | here => exact absurd rfl entry.notHere
  | parent => exact absurd rfl entry.notParent
  | enter _ same onward => cases found.symm.trans same; exact onward
  | file _ same | link _ same | follow _ same => cases found.symm.trans same

theorem of_file {mode : Nat} {data : Bytes}
    (found : t.node? (here ++ [name]) = some (.file mode data)) :
    rest = [] ∧ spot = here ++ [name] := by
  cases arrived with
  | here => exact absurd rfl entry.notHere
  | parent => exact absurd rfl entry.notParent
  | file _ same => cases found.symm.trans same; exact ⟨rfl, rfl⟩
  | enter _ same | link _ same | follow _ same => cases found.symm.trans same

theorem of_link {target : Bytes} (found : t.node? (here ++ [name]) = some (.link target))
    (further : ending ≠ .itself) : ∃ fewer,
      t.Arrives ending fewer (start here target) (Path.steps target ++ rest) spot := by
  cases arrived with
  | here => exact absurd rfl entry.notHere
  | parent => exact absurd rfl entry.notParent
  | link _ _ itself => exact absurd itself further
  | follow _ same _ onward => cases found.symm.trans same; exact ⟨_, onward⟩
  | enter _ same | file _ same => cases found.symm.trans same

end Inversion

/-- A walk that has come to a file goes nowhere else. -/
theorem eq_of_append {more : List Name} {fewer : Nat} {other : List Name}
    (arrived : t.Arrives .target links here steps spot) (isOpen : t.IsOpen here)
    (closed : ¬t.IsOpen spot)
    (further : t.Arrives .target fewer here (steps ++ more) other) : other = spot := by
  induction arrived generalizing fewer with
  | stay => exact absurd isOpen closed
  | here _ ih => exact ih isOpen closed further.of_here
  | parent _ ih => exact ih isOpen.parent closed further.of_parent
  | enter entry found _ ih =>
    exact ih (isOpen.child found) closed (further.of_directory entry found)
  | file entry found => exact (further.of_file entry found).2
  | link _ _ itself => cases itself
  | follow entry found _ _ ih =>
    rw [List.cons_append] at further
    obtain ⟨_, onward⟩ := further.of_link entry found nofun
    rw [← List.append_assoc] at onward
    exact ih (isOpen.start _) closed onward

/-- A path that leads to a file has an entry that is blind. -/
theorem exists_isBlind (arrived : t.Arrives .target links here steps spot)
    (isOpen : t.IsOpen here) (closed : ¬t.IsOpen spot) :
    ∃ place, t.Arrives .itself links here steps place ∧ t.IsBlind place := by
  induction arrived with
  | stay => exact absurd isOpen closed
  | here _ ih => exact (ih isOpen closed).imp fun _ => And.imp_left .here
  | parent _ ih => exact (ih isOpen.parent closed).imp fun _ => And.imp_left .parent
  | enter entry found _ ih =>
    exact (ih (isOpen.child found) closed).imp fun _ => And.imp_left (.enter entry found)
  | file entry found => exact ⟨_, .file entry found, .file found⟩
  | link _ _ itself => cases itself
  | @follow links here name rest target spot entry found _ onward ih =>
    by_cases last : rest = []
    · subst last
      rw [List.append_nil] at onward
      exact ⟨_, .link entry found rfl, .link found onward closed⟩
    · exact (ih (isOpen.start target) closed).imp fun _ =>
        And.imp_left (.follow entry found fun none _ => last none)

end Arrives

section Set

variable {place : List Name} {node : Node}

theorem IsOpen.set (isOpen : t.IsOpen spot) (other : t.node? place ≠ some .directory) :
    (t.set place node).IsOpen spot := by
  intro front above
  have directory := isOpen front above
  rwa [node?_set_of_ne]
  rintro rfl
  exact other directory

/-- The way to a directory leads by no file and by no link to one. -/
theorem Arrives.set (blind : t.IsBlind place) (arrived : t.Arrives .target links here steps spot)
    (isOpen : t.IsOpen here) (ends : t.IsOpen spot) :
    (t.set place node).Arrives .target links here steps spot := by
  induction arrived with
  | stay => exact .stay
  | here _ ih => exact .here (ih isOpen ends)
  | parent _ ih => exact .parent (ih isOpen.parent ends)
  | @enter links here name rest spot entry found _ ih =>
    refine .enter entry ?_ (ih (isOpen.child found) ends)
    rwa [node?_set_of_ne]
    rintro rfl
    exact blind.not_directory found
  | file entry found => cases ends.node?_eq.symm.trans found
  | link _ _ itself => cases itself
  | @follow links here name rest target spot entry found other onward ih =>
    refine .follow entry ?_ other (ih (isOpen.start target) ends)
    rwa [node?_set_of_ne]
    intro same
    -- The link leads to a file, so that the walk behind it could not end in a directory.
    cases blind with
    | file file =>
      rw [same] at found
      cases found.symm.trans file
    | link file leads closed =>
      obtain ⟨rfl, named⟩ := List.append_inj' same rfl
      cases named
      cases found.symm.trans file
      have came := leads.eq_of_append (isOpen.start target) closed onward
      exact closed (came ▸ ends)

variable {working : List Name} {path : Bytes} (blind : t.IsBlind place)
include blind

theorem locate_set_of_isOpen (located : t.locate working .target path = .ok spot)
    (ends : t.IsOpen spot) : (t.set place node).locate working .target path = .ok spot := by
  obtain ⟨usable, arrived⟩ := locate_eq_ok_iff.1 located
  exact locate_eq_ok_iff.2 ⟨usable, arrived.set blind isOpen_root ends⟩

/-- What stands at the end of a path is found there if it is a file now. -/
theorem locate_set_of_file {ending : Ending} {entry : List Name} {mode : Nat} {data : Bytes}
    (located : t.locate working .itself path = .ok entry) (other : t.node? entry ≠ some .directory)
    (found : (t.set place node).node? entry = some (.file mode data)) :
    (t.set place node).locate working ending path = .ok entry := by
  obtain ⟨usable, arrived⟩ := locate_eq_ok_iff.1 located
  obtain ⟨init, name, parent, named, fits, rfl, isOpen, led⟩ :=
    arrived.exists_entry isOpen_root fun isOpen => other isOpen.node?_eq
  refine locate_eq_ok_iff.2 ⟨usable, ?_⟩
  rw [named]
  exact (led.set blind isOpen_root isOpen).append (isOpen.set blind.not_directory)
    (List.cons_ne_nil _ _) fun _ => .file fits found

omit blind in
/-- A path that can be read has an entry that is a file or a link to one. -/
theorem exists_isBlind_of_read {data : Bytes} (read : t.read working path = .ok data) :
    ∃ place, t.locate working .itself path = .ok place ∧ t.IsBlind place := by
  obtain ⟨_, seen⟩ := stat_of_read read
  obtain ⟨target, located, file⟩ := locate_of_stat_file seen
  obtain ⟨usable, arrived⟩ := locate_eq_ok_iff.1 located
  have closed : ¬t.IsOpen target := by
    intro isOpen
    cases isOpen.node?_eq.symm.trans file
  obtain ⟨place, first, blind⟩ := arrived.exists_isBlind isOpen_root closed
  exact ⟨place, locate_eq_ok_iff.2 ⟨usable, first⟩, blind⟩

end Set

end Bootscript.FileTree
