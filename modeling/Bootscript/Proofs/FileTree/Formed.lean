import Bootscript.Proofs.FileTree.Entry

/-! Trees as file systems hold them. Whatever is there stands in a directory, under a name
that a path can hold, so that the path beneath a directory leads to the place beneath it. -/
namespace Bootscript

open Bootscript.Path (Name)

namespace FileTree

structure IsName (name : Name) : Prop extends IsEntryName name where
  nonempty : name ≠ []
  noSlash : Path.slash ∉ name

instance : DecidablePred IsName := fun name => decidable_of_iff
  ((name ≠ [Path.dot] ∧ name ≠ [Path.dot, Path.dot] ∧ name.length ≤ maxName) ∧
    name ≠ [] ∧ Path.slash ∉ name)
  ⟨fun ⟨⟨here, parent, fits⟩, full, plain⟩ => ⟨⟨here, parent, fits⟩, full, plain⟩,
    fun h => ⟨⟨h.notHere, h.notParent, h.fits⟩, h.nonempty, h.noSlash⟩⟩

def places (t : FileTree) : List (List Name) := t.nodes.map Prod.fst

structure IsFormed (t : FileTree) : Prop where
  distinct : t.places.Nodup
  nonempty : [] ∉ t.places
  named : ∀ place ∈ t.places, ∀ name ∈ place, IsName name
  nested : ∀ place ∈ t.places, t.node? place.dropLast = some .directory

instance : DecidablePred IsFormed := fun t => decidable_of_iff
  (t.places.Nodup ∧ [] ∉ t.places ∧ (∀ place ∈ t.places, ∀ name ∈ place, IsName name) ∧
    ∀ place ∈ t.places, t.node? place.dropLast = some .directory)
  ⟨fun ⟨distinct, full, named, nested⟩ => ⟨distinct, full, named, nested⟩,
    fun h => ⟨h.distinct, h.nonempty, h.named, h.nested⟩⟩

end FileTree

namespace Path

section Join

variable {root : Bytes} {steps : List Name}

theorem join_cons (root : Bytes) (name : Name) (rest : List Name) : join root (name :: rest) =
    join (if root.isEmpty || root.getLast? == some slash then root ++ name
      else root ++ slash :: name) rest := rfl

theorem names_join (named : ∀ name ∈ steps, FileTree.IsName name) :
    names (join root steps) = names root ++ steps := by
  induction steps generalizing root with
  | nil => simp [join]
  | cons name rest ih =>
    obtain ⟨first, later⟩ := List.forall_mem_cons.1 named
    have single := names_eq_singleton first.noSlash first.nonempty
    have step : names (if root.isEmpty || root.getLast? == some slash then root ++ name
        else root ++ slash :: name) = names root ++ [name] := by
      split
      · rename_i joins
        rcases Bool.or_eq_true_iff.1 joins with empty | slashed
        · rw [List.isEmpty_iff.1 empty, List.nil_append, single, names_nil, List.nil_append]
        · obtain ⟨front, rfl⟩ := List.getLast?_eq_some_iff.1 (eq_of_beq slashed)
          rw [List.append_assoc, List.singleton_append, names_append_slash, names_append_slash_nil,
            single]
      · rw [names_append_slash, single]
    rw [join_cons, ih later, step, List.append_assoc, List.singleton_append]

theorem getLast?_join (named : ∀ name ∈ steps, FileTree.IsName name)
    (ends : root.getLast? ≠ some slash ∨ steps ≠ []) :
    (join root steps).getLast? ≠ some slash := by
  induction steps generalizing root with
  | nil => exact ends.resolve_right (not_not_intro rfl)
  | cons name rest ih =>
    obtain ⟨first, later⟩ := List.forall_mem_cons.1 named
    have last (front : Bytes) : (front ++ name).getLast? ≠ some slash := by
      rw [List.getLast?_append_of_ne_nil _ first.nonempty]
      exact fun slashed => first.noSlash (List.mem_of_getLast? slashed)
    rw [join_cons]
    apply ih later (.inl _)
    split
    · exact last root
    · rw [← List.singleton_append, ← List.append_assoc]
      exact last _

theorem isAbsolute_join (some : root ≠ []) : isAbsolute (join root steps) = isAbsolute root := by
  induction steps generalizing root with
  | nil => rfl
  | cons name rest ih =>
    rw [join_cons, ih]
    · unfold isAbsolute
      split <;> rw [List.head?_append_of_ne_nil _ some]
    · split <;> exact List.append_ne_nil_of_left_ne_nil some _

theorem steps_join (named : ∀ name ∈ steps, FileTree.IsName name) (some : steps ≠ []) :
    Path.steps (join root steps) = names root ++ steps := by
  rw [Path.steps, if_neg (getLast?_join named (.inr some)), names_join named, List.append_nil]

/-- The way to something beneath a root goes by the root. -/
theorem exists_route_join (named : ∀ name ∈ steps, FileTree.IsName name) (some : steps ≠ [])
    (nonempty : root ≠ []) (working : List Name) : ∃ others,
      route working (join root steps) = others ++ steps ∧ moves others = moves (route working root) := by
  unfold route
  rw [isAbsolute_join nonempty, steps_join named some]
  split
  · exact ⟨names root, rfl, (moves_steps root).symm⟩
  · refine ⟨working ++ names root, (List.append_assoc ..).symm, ?_⟩
    rw [moves_append, moves_append, moves_steps]

end Join
end Path

namespace FileTree

section Places

variable {t : FileTree} {place : List Name} {node : Node}

theorem mem_nodes (found : t.node? place = some node) (nonempty : place ≠ []) :
    (place, node) ∈ t.nodes := by
  rw [node?_of_ne_nil _ nonempty] at found
  obtain ⟨front, back, parts, _⟩ := List.lookup_eq_some_iff.1 found
  rw [parts]
  exact List.mem_append_right _ (List.mem_cons_self ..)

theorem mem_places (found : t.node? place = some node) (nonempty : place ≠ []) :
    place ∈ t.places := List.mem_map_of_mem (mem_nodes found nonempty)

/-- A name that nothing in the tree has is free in every directory. -/
theorem node?_eq_none_of_places {name : Name}
    (free : ∀ place ∈ t.places, place.getLast? ≠ some name) (directory : List Name) :
    t.node? (directory ++ [name]) = none := by
  by_contra found
  obtain ⟨node, found⟩ := Option.ne_none_iff_exists'.1 found
  exact free _ (mem_places found (List.concat_ne_nil _ _)) List.getLast?_concat

theorem lookup_of_mem {nodes : List (List Name × Node)} (distinct : (nodes.map Prod.fst).Nodup)
    (member : (place, node) ∈ nodes) : nodes.lookup place = some node := by
  induction nodes with
  | nil => cases member
  | cons head nodes ih =>
    obtain ⟨fresh, distinct⟩ := List.nodup_cons.1 distinct
    rcases List.mem_cons.1 member with rfl | member
    · exact List.lookup_cons_self
    · have apart : place ≠ head.1 := by
        rintro rfl
        exact fresh (List.mem_map.2 ⟨_, member, rfl⟩)
      rw [lookup_cons_of_ne head.2 apart]
      exact ih distinct member

/-- Nothing that is listed is hidden by something else. -/
theorem IsFormed.node?_of_mem (formed : t.IsFormed) (member : (place, node) ∈ t.nodes) :
    t.node? place = some node := by
  have nonempty : place ≠ [] := by
    rintro rfl
    exact formed.nonempty (List.mem_map_of_mem member)
  rw [node?_of_ne_nil _ nonempty]
  exact lookup_of_mem formed.distinct member

/-- Trees with the same entries, however they are listed, have the same nodes. -/
theorem IsFormed.node?_eq_of_same {other : FileTree} (formed : t.IsFormed)
    (formed' : other.IsFormed) (same : ∀ entry, entry ∈ other.nodes ↔ entry ∈ t.nodes)
    (place : List Name) : other.node? place = t.node? place := by
  by_cases root : place = []
  · rw [root]
    rfl
  · ext node
    constructor
    · exact fun found => formed.node?_of_mem ((same _).1 (mem_nodes found root))
    · exact fun found => formed'.node?_of_mem ((same _).2 (mem_nodes found root))

theorem IsFormed.isName (formed : t.IsFormed) (found : t.node? place = some node) {name : Name}
    (member : name ∈ place) : IsName name :=
  formed.named place (mem_places found (List.ne_nil_of_mem member)) name member

/-- Above a directory are directories. -/
theorem IsFormed.isOpen (formed : t.IsFormed) (found : t.node? place = some .directory) :
    t.IsOpen place := by
  induction place using List.reverseRecOn with
  | nil => exact isOpen_root
  | append_singleton parent name ih =>
    intro front above
    rcases List.prefix_concat_iff.1 above with rfl | above
    · exact found
    · have nested := formed.nested _ (mem_places found (List.concat_ne_nil _ _))
      rw [List.dropLast_concat] at nested
      exact ih nested front above

theorem IsFormed.isOpen_of_append (formed : t.IsFormed) {steps : List Name}
    (found : t.node? (place ++ steps) = some node) (some : steps ≠ []) :
    t.IsOpen place := by
  have nested := formed.nested _ (mem_places found (List.append_ne_nil_of_right_ne_nil _ some))
  rw [List.dropLast_append_of_ne_nil some] at nested
  exact fun front above => formed.isOpen nested front (above.trans (List.prefix_append _ _))

/-- Setting a node that is no directory in the place of another leaves a tree formed. -/
theorem IsFormed.set (formed : t.IsFormed) {old : Node} (found : t.node? place = some old)
    (other : old ≠ .directory) (node : Node) : (t.set place node).IsFormed := by
  have same : (t.set place node).places = t.places :=
    t.places_set node (by rw [found, Option.isSome_some])
  constructor <;> rw [same]
  case distinct => exact formed.distinct
  case nonempty => exact formed.nonempty
  case named => exact formed.named
  intro place' member
  have nested := formed.nested place' member
  rwa [node?_set_of_ne]
  intro same
  rw [same, found] at nested
  exact other (Option.some.inj nested)

end Places

namespace Arrives

variable {t : FileTree} {ending : Ending} {here middle place steps rest : List Name}

/-- Where a walk to a directory is followed by another. -/
theorem append {links : Nat} (arrived : t.Arrives .target links here steps middle)
    (isOpen : t.IsOpen middle) (further : rest ≠ [])
    (onward : ∀ links, t.Arrives ending links middle rest place) :
    t.Arrives ending links here (steps ++ rest) place := by
  induction arrived with
  | stay => exact onward _
  | here _ ih => exact .here (ih isOpen onward)
  | parent _ ih => exact .parent (ih isOpen onward)
  | enter entry found _ ih => exact .enter entry found (ih isOpen onward)
  | file entry found => cases isOpen.node?_eq.symm.trans found
  | link _ _ itself => cases itself
  | follow entry found _ _ ih =>
    refine .follow entry found (fun last => absurd (List.append_eq_nil_iff.1 last).2 further) ?_
    have whole := ih isOpen onward
    rwa [List.append_assoc] at whole

/-- Beneath a directory the names of a place lead to a file there. -/
theorem beneath (formed : t.IsFormed) {mode : Nat} {data : Bytes}
    (found : t.node? (place ++ steps) = some (.file mode data)) (some : steps ≠ []) (links : Nat) :
    t.Arrives .target links place steps (place ++ steps) := by
  induction steps generalizing place with
  | nil => exact absurd rfl some
  | cons name rest ih =>
    have entry : IsEntryName name :=
      (formed.isName found (List.mem_append_right _ (List.mem_cons_self ..))).toIsEntryName
    cases rest with
    | nil => exact .file entry found
    | cons next rest =>
      rw [List.append_cons] at found ⊢
      have directory := (formed.isOpen_of_append found (List.cons_ne_nil _ _)).node?_eq
      exact .enter entry directory (ih found (List.cons_ne_nil _ _))

end Arrives

section Join

variable {t : FileTree} {working place steps : List Name} {root : Bytes} {mode : Nat} {data : Bytes}

/-- The path of a file beneath a directory leads to the place beneath it. -/
theorem IsFormed.locate_join (formed : t.IsFormed)
    (led : t.locate working .target root = .ok place)
    (found : t.node? (place ++ steps) = some (.file mode data))
    (usable : IsUsable (Path.join root steps)) :
    t.locate working .target (Path.join root steps) = .ok (place ++ steps) := by
  by_cases none : steps = []
  · rw [none, List.append_nil]
    exact led
  · obtain ⟨rootUsable, arrived⟩ := locate_eq_ok_iff.1 led
    have named : ∀ name ∈ steps, IsName name :=
      fun name member => formed.isName found (List.mem_append_right _ member)
    have isOpen := formed.isOpen_of_append found none
    refine locate_eq_ok_iff.2 ⟨usable, ?_⟩
    obtain ⟨others, whole, moved⟩ := Path.exists_route_join named none rootUsable.nonempty working
    rw [whole]
    exact (arrived.of_moves_eq isOpen moved).append isOpen none (.beneath formed found none)

theorem IsFormed.read_join_iff (formed : t.IsFormed)
    (led : t.locate working .target root = .ok place)
    (found : t.node? (place ++ steps) = some (.file mode data)) {bytes : Bytes} :
    t.read working (Path.join root steps) = .ok bytes ↔
      IsUsable (Path.join root steps) ∧ bytes = data := by
  have read (usable : IsUsable (Path.join root steps)) :
      t.read working (Path.join root steps) = .ok data :=
    read_of_stat_file (stat_of_locate (formed.locate_join led found usable) found)
  constructor
  · intro done
    obtain ⟨_, seen⟩ := stat_of_read done
    obtain ⟨_, located, _⟩ := locate_of_stat_file seen
    have usable := (locate_eq_ok_iff.1 located).1
    exact ⟨usable, Except.ok.inj (done.symm.trans (read usable))⟩
  · rintro ⟨usable, rfl⟩
    exact read usable

end Join

end FileTree
end Bootscript
