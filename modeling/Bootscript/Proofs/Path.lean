import Bootscript.Generator
import Bootscript.Proofs.Lines

/-! The directory of a path. Its steps are those of the path without the last, but for steps
to `.` that the path need not have written out. -/
namespace Bootscript.Path

theorem names_append_slash (front back : Bytes) :
    names (front ++ slash :: back) = names front ++ names back := by
  have apart := List.splitOnP_append_cons (p := (· == slash)) front back (beq_self_eq_true slash)
  simp only [names, split_eq_splitOn, List.splitOn_eq_splitOnP, apart, List.filter_append]

@[simp] theorem names_nil : names [] = [] := rfl

theorem names_append_slash_nil (front : Bytes) : names (front ++ [slash]) = names front := by
  rw [names_append_slash, names_nil, List.append_nil]

theorem names_eq_singleton {name : Name} (noSlash : slash ∉ name) (nonempty : name ≠ []) :
    names name = [name] := by
  rw [names, split_eq_splitOn, List.splitOn_eq_singleton noSlash]
  simp [nonempty]

theorem dot_noSlash : slash ∉ [dot] := by decide

def moves (steps : List Name) : List Name := steps.filter (· ≠ [dot])

@[simp] theorem moves_append (front back : List Name) :
    moves (front ++ back) = moves front ++ moves back := List.filter_append ..

@[simp] theorem moves_dot : moves [[dot]] = [] := rfl

theorem moves_cons {name : Name} (other : name ≠ [dot]) (rest : List Name) :
    moves (name :: rest) = name :: moves rest := List.filter_cons_of_pos (decide_eq_true other)

theorem eq_dot_of_moves_eq_nil {steps : List Name} (still : moves steps = []) :
    ∀ name ∈ steps, name = [dot] := by
  simpa [moves] using still

theorem exists_of_moves_eq_cons {steps rest : List Name} {name : Name}
    (moved : moves steps = name :: rest) : ∃ dots further, steps = dots ++ name :: further ∧
      (∀ other ∈ dots, other = [dot]) ∧ moves further = rest := by
  obtain ⟨dots, further, whole, stays, _, same⟩ := List.filter_eq_cons_iff.1 moved
  exact ⟨dots, further, whole, by simpa using stays, same⟩

theorem moves_steps (path : Bytes) : moves (steps path) = moves (names path) := by
  unfold steps
  split <;> simp [moves]

section Trimmed

variable (reversed : Bytes)

theorem trimReversed_suffix : trimReversed reversed <:+ reversed := by
  fun_induction trimReversed reversed with
  | case3 c d rest _ ih => exact ih.trans (List.suffix_cons ..)
  | _ => exact List.suffix_rfl

theorem getLast?_trimReversed : (trimReversed reversed).getLast? = reversed.getLast? := by
  fun_induction trimReversed reversed with
  | case3 c d rest _ ih => rw [ih, List.getLast?_cons_cons]
  | _ => rfl

theorem moves_trimReversed :
    moves (names (trimReversed reversed).reverse) = moves (names reversed.reverse) := by
  fun_induction trimReversed reversed with
  | case3 c d rest trimmed ih =>
    rw [ih, List.reverse_cons (a := c)]
    rcases trimmed with rfl | ⟨rfl, rfl⟩
    · rw [names_append_slash_nil]
    · rw [List.reverse_cons, names_append_slash_nil, List.append_assoc, List.singleton_append,
        names_append_slash, moves_append, names_eq_singleton dot_noSlash nofun,
        moves_dot, List.append_nil]
  | _ => rfl

end Trimmed

structure EndsIn (path front : Bytes) (name : Name) : Prop where
  whole : path = front ++ name
  front : front = [] ∨ front.getLast? = some slash
  noSlash : slash ∉ name
  nonempty : name ≠ []
  other : name ≠ [dot]

/-- A path without a slash at its end ends in the name behind its last slash, if it has one. -/
theorem exists_name {path : Bytes} (nonempty : path ≠ []) (unslashed : path.getLast? ≠ some slash) :
    ∃ front name, path = front ++ name ∧ (front = [] ∨ front.getLast? = some slash) ∧
      slash ∉ name ∧ name ≠ [] ∧ names path = names front ++ [name] := by
  by_cases slashed : slash ∈ path
  · obtain ⟨tail, front, split, noSlash⟩ :=
      List.eq_append_cons_of_mem (List.mem_reverse.2 slashed)
    have whole : path = front.reverse ++ slash :: tail.reverse := by
      rw [← path.reverse_reverse, split]
      simp
    have named : tail.reverse ≠ [] := by
      intro empty
      rw [whole, empty] at unslashed
      exact unslashed List.getLast?_concat
    rw [← List.mem_reverse] at noSlash
    refine ⟨front.reverse ++ [slash], tail.reverse, ?_, .inr List.getLast?_concat, noSlash, named, ?_⟩
    · rw [whole, List.append_assoc, List.singleton_append]
    · rw [whole, names_append_slash, names_append_slash_nil, names_eq_singleton noSlash named]
  · exact ⟨[], path, rfl, .inl rfl, slashed, nonempty, names_eq_singleton slashed nonempty⟩

theorem exists_endsIn {path : Bytes} {init : List Name} {name : Name}
    (named : steps path = init ++ [name]) (other : name ≠ [dot]) :
    ∃ front, EndsIn path front name ∧ names front = init := by
  have unslashed : path.getLast? ≠ some slash := by
    intro slashed
    rw [steps, if_pos slashed] at named
    exact other (List.singleton_inj.1 (List.append_inj' named rfl).2.symm)
  have nonempty : path ≠ [] := by
    rintro rfl
    exact List.append_ne_nil_of_right_ne_nil init (List.cons_ne_nil name []) named.symm
  obtain ⟨front, last, whole, ends, noSlash, some, parts⟩ := exists_name nonempty unslashed
  rw [steps, if_neg unslashed, List.append_nil, parts] at named
  obtain ⟨same, last⟩ := List.append_inj' named rfl
  obtain rfl := List.singleton_inj.1 last
  exact ⟨front, ⟨whole, ends, noSlash, some, other⟩, same⟩

theorem steps_ne_nil {path : Bytes} (nonempty : path ≠ []) : steps path ≠ [] := by
  by_cases slashed : path.getLast? = some slash
  · rw [steps, if_pos slashed]
    exact List.concat_ne_nil _ _
  · obtain ⟨front, name, _, _, _, _, parts⟩ := exists_name nonempty slashed
    rw [steps, if_neg slashed, List.append_nil, parts]
    exact List.concat_ne_nil _ _

namespace EndsIn

variable {path front : Bytes} {name : Name} (ends : EndsIn path front name)
include ends

/-- Nothing is trimmed where a path ends in a name. -/
theorem trimReversed_reverse : trimReversed path.reverse = path.reverse := by
  have noSlash := mt List.mem_reverse.1 ends.noSlash
  rw [ends.whole, List.reverse_append]
  rcases reversed : name.reverse with _ | ⟨c, _ | ⟨d, rest⟩⟩
  · exact absurd (List.reverse_eq_nil_iff.1 reversed) ends.nonempty
  · rw [reversed, List.mem_singleton] at noSlash
    have other : c ≠ dot := by
      rintro rfl
      exact ends.other (List.reverse_eq_iff.1 reversed)
    cases front.reverse with
    | nil => rfl
    | cons d rest => exact if_neg (by simp [Ne.symm noSlash, other])
  · rw [reversed, List.mem_cons, List.mem_cons, not_or, not_or] at noSlash
    exact if_neg (by simp [Ne.symm noSlash.1, Ne.symm noSlash.2.1])

theorem reverse_front : front.reverse.dropWhile (· ≠ slash) = front.reverse := by
  rcases ends.front with rfl | slashed
  · rfl
  · rw [← List.head?_reverse] at slashed
    obtain ⟨rest, split⟩ := List.head?_eq_some_iff.1 slashed
    rw [split]
    rfl

theorem parent_eq : parent path = (trimReversed front.reverse).reverse := by
  have clear : ∀ c ∈ name.reverse, decide (c ≠ slash) = true := by
    intro c member
    rw [decide_eq_true_iff]
    rintro rfl
    exact ends.noSlash (List.mem_reverse.1 member)
  rw [parent, ends.trimReversed_reverse, ends.whole, List.reverse_append,
    List.dropWhile_append_of_pos clear, ends.reverse_front]

theorem parent_eq_nil_iff : parent path = [] ↔ front = [] := by
  rw [ends.parent_eq, List.reverse_eq_nil_iff, ← List.getLast?_eq_none_iff,
    getLast?_trimReversed, List.getLast?_eq_none_iff, List.reverse_eq_nil_iff]

/-- The steps to the directory, and the place where they begin. -/
theorem moves_directory :
    moves (steps (Replacement.directory path)) = moves (names front) := by
  unfold Replacement.directory
  split
  · rename_i lone
    obtain rfl := ends.parent_eq_nil_iff.1 (List.isEmpty_iff.1 lone)
    rfl
  · rw [moves_steps, ends.parent_eq, moves_trimReversed, List.reverse_reverse]

theorem isAbsolute_directory : isAbsolute (Replacement.directory path) = isAbsolute path := by
  unfold Replacement.directory isAbsolute
  split
  · rename_i lone
    obtain rfl := ends.parent_eq_nil_iff.1 (List.isEmpty_iff.1 lone)
    have relative : path.head? ≠ some slash := by
      rw [ends.whole, List.nil_append]
      exact fun slashed => ends.noSlash (List.mem_of_head? slashed)
    rw [beq_eq_false_iff_ne.2 relative]
    rfl
  · rename_i some
    have present : front ≠ [] :=
      fun lone => some (List.isEmpty_iff.2 (ends.parent_eq_nil_iff.2 lone))
    rw [ends.parent_eq, List.head?_reverse, getLast?_trimReversed, List.getLast?_reverse,
      ends.whole, List.head?_append_of_ne_nil _ present]

theorem parent_prefix : parent path <+: path := by
  have suffix := trimReversed_suffix front.reverse
  rw [← List.reverse_prefix, List.reverse_reverse, ← ends.parent_eq] at suffix
  exact suffix.trans ⟨name, ends.whole.symm⟩

end EndsIn

theorem exists_steps_of_route {working init : List Name} {path : Bytes} {name : Name}
    (nonempty : path ≠ []) (named : route working path = init ++ [name]) : ∃ front,
      steps path = front ++ [name] ∧ init = if isAbsolute path then front else working ++ front := by
  unfold route at named
  split at named
  · rename_i absolute
    exact ⟨init, named, (if_pos absolute).symm⟩
  · rename_i relative
    obtain ⟨front, last, parts⟩ := (List.eq_nil_or_concat' _).resolve_left (steps_ne_nil nonempty)
    rw [parts, ← List.append_assoc] at named
    obtain ⟨rfl, same⟩ := List.append_inj' named rfl
    exact ⟨front, parts.trans (congrArg _ same), (if_neg relative).symm⟩

/-- Where a run looks for the directory of a path, but for steps to `.`. -/
theorem exists_route_directory {working init : List Name} {path : Bytes} {name : Name}
    (nonempty : path ≠ []) (named : route working path = init ++ [name]) (other : name ≠ [dot]) :
    ∃ front, EndsIn path front name ∧
      moves (route working (Replacement.directory path)) = moves init := by
  obtain ⟨_, parts, rfl⟩ := exists_steps_of_route nonempty named
  obtain ⟨front, ends, rfl⟩ := exists_endsIn parts other
  refine ⟨front, ends, ?_⟩
  rw [route, ends.isAbsolute_directory]
  split
  · exact ends.moves_directory
  · rw [moves_append, ends.moves_directory, moves_append]

end Bootscript.Path
