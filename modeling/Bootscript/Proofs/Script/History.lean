import Bootscript.Proofs.Script.Install
import Bootscript.Proofs.Script.Spans

/-! The sections of a script as a map in order, whatever was done to the script before. Every
operation keeps their names distinct, and says where a section of a name stands behind it. -/
namespace Bootscript.Script

inductive Operation where
  | read (canonical : Bool) (data : Bytes)
  | insert (added : Section)
  | install (l : Launcher) (payload : Option Payload)

/-- A file that holds no script leaves the one that there is. -/
def apply (s : Script) : Operation → Script
  | .read canonical data => (parse canonical data).toOption.getD s
  | .insert added => s.insert added
  | .install l payload => s.install l payload

inductive IsPlaced (added : Section) : List Section → List Section → Prop where
  | replaced (before after : List Section) {old : Section} (same : old.name = added.name) :
      IsPlaced added (before ++ old :: after) (before ++ added :: after)
  | appended {sections : List Section} (new : added.name ∉ sections.map (·.name)) :
      IsPlaced added sections (sections ++ [added])

structure IsInserted (added : Section) (s s' : Script) : Prop where
  placed : IsPlaced added s.sections s'.sections
  others : s' = { s with sections := s'.sections }
  found : s'.section? added.name = some added

/-- Of the sections of a file each name is left once, in the order in which the names come
first. Its section is the one that comes last. -/
structure IsCollected (sections left : List Section) : Prop where
  names : left.map (·.name) = (sections.map (·.name)).eraseDups
  last : ∀ part ∈ left, ∃ before after,
    sections = before ++ part :: after ∧ part.name ∉ after.map (·.name)

structure IsSetOff (s s' : Section) : Prop where
  name : s'.name = s.name
  content : s'.content = s.content
  leading : s'.leading = if s.leading = [] then [[]] else s.leading

/-- The reserved sections are first and last and nowhere else, with lines that do not depend
on those before. In between are all other sections. -/
structure IsInstalled (l : Launcher) (distributable : Bool) (sections sections' : List Section) :
    Prop where
  parts : ∃ kept, sections' =
      ⟨[['#']], infoName, infoLines⟩ :: kept ++ [⟨[[]], launcherName, l.lines distributable⟩] ∧
    List.Forall₂ IsSetOff (sections.filter fun s => s.name ≠ infoName ∧ s.name ≠ launcherName) kept
  once : (sections'.map (·.name)).count infoName = 1 ∧
    (sections'.map (·.name)).count launcherName = 1

section Distinct

theorem nodup_names_apply {s : Script} (distinct : (s.sections.map (·.name)).Nodup)
    (operation : Operation) : ((s.apply operation).sections.map (·.name)).Nodup := by
  cases operation with
  | read canonical data =>
    cases parsed : parse canonical data with
    | error => simpa [apply, parsed, Except.toOption] using distinct
    | ok read => simpa [apply, parsed, Except.toOption] using (parse_wellFormed parsed).distinct
  | insert added => exact nodup_insertSection added distinct
  | install l payload => exact nodup_names_install distinct l payload

theorem nodup_names_foldl_apply {s : Script} (distinct : (s.sections.map (·.name)).Nodup)
    (history : List Operation) : ((history.foldl apply s).sections.map (·.name)).Nodup := by
  induction history generalizing s with
  | nil => exact distinct
  | cons operation history ih => exact ih (nodup_names_apply distinct operation)

end Distinct

section Insert

variable {added : Section}

theorem IsPlaced.cons {first : Section} {sections sections' : List Section}
    (other : first.name ≠ added.name) (placed : IsPlaced added sections sections') :
    IsPlaced added (first :: sections) (first :: sections') := by
  cases placed with
  | replaced before after same => exact .replaced (first :: before) after same
  | appended new =>
    apply IsPlaced.appended
    rw [List.map_cons, List.mem_cons, not_or]
    exact ⟨Ne.symm other, new⟩

theorem isPlaced_insertSection (added : Section) (sections : List Section) :
    IsPlaced added sections (insertSection added sections) := by
  induction sections with
  | nil => exact .appended List.not_mem_nil
  | cons first rest ih =>
    rw [insertSection]
    split
    · rename_i same
      exact .replaced [] rest same
    · rename_i other
      exact ih.cons other

theorem isInserted_insert (added : Section) (s : Script) : IsInserted added s (s.insert added) where
  placed := isPlaced_insertSection added s.sections
  others := rfl
  found := by
    rw [section?, insert, find?_insertSection, if_pos rfl]

end Insert

section Read

theorem isCollected_lastOfNames (sections : List Section) :
    IsCollected sections (lastOfNames sections) where
  names := by
    rw [← foldl_insertSection_eq_lastOfNames, names_foldl_insertSection]
  last part member := by
    obtain ⟨name, _, found⟩ := List.mem_filterMap.1 member
    rw [List.findRev?_eq_find?_reverse, List.find?_eq_some_iff_append] at found
    obtain ⟨named, after, before, reversed, others⟩ := found
    obtain rfl := of_decide_eq_true named
    refine ⟨before.reverse, after.reverse, ?_, ?_⟩
    · rw [← List.reverse_inj, reversed]
      simp
    · intro again
      obtain ⟨other, among, same⟩ := List.mem_map.1 again
      simpa [same] using others other (List.mem_reverse.1 among)

end Read

section Install

theorem isSetOff_setOff (s : Section) : IsSetOff s (setOff s) where
  name := name_setOff s
  content := content_setOff s
  leading := by simp [leading_setOff]

theorem forall₂_keptSections (sections : List Section) :
    List.Forall₂ IsSetOff
      (sections.filter fun s => s.name ≠ infoName ∧ s.name ≠ launcherName)
      (keptSections sections) := by
  have others : (fun s : Section => decide (s.name ≠ infoName ∧ s.name ≠ launcherName)) =
      fun s => !isReserved s.name := by
    funext s
    simp only [isReserved, Bool.decide_and, decide_not, Bool.not_or, beq_eq_decide]
  rw [others, keptSections, List.forall₂_map_right_iff]
  exact List.forall₂_same.2 fun s _ => isSetOff_setOff s

theorem isInstalled_install {s : Script} (distinct : (s.sections.map (·.name)).Nodup)
    (l : Launcher) (payload : Option Payload) :
    IsInstalled l payload.isSome s.sections (s.install l payload).sections where
  parts := ⟨keptSections s.sections, rfl, forall₂_keptSections s.sections⟩
  once := by
    have distinct := nodup_names_install distinct l payload
    constructor
    · apply List.count_eq_one_of_mem distinct
      exact List.mem_map_of_mem (f := (·.name)) (mem_sections_install.2 (.inl rfl))
    · apply List.count_eq_one_of_mem distinct
      exact List.mem_map_of_mem (f := (·.name)) (mem_sections_install.2 (.inr (.inr rfl)))

end Install

/-- Whatever was done to a script, its sections have different names, and the next operation
puts sections where their names say. -/
theorem sections_of_history (history : List Operation) :
    let s := history.foldl apply {}
    (s.sections.map (·.name)).Nodup ∧
      (∀ added, IsInserted added s (s.apply (.insert added))) ∧
      (∀ canonical data read, parse canonical data = .ok read →
        s.apply (.read canonical data) = read ∧
        ∃ lines, Lines.ofBytes data = lines.map some ∧
          (∃ sections rest, Spans (afterDirective canonical lines) sections rest) ∧
          ∀ sections rest, Spans (afterDirective canonical lines) sections rest →
            IsCollected sections read.sections) ∧
      ∀ l payload,
        IsInstalled l payload.isSome s.sections (s.apply (.install l payload)).sections := by
  intro s
  have distinct : (s.sections.map (·.name)).Nodup :=
    nodup_names_foldl_apply (s := {}) List.nodup_nil history
  refine ⟨distinct, fun added => isInserted_insert added s, ?_, isInstalled_install distinct⟩
  intro canonical data read parsed
  obtain ⟨opening, _, _, lines, _⟩ := exists_of_parse parsed
  refine ⟨by simp [apply, parsed, Except.toOption], _, lines, exists_spans lines parsed, ?_⟩
  intro sections rest spans
  obtain rfl := Except.ok.inj (parsed.symm.trans (spans.parse_eq lines))
  rw [assemble, foldl_insertSection_eq_lastOfNames]
  exact isCollected_lastOfNames sections

/-- A section that comes again is left in the first place of its name, with its last lines, and
one that is put in afterwards takes that place. -/
theorem sections_of_history_repeated :
    let file : Text := "# a -->\n1\n# <-- a\n# b -->\n# <-- b\n\n# a -->\n2\n# <-- a".toList
    let first : Section := ⟨[], ['a'], [['1']]⟩
    let other : Section := ⟨[], ['b'], []⟩
    let last : Section := ⟨[[]], ['a'], [['2']]⟩
    let read : Script := ⟨false, [last, other], [], none⟩
    parse true file.encode = .ok read ∧ IsCollected [first, other, last] read.sections ∧
      IsInserted first read (read.insert first) := by
  intro file first other last read
  have lines := Lines.ofBytes_encode_eq_delivered file
  have spans : Spans (afterDirective true (Lines.delivered file)) [first, other, last] [] := by
    refine ⟨rfl, ?_, nofun⟩
    intro part member
    rcases List.mem_cons.1 member with rfl | member
    · exact ⟨by decide, by decide, by decide⟩
    · rcases List.mem_pair.1 member with rfl | rfl <;> exact ⟨by decide, by decide, by decide⟩
  have parsed : parse true file.encode = .ok read := spans.parse_eq lines
  obtain ⟨_, inserted, collected, _⟩ := sections_of_history [.read true file.encode]
  obtain ⟨_, delivered, lines', _, collected⟩ := collected true file.encode read parsed
  have same : delivered = Lines.delivered file :=
    (List.map_inj_right fun _ _ => Option.some.inj).1 (lines'.symm.trans lines)
  refine ⟨parsed, collected _ [] (same ▸ spans), ?_⟩
  simpa [apply, parsed, Except.toOption] using inserted first

end Bootscript.Script
