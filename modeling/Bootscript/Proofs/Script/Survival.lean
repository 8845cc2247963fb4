import Bootscript.Proofs.Script.Inert
import Bootscript.Proofs.Script.Spans
import Mathlib.Data.List.Flatten
import Mathlib.Data.List.Perm.Basic

/-! Which lines of a file outlive an installation. All do but those of the two reserved
sections and those that stand in front of them, which go with them. -/
namespace Bootscript.Script

section Lines

/-- The lines of a file that do not belong to a reserved section, be they in front of one. -/
def userLines (sections : List Section) (rest : List Line) : List Line :=
  sections.flatMap (fun part => if isReserved part.name then part.leading else part.lines) ++ rest

def strandedLines (sections : List Section) : List Line :=
  sections.flatMap fun part => if isReserved part.name then part.leading else []

def sparedLines (sections : List Section) : List Line :=
  sections.flatMap fun part => if isReserved part.name then [] else part.lines

/-- The blank lines that set off the sections with nothing in front of them. -/
def separators (sections : List Section) : List Line :=
  sections.flatMap fun part => if isReserved part.name || !part.leading.isEmpty then [] else [[]]

def freshLines (sections : List Section) (l : Launcher) (payload : Option Payload) : List Line :=
  directiveLine :: infoSection.lines ++ separators sections ++
    (launcherSection l payload.isSome).lines ++ tail (payload.map Payload.lines)

end Lines

section Kept

variable (sections : List Section) (rest : List Line)

theorem perm_userLines : (userLines sections rest).Perm
    (strandedLines sections ++ (sparedLines sections ++ rest)) := by
  have parted (part : Section) : (if isReserved part.name then part.leading else part.lines) =
      (if isReserved part.name then part.leading else []) ++
        (if isReserved part.name then [] else part.lines) := by
    cases isReserved part.name <;> simp
  rw [userLines, sparedLines, strandedLines, ← List.append_assoc, funext parted]
  exact (List.flatMap_append_perm sections _ _).symm.append_right rest

variable {sections} in
/-- Nothing but stranded lines tells what is spared from the lines of a user. -/
theorem filter_userLines {keep : Line → Bool} (dropped : ∀ line ∈ strandedLines sections, ¬keep line) :
    (userLines sections rest).filter keep = (sparedLines sections ++ rest).filter keep := by
  rw [userLines, sparedLines, List.filter_append, List.filter_append, List.filter_flatMap,
    List.filter_flatMap]
  congr 1
  apply List.flatMap_congr
  intro part member
  split
  · rename_i reserved
    rw [List.filter_nil, List.filter_eq_nil_iff]
    intro line leading
    apply dropped
    exact List.mem_flatMap.2 ⟨part, member, by rwa [if_pos reserved]⟩
  · rfl

variable {sections} in
theorem userLines_of_strandedLines (none : strandedLines sections = []) :
    userLines sections rest = sparedLines sections ++ rest := by
  have dropped : ∀ line ∈ strandedLines sections, ¬(fun _ : Line => true) line := by
    rw [none]
    exact nofun
  simpa using filter_userLines rest dropped

theorem lines_setOff (part : Section) :
    (setOff part).lines = (if part.leading.isEmpty then [[]] else []) ++ part.lines := by
  rw [setOff]
  split
  · rename_i empty
    simp [Section.lines, Section.startMarker, Section.endMarker, List.isEmpty_iff.1 empty]
  · rfl

theorem flatMap_lines_keptSections : (keptSections sections).flatMap Section.lines =
    sections.flatMap fun part => if isReserved part.name then [] else (setOff part).lines := by
  induction sections with
  | nil => rfl
  | cons part sections ih =>
    rw [keptSections] at ih ⊢
    cases reserved : isReserved part.name <;> simp [reserved, ih]

theorem sparedLines_sublist_keptSections :
    (sparedLines sections).Sublist ((keptSections sections).flatMap Section.lines) := by
  rw [flatMap_lines_keptSections, sparedLines]
  apply List.Sublist.flatMap_right
  intro part _
  split
  · exact List.Sublist.refl _
  · rw [lines_setOff]
    exact List.sublist_append_right _ _

theorem perm_keptSections : ((keptSections sections).flatMap Section.lines).Perm
    (separators sections ++ sparedLines sections) := by
  have parted (part : Section) : (if isReserved part.name then [] else (setOff part).lines) =
      (if isReserved part.name || !part.leading.isEmpty then [] else [[]]) ++
        (if isReserved part.name then [] else part.lines) := by
    rw [lines_setOff]
    cases isReserved part.name <;> cases part.leading.isEmpty <;> rfl
  rw [flatMap_lines_keptSections, separators, sparedLines, funext parted]
  exact (List.flatMap_append_perm sections _ _).symm

end Kept

section Written

variable (s : Script) (l : Launcher) (payload : Option Payload)

theorem sublist_lines_install :
    (sparedLines s.sections ++ s.content).Sublist (s.install l payload).lines := by
  rw [lines_install]
  apply List.Sublist.append
  · have kept := sparedLines_sublist_keptSections s.sections
    have behind := List.sublist_append_right (directiveLine :: infoSection.lines)
      ((keptSections s.sections).flatMap Section.lines)
    rw [preamble, List.flatMap_cons, ← List.cons_append]
    exact (kept.trans behind).trans (List.sublist_append_left _ _)
  · have content := List.sublist_append_left s.content (tail (payload.map Payload.lines))
    exact (content.cons _).trans (List.sublist_append_right _ _)

/-- What is written is what is spared and what is fresh, and nothing else. -/
theorem perm_lines_install : (s.install l payload).lines.Perm
    (freshLines s.sections l payload ++ (sparedLines s.sections ++ s.content)) := by
  have last : (launcherSection l payload.isSome).lines = [[], Marker.start launcherName] ++
      (l.lines payload.isSome ++ [Marker.finish launcherName]) := rfl
  rw [lines_install, preamble, freshLines, last, List.perm_iff_count]
  intro line
  have kept := (perm_keptSections s.sections).count_eq line
  simp only [List.count_append, List.count_cons, List.count_nil, List.flatMap_cons,
    List.cons_append] at kept ⊢
  omega

variable {s}

/-- A line of a user that stands in front of a reserved section is lost, unless the
installation writes such a line of its own. -/
theorem filter_userLines_sublist_iff :
    ((userLines s.sections s.content).filter (· ∉ freshLines s.sections l payload)).Sublist
        (s.install l payload).lines ↔
      ∀ line ∈ strandedLines s.sections, line ∈ freshLines s.sections l payload := by
  constructor
  · intro kept line stranded
    by_contra foreign
    have present := kept.count_le line
    have all : ((userLines s.sections s.content).filter
        (· ∉ freshLines s.sections l payload)).count line =
          (userLines s.sections s.content).count line :=
      List.count_filter (by simpa using foreign)
    rw [all, (perm_userLines _ _).count_eq, (perm_lines_install s l payload).count_eq] at present
    have absent := List.count_eq_zero_of_not_mem foreign
    have some := List.count_pos_iff.2 stranded
    simp only [List.count_append] at present
    omega
  · intro known
    rw [filter_userLines _ (by simpa using known)]
    exact List.filter_sublist.trans (sublist_lines_install s l payload)

end Written

section Reading

variable {canonical : Bool} {text : Text} {s : Script} {sections : List Section} {rest : List Line}

theorem afterDirective_suffix (canonical : Bool) (lines : List Line) :
    afterDirective canonical lines <:+ lines := by
  obtain ⟨opening, whole, _⟩ := exists_isOpening canonical lines
  exact ⟨opening, whole.symm⟩

/-- Without repeated names and without a notice a script is made of the spans of its text. -/
theorem parts_of_parse (parsed : parse canonical text.encode = .ok s)
    (spans : Spans (afterDirective canonical (Lines.delivered text)) sections rest)
    (distinct : (sections.map (·.name)).Nodup) (noNotice : notice ∉ Lines.delivered text) :
    s.sections = sections ∧ s.content = rest := by
  have read := Lines.ofBytes_encode_eq_delivered text
  have assembled := Except.ok.inj (parsed.symm.trans (spans.parse_eq read))
  have clear : notice ∉ rest := by
    intro member
    apply noNotice
    apply (afterDirective_suffix canonical _).mem
    rw [spans.parts]
    exact List.mem_append_right _ member
  have whole := splitNotice_append clear none
  rw [tail, List.append_nil] at whole
  rw [assembled, assemble, whole]
  exact ⟨foldl_insertSection_of_distinct sections [] distinct, rfl⟩

/-- An installation spares all lines of a user but those in front of a reserved section. Of
the lines that it does not write itself, none is lost exactly if none stands there. -/
theorem sublist_install (parsed : parse canonical text.encode = .ok s)
    (noNotice : notice ∉ Lines.delivered text) (l : Launcher) (archive : Option Bytes) :
    let lines := afterDirective canonical (Lines.delivered text)
    let payload := archive.map Payload.ofArchive
    let written := split '\n' (s.install l payload).text
    (∃ sections rest, Spans lines sections rest) ∧
    ∀ sections rest, Spans lines sections rest → (sections.map (·.name)).Nodup →
      (sparedLines sections ++ rest).Sublist written ∧
      (strandedLines sections = [] → (userLines sections rest).Sublist written) ∧
      (((userLines sections rest).filter (· ∉ freshLines sections l payload)).Sublist written ↔
        ∀ line ∈ strandedLines sections, line ∈ freshLines sections l payload) := by
  intro lines payload written
  have same : written = (s.install l payload).lines :=
    split_text (install_wellFormed (parse_wellFormed parsed) l archive)
  refine ⟨exists_spans (Lines.ofBytes_encode_eq_delivered text) parsed, ?_⟩
  intro sections rest spans distinct
  obtain ⟨rfl, rfl⟩ := parts_of_parse parsed spans distinct noNotice
  rw [same]
  refine ⟨sublist_lines_install s l payload, fun none => ?_, filter_userLines_sublist_iff l payload⟩
  rw [userLines_of_strandedLines _ none]
  exact sublist_lines_install s l payload

/-- A reserved section in front of all else, and one of a user without a line before it. -/
theorem sublist_install_plain :
    let text : Text := "# PySH Bootstrap -->\n1\n# <-- PySH Bootstrap\n# a -->\n# <-- a\nx".toList
    let parts : List Section := [⟨[], launcherName, [['1']]⟩, ⟨[], ['a'], []⟩]
    let s : Script := ⟨false, parts, [['x']], none⟩
    parse false text.encode = .ok s ∧
      Spans (afterDirective false (Lines.delivered text)) parts [['x']] ∧
      (userLines parts [['x']]).Sublist (split '\n' (s.install .standard none).text) := by
  intro text parts s
  have spans : Spans (afterDirective false (Lines.delivered text)) parts [['x']] := by
    refine ⟨rfl, ?_, by decide⟩
    intro part member
    simp only [parts, List.mem_cons, List.not_mem_nil, or_false] at member
    rcases member with rfl | rfl <;> exact ⟨by decide, by decide, by decide⟩
  have parsed : parse false text.encode = .ok s :=
    spans.parse_eq (Lines.ofBytes_encode_eq_delivered text)
  have clear : notice ∉ Lines.delivered text := by decide
  obtain ⟨_, spared, _⟩ :=
    (sublist_install parsed clear .standard none).2 parts _ spans (by decide)
  exact ⟨parsed, spans, spared rfl⟩

/-- Code in front of a reserved section is in no place of what is written. -/
theorem not_sublist_install_import :
    let text : Text := "import os\n# PySH Information -->\n# <-- PySH Information\nprint(1)\n".toList
    let part : Section := ⟨["import os".toList], infoName, []⟩
    let rest : List Line := ["print(1)".toList, []]
    let s : Script := ⟨false, [part], rest, none⟩
    parse false text.encode = .ok s ∧
      Spans (afterDirective false (Lines.delivered text)) [part] rest ∧
      notice ∉ Lines.delivered text ∧
      ¬(userLines [part] rest).Sublist (split '\n' (s.install .standard none).text) := by
  intro text part rest s
  have spans : Spans (afterDirective false (Lines.delivered text)) [part] rest := by
    refine ⟨rfl, ?_, by decide⟩
    intro only member
    obtain rfl := List.mem_singleton.1 member
    exact ⟨by decide, by decide, by decide⟩
  have parsed : parse false text.encode = .ok s :=
    spans.parse_eq (Lines.ofBytes_encode_eq_delivered text)
  refine ⟨parsed, spans, by decide, fun kept => ?_⟩
  have same : split '\n' (s.install .standard none).text = (s.install .standard none).lines :=
    split_text (install_wellFormed (parse_wellFormed parsed) .standard none)
  rw [same] at kept
  have known := (filter_userLines_sublist_iff (s := s) .standard none).1
    (List.filter_sublist.trans kept)
  exact absurd (known "import os".toList (by decide)) (by decide +kernel)

end Reading
end Bootscript.Script
