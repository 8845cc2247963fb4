import Bootscript.Proofs.Script.Install

/-! What the shell meets in a script before it comes to the launcher. These lines do
nothing as long as all that was taken over from sections is comments and blank lines. -/
namespace Bootscript

namespace Shell

def isBlank (c : Char) : Bool := c == ' ' || c == '\t'

def isInert (line : Line) : Bool := (line.dropWhile isBlank).head?.all (· == '#')

@[simp] theorem isInert_nil : isInert [] := rfl

@[simp] theorem isInert_comment (rest : Text) : isInert ('#' :: rest) := rfl

theorem isInert_start (name : Text) : isInert (Marker.start name) := isInert_comment _

theorem isInert_finish (name : Text) : isInert (Marker.finish name) := isInert_comment _

end Shell

namespace Script

def preamble (s : Script) : List Line :=
  directiveLine :: (infoSection :: keptSections s.sections).flatMap Section.lines ++
    [[], Marker.start launcherName]

theorem lines_install (s : Script) (l : Launcher) (payload : Option Payload) :
    (s.install l payload).lines = s.preamble ++ (l.lines payload.isSome ++
      Marker.finish launcherName :: (s.content ++ tail (payload.map Payload.lines))) := by
  have last : (launcherSection l payload.isSome).lines = [[], Marker.start launcherName] ++
      (l.lines payload.isSome ++ [Marker.finish launcherName]) := rfl
  rw [lines, body_eq, install, List.flatMap_append, List.flatMap_singleton, last, preamble]
  simp only [List.cons_append, List.append_assoc, List.nil_append]

theorem noFeed_lines {s : Script} (wellFormed : s.WellFormed) : ∀ line ∈ s.lines, '\n' ∉ line := by
  intro line member
  rcases List.mem_cons.1 member with rfl | member
  · exact isPlain_directiveLine.noFeed
  · exact (wellFormed.plain line member).noFeed

theorem split_text {s : Script} (wellFormed : s.WellFormed) : split '\n' s.text = s.lines :=
  split_intercalate (noFeed_lines wellFormed) (by rw [lines]; exact List.cons_ne_nil _ _)

/-- Markers are comments, so a section is as inert as what stands around and in it. -/
theorem inert_lines_iff (part : Section) : (∀ line ∈ part.lines, Shell.isInert line) ↔
    ∀ line ∈ part.leading ++ part.content, Shell.isInert line := by
  simp only [Section.lines, Section.startMarker, Section.endMarker, List.forall_mem_append,
    List.forall_mem_cons, Shell.isInert_start, Shell.isInert_finish, List.not_mem_nil,
    false_implies, implies_true, and_true, true_and]

theorem inert_setOff_iff (part : Section) : (∀ line ∈ (setOff part).lines, Shell.isInert line) ↔
    ∀ line ∈ part.leading ++ part.content, Shell.isInert line := by
  rw [inert_lines_iff, content_setOff, leading_setOff]
  split
  · rename_i empty
    simp [List.isEmpty_iff.1 empty]
  · rfl

theorem inert_infoSection : ∀ line ∈ infoSection.lines, Shell.isInert line :=
  (inert_lines_iff infoSection).2 (by decide)

theorem inert_preamble_iff (s : Script) : (∀ line ∈ s.preamble, Shell.isInert line) ↔
    ∀ part ∈ s.sections, isReserved part.name = false →
      ∀ line ∈ part.leading ++ part.content, Shell.isInert line := by
  have directive : Shell.isInert directiveLine := rfl
  constructor
  · intro inert part read other
    rw [← inert_setOff_iff]
    intro line inside
    have kept : setOff part ∈ keptSections s.sections := mem_keptSections.2 ⟨part, read, other, rfl⟩
    apply inert
    simp only [preamble, List.mem_cons, List.mem_append, List.mem_flatMap]
    exact .inl (.inr ⟨setOff part, .inr kept, inside⟩)
  · intro inert line member
    simp only [preamble, List.mem_cons, List.mem_append, List.mem_flatMap, List.not_mem_nil,
      or_false] at member
    rcases member with (rfl | ⟨part, rfl | kept, inside⟩) | rfl | rfl
    · exact directive
    · exact inert_infoSection line inside
    · obtain ⟨old, read, other, rfl⟩ := mem_keptSections.1 kept
      exact (inert_setOff_iff old).2 (inert old read other) line inside
    · exact Shell.isInert_nil
    · exact Shell.isInert_start launcherName

/-- The shell executes nothing before the launcher exactly if the sections that were taken
over, with the lines in front of them, are made of comments and blank lines. -/
theorem inert_before_launcher_iff {canonical : Bool} {data : Bytes} {s : Script}
    (parsed : parse canonical data = .ok s) (l : Launcher) (archive : Option Bytes) :
    split '\n' (s.install l (archive.map Payload.ofArchive)).text = s.preamble ++
        (l.lines archive.isSome ++ Marker.finish launcherName ::
          (s.content ++ tail (archive.map fun data => (Payload.ofArchive data).lines))) ∧
      ((∀ line ∈ s.preamble, Shell.isInert line) ↔
        ∀ part ∈ s.sections, isReserved part.name = false →
          ∀ line ∈ part.leading ++ part.content, Shell.isInert line) := by
  refine ⟨?_, inert_preamble_iff s⟩
  rw [split_text (install_wellFormed (parse_wellFormed parsed) l archive), lines_install,
    Option.isSome_map, Option.map_map]
  rfl

/-- A section of indented comments and blank lines behind a foreign directive. -/
theorem inert_before_launcher_comments :
    let data := Text.encode "#!/usr/bin/python\n \n# a -->\n\t# note\n# <-- a\nx = 1\n".toList
    let s : Script := ⟨false, [⟨["#!/usr/bin/python".toList, [' ']], ['a'], ["\t# note".toList]⟩],
      ["x = 1".toList, []], none⟩
    parse true data = .ok s ∧ ∀ line ∈ s.preamble, Shell.isInert line := by
  intro data s
  have parsed : parse true data = .ok s := rfl
  exact ⟨parsed, (inert_before_launcher_iff parsed .standard none).2.2 (by decide)⟩

/-- Code in front of a section is what the shell executes first. -/
theorem not_inert_before_launcher_import :
    let data := Text.encode "import os\n# Notes -->\n# <-- Notes\nprint(os.getcwd())\n".toList
    let s : Script := ⟨false, [⟨["import os".toList], "Notes".toList, []⟩],
      ["print(os.getcwd())".toList, []], none⟩
    parse false data = .ok s ∧
      (∃ after, split '\n' (s.install .standard none).text =
        s.preamble ++ (Launcher.standard.lines false ++ after)) ∧
      "import os".toList ∈ s.preamble ∧ Shell.isInert "import os".toList = false := by
  intro data s
  have parsed : parse false data = .ok s := rfl
  have parts := split_text (install_wellFormed (parse_wellFormed parsed) .standard none)
  exact ⟨parsed, ⟨_, parts.trans (lines_install s .standard none)⟩, by decide, by decide⟩

end Script
end Bootscript
