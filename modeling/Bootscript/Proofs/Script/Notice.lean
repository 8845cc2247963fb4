import Bootscript.Proofs.Script.Install

/-! What stands in the text of a script behind the first notice that ends a line, be it the
line of the notice or another. -/
namespace Bootscript

def Text.afterFirst (separator text : Text) : Option Text :=
  (text.dropInfix? separator).map Prod.snd

namespace Text

theorem dropInfix?_go_snd (separator text before : Text) :
    (List.dropInfix?.go separator text before).map Prod.snd = afterFirst separator text := by
  rw [afterFirst, List.dropInfix?]
  suffices ∀ other, (List.dropInfix?.go separator text before).map Prod.snd =
      (List.dropInfix?.go separator text other).map Prod.snd from this []
  induction text generalizing before with
  | nil =>
    intro other
    rw [List.dropInfix?.go, List.dropInfix?.go]
    split <;> rfl
  | cons c text ih =>
    intro other
    rw [List.dropInfix?.go, List.dropInfix?.go]
    split
    · exact ih _ _
    · rfl

theorem afterFirst_cons (separator : Text) (c : Char) (text : Text) :
    afterFirst separator (c :: text) =
      match (c :: text).dropPrefix? separator with
      | some rest => some rest
      | none => afterFirst separator text := by
  rw [afterFirst, List.dropInfix?, List.dropInfix?.go]
  cases (c :: text).dropPrefix? separator with
  | some rest => rfl
  | none => exact dropInfix?_go_snd separator text [c]

theorem dropPrefix?_line {mark line : Text} (markFeed : '\n' ∉ mark) (noFeed : '\n' ∉ line)
    (rest : Text) : (line ++ '\n' :: rest).dropPrefix? (mark ++ ['\n']) =
      if line = mark then some rest else none := by
  split
  · rename_i same
    rw [same, ← List.singleton_append, ← List.append_assoc]
    exact List.dropPrefix?_append_of_beq rest BEq.rfl
  · rename_i other
    rw [Option.eq_none_iff_forall_ne_some]
    intro tail found
    obtain ⟨opening, whole, same⟩ := List.dropPrefix?_eq_some_iff.1 found
    rw [eq_of_beq same, List.append_assoc, List.singleton_append] at whole
    have first := congrArg (List.takeWhile (· ≠ '\n')) whole
    rw [takeWhile_piece noFeed, takeWhile_piece markFeed] at first
    exact other first

/-- Line by line, a mark is found in the first line that ends in it. -/
theorem afterFirst_line {mark line : Text} (markFeed : '\n' ∉ mark) (noFeed : '\n' ∉ line)
    (rest : Text) : afterFirst (mark ++ ['\n']) (line ++ '\n' :: rest) =
      if mark <:+ line then some rest else afterFirst (mark ++ ['\n']) rest := by
  -- Without a line feed of its own the mark cannot reach beyond the end of the line, so it
  -- is found at a place in the line exactly if the rest of the line is the mark.
  induction line with
  | nil =>
    rw [List.nil_append, afterFirst_cons, ← List.nil_append ('\n' :: rest),
      dropPrefix?_line markFeed noFeed]
    by_cases empty : mark = []
    · simp [empty]
    · simp [empty, Ne.symm empty]
  | cons c line ih =>
    rw [List.mem_cons, not_or] at noFeed
    rw [List.cons_append, afterFirst_cons, ← List.cons_append,
      dropPrefix?_line markFeed (by simpa using noFeed), ih noFeed.2]
    by_cases whole : c :: line = mark
    · simp [whole]
    · simp [whole, Ne.symm whole, List.suffix_cons_iff]

variable {mark : Text} (markFeed : '\n' ∉ mark)
include markFeed

theorem afterFirst_of_clear {lines : List Line} (noFeed : ∀ line ∈ lines, '\n' ∉ line)
    (clear : ∀ line ∈ lines, ¬mark <:+ line) (rest : Text) :
    afterFirst (mark ++ ['\n']) (lines.flatMap (· ++ ['\n']) ++ rest) =
      afterFirst (mark ++ ['\n']) rest := by
  induction lines with
  | nil => rfl
  | cons line lines ih =>
    have first := noFeed line (List.mem_cons_self ..)
    rw [List.flatMap_cons, List.append_assoc, List.append_assoc, List.singleton_append,
      afterFirst_line markFeed first, if_neg (clear line (List.mem_cons_self ..))]
    exact ih (fun other member => noFeed other (List.mem_cons_of_mem _ member))
      fun other member => clear other (List.mem_cons_of_mem _ member)

/-- A line that ends in the mark before the line of the mark hides the latter. -/
theorem exists_afterFirst {lines : List Line} (noFeed : ∀ line ∈ lines, '\n' ∉ line)
    {earlier : Line} (member : earlier ∈ lines) (ends : mark <:+ earlier) (rest : Text) :
    ∃ between, afterFirst (mark ++ ['\n']) (lines.flatMap (· ++ ['\n']) ++ rest) =
      some (between ++ rest) := by
  induction lines with
  | nil => cases member
  | cons line lines ih =>
    have first := noFeed line (List.mem_cons_self ..)
    rw [List.flatMap_cons, List.append_assoc, List.append_assoc, List.singleton_append,
      afterFirst_line markFeed first]
    split
    · exact ⟨_, rfl⟩
    · rename_i clear
      have later : earlier ∈ lines :=
        (List.mem_cons.1 member).resolve_left fun same => clear (same ▸ ends)
      exact ih (fun other among => noFeed other (List.mem_cons_of_mem _ among)) later

/-- Behind the first occurrence of a line stands the rest of the lines exactly if none of
the lines before ends in it. -/
theorem afterFirst_join_iff {lines : List Line} (noFeed : ∀ line ∈ lines, '\n' ∉ line)
    (next : Line) (rest : List Line) :
    afterFirst (mark ++ ['\n']) (Lines.join (lines ++ mark :: next :: rest)) =
        some (Lines.join (next :: rest)) ↔ ∀ line ∈ lines, ¬mark <:+ line := by
  have split : Lines.join (mark :: next :: rest) = mark ++ '\n' :: Lines.join (next :: rest) := by
    have := Lines.join_append_cons [mark] next rest
    simpa using this
  rw [Lines.join_append_cons, split]
  constructor
  · intro found line member ends
    obtain ⟨between, hidden⟩ :=
      exists_afterFirst markFeed noFeed member ends (mark ++ '\n' :: Lines.join (next :: rest))
    -- The rest would have to be longer than itself.
    rw [hidden] at found
    have length := congrArg List.length (Option.some.inj found)
    simp at length
    omega
  · intro clear
    rw [afterFirst_of_clear markFeed noFeed clear, afterFirst_line markFeed markFeed,
      if_pos (List.suffix_refl mark)]

end Text

namespace Script

def kept (s : Script) : List Line :=
  (s.sections.filter fun part => !isReserved part.name).flatMap
    (fun part => part.leading ++ part.content) ++ s.content

def front (s : Script) (l : Launcher) (payload : Payload) : List Line :=
  directiveLine :: (s.install l (some payload)).sections.flatMap Section.lines ++ s.content

theorem text_install (s : Script) (l : Launcher) (payload : Payload) :
    (s.install l (some payload)).text = Lines.join (s.front l payload ++ notice :: payload.lines) := by
  rw [text, lines, body_eq, front, List.append_assoc, List.cons_append]
  rfl

section Ends

variable {line : Line} (ends : notice <:+ line)
include ends

theorem not_ends_marker {name : Text} (valid : Marker.isName name) :
    line ≠ Marker.start name ∧ line ≠ Marker.finish name := by
  have colon : ':' ∈ line := ends.mem (by decide : ':' ∈ notice)
  have other : ':' ∉ name := Marker.not_mem_name valid rfl
  constructor
  · rintro rfl
    simp [Marker.start, Marker.startOpening, Marker.startClosing, other] at colon
  · rintro rfl
    simp [Marker.finish, Marker.finishOpening, other] at colon

theorem not_ends_nil : line ≠ [] := by
  rintro rfl
  exact absurd (List.suffix_nil.1 ends) (by decide)

theorem not_ends_launcher (l : Launcher) (distributable : Bool) :
    line ∉ l.lines distributable := by
  intro member
  obtain ⟨words, _, rfl⟩ := List.mem_map.1 member
  obtain ⟨before, whole⟩ := ends
  have last := Launcher.getLast?_evalLine words
  rw [← whole, List.getLast?_append_of_ne_nil _ (by decide)] at last
  exact absurd last (by decide)

theorem mem_lines_iff {part : Section} (valid : Marker.isName part.name) :
    line ∈ part.lines ↔ line ∈ part.leading ++ part.content := by
  obtain ⟨start, finish⟩ := not_ends_marker ends valid
  simp [Section.lines, Section.startMarker, Section.endMarker, start, finish]

theorem mem_setOff_iff (part : Section) :
    line ∈ (setOff part).leading ++ (setOff part).content ↔
      line ∈ part.leading ++ part.content := by
  rw [leading_setOff, content_setOff]
  split
  · rename_i empty
    rw [List.isEmpty_iff.1 empty]
    simp [not_ends_nil ends]
  · rfl

theorem not_ends_infoSection : line ∉ infoSection.lines := by
  have others : ∀ line ∈ infoSection.leading ++ infoSection.content, ¬notice <:+ line := by
    decide
  rw [mem_lines_iff ends isDelimited_infoSection.name]
  exact fun member => others line member ends

theorem not_ends_launcherSection (l : Launcher) (distributable : Bool) :
    line ∉ (launcherSection l distributable).lines := by
  rw [mem_lines_iff ends isName_launcherName]
  simp [launcherSection, not_ends_nil ends, not_ends_launcher ends]

theorem mem_lines_install_iff {s : Script} (wellFormed : s.WellFormed) (l : Launcher)
    (payload : Option Payload) :
    line ∈ (s.install l payload).sections.flatMap Section.lines ↔
      ∃ part ∈ s.sections, isReserved part.name = false ∧ line ∈ part.leading ++ part.content := by
  have valid {part : Section} (read : part ∈ s.sections) : Marker.isName (setOff part).name :=
    (isDelimited_setOff (wellFormed.delimited part read)).name
  rw [List.mem_flatMap]
  constructor
  · rintro ⟨part, member, inside⟩
    rcases mem_sections_install.1 member with rfl | member | rfl
    · exact absurd inside (not_ends_infoSection ends)
    · obtain ⟨old, read, other, rfl⟩ := mem_keptSections.1 member
      rw [mem_lines_iff ends (valid read), mem_setOff_iff ends] at inside
      exact ⟨old, read, other, inside⟩
    · exact absurd inside (not_ends_launcherSection ends l _)
  · rintro ⟨part, read, other, inside⟩
    rw [← mem_setOff_iff ends, ← mem_lines_iff ends (valid read)] at inside
    have kept : setOff part ∈ keptSections s.sections :=
      mem_keptSections.2 ⟨part, read, other, rfl⟩
    exact ⟨setOff part, mem_sections_install.2 (.inr (.inl kept)), inside⟩

/-- Only what is taken over can end in the notice. -/
theorem mem_front_iff {s : Script} (wellFormed : s.WellFormed) (l : Launcher)
    (payload : Payload) : line ∈ s.front l payload ↔ line ∈ s.kept := by
  have directive : line ≠ directiveLine := by
    rintro rfl
    exact absurd ends (by decide)
  rw [front, kept, List.mem_append, List.mem_cons, List.mem_append,
    mem_lines_install_iff ends wellFormed]
  simp [directive, and_assoc]

end Ends

theorem noFeed_front {s : Script} (wellFormed : s.WellFormed) (l : Launcher) (archive : Bytes) :
    ∀ line ∈ s.front l (.ofArchive archive), '\n' ∉ line := by
  intro line member
  have installed := install_wellFormed wellFormed l (some archive)
  rw [front, List.cons_append, List.mem_cons] at member
  rcases member with rfl | member
  · exact isPlain_directiveLine.noFeed
  · apply (installed.plain line _).noFeed
    rw [body_eq, ← List.append_assoc]
    exact List.mem_append_left _ member

theorem afterFirst_notice {s : Script} (wellFormed : s.WellFormed) (l : Launcher)
    (archive : Bytes) :
    Text.afterFirst (notice ++ ['\n']) (s.install l (some (.ofArchive archive))).text =
        some (Lines.join (Payload.ofArchive archive).lines) ↔
      ∀ line ∈ s.kept, ¬notice <:+ line := by
  rw [text_install, Payload.lines, List.cons_append,
    Text.afterFirst_join_iff (by decide) (noFeed_front wellFormed l archive)]
  constructor
  · intro clear line member ends
    exact clear line ((mem_front_iff ends wellFormed l _).2 member) ends
  · intro clear line member ends
    exact clear line ((mem_front_iff ends wellFormed l _).1 member) ends

/-- Behind the first notice at the end of a line stand the lines of the archive exactly if no
line that the installation took over ends in the notice. -/
theorem afterFirst_notice_parse {canonical : Bool} {data : Bytes} {s : Script}
    (parsed : parse canonical data = .ok s) (l : Launcher) (archive : Bytes) :
    Text.afterFirst (notice ++ ['\n']) (s.install l (some (.ofArchive archive))).text =
        some (Lines.join (Payload.ofArchive archive).lines) ↔
      ∀ line ∈ s.kept, ¬notice <:+ line :=
  afterFirst_notice (parse_wellFormed parsed) l archive

theorem afterFirst_notice_parse_plain :
    let data := Text.encode "print(1)\n".toList
    let s : Script := { content := ["print(1)".toList, []] }
    parse false data = .ok s ∧
      Text.afterFirst (notice ++ ['\n'])
          (s.install .standard (some (.ofArchive [0x50, 0x4B]))).text =
        some (Lines.join (Payload.ofArchive [0x50, 0x4B]).lines) := by
  intro data s
  have parsed : parse false data = .ok s := rfl
  exact ⟨parsed, (afterFirst_notice_parse parsed .standard [0x50, 0x4B]).2 (by decide)⟩

/-- A comment that ends in the notice is taken for it. -/
theorem afterFirst_notice_comment :
    let data := Text.encode "x = 1  # PySH: Module embedded below\nprint(x)\n".toList
    let s : Script :=
      { content := ["x = 1  # PySH: Module embedded below".toList, "print(x)".toList, []] }
    parse false data = .ok s ∧
      Text.afterFirst (notice ++ ['\n'])
          (s.install .standard (some (.ofArchive [0x50, 0x4B]))).text ≠
        some (Lines.join (Payload.ofArchive [0x50, 0x4B]).lines) := by
  intro data s
  have parsed : parse false data = .ok s := rfl
  refine ⟨parsed, fun found => ?_⟩
  have clear := (afterFirst_notice (parse_wellFormed parsed) .standard [0x50, 0x4B]).1 found
  revert clear
  decide

end Script
end Bootscript
