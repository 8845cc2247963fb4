import Bootscript.Proofs.Script.Inert
import Bootscript.Proofs.Script.Survival

/-! What a script loses of its line breaks. A body is written with line feeds alone, and of
its carriage returns it keeps those that stand within a line. -/
namespace Bootscript

namespace Text

def unifyBreaks : Text → Text
  | [] => []
  | c :: rest =>
    if ['\r', '\n'] <+: c :: rest then unifyBreaks rest else c :: unifyBreaks rest

theorem exists_of_prefix_break {c : Char} {rest : Text} (opens : ['\r', '\n'] <+: c :: rest) :
    c = '\r' ∧ ∃ others, rest = '\n' :: others := by
  obtain ⟨others, eq⟩ := opens
  obtain ⟨rfl, rfl⟩ := List.cons.inj eq
  exact ⟨rfl, others, rfl⟩

theorem getLast?_unifyBreaks (text : Text) : (unifyBreaks text).getLast? = text.getLast? := by
  induction text with
  | nil => rfl
  | cons c rest ih =>
    rw [unifyBreaks]
    split
    · rename_i opens
      obtain ⟨rfl, others, rfl⟩ := exists_of_prefix_break opens
      rw [ih, List.getLast?_cons_cons]
    · rw [List.getLast?_cons, List.getLast?_cons, ih]

theorem suffix_singleton_iff (c : Char) (text : Text) : [c] <:+ text ↔ text.getLast? = some c := by
  rw [List.getLast?_eq_some_iff]
  exact ⟨fun ⟨front, eq⟩ => ⟨front, eq.symm⟩, fun ⟨front, eq⟩ => ⟨front, eq.symm⟩⟩

theorem prefix_feed_unifyBreaks_iff (text : Text) :
    ['\n'] <+: unifyBreaks text ↔ ['\n'] <+: text ∨ ['\r', '\n'] <+: text := by
  cases text with
  | nil => simp [unifyBreaks]
  | cons c rest =>
    rw [unifyBreaks]
    split
    · rename_i opens
      obtain ⟨rfl, others, rfl⟩ := exists_of_prefix_break opens
      simp [unifyBreaks]
    · rename_i other
      rw [or_iff_left other, List.cons_prefix_cons, List.cons_prefix_cons]
      simp

/-- Of two carriage returns before a line feed the first is left. -/
theorem infix_break_unifyBreaks_iff (text : Text) :
    ['\r', '\n'] <:+: unifyBreaks text ↔ ['\r', '\r', '\n'] <:+: text := by
  induction text with
  | nil => simp [unifyBreaks]
  | cons c rest ih =>
    rw [unifyBreaks]
    split
    · rename_i opens
      obtain ⟨rfl, others, rfl⟩ := exists_of_prefix_break opens
      rw [ih, show ['\r', '\r', '\n'] <:+: '\r' :: '\n' :: others ↔ _ from List.infix_cons_iff]
      simp
    · rename_i other
      have opens : ['\r', '\n'] <+: c :: unifyBreaks rest ↔ ['\r', '\r', '\n'] <+: c :: rest := by
        rw [List.cons_prefix_cons] at other ⊢
        rw [List.cons_prefix_cons, prefix_feed_unifyBreaks_iff, and_congr_right_iff]
        exact fun same => or_iff_right fun feed => other ⟨same, feed⟩
      rw [List.infix_cons_iff, List.infix_cons_iff, ih, opens]

end Text

theorem Line.chomp_cons (c : Char) (line : Line) :
    chomp (c :: line) = if chomp line = [] then chomp [c] else c :: chomp line := by
  simp only [chomp, List.reverse_cons, List.dropWhile_append, List.reverse_eq_nil_iff,
    List.isEmpty_iff]
  split
  · rfl
  · rw [List.reverse_append]
    rfl

namespace Lines

theorem ofText_ne_nil (text : Text) : ofText text ≠ [] := by
  rw [ofText, Ne, List.map_eq_nil_iff]
  exact split_ne_nil _ _

theorem ofText_feed (rest : Text) : ofText ('\n' :: rest) = [] :: ofText rest := by
  rw [ofText, split_eq_splitOn, List.splitOn_cons_eq_if_modifyHead, ofText, split_eq_splitOn]
  rfl

theorem ofText_cons {c : Char} (other : c ≠ '\n') (rest : Text) :
    ofText (c :: rest) = (ofText rest).modifyHead fun line => Line.chomp (c :: line) := by
  rw [ofText, split_eq_splitOn, List.splitOn_cons_eq_if_modifyHead, if_neg (by simpa using other),
    ofText, split_eq_splitOn]
  obtain ⟨first, others, pieces⟩ := List.exists_cons_of_ne_nil (List.splitOn_ne_nil '\n' rest)
  have chomped : Line.chomp (Line.chomp first) = Line.chomp first :=
    List.rdropWhile_idempotent (· = '\r') first
  rw [pieces, List.modifyHead_cons, List.map_cons, List.map_cons, List.modifyHead_cons,
    Line.chomp_cons, Line.chomp_cons c (Line.chomp first), chomped]

/-- A line ends in the same place with or without the carriage return of its break. -/
theorem ofText_unifyBreaks (text : Text) : ofText (Text.unifyBreaks text) = ofText text := by
  induction text with
  | nil => rfl
  | cons c rest ih =>
    rw [Text.unifyBreaks]
    split
    · rename_i opens
      obtain ⟨rfl, others, rfl⟩ := Text.exists_of_prefix_break opens
      rw [ih, ofText_feed, ofText_cons (c := '\r') (by decide), ofText_feed]
      rfl
    · by_cases feed : c = '\n'
      · rw [feed, ofText_feed, ofText_feed, ih]
      · rw [ofText_cons feed, ofText_cons feed, ih]

theorem isPlain_of_mem_ofText {text : Text} {line : Line} (member : line ∈ ofText text) :
    line.IsPlain := by
  obtain ⟨piece, origin, rfl⟩ := List.mem_map.1 member
  exact Line.isPlain_chomp (not_mem_of_mem_split origin)

theorem infix_break_line_iff {line : Line} (noFeed : '\n' ∉ line) (rest : Text) :
    ['\r', '\n'] <:+: line ++ '\n' :: rest ↔ ['\r'] <:+ line ∨ ['\r', '\n'] <:+: rest := by
  induction line with
  | nil => simp [List.infix_cons_iff]
  | cons c line ih =>
    rw [List.mem_cons, not_or] at noFeed
    have opens : ['\r', '\n'] <+: c :: (line ++ '\n' :: rest) ↔ ['\r'] = c :: line := by
      cases line with
      | nil => simp [eq_comm]
      | cons d line =>
        have other : '\n' ≠ d := fun same => noFeed.2 (same ▸ List.mem_cons_self ..)
        simp [other]
    rw [List.cons_append, List.infix_cons_iff, opens, ih noFeed.2, List.suffix_cons_iff, or_assoc]

/-- Plain lines are joined without a carriage return before a break or at the end. -/
theorem not_return_join {lines : List Line} (plain : ∀ line ∈ lines, line.IsPlain) :
    ¬['\r', '\n'] <:+: join lines ∧ ¬['\r'] <:+ join lines := by
  match lines with
  | [] => exact ⟨by decide, by decide⟩
  | [line] =>
    obtain ⟨noFeed, noReturn⟩ := plain line (List.mem_cons_self ..)
    rw [join, List.intercalate_singleton, Text.suffix_singleton_iff]
    exact ⟨fun inside => noFeed (inside.mem (by decide)), noReturn⟩
  | line :: next :: rest =>
    obtain ⟨noFeed, noReturn⟩ := plain line (List.mem_cons_self ..)
    obtain ⟨inside, last⟩ :=
      not_return_join fun other among => plain other (List.mem_cons_of_mem line among)
    have parts : join (line :: next :: rest) = line ++ '\n' :: join (next :: rest) := by
      rw [join, List.intercalate_cons_cons, List.append_assoc, List.singleton_append, join]
    rw [Text.suffix_singleton_iff] at last
    rw [parts, infix_break_line_iff noFeed, Text.suffix_singleton_iff, Text.suffix_singleton_iff,
      List.getLast?_append_cons, List.getLast?_cons]
    refine ⟨not_or.2 ⟨noReturn, inside⟩, fun final => ?_⟩
    rcases Option.getD_eq_iff.1 (Option.some.inj final) with ends | ⟨_, feed⟩
    · exact last ends
    · exact absurd feed (by decide)

/-- Reading the lines of a text loses nothing but carriage returns in front of a line feed
or at the end. -/
theorem join_ofText_eq_self_iff (text : Text) :
    join (ofText text) = text ↔ ¬['\r', '\n'] <:+: text ∧ ¬['\r'] <:+ text := by
  constructor
  · intro same
    rw [← same]
    exact not_return_join fun line => isPlain_of_mem_ofText
  · rintro ⟨inside, last⟩
    by_cases empty : text = []
    · rw [empty]
      rfl
    · have whole := join_delivered inside last
      rwa [delivered, if_neg empty] at whole

theorem join_append {front rest : List Line} (opened : front ≠ []) (some : rest ≠ []) :
    join (front ++ rest) = join front ++ '\n' :: join rest := by
  obtain ⟨init, last, rfl⟩ := (List.eq_nil_or_concat' front).resolve_left opened
  obtain ⟨next, rest, rfl⟩ := List.exists_cons_of_ne_nil some
  rw [List.append_assoc, List.singleton_append, join_append_cons, join_append_cons init last [],
    join, join, join, List.intercalate_cons_cons, List.intercalate_singleton]
  simp only [List.append_assoc, List.singleton_append]

end Lines

namespace Script

def header (l : Launcher) : Text := (install {} l none).text

theorem text_install_of_no_sections {s : Script} (bare : s.sections = []) (some : s.content ≠ [])
    (l : Launcher) : (s.install l none).text = header l ++ '\n' :: Lines.join s.content := by
  have opening : s.preamble = preamble {} := by rw [preamble, bare]; rfl
  have front : (install {} l none).lines =
      preamble {} ++ (l.lines false ++ [Marker.finish launcherName]) :=
    lines_install {} l none
  have whole : (s.install l none).lines = (install {} l none).lines ++ s.content := by
    rw [lines_install, front, opening]
    simp [tail]
  have opened : (install {} l none).lines ≠ [] := List.cons_ne_nil _ _
  rw [text, whole, Lines.join_append opened some]
  rfl

variable {canonical : Bool} {text : Text} (nonempty : text ≠ []) (foreign : ¬['#', '!'] <+: text)
include nonempty foreign

theorem afterDirective_of_foreign :
    afterDirective canonical (Lines.delivered text) = Lines.ofText text := by
  obtain ⟨first, others, pieces⟩ := List.exists_cons_of_ne_nil (split_ne_nil '\n' text)
  obtain ⟨behind, parts⟩ := Lines.exists_join_cons first others
  have whole : first ++ behind = text := by
    rw [← parts, ← pieces, Lines.join, intercalate_split]
  have other : isDirective canonical (Line.chomp first) = false := by
    rw [isDirective, Bool.and_eq_false_iff, Bool.eq_false_iff, Ne, List.isPrefixOf_iff_prefix]
    refine .inl fun opens => foreign ?_
    rw [← whole]
    exact (opens.trans (List.rdropWhile_prefix _ first)).trans (List.prefix_append _ _)
  rw [Lines.delivered, if_neg nonempty, Lines.ofText, pieces, List.map_cons, afterDirective, other]
  rfl

/-- A text without markers is all body, and its lines follow the header. -/
theorem text_install_of_ordinary
    (ordinary : ∀ line ∈ Lines.ofText text, Marker.start? line = none ∧ line ≠ notice)
    (l : Launcher) : ∃ s, parse canonical text.encode = .ok s ∧
      (s.install l none).text = header l ++ '\n' :: Lines.join (Lines.ofText text) := by
  have body : afterDirective canonical (Lines.delivered text) = Lines.ofText text :=
    afterDirective_of_foreign nonempty foreign
  have spans : Spans (afterDirective canonical (Lines.delivered text)) [] (Lines.ofText text) :=
    ⟨body, nofun, fun line member => (ordinary line member).1⟩
  have parsed := spans.parse_eq (Lines.ofBytes_encode_eq_delivered text)
  have noNotice : notice ∉ Lines.delivered text := by
    rw [Lines.delivered, if_neg nonempty]
    exact fun member => (ordinary notice member).2 rfl
  obtain ⟨sections, content⟩ := parts_of_parse parsed spans List.nodup_nil noNotice
  refine ⟨_, parsed, ?_⟩
  have some := Lines.ofText_ne_nil text
  rw [text_install_of_no_sections sections (by rwa [content]), content]

omit nonempty foreign in
/-- Whatever was read, no line is written with a carriage return at its end. -/
theorem not_return_text_install {s : Script} (parsed : parse canonical text.encode = .ok s)
    (l : Launcher) :
    ¬['\r', '\n'] <:+: (s.install l none).text ∧ ¬['\r'] <:+ (s.install l none).text := by
  have wellFormed := install_wellFormed (parse_wellFormed parsed) l none
  apply Lines.not_return_join
  intro line member
  rcases List.mem_cons.1 member with rfl | member
  · exact isPlain_directiveLine
  · exact wellFormed.plain line member

/-- The body is written as it was but for its breaks exactly if every carriage return at
the end of a line is the only one there and belongs to a break. -/
theorem text_install_eq_iff
    (ordinary : ∀ line ∈ split '\n' text.unifyBreaks, Marker.start? line = none ∧ line ≠ notice)
    (l : Launcher) :
    (∃ s, parse canonical text.encode = .ok s ∧
        (s.install l none).text = header l ++ '\n' :: text.unifyBreaks) ↔
      ¬['\r', '\r', '\n'] <:+: text ∧ ¬['\r'] <:+ text := by
  rw [← Text.infix_break_unifyBreaks_iff, Text.suffix_singleton_iff, ← Text.getLast?_unifyBreaks,
    ← Text.suffix_singleton_iff]
  constructor
  · rintro ⟨s, parsed, written⟩
    obtain ⟨inside, last⟩ := not_return_text_install parsed l
    have behind : text.unifyBreaks <:+ (s.install l none).text := by
      rw [written]
      exact (List.suffix_cons _ _).trans (List.suffix_append _ _)
    exact ⟨fun found => inside (found.trans behind.isInfix), fun found => last (found.trans behind)⟩
  · intro clear
    have same := (Lines.join_ofText_eq_self_iff text.unifyBreaks).2 clear
    rw [Lines.ofText_unifyBreaks] at same
    have lines : split '\n' text.unifyBreaks = Lines.ofText text := by
      rw [← same]
      exact split_intercalate (fun line member => (Lines.isPlain_of_mem_ofText member).noFeed)
        (Lines.ofText_ne_nil text)
    rw [lines] at ordinary
    obtain ⟨s, parsed, written⟩ := text_install_of_ordinary nonempty foreign ordinary l
    rw [same] at written
    exact ⟨s, parsed, written⟩

omit nonempty foreign

/-- Carriage returns within lines, and an end without a break. -/
theorem text_install_eq_inner_return :
    let text : Text := "x = 1\r\n\ry\r\r = 2\n\r\nz".toList
    ∃ s, parse true text.encode = .ok s ∧ (s.install .standard none).text =
      header .standard ++ "\nx = 1\n\ry\r\r = 2\n\nz".toList := by
  intro text
  exact (text_install_eq_iff (by decide) (by decide) (by decide +kernel) .standard).2
    ⟨by decide +kernel, by decide⟩

/-- Of two carriage returns before a line feed both are lost, and so is one at the end. -/
theorem text_install_lost_return :
    let text : Text := "print(1)\r\r\nprint(2)\r".toList
    let s : Script := { content := ["print(1)".toList, "print(2)".toList] }
    (∀ line ∈ split '\n' text.unifyBreaks, Marker.start? line = none ∧ line ≠ notice) ∧
      parse true text.encode = .ok s ∧
      (s.install .standard none).text = header .standard ++ "\nprint(1)\nprint(2)".toList ∧
      (s.install .standard none).text ≠ header .standard ++ '\n' :: text.unifyBreaks := by
  intro text s
  have parsed : parse true text.encode = .ok s := rfl
  refine ⟨by decide +kernel, parsed, text_install_of_no_sections rfl (List.cons_ne_nil _ _) _, ?_⟩
  intro same
  have last := (not_return_text_install parsed .standard).2
  rw [same] at last
  exact last ⟨header .standard ++ "\nprint(1)\r\nprint(2)".toList, by rw [List.append_assoc]; rfl⟩

end Script
end Bootscript
