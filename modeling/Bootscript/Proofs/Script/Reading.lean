import Bootscript.Proofs.Cursor
import Bootscript.Proofs.Marker
import Bootscript.Script.Parser

/-! What reading makes of a file, told from its lines alone: whole sections one after the
other, and behind the last of them the body or the reason why there is no script. -/
namespace Bootscript

structure Section.IsDelimited (s : Section) : Prop where
  name : Marker.isName s.name
  leading : ∀ line ∈ s.leading, Marker.start? line = none
  content : ∀ line ∈ s.content, Marker.finish? line = none

namespace Script

/-- What comes of the lines behind the last whole section, before which `passed` lines
stand. -/
inductive Ends (passed : Nat) : List (Option Line) → Except Malformed (List Line) → Prop where
  | body {body : List Line} (ordinary : ∀ line ∈ body, Marker.start? line = none) :
      Ends passed (body.map some) (.ok body)
  | undecodable {body : List Line} {after : List (Option Line)}
      (ordinary : ∀ line ∈ body, Marker.start? line = none) :
      Ends passed (body.map some ++ none :: after) (.error .undecodable)
  | unterminated {opened : Section} (delimited : opened.IsDelimited) :
      Ends passed ((opened.leading ++ opened.startMarker :: opened.content).map some)
        (.error (.unterminated opened.name))
  | undecodableInside {opened : Section} {after : List (Option Line)}
      (delimited : opened.IsDelimited) :
      Ends passed ((opened.leading ++ opened.startMarker :: opened.content).map some ++
        none :: after) (.error .undecodable)
  | mismatch {opened : Section} {found : Text} {after : List (Option Line)}
      (delimited : opened.IsDelimited) (valid : Marker.isName found)
      (differs : found ≠ opened.name) :
      Ends passed ((opened.leading ++ opened.startMarker :: opened.content).map some ++
        some (Marker.finish found) :: after)
        (.error (.mismatch (passed + opened.leading.length + opened.content.length + 2) 7
          opened.name found))

section Through

variable {α : Type} {find : Line → Option α} {skipped : List Line} {c : Cursor} {passed : Nat}
  {ahead : List (Option Line)}

theorem through_found {line : Line} {a : α} (others : ∀ line ∈ skipped, find line = none)
    (found : find line = some a)
    (stands : c.Stands passed [] (skipped.map some ++ some line :: ahead)) :
    ∃ c', through find c = .ok (some (a, passed + skipped.length + 1, skipped), c') ∧
      c'.Stands (passed + skipped.length + 1) [] ahead := by
  obtain ⟨c', sought, peeked, stands⟩ := stands.seek_found others found
  obtain ⟨lines, fetched⟩ := stands.fetch
  refine ⟨c'.fetch.2.fetchPeeked.2, ?_, fetched.fetchPeeked peeked⟩
  have number : c'.number = passed + skipped.length + 1 := by
    simp [stands.number_eq, peeked]
  rw [through, sought, ← number]
  simp only [List.nil_append] at lines
  rw [← lines]

theorem through_absent (others : ∀ line ∈ skipped, find line = none)
    (stands : c.Stands passed [] (skipped.map some)) :
    ∃ c', through find c = .ok (none, c') ∧ c'.Stands passed skipped [] := by
  obtain ⟨c', sought, stands⟩ := stands.seek_absent others
  exact ⟨c', by rw [through, sought], stands⟩

theorem through_undecodable (others : ∀ line ∈ skipped, find line = none)
    (stands : c.Stands passed [] (skipped.map some ++ none :: ahead)) :
    through find c = .error .undecodable := by
  rw [through, stands.seek_undecodable others]

end Through

section Sections

variable {c : Cursor} {passed : Nat} {ahead : List (Option Line)}

theorem start?_startMarker {s : Section} (delimited : s.IsDelimited) :
    Marker.start? s.startMarker = some s.name :=
  Marker.start?_eq_some_iff.2 ⟨delimited.name, rfl⟩

theorem finish?_endMarker {s : Section} (delimited : s.IsDelimited) :
    Marker.finish? s.endMarker = some (s.name, 7) :=
  Marker.finish?_eq_some_iff.2 ⟨delimited.name, rfl, rfl⟩

/-- Up to its end marker a section is read as it stands. -/
theorem nextSection_opened {s : Section} (delimited : s.IsDelimited)
    (stands : c.Stands passed []
      ((s.leading ++ s.startMarker :: s.content).map some ++ ahead)) :
    ∃ c', nextSection c = (do
        match ← through Marker.finish? c' with
        | (none, _) => .error (.unterminated s.name)
        | (some ((found, column), line, content), c) =>
          if found = s.name then return (some ⟨s.leading, s.name, content⟩, c)
          else .error (.mismatch line column s.name found)) ∧
      c'.Stands (passed + s.leading.length + 1) [] (s.content.map some ++ ahead) := by
  have parts : c.Stands passed []
      (s.leading.map some ++ some s.startMarker :: (s.content.map some ++ ahead)) := by
    simpa using stands
  obtain ⟨c', opened, stands⟩ := through_found delimited.leading (start?_startMarker delimited) parts
  exact ⟨c', by rw [nextSection, opened]; rfl, stands⟩

theorem nextSection_section {s : Section} (delimited : s.IsDelimited)
    (stands : c.Stands passed [] (s.lines.map some ++ ahead)) :
    ∃ c', nextSection c = .ok (some s, c') ∧
      c'.Stands (passed + s.lines.length) [] ahead := by
  have parts : c.Stands passed []
      ((s.leading ++ s.startMarker :: s.content).map some ++ some s.endMarker :: ahead) := by
    simpa [Section.lines] using stands
  obtain ⟨opened, next, stands⟩ := nextSection_opened delimited parts
  obtain ⟨c', closed, stands⟩ := through_found delimited.content (finish?_endMarker delimited) stands
  refine ⟨c', ?_, ?_⟩
  · rw [next, closed]
    simp [bind, Except.bind, pure, Except.pure]
  · have length : passed + s.leading.length + 1 + s.content.length + 1 =
        passed + s.lines.length := by
      simp [Section.lines]
      omega
    rwa [length] at stands

theorem nextSection_body {body : List Line}
    (ordinary : ∀ line ∈ body, Marker.start? line = none)
    (stands : c.Stands passed [] (body.map some)) :
    ∃ c', nextSection c = .ok (none, c') ∧ c'.fetchPeeked.1.lines = body := by
  obtain ⟨c', absent, stands⟩ := through_absent ordinary stands
  exact ⟨c', by rw [nextSection, absent]; rfl, stands.fetchPeeked_nil⟩

theorem nextSection_error {rest : List (Option Line)} {reason : Malformed}
    (ends : Ends passed rest (.error reason)) (stands : c.Stands passed [] rest) :
    nextSection c = .error reason := by
  cases ends with
  | undecodable ordinary => rw [nextSection, through_undecodable ordinary stands]; rfl
  | unterminated delimited =>
    rw [← List.append_nil (List.map ..)] at stands
    obtain ⟨c', next, stands⟩ := nextSection_opened delimited stands
    obtain ⟨_, absent, _⟩ := through_absent delimited.content (by simpa using stands)
    rw [next, absent]
    rfl
  | undecodableInside delimited =>
    obtain ⟨c', next, stands⟩ := nextSection_opened delimited stands
    rw [next, through_undecodable delimited.content stands]
    rfl
  | mismatch delimited valid differs =>
    obtain ⟨c', next, stands⟩ := nextSection_opened delimited stands
    obtain ⟨_, closed, _⟩ := through_found delimited.content
      (Marker.finish?_eq_some_iff.2 ⟨valid, rfl, rfl⟩) stands
    rw [next, closed]
    simp [bind, Except.bind, differs]
    omega

/-- Whole sections are read one after the other, as far as `fuel` reaches. -/
theorem sectionsAmong_sections {sections : List Section}
    (delimited : ∀ s ∈ sections, s.IsDelimited) (fuel : List (Option Line)) (read : List Section)
    (enough : ((sections.flatMap Section.lines).map some ++ ahead).length ≤ fuel.length)
    (stands : c.Stands passed [] ((sections.flatMap Section.lines).map some ++ ahead)) :
    ∃ c' fuel', ahead.length ≤ fuel'.length ∧
      c'.Stands (passed + (sections.flatMap Section.lines).length) [] ahead ∧
      sectionsAmong fuel read c =
        sectionsAmong fuel' (sections.foldl (fun read s => insertSection s read) read) c' := by
  induction sections generalizing c passed fuel read with
  | nil => exact ⟨c, fuel, by simpa using enough, by simpa using stands, rfl⟩
  | cons s sections ih =>
    have parts : c.Stands passed []
        (s.lines.map some ++ ((sections.flatMap Section.lines).map some ++ ahead)) := by
      simpa using stands
    obtain ⟨c', next, stands⟩ :=
      nextSection_section (delimited s (List.mem_cons_self ..)) parts
    cases fuel with
    | nil => simp [Section.lines] at enough
    | cons _ fuel =>
      have shorter : ((sections.flatMap Section.lines).map some ++ ahead).length ≤ fuel.length := by
        simp [Section.lines] at enough ⊢
        omega
      obtain ⟨c'', fuel', enough, stands, same⟩ := ih
        (fun other member => delimited other (List.mem_cons_of_mem _ member)) fuel
        (insertSection s read) shorter stands
      refine ⟨c'', fuel', enough, ?_, ?_⟩
      · simpa [Nat.add_assoc] using stands
      · rw [sectionsAmong, next]
        exact same

end Sections

inductive IsOpening (canonical : Bool) : List Line → List (Option Line) → Prop where
  | directive {line : Line} {rest : List (Option Line)} (recognized : isDirective canonical line) :
      IsOpening canonical [line] rest
  | missing {rest : List (Option Line)}
      (other : ∀ line, rest.head? = some (some line) → isDirective canonical line = false) :
      IsOpening canonical [] rest

structure Reading (canonical : Bool) (lines : List (Option Line)) where
  opening : List Line
  sections : List Section
  rest : List (Option Line)
  outcome : Except Malformed (List Line)
  parts : lines = opening.map some ++ ((sections.flatMap Section.lines).map some ++ rest)
  opens : IsOpening canonical opening ((sections.flatMap Section.lines).map some ++ rest)
  delimited : ∀ s ∈ sections, s.IsDelimited
  ends : Ends (opening.length + (sections.flatMap Section.lines).length) rest outcome

def assemble (directive : Bool) (sections : List Section) (body : List Line) : Script where
  directive := directive
  sections := sections.foldl (fun read s => insertSection s read) []
  content := (splitNotice body).1
  embedded := (splitNotice body).2

theorem takeDirective_opening {canonical : Bool} {data : Bytes} {opening : List Line}
    {rest : List (Option Line)} (lines : Lines.ofBytes data = opening.map some ++ rest)
    (opens : IsOpening canonical opening rest)
    (decodable : (Lines.ofBytes data).head? ≠ some none) :
    ∃ c', takeDirective canonical (Cursor.ofBytes data) = .ok (!opening.isEmpty, c') ∧
      c'.Stands opening.length [] rest := by
  have stands := Cursor.stands_ofBytes data
  rw [lines] at stands decodable
  cases opens with
  | directive recognized =>
    obtain ⟨c', peek, peeked, stands⟩ := stands.peek_line
    exact ⟨_, by rw [takeDirective, peek]; simp [recognized], stands.fetchPeeked peeked⟩
  | missing other =>
    match rest with
    | [] =>
      obtain ⟨c', peek, stands⟩ := stands.peek_nil
      exact ⟨c', by rw [takeDirective, peek]; rfl, stands⟩
    | none :: rest => exact absurd rfl decodable
    | some line :: rest =>
      obtain ⟨c', peek, peeked, stands⟩ := stands.peek_line
      exact ⟨_, by rw [takeDirective, peek]; simp [other line rfl], stands⟩

theorem parse_bind (canonical : Bool) (data : Bytes) :
    parse canonical data = (takeDirective canonical (Cursor.ofBytes data)).bind fun opened =>
      (sectionsAmong opened.2.ahead [] opened.2).map fun read =>
        { directive := opened.1, sections := read.1,
          content := (splitNotice read.2.fetchPeeked.1.lines).1,
          embedded := (splitNotice read.2.fetchPeeked.1.lines).2 } := by
  rw [parse]
  cases takeDirective canonical (Cursor.ofBytes data) with
  | error reason => rfl
  | ok opened =>
    simp only [bind, Except.bind]
    cases sectionsAmong opened.2.ahead [] opened.2 <;> rfl

theorem Ends.outcome_eq_undecodable {passed : Nat} {after : List (Option Line)}
    {outcome : Except Malformed (List Line)} (ends : Ends passed (none :: after) outcome) :
    outcome = .error .undecodable := by
  generalize same : none :: after = rest at ends
  cases ends with
  | @body body _ => cases body <;> cases same
  | undecodable _ => rfl
  | @unterminated opened _ => cases h : opened.leading <;> simp [h] at same
  | undecodableInside _ => rfl
  | @mismatch opened _ _ _ => cases h : opened.leading <;> simp [h] at same

theorem sectionsAmong_error {fuel : List (Option Line)} {read : List Section} {c : Cursor}
    {passed : Nat} {rest : List (Option Line)} {reason : Malformed}
    (ends : Ends passed rest (.error reason)) (enough : rest.length ≤ fuel.length)
    (stands : c.Stands passed [] rest) : sectionsAmong fuel read c = .error reason := by
  have error := nextSection_error ends stands
  have nonempty : rest ≠ [] := by cases ends <;> simp
  cases fuel with
  | nil => exact absurd (List.length_eq_zero_iff.1 (Nat.le_zero.1 enough)) nonempty
  | cons _ fuel =>
    rw [sectionsAmong, error]
    rfl

theorem sectionsAmong_body {fuel : List (Option Line)} {read : List Section} {c : Cursor}
    {passed : Nat} {body : List Line} (ordinary : ∀ line ∈ body, Marker.start? line = none)
    (enough : body.length ≤ fuel.length) (stands : c.Stands passed [] (body.map some)) :
    ∃ c', sectionsAmong fuel read c = .ok (read, c') ∧ c'.fetchPeeked.1.lines = body := by
  cases fuel with
  | nil =>
    obtain rfl := List.length_eq_zero_iff.1 (Nat.le_zero.1 enough)
    exact ⟨c, rfl, stands.fetchPeeked_nil⟩
  | cons _ fuel =>
    obtain ⟨c', next, lines⟩ := nextSection_body ordinary stands
    exact ⟨c', by rw [sectionsAmong, next]; rfl, lines⟩

theorem takeDirective_undecodable {canonical : Bool} {data : Bytes} {after : List (Option Line)}
    (first : Lines.ofBytes data = none :: after) :
    takeDirective canonical (Cursor.ofBytes data) = .error .undecodable := by
  have stands := Cursor.stands_ofBytes data
  rw [first] at stands
  obtain ⟨_, peek, _⟩ := stands.peek_undecodable
  rw [takeDirective, peek]

/-- A line that is not UTF-8 is neither a directive nor part of a section. -/
theorem rest_eq_of_undecodable {opening : List Line} {sections : List Section}
    {rest after : List (Option Line)}
    (parts : none :: after =
      opening.map some ++ ((sections.flatMap Section.lines).map some ++ rest)) :
    rest = none :: after := by
  obtain rfl : opening = [] := by
    cases opening with
    | nil => rfl
    | cons line opening => cases parts
  obtain rfl : sections = [] := by
    cases sections with
    | nil => rfl
    | cons s sections => cases leading : s.leading <;> simp [Section.lines, leading] at parts
  exact parts.symm

/-- A file is read as its parts say. -/
theorem parse_eq {canonical : Bool} {data : Bytes}
    (reading : Reading canonical (Lines.ofBytes data)) :
    parse canonical data =
      reading.outcome.map (assemble (!reading.opening.isEmpty) reading.sections) := by
  obtain ⟨opening, sections, rest, outcome, parts, opens, delimited, ends⟩ := reading
  simp only
  rw [parse_bind]
  by_cases decodable : (Lines.ofBytes data).head? = some none
  · obtain ⟨after, first⟩ := List.head?_eq_some_iff.1 decodable
    obtain rfl := rest_eq_of_undecodable (first ▸ parts)
    rw [takeDirective_undecodable first, ends.outcome_eq_undecodable]
    rfl
  obtain ⟨c, directive, stands⟩ := takeDirective_opening parts opens decodable
  have enough := Nat.le_of_eq (congrArg List.length stands.ahead_eq.symm)
  obtain ⟨c', fuel, enough, stands, same⟩ :=
    sectionsAmong_sections delimited c.ahead [] enough stands
  rw [directive]
  simp only [Except.bind, same]
  cases outcome with
  | error reason =>
    rw [sectionsAmong_error ends enough stands]
    rfl
  | ok body =>
    cases ends with
    | body ordinary =>
      obtain ⟨c'', read, lines⟩ := sectionsAmong_body ordinary (by simpa using enough) stands
      rw [read]
      simp [Except.map, assemble, lines]

theorem exists_skipped {α : Type} (find : Line → Option α) (lines : List (Option Line)) :
    ∃ skipped : List Line, (∀ line ∈ skipped, find line = none) ∧
      (lines = skipped.map some ∨ (∃ after, lines = skipped.map some ++ none :: after) ∨
        ∃ line a after, find line = some a ∧ lines = skipped.map some ++ some line :: after) := by
  induction lines with
  | nil => exact ⟨[], nofun, .inl rfl⟩
  | cons first lines ih =>
    cases first with
    | none => exact ⟨[], nofun, .inr (.inl ⟨lines, rfl⟩)⟩
    | some line =>
      cases found : find line with
      | some a => exact ⟨[], nofun, .inr (.inr ⟨line, a, lines, found, rfl⟩)⟩
      | none =>
        obtain ⟨skipped, others, ends⟩ := ih
        refine ⟨line :: skipped, by simpa [found] using others, ?_⟩
        rcases ends with rfl | ⟨after, rfl⟩ | ⟨other, a, after, found, rfl⟩
        · exact .inl rfl
        · exact .inr (.inl ⟨after, rfl⟩)
        · exact .inr (.inr ⟨other, a, after, found, rfl⟩)

theorem exists_sections (lines : List (Option Line)) (passed : Nat) :
    ∃ (sections : List Section) (rest : List (Option Line))
      (outcome : Except Malformed (List Line)),
      lines = (sections.flatMap Section.lines).map some ++ rest ∧
      (∀ s ∈ sections, s.IsDelimited) ∧
      Ends (passed + (sections.flatMap Section.lines).length) rest outcome := by
  obtain ⟨leading, ordinary, ends⟩ := exists_skipped Marker.start? lines
  rcases ends with rfl | ⟨after, rfl⟩ | ⟨line, name, after, opened, rfl⟩
  · exact ⟨[], _, _, rfl, nofun, .body ordinary⟩
  · exact ⟨[], _, _, rfl, nofun, .undecodable ordinary⟩
  obtain ⟨valid, rfl⟩ := Marker.start?_eq_some_iff.1 opened
  obtain ⟨content, inside, ends⟩ := exists_skipped Marker.finish? after
  have delimited : (⟨leading, name, content⟩ : Section).IsDelimited := ⟨valid, ordinary, inside⟩
  have parts (after : List (Option Line)) :
      leading.map some ++ some (Marker.start name) :: (content.map some ++ after) =
        (leading ++ Marker.start name :: content).map some ++ after := by
    simp
  rcases ends with rfl | ⟨after, rfl⟩ | ⟨line, ⟨found, column⟩, after, closed, rfl⟩
  · exact ⟨[], _, _, by simp [Section.startMarker], nofun, .unterminated delimited⟩
  · exact ⟨[], _, _, parts _, nofun, .undecodableInside delimited⟩
  obtain ⟨foundValid, _, rfl⟩ := Marker.finish?_eq_some_iff.1 closed
  by_cases same : found = name
  · subst same
    obtain ⟨sections, rest, outcome, rfl, others, ends⟩ :=
      exists_sections after (passed + (⟨leading, found, content⟩ : Section).lines.length)
    refine ⟨⟨leading, found, content⟩ :: sections, rest, outcome, ?_, ?_, ?_⟩
    · simp [Section.lines, Section.startMarker, Section.endMarker]
    · simpa using ⟨delimited, others⟩
    · simpa [Nat.add_assoc] using ends
  · exact ⟨[], _, _, parts _, nofun, .mismatch delimited foundValid same⟩
termination_by lines.length

/-- Every file has parts. -/
theorem nonempty_reading (canonical : Bool) (lines : List (Option Line)) :
    Nonempty (Reading canonical lines) := by
  by_cases directive : ∃ line rest, lines = some line :: rest ∧ isDirective canonical line
  · obtain ⟨line, after, rfl, recognized⟩ := directive
    obtain ⟨sections, rest, outcome, rfl, delimited, ends⟩ := exists_sections after 1
    exact ⟨⟨[line], sections, rest, outcome, rfl, .directive recognized, delimited, ends⟩⟩
  · obtain ⟨sections, rest, outcome, rfl, delimited, ends⟩ := exists_sections lines 0
    refine ⟨⟨[], sections, rest, outcome, rfl, .missing fun line first => ?_, delimited, ends⟩⟩
    by_contra recognized
    obtain ⟨after, split⟩ := List.head?_eq_some_iff.1 first
    exact directive ⟨line, after, split, by simpa using recognized⟩

end Script
end Bootscript
