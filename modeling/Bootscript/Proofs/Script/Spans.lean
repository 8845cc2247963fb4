import Bootscript.Proofs.Script.WellFormed

/-! The lines of a file fall into spans, one for each section, and a rest. What is read
and written again is these lines, less the spans of sections that came again later. -/
namespace Bootscript.Script

def afterDirective (canonical : Bool) : List Line → List Line
  | [] => []
  | first :: rest => if isDirective canonical first then rest else first :: rest

structure Spans (lines : List Line) (sections : List Section) (rest : List Line) : Prop where
  parts : lines = sections.flatMap Section.lines ++ rest
  delimited : ∀ s ∈ sections, s.IsDelimited
  ordinary : ∀ line ∈ rest, Marker.start? line = none

section Directive

theorem exists_isOpening (canonical : Bool) (lines : List Line) :
    ∃ opening, lines = opening ++ afterDirective canonical lines ∧
      (!opening.isEmpty) = lines.head?.any (isDirective canonical) ∧
      IsOpening canonical opening ((afterDirective canonical lines).map some) := by
  cases lines with
  | nil => exact ⟨[], rfl, rfl, .missing nofun⟩
  | cons first rest =>
    by_cases recognized : isDirective canonical first
    · refine ⟨[first], ?_, ?_, .directive recognized⟩
      · simp [afterDirective, recognized]
      · simp [recognized]
    · refine ⟨[], ?_, ?_, .missing ?_⟩
      · simp [afterDirective, recognized]
      · simp [recognized]
      · simp [afterDirective, recognized]

theorem afterDirective_of_isOpening {canonical : Bool} {opening rest : List Line}
    (opens : IsOpening canonical opening (rest.map some)) :
    afterDirective canonical (opening ++ rest) = rest := by
  cases opens with
  | directive recognized => exact if_pos recognized
  | missing other =>
    cases rest with
    | nil => rfl
    | cons first rest => exact if_neg (by simp [other first rfl])

end Directive

section Spans

variable {canonical : Bool} {data : Bytes} {lines : List Line}

/-- Lines that fall into spans are read as their spans say. -/
theorem Spans.parse_eq {sections : List Section} {rest : List Line}
    (read : Lines.ofBytes data = lines.map some)
    (spans : Spans (afterDirective canonical lines) sections rest) :
    parse canonical data =
      .ok (assemble (lines.head?.any (isDirective canonical)) sections rest) := by
  obtain ⟨opening, whole, recognized, opens⟩ := exists_isOpening canonical lines
  have apart : (afterDirective canonical lines).map some =
      (sections.flatMap Section.lines).map some ++ rest.map some := by
    rw [spans.parts, List.map_append]
  have parts : Lines.ofBytes data =
      opening.map some ++ ((sections.flatMap Section.lines).map some ++ rest.map some) := by
    rw [read, ← apart, ← List.map_append, ← whole]
  rw [apart] at opens
  rw [Script.parse_eq ⟨_, _, _, _, parts, opens, spans.delimited, .body spans.ordinary⟩, ← recognized]
  rfl

theorem exists_spans {s : Script} (read : Lines.ofBytes data = lines.map some)
    (parsed : parse canonical data = .ok s) :
    ∃ sections rest, Spans (afterDirective canonical lines) sections rest := by
  obtain ⟨reading⟩ := nonempty_reading canonical (Lines.ofBytes data)
  rw [Script.parse_eq reading] at parsed
  obtain ⟨opening, sections, rest, outcome, parts, opens, delimited, ends⟩ := reading
  cases ends with
  | @body body ordinary =>
    have whole : lines = opening ++ (sections.flatMap Section.lines ++ body) := by
      rw [read, ← List.map_append, ← List.map_append] at parts
      exact (List.map_inj_right fun _ _ => Option.some.inj).1 parts
    refine ⟨sections, body, ?_, delimited, ordinary⟩
    rw [whole]
    apply afterDirective_of_isOpening
    simpa using opens
  | _ => cases parsed

end Spans

section Repeated

/-- Of the sections of one name the last, in the place of the first. -/
def lastOfNames (sections : List Section) : List Section :=
  (sections.map (·.name)).eraseDups.filterMap fun name => sections.findRev? (·.name = name)

theorem find?_insertSection (added : Section) (sections : List Section) (name : Text) :
    (insertSection added sections).find? (·.name = name) =
      if added.name = name then some added else sections.find? (·.name = name) := by
  induction sections with
  | nil => by_cases same : added.name = name <;> simp [insertSection, same]
  | cons s sections ih =>
    rw [insertSection]
    by_cases replaced : s.name = added.name
    · by_cases same : added.name = name <;> simp [replaced, same]
    · by_cases same : s.name = name
      · have other : added.name ≠ name := fun eq => replaced (same.trans eq.symm)
        have stays (rest : List Section) : (s :: rest).find? (·.name = name) = some s := by
          simp [same]
        rw [if_neg replaced, if_neg other, stays, stays]
      · simp [replaced, same, ih]

variable (sections : List Section)

theorem names_foldl_insertSection :
    (sections.foldl (fun read s => insertSection s read) []).map (·.name) =
      (sections.map (·.name)).eraseDups := by
  induction sections using List.reverseRecOn with
  | nil => rfl
  | append_singleton sections last ih =>
    rw [List.foldl_append, List.foldl_cons, List.foldl_nil, List.map_append, List.map_singleton,
      List.eraseDups_append, ← ih]
    have listed : last.name ∈ (sections.foldl (fun read s => insertSection s read) []).map (·.name) ↔
        last.name ∈ sections.map (·.name) := by
      rw [ih, List.mem_eraseDups]
    by_cases old : last.name ∈ sections.map (·.name)
    · have none : [last.name].removeAll (sections.map (·.name)) = [] := by
        simpa [List.removeAll] using old
      rw [names_insertSection_of_mem (listed.2 old), none, List.eraseDups_nil, List.append_nil]
    · have new : [last.name].removeAll (sections.map (·.name)) = [last.name] := by
        simpa [List.removeAll] using old
      rw [insertSection_of_not_mem (mt listed.1 old), new, List.map_append]
      rfl

theorem find?_foldl_insertSection (name : Text) :
    (sections.foldl (fun read s => insertSection s read) []).find? (·.name = name) =
      sections.findRev? (·.name = name) := by
  rw [List.findRev?_eq_find?_reverse]
  induction sections using List.reverseRecOn with
  | nil => rfl
  | append_singleton sections last ih =>
    rw [List.foldl_append, List.foldl_cons, List.foldl_nil, find?_insertSection, ih,
      List.reverse_append, List.reverse_singleton, List.singleton_append, List.find?_cons]
    by_cases same : last.name = name <;> simp [same]

variable {sections}

/-- Sections of different names are found by their names. -/
theorem filterMap_find?_names (distinct : (sections.map (·.name)).Nodup) :
    (sections.map (·.name)).filterMap (fun name => sections.find? (·.name = name)) = sections := by
  induction sections with
  | nil => rfl
  | cons s sections ih =>
    obtain ⟨fresh, distinct⟩ := List.nodup_cons.1 distinct
    have first : (s :: sections).find? (·.name = s.name) = some s :=
      List.find?_cons_of_pos (decide_eq_true rfl)
    have later : ∀ name ∈ sections.map (·.name),
        (s :: sections).find? (·.name = name) = sections.find? (·.name = name) := by
      intro name member
      rw [List.find?_cons_of_neg]
      rw [decide_eq_true_eq]
      rintro rfl
      exact fresh member
    simp only [List.map_cons, List.filterMap_cons, first]
    rw [List.filterMap_congr later, ih distinct]

/-- Sections that are read one after the other leave the last of each name. -/
theorem foldl_insertSection_eq_lastOfNames (sections : List Section) :
    sections.foldl (fun read s => insertSection s read) [] = lastOfNames sections := by
  have found := filterMap_find?_names (foldl_insertSection sections [] List.nodup_nil).1
  rw [names_foldl_insertSection] at found
  rw [← found, lastOfNames]
  apply List.filterMap_congr
  intro name _
  exact find?_foldl_insertSection sections name

theorem lastOfNames_of_distinct (distinct : (sections.map (·.name)).Nodup) :
    lastOfNames sections = sections := by
  rw [← foldl_insertSection_eq_lastOfNames]
  exact foldl_insertSection_of_distinct sections [] distinct

end Repeated

section Text

theorem text_assemble (directive : Bool) (sections : List Section) (rest : List Line) :
    (assemble directive sections rest).text =
      Lines.join (directiveLine :: ((lastOfNames sections).flatMap Section.lines ++ rest)) := by
  rw [text, lines, body_eq, assemble, append_splitNotice, foldl_insertSection_eq_lastOfNames]

/-- Reading a text and writing it again loses no line but those of sections whose names
come again, and without such sections and without carriage returns it changes nothing. -/
theorem text_of_parse {canonical : Bool} {text : Text} {s : Script}
    (parsed : parse canonical text.encode = .ok s) :
    let lines := afterDirective canonical (Lines.delivered text)
    (∃ sections rest, Spans lines sections rest) ∧
    ∀ sections rest, Spans lines sections rest →
      s.text = Lines.join (directiveLine :: ((lastOfNames sections).flatMap Section.lines ++ rest)) ∧
      ((sections.map (·.name)).Nodup →
        s.text = Lines.join (directiveLine :: lines) ∧
        ((Lines.delivered text).head? = some directiveLine → ¬['\r', '\n'] <:+: text →
          ¬['\r'] <:+ text → s.text = text)) := by
  intro lines
  have read := Lines.ofBytes_encode_eq_delivered text
  refine ⟨exists_spans read parsed, fun sections rest spans => ?_⟩
  have assembled := Except.ok.inj (parsed.symm.trans (spans.parse_eq read))
  have whole : s.text =
      Lines.join (directiveLine :: ((lastOfNames sections).flatMap Section.lines ++ rest)) := by
    rw [assembled, text_assemble]
  refine ⟨whole, fun distinct => ?_⟩
  have same : s.text = Lines.join (directiveLine :: lines) := by
    rw [whole, lastOfNames_of_distinct distinct, spans.parts]
  refine ⟨same, fun opened inside last => ?_⟩
  obtain ⟨others, delivered⟩ := List.head?_eq_some_iff.1 opened
  have behind : lines = others := by
    change afterDirective canonical (Lines.delivered text) = others
    rw [delivered]
    exact if_pos (isDirective_directiveLine canonical)
  rw [same, behind, ← delivered]
  exact Lines.join_delivered inside last

/-- A start marker in a section, a stray end marker and embedded lines stay where they were. -/
theorem text_of_parse_nested :
    let text : Text :=
      "#!/bin/sh -e\n\n# a -->\n# b -->\n# <-- a\n# <-- b\n# PySH: Module embedded below\nx".toList
    let part : Section := ⟨[[]], ['a'], ["# b -->".toList]⟩
    let s : Script := ⟨true, [part], ["# <-- b".toList], some [['x']]⟩
    parse true text.encode = .ok s ∧ s.text = text := by
  intro text part s
  have spans : Spans (afterDirective true (Lines.delivered text)) [part]
      ["# <-- b".toList, notice, ['x']] := by
    refine ⟨rfl, ?_, by decide⟩
    intro only member
    obtain rfl := List.mem_singleton.1 member
    exact ⟨by decide, by decide, by decide⟩
  have parsed : parse true text.encode = .ok s :=
    spans.parse_eq (Lines.ofBytes_encode_eq_delivered text)
  obtain ⟨_, same⟩ := (text_of_parse parsed).2 _ _ spans
  exact ⟨parsed, (same (by decide)).2 rfl (by decide +kernel) (by decide)⟩

example :
    let part (name : Text) (line : Line) : Section := ⟨[], name, [line]⟩
    lastOfNames [part ['a'] ['1'], part ['b'] ['2'], part ['a'] ['3']] =
      [part ['a'] ['3'], part ['b'] ['2']] := by decide

end Text
end Bootscript.Script
