import Bootscript.Proofs.Script.Reading
import Mathlib.Data.List.Nodup

/-! Scripts that can be told from their own lines again. Reading a file gives such a
script, and a file that such a script was written to is read as the script. -/
namespace Bootscript.Script

def tail : Option (List Line) → List Line
  | none => []
  | some lines => notice :: lines

theorem body_eq (s : Script) :
    s.body = s.sections.flatMap Section.lines ++ (s.content ++ tail s.embedded) := by
  rw [body, List.append_assoc]
  cases s.embedded <;> rfl

structure WellFormed (s : Script) : Prop where
  delimited : ∀ part ∈ s.sections, part.IsDelimited
  distinct : (s.sections.map (·.name)).Nodup
  noNotice : notice ∉ s.content
  ordinary : ∀ line ∈ s.content ++ tail s.embedded, Marker.start? line = none
  plain : ∀ line ∈ s.body, line.IsPlain

section Sections

theorem mem_of_mem_insertSection {added part : Section} {sections : List Section}
    (member : part ∈ insertSection added sections) : part = added ∨ part ∈ sections := by
  induction sections with
  | nil => exact .inl (List.mem_singleton.1 member)
  | cons s sections ih =>
    rw [insertSection] at member
    split at member
    · rcases List.mem_cons.1 member with rfl | later
      · exact .inl rfl
      · exact .inr (List.mem_cons_of_mem _ later)
    · rcases List.mem_cons.1 member with rfl | later
      · exact .inr (List.mem_cons_self ..)
      · exact (ih later).imp_right (List.mem_cons_of_mem _)

theorem insertSection_of_not_mem {added : Section} {sections : List Section}
    (new : added.name ∉ sections.map (·.name)) :
    insertSection added sections = sections ++ [added] := by
  induction sections with
  | nil => rfl
  | cons s sections ih =>
    rw [List.map_cons, List.mem_cons, not_or] at new
    rw [insertSection, if_neg (Ne.symm new.1), ih new.2, List.cons_append]

theorem names_insertSection_of_mem {added : Section} {sections : List Section}
    (old : added.name ∈ sections.map (·.name)) :
    (insertSection added sections).map (·.name) = sections.map (·.name) := by
  induction sections with
  | nil => cases old
  | cons s sections ih =>
    rw [insertSection]
    by_cases same : s.name = added.name
    · simp [same]
    · have later := (List.mem_cons.1 old).resolve_left (Ne.symm same)
      rw [if_neg same, List.map_cons, ih later, List.map_cons]

theorem nodup_insertSection {sections : List Section} (added : Section)
    (distinct : (sections.map (·.name)).Nodup) :
    ((insertSection added sections).map (·.name)).Nodup := by
  by_cases old : added.name ∈ sections.map (·.name)
  · rwa [names_insertSection_of_mem old]
  · rw [insertSection_of_not_mem old, List.map_append, List.map_singleton, ← List.concat_eq_append]
    exact List.Nodup.concat old distinct

/-- The sections that are left of those read one after the other. -/
theorem foldl_insertSection (sections read : List Section)
    (distinct : (read.map (·.name)).Nodup) :
    ((sections.foldl (fun read s => insertSection s read) read).map (·.name)).Nodup ∧
      ∀ part ∈ sections.foldl (fun read s => insertSection s read) read,
        part ∈ sections ∨ part ∈ read := by
  induction sections generalizing read with
  | nil => exact ⟨distinct, fun part member => .inr member⟩
  | cons s sections ih =>
    obtain ⟨nodup, subset⟩ := ih (insertSection s read) (nodup_insertSection s distinct)
    refine ⟨nodup, fun part member => ?_⟩
    rcases subset part member with later | member
    · exact .inl (List.mem_cons_of_mem _ later)
    · rcases mem_of_mem_insertSection member with rfl | old
      · exact .inl (List.mem_cons_self ..)
      · exact .inr old

theorem foldl_insertSection_of_distinct (sections read : List Section)
    (distinct : ((read ++ sections).map (·.name)).Nodup) :
    sections.foldl (fun read s => insertSection s read) read = read ++ sections := by
  induction sections generalizing read with
  | nil => exact (List.append_nil read).symm
  | cons s sections ih =>
    have new : s.name ∉ read.map (·.name) := by
      rw [List.map_append, List.map_cons, List.nodup_append] at distinct
      intro old
      exact distinct.2.2 _ old _ (List.mem_cons_self ..) rfl
    rw [List.foldl_cons, insertSection_of_not_mem new, ih, List.append_assoc,
      List.singleton_append]
    rwa [List.append_assoc, List.singleton_append]

end Sections

section Notice

theorem append_splitNotice (lines : List Line) :
    (splitNotice lines).1 ++ tail (splitNotice lines).2 = lines := by
  have parted := List.takeWhile_append_dropWhile (p := (· ≠ notice)) (l := lines)
  rw [splitNotice]
  split
  · exact List.append_nil lines
  · rename_i first embedded rest
    have isNotice : first = notice := by
      have stopped := List.head?_dropWhile_not (· ≠ notice) lines
      rw [rest] at stopped
      simpa using stopped
    rw [rest, isNotice] at parted
    exact parted

theorem not_mem_splitNotice (lines : List Line) : notice ∉ (splitNotice lines).1 := by
  rw [splitNotice]
  split
  · rename_i none
    intro member
    have := List.dropWhile_eq_nil_iff.1 none notice member
    simp at this
  · intro member
    simpa using List.mem_takeWhile_imp member

theorem splitNotice_append {content : List Line} (noNotice : notice ∉ content)
    (embedded : Option (List Line)) :
    splitNotice (content ++ tail embedded) = (content, embedded) := by
  have others : ∀ line ∈ content, decide (line ≠ notice) := by
    intro line member
    exact decide_eq_true (ne_of_mem_of_not_mem member noNotice)
  cases embedded with
  | none =>
    rw [tail, List.append_nil, splitNotice, List.dropWhile_eq_nil_iff.2 others]
  | some lines =>
    rw [tail, splitNotice, List.dropWhile_append_of_pos others, List.takeWhile_append_of_pos others]
    simp

end Notice

/-- What was read is made of the lines of the file. -/
theorem exists_of_parse {canonical : Bool} {data : Bytes} {s : Script}
    (parsed : parse canonical data = .ok s) :
    ∃ (opening : List Line) (sections : List Section) (body : List Line),
      Lines.ofBytes data = (opening ++ (sections.flatMap Section.lines ++ body)).map some ∧
      (∀ part ∈ sections, part.IsDelimited) ∧ (∀ line ∈ body, Marker.start? line = none) ∧
      s = assemble (!opening.isEmpty) sections body := by
  obtain ⟨reading⟩ := nonempty_reading canonical (Lines.ofBytes data)
  rw [parse_eq reading] at parsed
  obtain ⟨opening, sections, rest, outcome, parts, opens, delimited, ends⟩ := reading
  cases ends with
  | @body body ordinary =>
    exact ⟨opening, sections, body, by simpa using parts, delimited, ordinary,
      (Except.ok.inj parsed).symm⟩
  | _ => cases parsed

theorem parse_wellFormed {canonical : Bool} {data : Bytes} {s : Script}
    (parsed : parse canonical data = .ok s) : s.WellFormed := by
  obtain ⟨opening, sections, body, lines, delimited, ordinary, rfl⟩ := exists_of_parse parsed
  obtain ⟨nodup, subset⟩ := foldl_insertSection sections [] List.nodup_nil
  have read : ∀ part ∈ (assemble (!opening.isEmpty) sections body).sections, part ∈ sections :=
    fun part member => (subset part member).resolve_right List.not_mem_nil
  have plain : ∀ line ∈ sections.flatMap Section.lines ++ body, line.IsPlain := by
    intro line member
    have read : some line ∈ Lines.ofBytes data := by
      rw [lines]
      exact List.mem_map_of_mem (List.mem_append_right _ member)
    exact Lines.isPlain_of_mem_ofBytes read
  refine ⟨fun part member => delimited part (read part member), nodup, not_mem_splitNotice body,
    ?_, ?_⟩
  · rwa [assemble, append_splitNotice]
  · intro line member
    rw [body_eq, List.mem_append] at member
    apply plain
    rcases member with inside | behind
    · obtain ⟨part, among, inside⟩ := List.mem_flatMap.1 inside
      exact List.mem_append_left _ (List.mem_flatMap.2 ⟨part, read part among, inside⟩)
    · rw [assemble, append_splitNotice] at behind
      exact List.mem_append_right _ behind

theorem isPlain_directiveLine : directiveLine.IsPlain := ⟨by decide, by decide⟩

theorem isDirective_directiveLine (canonical : Bool) : isDirective canonical directiveLine := by
  cases canonical <;> rfl

/-- A written script is read back, and it always has the directive. -/
theorem parse_bytes {s : Script} (wellFormed : s.WellFormed) (canonical : Bool) :
    parse canonical s.bytes = .ok { s with directive := true } := by
  have plain : ∀ line ∈ s.lines, line.IsPlain := by
    intro line member
    rcases List.mem_cons.1 member with rfl | member
    · exact isPlain_directiveLine
    · exact wellFormed.plain line member
  have nonempty : Lines.join s.lines ≠ [] := by
    obtain ⟨rest, opened⟩ := Lines.exists_join_cons directiveLine s.body
    rw [lines, opened]
    exact List.append_ne_nil_of_left_ne_nil (by decide) rest
  have parts : Lines.ofBytes s.bytes = [directiveLine].map some ++
      ((s.sections.flatMap Section.lines).map some ++ (s.content ++ tail s.embedded).map some) := by
    rw [bytes, text, Lines.ofBytes_encode_join plain nonempty, lines, body_eq]
    simp
  rw [parse_eq ⟨_, _, _, _, parts, .directive (isDirective_directiveLine canonical),
      wellFormed.delimited, .body wellFormed.ordinary⟩,
    Except.map, assemble, splitNotice_append wellFormed.noNotice,
    foldl_insertSection_of_distinct _ [] wellFormed.distinct]
  rfl

end Bootscript.Script
