import Bootscript.Proofs.Script.Install

/-! Which scripts are read back from their own text. Sections of any name and with any
lines may be put into a script, but only some scripts come back as they were. -/
namespace Bootscript.Script

/-- A script made from nothing or from a file by putting in sections and launchers. -/
inductive Built : Script → Prop where
  | empty : Built {}
  | read {canonical : Bool} {data : Bytes} {s : Script} (parsed : parse canonical data = .ok s) :
      Built s
  | insert {s : Script} (built : Built s) (added : Section) : Built (s.insert added)
  | install {s : Script} (built : Built s) (l : Launcher) (archive : Option Bytes) :
      Built (s.install l (archive.map Payload.ofArchive))

/-- No two sections of a script have one name, whatever was put into it. -/
theorem Built.distinct {s : Script} (built : Built s) : (s.sections.map (·.name)).Nodup := by
  induction built with
  | empty => exact List.nodup_nil
  | read parsed => exact (parse_wellFormed parsed).distinct
  | insert _ added ih => exact nodup_insertSection added ih
  | install _ l archive ih => exact nodup_names_install ih l _

def stored (s : Script) : List Line :=
  s.sections.flatMap (fun part => part.leading ++ part.content) ++
    (s.content ++ s.embedded.getD [])

/-- Every line of a script is taken for what it is when its text is read. Start markers may
stand in sections, and end markers anywhere else. -/
structure IsReadable (s : Script) : Prop where
  names : ∀ part ∈ s.sections, Marker.isName part.name
  leading : ∀ part ∈ s.sections, ∀ line ∈ part.leading, Marker.start? line = none
  inside : ∀ part ∈ s.sections, ∀ line ∈ part.content, Marker.finish? line = none
  content : ∀ line ∈ s.content, Marker.start? line = none ∧ line ≠ notice
  embedded : ∀ lines, s.embedded = some lines → ∀ line ∈ lines, Marker.start? line = none
  plain : ∀ line ∈ s.stored, line.IsPlain

section Stored

variable {s : Script} {line : Line}

theorem mem_stored : line ∈ s.stored ↔
    (∃ part ∈ s.sections, line ∈ part.leading ∨ line ∈ part.content) ∨ line ∈ s.content ∨
      line ∈ s.embedded.getD [] := by
  simp only [stored, List.mem_append, List.mem_flatMap]

theorem mem_tail {embedded : Option (List Line)} : line ∈ tail embedded ↔
    (embedded.isSome ∧ line = notice) ∨ line ∈ embedded.getD [] := by
  cases embedded <;> simp [tail]

theorem isPlain_notice : notice.IsPlain := ⟨by decide, by decide⟩

theorem mem_body_of_mem_stored (member : line ∈ s.stored) : line ∈ s.body := by
  rw [body_eq, List.mem_append, List.mem_append]
  rcases mem_stored.1 member with ⟨part, among, within⟩ | content | behind
  · left
    refine List.mem_flatMap.2 ⟨part, among, ?_⟩
    rcases within with leading | inside
    · simp [Section.lines, leading]
    · simp [Section.lines, inside]
  · exact .inr (.inl content)
  · exact .inr (.inr (mem_tail.2 (.inr behind)))

theorem IsReadable.isPlain_of_mem_body (readable : s.IsReadable) (member : line ∈ s.body) :
    line.IsPlain := by
  have stored {line : Line} (member : line ∈ s.stored) := readable.plain line member
  rw [body_eq, List.mem_append, List.mem_append] at member
  rcases member with within | content | behind
  · obtain ⟨part, among, within⟩ := List.mem_flatMap.1 within
    apply isPlain_of_mem_section (readable.names part among) _ _ line within
    · exact fun line leading => stored (mem_stored.2 (.inl ⟨part, among, .inl leading⟩))
    · exact fun line inside => stored (mem_stored.2 (.inl ⟨part, among, .inr inside⟩))
  · exact stored (mem_stored.2 (.inr (.inl content)))
  · rcases mem_tail.1 behind with ⟨_, rfl⟩ | embedded
    · exact isPlain_notice
    · exact stored (mem_stored.2 (.inr (.inr embedded)))

end Stored

theorem wellFormed_iff {s : Script} :
    s.WellFormed ↔ (s.sections.map (·.name)).Nodup ∧ s.IsReadable := by
  constructor
  · intro wellFormed
    refine ⟨wellFormed.distinct, ?_⟩
    exact {
      names := fun part member => (wellFormed.delimited part member).name
      leading := fun part member => (wellFormed.delimited part member).leading
      inside := fun part member => (wellFormed.delimited part member).content
      content := fun line member => ⟨wellFormed.ordinary line (List.mem_append_left _ member),
        fun same => wellFormed.noNotice (same ▸ member)⟩
      embedded := fun lines behind line member =>
        wellFormed.ordinary line (List.mem_append_right _ (by simp [behind, tail, member]))
      plain := fun line member => wellFormed.plain line (mem_body_of_mem_stored member) }
  · rintro ⟨distinct, readable⟩
    refine ⟨fun part member => ⟨readable.names part member, readable.leading part member,
      readable.inside part member⟩, distinct, fun member => (readable.content _ member).2 rfl, ?_,
      fun line => readable.isPlain_of_mem_body⟩
    intro line member
    rcases List.mem_append.1 member with content | behind
    · exact (readable.content line content).1
    · cases embedded : s.embedded with
      | none => simp [embedded, tail] at behind
      | some lines =>
        rw [embedded, tail] at behind
        rcases List.mem_cons.1 behind with rfl | member
        · decide
        · exact readable.embedded lines embedded line member

/-- Exactly the readable scripts are read back from their text, however they were made. -/
theorem Built.parse_bytes_iff {s : Script} (built : Built s) (canonical : Bool) :
    parse canonical s.bytes = .ok { s with directive := true } ↔ s.IsReadable := by
  constructor
  · intro parsed
    -- Whatever is read is readable, and this does not depend on the directive.
    have readable := (wellFormed_iff.1 (parse_wellFormed parsed)).2
    exact ⟨readable.names, readable.leading, readable.inside, readable.content,
      readable.embedded, readable.plain⟩
  · intro readable
    exact parse_bytes (wellFormed_iff.2 ⟨built.distinct, readable⟩) canonical

/-- A name that ends as a marker does is read back, and so are markers at harmless places,
but no marker can hold a dot. -/
theorem parse_bytes_iff_insert :
    let arrow : Script := insert {} ⟨["# <-- a".toList], "b --".toList, ["# a -->".toList]⟩
    let dotted : Script := insert {} ⟨[], ['.'], []⟩
    parse true arrow.bytes = .ok { arrow with directive := true } ∧
      parse true dotted.bytes ≠ .ok { dotted with directive := true } := by
  intro arrow dotted
  have arrowBuilt : Built arrow := .insert .empty _
  have dottedBuilt : Built dotted := .insert .empty _
  constructor
  · apply (arrowBuilt.parse_bytes_iff true).2
    refine ⟨by decide, by decide, by decide, by decide, nofun, ?_⟩
    intro line member
    simp only [arrow, stored, insert, insertSection, List.flatMap_singleton, List.mem_append,
      List.mem_singleton, Option.getD_none, List.not_mem_nil, or_false] at member
    rcases member with rfl | rfl <;> exact ⟨by decide, by decide⟩
  · intro parsed
    have readable := (dottedBuilt.parse_bytes_iff true).1 parsed
    exact absurd (readable.names ⟨[], ['.'], []⟩ (List.mem_singleton.2 rfl)) (by decide)

end Bootscript.Script
