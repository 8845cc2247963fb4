import Bootscript.Proofs.Launcher.Lines
import Bootscript.Proofs.Payload
import Bootscript.Proofs.Script.WellFormed
import Bootscript.Script.Install

/-! What a script keeps when a launcher is put in. The second of two launchers leaves no
trace of the first, and a script that can be told from its lines stays one. -/
namespace Bootscript.Script

section SetOff

@[simp] theorem name_setOff (s : Section) : (setOff s).name = s.name := by
  rw [setOff]; split <;> rfl

@[simp] theorem content_setOff (s : Section) : (setOff s).content = s.content := by
  rw [setOff]; split <;> rfl

theorem leading_setOff (s : Section) :
    (setOff s).leading = if s.leading.isEmpty then [[]] else s.leading := by
  rw [setOff]; split <;> rfl

theorem setOff_setOff (s : Section) : setOff (setOff s) = setOff s := by
  by_cases empty : s.leading.isEmpty <;> simp [setOff, empty]

theorem mem_leading_setOff {s : Section} {line : Line} (member : line ∈ (setOff s).leading) :
    line = [] ∨ line ∈ s.leading := by
  rw [leading_setOff] at member
  split at member
  · exact .inl (List.mem_singleton.1 member)
  · exact .inr member

theorem mem_lines_setOff {s : Section} {line : Line} (member : line ∈ (setOff s).lines) :
    line = [] ∨ line ∈ s.lines := by
  simp only [Section.lines, Section.startMarker, Section.endMarker, name_setOff, content_setOff,
    List.mem_append, List.append_assoc] at member ⊢
  rcases member with leading | behind
  · exact (mem_leading_setOff leading).imp_right .inl
  · exact .inr (.inr behind)

theorem isDelimited_setOff {s : Section} (delimited : s.IsDelimited) :
    (setOff s).IsDelimited where
  name := by rw [name_setOff]; exact delimited.name
  leading line member := by
    rcases mem_leading_setOff member with rfl | member
    · rfl
    · exact delimited.leading line member
  content := by rw [content_setOff]; exact delimited.content

end SetOff

section Kept

theorem mem_keptSections {part : Section} {sections : List Section} :
    part ∈ keptSections sections ↔
      ∃ old ∈ sections, isReserved old.name = false ∧ setOff old = part := by
  simp [keptSections, and_assoc]

theorem names_keptSections (sections : List Section) :
    (keptSections sections).map (·.name) = (sections.map (·.name)).filter (!isReserved ·) := by
  rw [keptSections, List.map_map, List.filter_map]
  exact List.map_congr_left fun s _ => name_setOff s

theorem isReserved_name_of_mem {part : Section} {sections : List Section}
    (member : part ∈ keptSections sections) : isReserved part.name = false := by
  obtain ⟨old, _, kept, rfl⟩ := mem_keptSections.1 member
  rwa [name_setOff]

theorem keptSections_keptSections (sections : List Section) :
    keptSections (keptSections sections) = keptSections sections := by
  have others : (keptSections sections).filter (fun s => !isReserved s.name) =
      keptSections sections := by
    rw [List.filter_eq_self]
    intro part member
    rw [isReserved_name_of_mem member, Bool.not_false]
  rw [keptSections, others, keptSections, List.map_map]
  exact List.map_congr_left fun s _ => setOff_setOff s

theorem keptSections_sections_install (s : Script) (l : Launcher) (payload : Option Payload) :
    keptSections (s.install l payload).sections = keptSections s.sections := by
  have info : keptSections [infoSection] = [] := rfl
  have launcher : keptSections [launcherSection l payload.isSome] = [] := rfl
  have append (first second : List Section) :
      keptSections (first ++ second) = keptSections first ++ keptSections second := by
    simp [keptSections]
  rw [install, ← List.singleton_append, append, append, info, launcher,
    keptSections_keptSections, List.nil_append, List.append_nil]

/-- Only the body and the sections that are not reserved are left of a script. -/
theorem install_install (s : Script) (first second : Launcher) (old new : Option Payload) :
    (s.install first old).install second new = s.install second new := by
  rw [install, keptSections_sections_install]
  rfl

end Kept

section WellFormed

variable {s : Script}

theorem isPlain_of_mem_section {part : Section} (valid : Marker.isName part.name)
    (leading : ∀ line ∈ part.leading, line.IsPlain)
    (content : ∀ line ∈ part.content, line.IsPlain) : ∀ line ∈ part.lines, line.IsPlain := by
  intro line member
  simp only [Section.lines, List.mem_append, List.mem_cons, List.not_mem_nil, or_false] at member
  rcases member with (inside | rfl | inside) | rfl
  · exact leading line inside
  · exact Marker.isPlain_start valid
  · exact content line inside
  · exact Marker.isPlain_finish valid

theorem isPlain_nil : Line.IsPlain [] := ⟨List.not_mem_nil, nofun⟩

theorem isDelimited_infoSection : infoSection.IsDelimited := ⟨by decide, by decide, by decide⟩

theorem isPlain_infoSection : ∀ line ∈ infoSection.lines, line.IsPlain :=
  isPlain_of_mem_section isDelimited_infoSection.name
    (by intro line member; obtain rfl := List.mem_singleton.1 member; exact ⟨by decide, by decide⟩)
    (by
      intro line member
      simp only [infoSection, infoLines, List.mem_cons, List.not_mem_nil, or_false] at member
      rcases member with rfl | rfl <;> exact ⟨by decide, by decide⟩)

theorem isName_launcherName : Marker.isName launcherName := by decide

theorem isDelimited_launcherSection (l : Launcher) (distributable : Bool) :
    (launcherSection l distributable).IsDelimited :=
  ⟨isName_launcherName, fun _ member => List.mem_singleton.1 member ▸ rfl,
    fun _ => Launcher.finish?_of_mem_lines⟩

theorem isPlain_launcherSection (l : Launcher) (distributable : Bool) :
    ∀ line ∈ (launcherSection l distributable).lines, line.IsPlain :=
  isPlain_of_mem_section isName_launcherName
    (fun _ member => List.mem_singleton.1 member ▸ isPlain_nil)
    fun _ => Launcher.isPlain_of_mem_lines

theorem mem_sections_install {l : Launcher} {payload : Option Payload} {part : Section} :
    part ∈ (s.install l payload).sections ↔ part = infoSection ∨
      part ∈ keptSections s.sections ∨ part = launcherSection l payload.isSome := by
  simp [install]

theorem isDelimited_of_mem_install (wellFormed : s.WellFormed) (l : Launcher)
    (payload : Option Payload) {part : Section}
    (member : part ∈ (s.install l payload).sections) : part.IsDelimited := by
  rcases mem_sections_install.1 member with rfl | kept | rfl
  · exact isDelimited_infoSection
  · obtain ⟨old, among, _, rfl⟩ := mem_keptSections.1 kept
    exact isDelimited_setOff (wellFormed.delimited old among)
  · exact isDelimited_launcherSection l payload.isSome

theorem nodup_names_install (distinct : (s.sections.map (·.name)).Nodup) (l : Launcher)
    (payload : Option Payload) : ((s.install l payload).sections.map (·.name)).Nodup := by
  have kept := names_keptSections s.sections
  have other {name : Text} (member : name ∈ (keptSections s.sections).map (·.name)) :
      isReserved name = false := by
    rw [kept, List.mem_filter, Bool.not_eq_true'] at member
    exact member.2
  have distinct : ((keptSections s.sections).map (·.name)).Nodup := by
    rw [kept]
    exact distinct.filter _
  rw [install, List.map_append, List.map_cons, List.cons_append, List.map_singleton,
    ← List.concat_eq_append, List.nodup_cons]
  refine ⟨fun member => ?_, distinct.concat fun member => ?_⟩
  · rw [List.concat_eq_append, List.mem_append] at member
    rcases member with among | last
    · exact absurd (other among) (by decide)
    · exact absurd (List.mem_singleton.1 last) (by decide : infoName ≠ launcherName)
  · exact absurd (other member) (by decide : isReserved launcherName ≠ false)

theorem isPlain_of_mem_install (wellFormed : s.WellFormed) (l : Launcher)
    (payload : Option Payload) {line : Line}
    (member : line ∈ (s.install l payload).sections.flatMap Section.lines) : line.IsPlain := by
  obtain ⟨part, among, inside⟩ := List.mem_flatMap.1 member
  rcases mem_sections_install.1 among with rfl | kept | rfl
  · exact isPlain_infoSection line inside
  · obtain ⟨old, read, _, rfl⟩ := mem_keptSections.1 kept
    rcases mem_lines_setOff inside with rfl | inside
    · exact isPlain_nil
    · apply wellFormed.plain line
      rw [body_eq]
      exact List.mem_append_left _ (List.mem_flatMap.2 ⟨old, read, inside⟩)
  · exact isPlain_launcherSection l _ line inside

theorem ordinary_tail_ofArchive (archive : Option Bytes) {line : Line}
    (member : line ∈ tail ((archive.map Payload.ofArchive).map Payload.lines)) :
    Marker.start? line = none ∧ line.IsPlain := by
  cases archive with
  | none => cases member
  | some archive =>
    rcases List.mem_cons.1 member with rfl | row
    · exact ⟨by decide, ⟨by decide, by decide⟩⟩
    · exact ⟨Payload.start?_of_mem_lines row, Payload.isPlain_of_mem_lines row⟩

/-- A launcher and an archive can be put into any script that was read, one after another. -/
theorem install_wellFormed (wellFormed : s.WellFormed) (l : Launcher) (archive : Option Bytes) :
    (s.install l (archive.map Payload.ofArchive)).WellFormed where
  delimited _ := isDelimited_of_mem_install wellFormed l _
  distinct := nodup_names_install wellFormed.distinct l _
  noNotice := wellFormed.noNotice
  ordinary line member := by
    rcases List.mem_append.1 member with inside | behind
    · exact wellFormed.ordinary line (List.mem_append_left _ inside)
    · exact (ordinary_tail_ofArchive archive behind).1
  plain line member := by
    rw [body_eq, List.mem_append, List.mem_append] at member
    rcases member with inside | inside | behind
    · exact isPlain_of_mem_install wellFormed l _ inside
    · apply wellFormed.plain line
      rw [body_eq]
      exact List.mem_append_right _ (List.mem_append_left _ inside)
    · exact (ordinary_tail_ofArchive archive behind).2

end WellFormed
end Bootscript.Script
