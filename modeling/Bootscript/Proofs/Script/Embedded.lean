import Bootscript.Proofs.Base64
import Bootscript.Proofs.Script.Install

/-! An archive that travels with a script. It stands behind the notice in lines of base64
between quotes, and reading the script gives it back. -/
namespace Bootscript

theorem Lines.getLast?_join (lines : List Line) (line : Line) :
    (join (lines ++ [line, []])).getLast? = some '\n' := by
  have empty : lines ++ [line, []] = (lines ++ [line]) ++ [] :: [] := by simp
  rw [empty, join_append_cons, List.flatMap_append, List.flatMap_singleton]
  simp [join]

namespace Script

theorem getLast?_text_install (s : Script) (l : Launcher) (payload : Payload) :
    (s.install l (some payload)).text.getLast? = some '\n' := by
  have ending : ∃ front, (s.install l (some payload)).lines = front ++ [Payload.quote, []] := by
    refine ⟨directiveLine :: ((s.install l (some payload)).sections.flatMap Section.lines ++
      s.content ++ notice :: Payload.quote :: Payload.rows payload.encoded), ?_⟩
    simp [lines, body, install, Payload.lines]
  obtain ⟨front, ending⟩ := ending
  rw [text, ending, Lines.getLast?_join]

/-- Whatever stands in the script and in the archive, the archive is read back from what is
written: as a block of full lines, but for the last, between two lines of quotes. -/
theorem parse_install_ofArchive {canonical : Bool} {data : Bytes} {s : Script}
    (parsed : parse canonical data = .ok s) (l : Launcher) (archive : Bytes) (canonical' : Bool) :
    let written := s.install l (some (.ofArchive archive))
    ∃ (again : Script) (embedded rows : List Line),
      parse canonical' written.bytes = .ok again ∧
      again.embedded = some embedded ∧ Payload.isBlock embedded ∧
      embedded = "\"\"\"".toList :: rows ++ ["\"\"\"".toList, []] ∧
      (∀ row ∈ rows.dropLast, row.length = 76) ∧
      (∀ row ∈ rows.getLast?, 1 ≤ row.length ∧ row.length ≤ 76) ∧
      Base64.decode? rows.flatten = some archive ∧
      written.text.getLast? = some '\n' ∧
      again.content = s.content := by
  intro written
  have wellFormed : written.WellFormed :=
    install_wellFormed (parse_wellFormed parsed) l (some archive)
  refine ⟨written, _, Payload.rows (Base64.encode archive), parse_bytes wellFormed canonical', rfl,
    Payload.isBlock_lines archive, rfl, fun _ => Payload.length_of_mem_dropLast_rows,
    fun _ last => Payload.length_of_mem_rows (List.mem_of_getLast? last), ?_,
    getLast?_text_install s l _, rfl⟩
  rw [Payload.flatten_rows, Base64.decode?_encode]

/-- A script that had another module behind a notice, and no line break at its end. -/
theorem parse_install_ofArchive_again :
    let data := Text.encode "print(1)\n# PySH: Module embedded below\n\"\"\"".toList
    let s : Script := { content := ["print(1)".toList], embedded := some ["\"\"\"".toList] }
    let written := s.install .standard (some (.ofArchive [0x50, 0x4B]))
    parse false data = .ok s ∧ ∃ (again : Script) (rows : List Line),
      parse true written.bytes = .ok again ∧
      again.embedded = some ("\"\"\"".toList :: rows ++ ["\"\"\"".toList, []]) ∧
      Base64.decode? rows.flatten = some [0x50, 0x4B] ∧
      again.content = ["print(1)".toList] := by
  intro data s written
  have parsed : parse false data = .ok s := rfl
  obtain ⟨again, _, rows, read, behind, _, rfl, _, _, decoded, _, content⟩ :=
    parse_install_ofArchive parsed .standard [0x50, 0x4B] true
  exact ⟨parsed, again, rows, read, behind, decoded, content⟩

end Script
end Bootscript
