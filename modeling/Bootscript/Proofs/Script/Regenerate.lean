import Bootscript.Proofs.Script.Install

/-! Putting launchers into a script and writing it, time and again. What is written is
read back as it was, and only the last launcher and archive count. -/
namespace Bootscript.Script

structure Update where
  launcher : Launcher
  archive : Option Bytes

def update (s : Script) (u : Update) : Script :=
  s.install u.launcher (u.archive.map Payload.ofArchive)

theorem update_wellFormed {s : Script} (wellFormed : s.WellFormed) (u : Update) :
    (s.update u).WellFormed :=
  install_wellFormed wellFormed u.launcher u.archive

theorem foldl_update_wellFormed {s : Script} (wellFormed : s.WellFormed) (updates : List Update) :
    (updates.foldl update s).WellFormed := by
  induction updates generalizing s with
  | nil => exact wellFormed
  | cons u updates ih => exact ih (update_wellFormed wellFormed u)

/-- Whatever was put into a script that was read, it is read back from what is written. -/
theorem parse_bytes_foldl_update {canonical : Bool} {data : Bytes} {s : Script}
    (parsed : parse canonical data = .ok s) (updates : List Update) (canonical' : Bool) :
    parse canonical' (updates.foldl update s).bytes =
      .ok { updates.foldl update s with directive := true } :=
  parse_bytes (foldl_update_wellFormed (parse_wellFormed parsed) updates) canonical'

/-- A section that holds another start marker, a stray end marker, and a notice with
nothing behind it. -/
theorem parse_bytes_foldl_update_nested :
    let data := Text.encode
      "# a -->\r\n# b -->\n# <-- a\n# <-- a\n# PySH: Module embedded below".toList
    let s : Script := ⟨false, [⟨[], ['a'], ["# b -->".toList]⟩], ["# <-- a".toList], some []⟩
    let updates : List Update := [⟨.standard, some [0x50, 0x4B]⟩, ⟨.standard, none⟩]
    parse false data = .ok s ∧
      parse true (updates.foldl update s).bytes =
        .ok { updates.foldl update s with directive := true } := by
  intro data s updates
  have parsed : parse false data = .ok s := rfl
  exact ⟨parsed, parse_bytes_foldl_update parsed updates true⟩

def regenerate (canonical : Bool) (u : Update) (data : Bytes) : Except Malformed Bytes :=
  (parse canonical data).map fun s => (s.update u).bytes

/-- Of two updates in a row the first leaves no trace, whatever they embed. -/
theorem regenerate_regenerate (canonical canonical' : Bool) (first second : Update)
    (data : Bytes) :
    (regenerate canonical first data).bind (regenerate canonical' second) =
      regenerate canonical second data := by
  rw [regenerate, regenerate]
  cases parsed : parse canonical data with
  | error reason => rfl
  | ok s =>
    have wellFormed := update_wellFormed (parse_wellFormed parsed) first
    have again : parse canonical' (s.update first).bytes = .ok (s.update first) :=
      parse_bytes wellFormed canonical'
    have last : (s.update first).update second = s.update second :=
      install_install s _ _ _ _
    simp only [Except.map, Except.bind, regenerate, again, last]

end Bootscript.Script
