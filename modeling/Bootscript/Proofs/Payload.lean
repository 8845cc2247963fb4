import Bootscript.Payload
import Bootscript.Proofs.Marker

/-! The lines of a payload as lines of a file. -/
namespace Bootscript

namespace Base64

theorem isBlockChar_digit (n : Nat) : Payload.isBlockChar (digit n) := by
  unfold digit
  split
  · rename_i upper
    have (k : Fin 26) : Payload.isBlockChar (Char.ofNat ('A'.toNat + k)) := by
      revert k; decide
    exact this ⟨n, upper⟩
  split
  · rename_i lower _
    have (k : Fin 26) : Payload.isBlockChar (Char.ofNat ('a'.toNat + k)) := by
      revert k; decide
    exact this ⟨n - 26, by omega⟩
  split
  · have (k : Fin 10) : Payload.isBlockChar (Char.ofNat ('0'.toNat + k)) := by
      revert k; decide
    exact this ⟨n - 52, by omega⟩
  split <;> decide

theorem isBlockChar_of_mem_encode {data : Bytes} {c : Char} (member : c ∈ encode data) :
    Payload.isBlockChar c := by
  have pad : Payload.isBlockChar '=' := by decide
  fun_induction encode data with
  | case1 => cases member
  | case2 a =>
    simp only [List.mem_cons, List.not_mem_nil, or_false] at member
    rcases member with rfl | rfl | rfl | rfl <;> simp [isBlockChar_digit, pad]
  | case3 a b =>
    simp only [List.mem_cons, List.not_mem_nil, or_false] at member
    rcases member with rfl | rfl | rfl | rfl <;> simp [isBlockChar_digit, pad]
  | case4 a b c rest ih =>
    simp only [List.mem_cons] at member
    rcases member with rfl | rfl | rfl | rfl | member
    · exact isBlockChar_digit _
    · exact isBlockChar_digit _
    · exact isBlockChar_digit _
    · exact isBlockChar_digit _
    · exact ih member

end Base64

namespace Payload

theorem flatten_rows (text : Text) : (rows text).flatten = text := by
  fun_induction rows text with
  | case1 => rfl
  | case2 text _ ih => rw [List.flatten_cons, ih, List.take_append_drop]

theorem length_of_mem_dropLast_rows {text : Text} {row : Line}
    (member : row ∈ (rows text).dropLast) : row.length = width := by
  fun_induction rows text with
  | case1 => cases member
  | case2 text nonempty ih =>
    by_cases fits : text.length ≤ width
    · rw [List.drop_of_length_le fits, rows, dif_pos rfl] at member
      cases member
    · have more : rows (text.drop width) ≠ [] := by
        intro none
        have rest := flatten_rows (text.drop width)
        rw [none, List.flatten_nil, eq_comm, List.drop_eq_nil_iff] at rest
        exact fits rest
      rw [List.dropLast_cons_of_ne_nil more] at member
      rcases List.mem_cons.1 member with rfl | later
      · rw [List.length_take]
        omega
      · exact ih later

theorem length_of_mem_rows {text : Text} {row : Line} (member : row ∈ rows text) :
    1 ≤ row.length ∧ row.length ≤ width := by
  fun_induction rows text with
  | case1 => cases member
  | case2 text nonempty ih =>
    rcases List.mem_cons.1 member with rfl | later
    · have := List.length_pos_iff.2 nonempty
      rw [List.length_take, width]
      omega
    · exact ih later

theorem mem_of_mem_rows {text : Text} {row : Line} {c : Char} (listed : row ∈ rows text)
    (member : c ∈ row) : c ∈ text := by
  fun_induction rows text with
  | case1 => cases listed
  | case2 text nonempty ih =>
    rcases List.mem_cons.1 listed with rfl | later
    · exact List.mem_of_mem_take member
    · exact List.mem_of_mem_drop (ih later)

/-- Between its quotes an archive is nothing but characters of a block. -/
theorem mem_lines_ofArchive {archive : Bytes} {line : Line}
    (member : line ∈ (ofArchive archive).lines) :
    line = quote ∨ line.all isBlockChar := by
  simp only [lines, List.cons_append, List.mem_cons, List.mem_append, List.not_mem_nil,
    or_false] at member
  rcases member with rfl | row | rfl | rfl
  · exact .inl rfl
  · exact .inr (List.all_eq_true.2 fun c inside =>
      Base64.isBlockChar_of_mem_encode (mem_of_mem_rows row inside))
  · exact .inl rfl
  · exact .inr rfl

theorem isBlock_lines (archive : Bytes) : isBlock (ofArchive archive).lines := by
  have inner : ∀ row ∈ rows (ofArchive archive).encoded, isBlockLine row := by
    intro row member
    have fits := (length_of_mem_rows member).2
    have chars : ∀ c ∈ row, isBlockChar c := fun c inside =>
      Base64.isBlockChar_of_mem_encode (mem_of_mem_rows member inside)
    simpa [isBlockLine, fits] using chars
  simpa [isBlock, lines] using inner

theorem isPlain_of_mem_lines {archive : Bytes} {line : Line}
    (member : line ∈ (ofArchive archive).lines) : line.IsPlain := by
  rcases mem_lines_ofArchive member with rfl | block
  · exact ⟨by decide, by decide⟩
  · have other {c : Char} (outside : isBlockChar c = false) : c ∉ line := fun inside => by
      rw [List.all_eq_true.1 block c inside] at outside
      cases outside
    exact ⟨other rfl, fun last => other rfl (List.mem_of_getLast? last)⟩

theorem start?_of_mem_lines {archive : Bytes} {line : Line}
    (member : line ∈ (ofArchive archive).lines) : Marker.start? line = none := by
  apply Marker.start?_of_not_opening
  rintro ⟨rest, rfl⟩
  rcases mem_lines_ofArchive member with absurd | block
  · cases absurd
  · cases block

end Payload
end Bootscript
