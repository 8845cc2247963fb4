import Bootscript.Cursor
import Bootscript.Proofs.Reader
import Mathlib.Tactic.Common

/-! A cursor as a position in the list of a file's lines. What was looked at and what is
in the window can be told from the lines before and after the position alone. -/
namespace Bootscript.Cursor

/-- The cursor stands before the lines `ahead`. The lines of `window` are consumed but not
handed over, after `passed` others that were. -/
structure Stands (c : Cursor) (passed : Nat) (window : List Line) (ahead : List (Option Line)) :
    Prop where
  ahead_eq : c.ahead = ahead
  window_eq : c.window.toList = window
  start_eq : c.start = if window = [] then none else some (passed + 1)
  number_eq : c.number = passed + window.length + (c.peeked.map some).toList.length

variable {c : Cursor} {passed : Nat} {window : List Line} {ahead : List (Option Line)}

theorem stands_ofBytes (data : Bytes) : (ofBytes data).Stands 0 [] (Lines.ofBytes data) :=
  ⟨Reader.lines_ofBytes data, rfl, rfl, rfl⟩

theorem ahead_of_peeked_eq_none (nothing : c.peeked = none) : c.ahead = c.reader.lines := by
  rw [Cursor.ahead, nothing]
  rfl

theorem ahead_of_peeked_eq_some {line : Line} (peeked : c.peeked = some line) :
    c.ahead = some line :: c.reader.lines := by
  rw [Cursor.ahead, peeked]
  rfl

/-- Looking again at a line that could be looked at changes nothing. -/
theorem peek_peek {line : Option Line} (looked : c.peek.1 = .ok line) : c.peek.2.peek = c.peek := by
  cases peeked : c.peeked with
  | some first => simp [peek, peeked]
  | none =>
    cases next : c.reader.next with
    | mk outcome reader =>
      match outcome with
      | .error .undecodable => simp [peek, peeked, next] at looked
      | .ok none => simp [peek, peeked, next, Reader.next_of_next_eq_none next]
      | .ok (some first) => simp [peek, peeked, next]

theorem advance_fst (c : Cursor) : c.advance.1 = c.peek.1 := by
  rw [advance]
  split <;> rename_i peek <;> rw [peek]

theorem advance_snd {line : Option Line} (looked : c.peek.1 = .ok line) :
    c.advance.2 = c.peek.2.consume := by
  rw [advance]
  split <;> rename_i peek <;> rw [peek] at looked ⊢
  cases looked

namespace Stands

theorem peeked_eq_none (stands : c.Stands passed window []) : c.peeked = none := by
  have next := stands.ahead_eq
  cases peeked : c.peeked with
  | none => rfl
  | some line => cases (ahead_of_peeked_eq_some peeked).symm.trans next

/-- At the end nothing is looked at, however often. -/
theorem peek_nil (stands : c.Stands passed window []) :
    ∃ c', c.peek = (.ok none, c') ∧ c'.Stands passed window [] := by
  have nothing := stands.peeked_eq_none
  obtain ⟨next, opened, start, number⟩ := stands
  rw [ahead_of_peeked_eq_none nothing] at next
  obtain ⟨reader, read, behind⟩ := Reader.next_of_lines_eq_nil next
  refine ⟨{ c with reader }, by simp [peek, nothing, read], ?_, opened, start, number⟩
  exact Eq.trans (ahead_of_peeked_eq_none nothing) behind

/-- A line that is not UTF-8 is gone once it was looked at, and has no number. -/
theorem peek_undecodable (stands : c.Stands passed window (none :: ahead)) :
    ∃ c', c.peek = (.error .undecodable, c') ∧ c'.Stands passed window ahead := by
  have next := stands.ahead_eq
  cases peeked : c.peeked with
  | some line => simp [ahead_of_peeked_eq_some peeked] at next
  | none =>
    rw [ahead_of_peeked_eq_none peeked] at next
    obtain ⟨reader, read, behind⟩ := Reader.next_of_lines_eq_undecodable next
    refine ⟨{ c with reader }, by simp [peek, peeked, read], ?_, stands.window_eq,
      stands.start_eq, stands.number_eq⟩
    exact Eq.trans (ahead_of_peeked_eq_none peeked) behind

/-- A line that is looked at stays ahead. -/
theorem peek_line {line : Line} (stands : c.Stands passed window (some line :: ahead)) :
    ∃ c', c.peek = (.ok (some line), c') ∧ c'.peeked = some line ∧
      c'.Stands passed window (some line :: ahead) := by
  have next := stands.ahead_eq
  cases peeked : c.peeked with
  | some first =>
    rw [ahead_of_peeked_eq_some peeked] at next
    obtain rfl := Option.some.inj (List.cons.inj next).1
    exact ⟨c, by simp [peek, peeked], peeked, stands⟩
  | none =>
    rw [ahead_of_peeked_eq_none peeked] at next
    obtain ⟨reader, read, behind⟩ := Reader.next_of_lines_eq_line next
    refine ⟨{ c with reader, peeked := some line, number := c.number + 1 },
      by simp [peek, peeked, read], rfl, ?_, stands.window_eq, stands.start_eq, ?_⟩
    · rw [ahead_of_peeked_eq_some rfl, behind]
    · simp [stands.number_eq, peeked]

/-- A consumed line moves from the lines ahead to the window. -/
theorem consume {line : Line} (stands : c.Stands passed window (some line :: ahead))
    (peeked : c.peeked = some line) :
    c.consume.Stands passed (window ++ [line]) ahead ∧ c.consume.peeked = none := by
  obtain ⟨next, opened, start, number⟩ := stands
  have empty : c.window.isEmpty = (window == []) := by
    rw [← opened]; cases c.window; simp
  rw [ahead_of_peeked_eq_some peeked] at next
  refine ⟨⟨?_, ?_, ?_, ?_⟩, ?_⟩
  · simp [Cursor.ahead, Cursor.consume, peeked, (List.cons.inj next).2]
  · simp [Cursor.consume, peeked, opened]
  · simp only [Cursor.consume, peeked, empty]
    by_cases none : window = [] <;> simp [none, start, number, peeked]
  · simp [Cursor.consume, peeked, number, Nat.add_assoc]
  · simp [Cursor.consume, peeked]

theorem fetch (stands : c.Stands passed window ahead) :
    c.fetch.1.lines = window ∧ c.fetch.2.Stands (passed + window.length) [] ahead := by
  obtain ⟨next, opened, start, number⟩ := stands
  exact ⟨opened, next, rfl, by simp [Cursor.fetch], by simp [Cursor.fetch, number]⟩

/-- Nothing is looked at once a cursor has consumed its last line. -/
theorem fetchPeeked_nil (stands : c.Stands passed window []) :
    c.fetchPeeked.1.lines = window := by
  rw [fetchPeeked, Cursor.consume, stands.peeked_eq_none]
  exact stands.fetch.1

theorem fetchPeeked {line : Line} (stands : c.Stands passed window (some line :: ahead))
    (peeked : c.peeked = some line) :
    c.fetchPeeked.2.Stands (passed + window.length + 1) [] ahead := by
  have consumed := (stands.consume peeked).1.fetch.2
  rwa [List.length_append, List.length_singleton, ← Nat.add_assoc] at consumed

section Seek

variable {α : Type} {find : Line → Option α} {skipped : List Line}

/-- Seeking consumes the lines that are not found, as far as `fuel` reaches. -/
theorem seekAmong_skip (others : ∀ line ∈ skipped, find line = none)
    (fuel : List (Option Line)) (enough : (skipped.map some ++ ahead).length ≤ fuel.length)
    (stands : c.Stands passed window (skipped.map some ++ ahead)) :
    ∃ c' fuel', ahead.length ≤ fuel'.length ∧
      c'.Stands passed (window ++ skipped) ahead ∧
      seekAmong find fuel c = seekAmong find fuel' c' := by
  induction skipped generalizing c window fuel with
  | nil => exact ⟨c, fuel, by simpa using enough, by simpa using stands, rfl⟩
  | cons line skipped ih =>
    cases fuel with
    | nil => simp at enough
    | cons first fuel =>
      obtain ⟨c', peek, peeked, stands⟩ := stands.peek_line
      obtain ⟨c'', fuel', enough, stands, same⟩ := ih
        (fun other member => others other (List.mem_cons_of_mem _ member)) fuel
        (by simpa using enough) (stands.consume peeked).1
      refine ⟨c'', fuel', enough, by simpa using stands, ?_⟩
      rw [seekAmong, peek]
      simp only [others line (List.mem_cons_self ..)]
      exact same

theorem seek_found {line : Line} {a : α} (others : ∀ line ∈ skipped, find line = none)
    (found : find line = some a)
    (stands : c.Stands passed window (skipped.map some ++ some line :: ahead)) :
    ∃ c', c.seek find = .ok (some a, c') ∧ c'.peeked = some line ∧
      c'.Stands passed (window ++ skipped) (some line :: ahead) := by
  obtain ⟨c', fuel, enough, stands', same⟩ := seekAmong_skip others c.ahead
    (Nat.le_of_eq (congrArg List.length stands.ahead_eq.symm)) stands
  obtain ⟨c'', peek, peeked, stands''⟩ := stands'.peek_line
  obtain ⟨first, fuel, rfl⟩ := List.exists_cons_of_length_pos
    (Nat.lt_of_lt_of_le (Nat.succ_pos _) enough)
  exact ⟨c'', by rw [seek, same, seekAmong, peek]; simp only [found], peeked, stands''⟩

theorem seek_absent (others : ∀ line ∈ skipped, find line = none)
    (stands : c.Stands passed window (skipped.map some)) :
    ∃ c', c.seek find = .ok (none, c') ∧ c'.Stands passed (window ++ skipped) [] := by
  have padded : c.Stands passed window (skipped.map some ++ []) := by simpa using stands
  obtain ⟨c', fuel, enough, stands', same⟩ := seekAmong_skip others c.ahead
    (Nat.le_of_eq (congrArg List.length padded.ahead_eq.symm)) padded
  rw [seek, same]
  cases fuel with
  | nil => exact ⟨c', rfl, stands'⟩
  | cons first fuel =>
    obtain ⟨c'', peek, stands''⟩ := stands'.peek_nil
    exact ⟨c'', by rw [seekAmong, peek], stands''⟩

theorem seek_undecodable (others : ∀ line ∈ skipped, find line = none)
    (stands : c.Stands passed window (skipped.map some ++ none :: ahead)) :
    c.seek find = .error .undecodable := by
  obtain ⟨c', fuel, enough, stands', same⟩ := seekAmong_skip others c.ahead
    (Nat.le_of_eq (congrArg List.length stands.ahead_eq.symm)) stands
  obtain ⟨c'', peek, _⟩ := stands'.peek_undecodable
  obtain ⟨first, fuel, rfl⟩ := List.exists_cons_of_length_pos
    (Nat.lt_of_lt_of_le (Nat.succ_pos _) enough)
  rw [seek, same, seekAmong, peek]

end Seek
end Stands
end Bootscript.Cursor
