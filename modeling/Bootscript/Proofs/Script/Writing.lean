import Bootscript.Script.Writer
import Bootscript.Proofs.Lines

/-! Writing a script into a buffer of limited room. The chunks are the lines and the line feeds
between them, so the room may end in the middle of a marker or of a character. What is written
then is still a beginning of the script's bytes, and writing succeeds just if all of them fit. -/
namespace Bootscript

namespace Sink

variable {sink : Sink} {text chunk : Bytes}

structure Holds (sink : Sink) (text : Bytes) : Prop where
  written : sink.written.toList = text.take sink.capacity
  overflowed : sink.overflowed = decide (sink.capacity < text.length)

@[simp] theorem capacity_write : (sink.write chunk).capacity = sink.capacity := by
  unfold write
  split <;> rfl

theorem holds_empty (capacity : Nat) : ({ capacity } : Sink).Holds [] where
  written := by simp
  overflowed := by simp

/-- An empty chunk fits even if there is no room left. -/
theorem Holds.write (holds : sink.Holds text) (chunk : Bytes) :
    (sink.write chunk).Holds (text ++ chunk) := by
  by_cases full : sink.capacity < text.length
  · have overflowed : sink.overflowed = true := by simp [holds.overflowed, full]
    have unchanged : sink.write chunk = sink := by simp [Sink.write, overflowed]
    rw [unchanged]
    constructor
    · rw [holds.written, List.take_append_of_le_length (Nat.le_of_lt full)]
    · rw [overflowed, List.length_append]
      exact (decide_eq_true (by omega)).symm
  · have room : text.length ≤ sink.capacity := Nat.le_of_not_lt full
    have written : sink.written.toList = text := by rw [holds.written, List.take_of_length_le room]
    have size : sink.written.size = text.length := by rw [← written, Array.length_toList]
    have unfilled : sink.overflowed = false := by simp [holds.overflowed, full]
    constructor
    · rw [capacity_write, List.take_append, List.take_of_length_le room]
      simp [Sink.write, unfilled, size, written]
    · have overflowed : (sink.write chunk).overflowed =
          decide (sink.capacity - text.length < chunk.length) := by
        simp [Sink.write, unfilled, size]
      rw [overflowed, capacity_write, List.length_append]
      exact decide_eq_decide.2 (by omega)

theorem Holds.writeLine (holds : sink.Holds text) (line : Line) :
    (Script.writeLine sink line).Holds (text ++ ([0x0A] ++ line.encode)) := by
  rw [← List.append_assoc]
  exact (holds.write [0x0A]).write line.encode

/-- Lines written one after another, each behind a line feed. -/
theorem Holds.foldl_writeLine (holds : sink.Holds text) (lines : List Line) :
    (lines.foldl Script.writeLine sink).Holds
      (text ++ lines.flatMap fun line => [0x0A] ++ line.encode) := by
  induction lines generalizing sink text with
  | nil => simpa using holds
  | cons line lines ih =>
    rw [List.foldl_cons, List.flatMap_cons, ← List.append_assoc]
    exact ih (holds.writeLine line)

theorem Holds.outcome_eq (holds : sink.Holds text) :
    sink.outcome = if text.length ≤ sink.capacity then .ok () else .error .writeZero := by
  rw [outcome, holds.overflowed]
  by_cases room : text.length ≤ sink.capacity
  · simp [room]
  · simp [room, Nat.lt_of_not_le room]

end Sink

namespace Script

@[simp] theorem capacity_foldl_writeLine (sink : Sink) (lines : List Line) :
    (lines.foldl writeLine sink).capacity = sink.capacity := by
  induction lines generalizing sink with
  | nil => rfl
  | cons line lines ih => simp [ih, writeLine]

@[simp] theorem capacity_write (s : Script) (sink : Sink) :
    (s.write sink).capacity = sink.capacity := by
  simp [write]

theorem bytes_eq (s : Script) :
    s.bytes = directiveLine.encode ++ s.body.flatMap fun line => [0x0A] ++ line.encode := by
  rw [bytes, text, Text.encode_join, lines, List.map_cons]
  generalize directiveLine = first
  induction s.body generalizing first with
  | nil => simp
  | cons line lines ih => simp [List.intercalate_cons_cons, ih]

theorem holds_write (s : Script) (capacity : Nat) :
    (s.write { capacity }).Holds s.bytes := by
  rw [bytes_eq]
  exact ((Sink.holds_empty capacity).write directiveLine.encode).foldl_writeLine s.body

/-- Writing into a buffer puts as many of the script's bytes into it as it has room for, and
succeeds just if it has room for all of them. -/
theorem write_eq_take (s : Script) (limit : Nat) :
    (s.write { capacity := limit }).written.toList = s.bytes.take limit ∧
      (s.write { capacity := limit }).outcome =
        if s.bytes.length ≤ limit then .ok () else .error .writeZero := by
  have holds := s.holds_write limit
  have limited : (s.write { capacity := limit }).capacity = limit := s.capacity_write _
  constructor
  · rw [holds.written, limited]
  · rw [holds.outcome_eq, limited]

end Script
end Bootscript
