import Bootscript.Proofs.Cursor

/-! Scanning a file to its end whatever its bytes. A line that is not UTF-8 is one error in
its place, and the scan goes on behind it. Such a line is not counted, though, and it does not
end the file in a terminator, so its file is delivered as its line feeds part it only if no
line, or every line, is of that kind. -/
namespace Bootscript

namespace Lines

def parted (data : Bytes) : List (Option Line) := if data = [] then [] else physical data

variable {data : Bytes}

theorem physical_encode (text : Text) : physical text.encode = (ofText text).map some := by
  rw [physical, Text.split_encode, ofText, List.map_map, List.map_map]
  exact List.map_congr_left fun line _ => decodeLine_encode line

theorem ofBytes_eq_parted_of_decodable (decodable : none ∉ physical data) :
    ofBytes data = parted data := by
  cases decoded : Text.decode? data with
  | none => exact absurd (decode?_eq_none_iff.1 decoded) decodable
  | some text =>
    have empty : text.encode = [] ↔ text = [] := by
      cases text <;> simp [Text.encode, String.utf8EncodeChar_ne_nil]
    rw [Text.decode?_eq_some_iff.1 decoded, ofBytes_encode, parted, physical_encode]
    simp only [empty]

/-- Behind a last line that is not UTF-8 an empty one is delivered if any line could be decoded. -/
theorem ofBytes_of_last_undecodable (last : (physical data).getLast? = some none) :
    ofBytes data =
      physical data ++ if (physical data).any Option.isSome then [some []] else [] := by
  obtain absurd | ⟨before, piece, pieces⟩ := List.eq_nil_or_concat' (split 0x0A data)
  · exact (split_ne_nil _ _ absurd).elim
  have undecodable : decodeLine piece = none := by simpa [physical, pieces] using last
  have nonempty : piece.isEmpty = false := by
    cases piece
    · cases undecodable
    · rfl
  simp [ofBytes, physical, pieces, endsOpen, undecodable, nonempty, List.any_map]

theorem getLast?_physical_of_dropWhile (undecodable : none ∈ physical data)
    (behind : ∀ line ∈ (physical data).dropWhile Option.isSome, line = none) :
    (physical data).getLast? = some none := by
  have more : (physical data).dropWhile Option.isSome ≠ [] := fun nothing => by
    simpa using List.dropWhile_eq_nil_iff.1 nothing none undecodable
  rw [← List.takeWhile_append_dropWhile (p := Option.isSome) (l := physical data),
    List.getLast?_append_of_ne_nil _ more, List.getLast?_eq_some_getLast more,
    behind _ (List.getLast_mem more)]

/-- All lines are as the line feeds part them, with no line behind one that is not UTF-8, only
if none is of that kind or all are. -/
theorem ofBytes_eq_parted_iff :
    (ofBytes data = parted data ∧ ∀ line ∈ (parted data).dropWhile Option.isSome, line = none) ↔
      none ∉ physical data ∨ ∀ line ∈ physical data, line = none := by
  have filled (undecodable : none ∈ physical data) : parted data = physical data :=
    if_neg fun empty => by subst empty; revert undecodable; decide
  by_cases undecodable : none ∈ physical data
  · rw [filled undecodable]
    constructor
    · rintro ⟨same, behind⟩
      rw [ofBytes_of_last_undecodable (getLast?_physical_of_dropWhile undecodable behind)] at same
      exact .inr (by simpa [Option.eq_none_iff_forall_ne_some] using same)
    · rintro (decodable | all)
      · exact absurd undecodable decodable
      · have last := getLast?_physical_of_dropWhile undecodable fun line member =>
          all line ((List.dropWhile_sublist _).subset member)
        have nothing : (physical data).any Option.isSome = false :=
          List.any_eq_false.2 fun line member => by simp [all line member]
        refine ⟨?_, fun line member => all line ((List.dropWhile_sublist _).subset member)⟩
        rw [ofBytes_of_last_undecodable last, nothing, if_neg Bool.false_ne_true, List.append_nil]
  · have nothing : (parted data).dropWhile Option.isSome = [] := by
      refine List.dropWhile_eq_nil_iff.2 fun line member => ?_
      have physical : line ∈ physical data := by
        unfold parted at member
        split at member
        · cases member
        · exact member
      exact Option.isSome_iff_ne_none.2 (ne_of_mem_of_not_mem physical undecodable)
    simp [undecodable, nothing, ofBytes_eq_parted_of_decodable undecodable]

end Lines

namespace Cursor

inductive Step where
  | peek
  | advance
  deriving DecidableEq, Repr

def step (c : Cursor) : Step → Except Fault (Option Line) × Cursor
  | .peek => c.peek
  | .advance => c.advance

inductive Answer where
  | delivered (line : Line) (number : Nat)
  | undecodable
  | finished
  deriving DecidableEq, Repr

def Answer.of (number : Nat) : Except Fault (Option Line) → Answer
  | .ok (some line) => .delivered line number
  | .ok none => .finished
  | .error .undecodable => .undecodable

def scan (c : Cursor) : List Step → List Answer
  | [] => []
  | first :: steps =>
    .of (c.step first).2.number (c.step first).1 :: (c.step first).2.scan steps

/-- The answers to steps while lines with the answers `upcoming` are ahead. Only a line that
can be peeked at is there for the next step as well. -/
def answers : List Answer → List Step → List Answer
  | _, [] => []
  | [], _ :: steps => .finished :: answers [] steps
  | .delivered line number :: upcoming, .peek :: steps =>
    .delivered line number :: answers (.delivered line number :: upcoming) steps
  | first :: upcoming, _ :: steps => first :: answers upcoming steps

/-- Lines as answers, numbered behind `passed` others. Lines that are not UTF-8 take numbers
as well only if they are `counted`. -/
def labelled (counted : Bool) (passed : Nat) : List (Option Line) → List Answer
  | [] => []
  | some line :: lines => .delivered line (passed + 1) :: labelled counted (passed + 1) lines
  | none :: lines => .undecodable :: labelled counted (if counted then passed + 1 else passed) lines

section Steps

variable {c : Cursor} {passed : Nat} {window : List Line} {ahead : List (Option Line)}

theorem consume_of_peeked_eq_none (nothing : c.peeked = none) : c.consume = c := by
  simp [Cursor.consume, nothing]

theorem Stands.step_nil (stands : c.Stands passed window []) (first : Step) :
    ∃ c', c.step first = (.ok none, c') ∧ c'.Stands passed window [] := by
  obtain ⟨c', peek, stands⟩ := stands.peek_nil
  refine ⟨c', ?_, stands⟩
  cases first with
  | peek => exact peek
  | advance =>
    simp [Cursor.step, Cursor.advance, peek, consume_of_peeked_eq_none stands.peeked_eq_none]

theorem Stands.step_undecodable (stands : c.Stands passed window (none :: ahead))
    (first : Step) :
    ∃ c', c.step first = (.error .undecodable, c') ∧ c'.Stands passed window ahead := by
  obtain ⟨c', peek, stands⟩ := stands.peek_undecodable
  refine ⟨c', ?_, stands⟩
  cases first with
  | peek => exact peek
  | advance => simp [Cursor.step, Cursor.advance, peek]

theorem Stands.step_line {line : Line} (stands : c.Stands passed window (some line :: ahead))
    (first : Step) :
    ∃ c', c.step first = (.ok (some line), c') ∧ c'.number = passed + window.length + 1 ∧
      match first with
      | .peek => c'.Stands passed window (some line :: ahead)
      | .advance => c'.Stands passed (window ++ [line]) ahead := by
  obtain ⟨c', peek, peeked, stands⟩ := stands.peek_line
  cases first with
  | peek => exact ⟨c', peek, by simp [stands.number_eq, peeked], stands⟩
  | advance =>
    obtain ⟨consumed, nothing⟩ := stands.consume peeked
    refine ⟨c'.consume, by simp [Cursor.step, Cursor.advance, peek], ?_, consumed⟩
    simp [consumed.number_eq, nothing, Nat.add_assoc]

/-- A scan goes through the lines ahead one by one, and numbers those that it delivers. -/
theorem Stands.scan_eq (stands : c.Stands passed window ahead) (steps : List Step) :
    c.scan steps = answers (labelled false (passed + window.length) ahead) steps := by
  induction steps generalizing c window ahead with
  | nil => simp [scan, answers]
  | cons first steps ih =>
    match ahead with
    | [] =>
      obtain ⟨c', taken, stands⟩ := stands.step_nil first
      simp only [scan, taken, ih stands, labelled, answers, Answer.of]
    | none :: ahead =>
      obtain ⟨c', taken, stands⟩ := stands.step_undecodable first
      simp [scan, taken, ih stands, labelled, answers, Answer.of]
    | some line :: ahead =>
      obtain ⟨c', taken, number, stands⟩ := stands.step_line first
      cases first with
      | peek => simp [scan, taken, number, ih stands, labelled, answers, Answer.of]
      | advance =>
        simp [scan, taken, number, ih stands, labelled, answers, Answer.of, Nat.add_assoc]

end Steps

section Answers

theorem answers_advance (upcoming : List Answer) (count : Nat) :
    answers upcoming (List.replicate count .advance) =
      upcoming.take count ++ List.replicate (count - upcoming.length) .finished := by
  induction count generalizing upcoming with
  | zero => simp [answers]
  | succ count ih =>
    cases upcoming with
    | nil => simpa [answers, List.replicate_succ] using ih []
    | cons first upcoming => simp [answers, List.replicate_succ, ih]

/-- Lines can be told from the answers to all sequences of steps, as their end can. -/
theorem answers_injective {first second : List Answer} (more : Answer.finished ∉ first)
    (more' : Answer.finished ∉ second)
    (same : ∀ steps, answers first steps = answers second steps) :
    first = second := by
  have others {upcoming : List Answer} (more : Answer.finished ∉ upcoming) :
      ∀ answer ∈ upcoming, decide (answer ≠ .finished) := fun answer member =>
    decide_eq_true (ne_of_mem_of_not_mem member more)
  have delivered {upcoming : List Answer} (more : Answer.finished ∉ upcoming) (count : Nat) :
      (upcoming ++ List.replicate count Answer.finished).takeWhile (· ≠ .finished) = upcoming := by
    rw [List.takeWhile_append_of_pos (others more)]
    simp
  have whole := same (List.replicate (first.length + second.length) .advance)
  rw [answers_advance, answers_advance, List.take_of_length_le (by omega),
    List.take_of_length_le (by omega)] at whole
  rw [← delivered more, whole, delivered more']

end Answers

section Labelled

variable {counted : Bool} {passed passed' : Nat} {lines : List (Option Line)}

theorem finished_not_mem_labelled : Answer.finished ∉ labelled counted passed lines := by
  induction lines generalizing passed with
  | nil => simp [labelled]
  | cons line lines ih => cases line <;> simp [labelled, ih]

def Answer.line? : Answer → Option Line
  | .delivered line _ => some line
  | _ => none

theorem line?_labelled : (labelled counted passed lines).map Answer.line? = lines := by
  induction lines generalizing passed with
  | nil => rfl
  | cons line lines ih => cases line <;> simp [labelled, Answer.line?, ih]

theorem labelled_of_lt (behind : passed < passed') :
    labelled false passed lines = labelled true passed' lines ↔ ∀ line ∈ lines, line = none := by
  induction lines generalizing passed' with
  | nil => simp [labelled]
  | cons line lines ih =>
    cases line with
    | none => simp [labelled, ih (Nat.lt_succ_of_lt behind)]
    | some line =>
      have other : passed ≠ passed' := Nat.ne_of_lt behind
      simp [labelled, other]

/-- The numbers are the same just if no line follows one that is not counted. -/
theorem labelled_eq_iff :
    labelled false passed lines = labelled true passed lines ↔
      ∀ line ∈ lines.dropWhile Option.isSome, line = none := by
  induction lines generalizing passed with
  | nil => simp [labelled]
  | cons line lines ih =>
    cases line with
    | none => simp [labelled, labelled_of_lt (Nat.lt_succ_self passed)]
    | some line => simp [labelled, ih]

theorem labelled_eq_labelled_iff {delivered : List (Option Line)} :
    labelled false passed delivered = labelled true passed lines ↔
      delivered = lines ∧ ∀ line ∈ lines.dropWhile Option.isSome, line = none := by
  constructor
  · intro same
    have equal := congrArg (List.map Answer.line?) same
    rw [line?_labelled, line?_labelled] at equal
    subst equal
    exact ⟨rfl, labelled_eq_iff.1 same⟩
  · rintro ⟨rfl, last⟩
    exact labelled_eq_iff.2 last

end Labelled

/-- A scan of any file, with peeks and advances in any order that go on after an error, goes
through its lines one by one. Their numbers are those of the file as its line feeds part it, and
so are the lines, just if no line or every line of it is not UTF-8: otherwise a line behind one
that is not UTF-8 has the number of an earlier one, or the last line is not as it is parted. -/
theorem scan_ofBytes (data : Bytes) :
    (∀ steps, (ofBytes data).scan steps = answers (labelled false 0 (Lines.ofBytes data)) steps) ∧
      ((∀ steps, (ofBytes data).scan steps = answers (labelled true 0 (Lines.parted data)) steps) ↔
        none ∉ Lines.physical data ∨ ∀ line ∈ Lines.physical data, line = none) := by
  have scanned (steps : List Step) :
      (ofBytes data).scan steps = answers (labelled false 0 (Lines.ofBytes data)) steps :=
    (stands_ofBytes data).scan_eq steps
  have numbered : labelled false 0 (Lines.ofBytes data) = labelled true 0 (Lines.parted data) ↔
      none ∉ Lines.physical data ∨ ∀ line ∈ Lines.physical data, line = none :=
    labelled_eq_labelled_iff.trans Lines.ofBytes_eq_parted_iff
  refine ⟨scanned, ?_⟩
  rw [← numbered]
  constructor
  · intro parted
    refine answers_injective finished_not_mem_labelled finished_not_mem_labelled fun steps => ?_
    rw [← scanned, parted]
  · intro same steps
    rw [scanned, same]

/-- The third line of a file is numbered 2 behind a second that is not UTF-8. -/
theorem scan_behind_undecodable :
    let data : Bytes := [0x61, 0x0A, 0xFF, 0x0A, 0x62]
    let steps := List.replicate 4 Step.advance
    (ofBytes data).scan steps =
        [.delivered ['a'] 1, .undecodable, .delivered ['b'] 2, .finished] ∧
      (ofBytes data).scan steps ≠ answers (labelled true 0 (Lines.parted data)) steps := by
  decide +kernel

end Cursor
end Bootscript
