import Bootscript.Proofs.Cursor

/-! A cursor under any sequence of calls. Whatever is called, a cursor over a file of text
is a position among the lines of the text. What it answers, what it hands over and how it
counts can be told from them. -/
namespace Bootscript.Cursor

inductive Call where
  | peek
  | advance
  | fetch (peeked : Bool)
  deriving DecidableEq, Repr

inductive Reply where
  | line (outcome : Except Fault (Option Line))
  | window (captured : Capture)

def Reply.captured? : Reply → Option Capture
  | .line _ => none
  | .window captured => some captured

def call (c : Cursor) : Call → Reply × Cursor
  | .peek => (.line c.peek.1, c.peek.2)
  | .advance => (.line c.advance.1, c.advance.2)
  | .fetch false => (.window c.fetch.1, c.fetch.2)
  | .fetch true => (.window c.fetchPeeked.1, c.fetchPeeked.2)

def run (c : Cursor) : List Call → List Reply × Cursor
  | [] => ([], c)
  | first :: calls =>
    ((c.call first).1 :: ((c.call first).2.run calls).1, ((c.call first).2.run calls).2)

def captures (replies : List Reply) : List Capture := replies.filterMap Reply.captured?

def handed (replies : List Reply) : List Line := (captures replies).flatMap Capture.lines

def consumed (replies : List Reply) (c : Cursor) : List Line := handed replies ++ c.window.toList

def windows (replies : List Reply) (c : Cursor) : List Capture := captures replies ++ [c.fetch.1]

/-- The lines that a call moves to the window, of which `next` is the next one. -/
def Call.moves (c : Cursor) (next : Option Line) : Call → List Line
  | .peek => []
  | .advance => next.toList
  | .fetch false => []
  | .fetch true => c.peeked.toList

/-- What can be told from `lines` of a cursor over them, after calls that were answered with
`replies`. The line that is looked at and not handed over stays the next one, and it opens
the next window that is not empty. -/
structure Follows (lines : List Line) (replies : List Reply) (c : Cursor) : Prop where
  answered : ∀ fault, .line (.error fault) ∉ replies
  whole : (consumed replies c ++ c.peeked.toList).map some ++ c.reader.lines = lines.map some
  peek_eq : c.peek.1 = .ok lines[(consumed replies c).length]?
  advance_eq : c.advance.1 = .ok lines[(consumed replies c).length]?
  atEnd_iff : c.peek.1 = .ok none ↔ consumed replies c = lines
  again : c.peek.2.peek = c.peek
  number_eq : c.number = (consumed replies c ++ c.peeked.toList).length
  start_eq : ∀ before window after, windows replies c = before ++ window :: after →
    window.start = if window.lines = [] then none
      else some ((before.flatMap Capture.lines).length + 1)
  consumed_call : ∀ call, consumed (replies ++ [(c.call call).1]) (c.call call).2 =
    consumed replies c ++ call.moves c lines[(consumed replies c).length]?
  fetched : ∀ peeked, (c.call (.fetch peeked)).2.window = #[]
  deferred : ∀ line, c.peeked = some line →
    c.fetch.2.peek.1 = .ok (some line) ∧ c.fetch.2.advance.1 = .ok (some line) ∧
      ∀ calls window,
        (windows (c.fetch.2.run calls).1 (c.fetch.2.run calls).2).find?
          (fun window => !window.lines.isEmpty) = some window →
        window.lines.head? = some line ∧ window.start = some c.number

section Captures

variable (replies more : List Reply) (outcome : Except Fault (Option Line)) (captured : Capture)

@[simp] theorem captures_nil : captures [] = [] := rfl

@[simp] theorem captures_line : captures (.line outcome :: replies) = captures replies := rfl

@[simp] theorem captures_window :
    captures (.window captured :: replies) = captured :: captures replies :=
  rfl

@[simp] theorem captures_append : captures (replies ++ more) = captures replies ++ captures more :=
  List.filterMap_append

@[simp] theorem handed_nil : handed [] = [] := rfl

@[simp] theorem handed_line : handed (.line outcome :: replies) = handed replies := rfl

@[simp] theorem handed_window :
    handed (.window captured :: replies) = captured.lines ++ handed replies :=
  rfl

@[simp] theorem handed_append : handed (replies ++ more) = handed replies ++ handed more := by
  simp [handed]

theorem flatMap_windows (c : Cursor) :
    (windows replies c).flatMap Capture.lines = consumed replies c := by
  rw [windows, List.flatMap_append, consumed, handed, List.flatMap_singleton]
  rfl

end Captures

section Numbered

/-- The windows are numbered by their first lines, after `passed` others. -/
def Numbered (passed : Nat) : List Capture → Prop
  | [] => True
  | window :: windows =>
    (window.start = if window.lines = [] then none else some (passed + 1)) ∧
      Numbered (passed + window.lines.length) windows

variable {passed : Nat} {before after : List Capture} {window : Capture}

theorem numbered_append : Numbered passed (before ++ after) ↔ Numbered passed before ∧
    Numbered (passed + (before.flatMap Capture.lines).length) after := by
  induction before generalizing passed with
  | nil => simp [Numbered]
  | cons window before ih => simp [Numbered, ih, and_assoc, Nat.add_assoc]

/-- The first line of numbered windows opens the first one that is not empty. -/
theorem Numbered.find? {windows : List Capture} (numbered : Numbered passed windows)
    (found : windows.find? (fun window => !window.lines.isEmpty) = some window) :
    window.lines.head? = (windows.flatMap Capture.lines).head? ∧ window.lines ≠ [] ∧
      window.start = some (passed + 1) := by
  induction windows generalizing passed with
  | nil => cases found
  | cons first windows ih =>
    obtain ⟨start, numbered⟩ := numbered
    by_cases empty : first.lines = []
    · rw [List.find?_cons_of_neg (by simp [empty])] at found
      rw [empty] at numbered
      simpa [empty] using ih numbered found
    · rw [List.find?_cons_of_pos (by simp [empty])] at found
      obtain rfl := Option.some.inj found
      rw [if_neg empty] at start
      refine ⟨?_, empty, start⟩
      rw [List.flatMap_cons, List.head?_append_of_ne_nil _ empty]

end Numbered

structure Tracks (lines : List Line) (replies : List Reply) (ahead : List Line) (c : Cursor) :
    Prop where
  answered : ∀ fault, .line (.error fault) ∉ replies
  numbered : Numbered 0 (captures replies)
  stands : c.Stands (handed replies).length c.window.toList (ahead.map some)
  whole : consumed replies c ++ ahead = lines

theorem tracks_ofBytes (text : Text) :
    Tracks (Lines.delivered text) [] (Lines.delivered text) (ofBytes text.encode) where
  answered := nofun
  numbered := trivial
  stands := by
    rw [← Lines.ofBytes_encode_eq_delivered]
    exact stands_ofBytes text.encode
  whole := rfl

namespace Tracks

variable {lines ahead : List Line} {replies : List Reply} {c : Cursor}

theorem next_eq (tracks : Tracks lines replies ahead c) :
    lines[(consumed replies c).length]? = ahead.head? := by
  rw [← tracks.whole, List.getElem?_append_right (Nat.le_refl _), Nat.sub_self,
    List.head?_eq_getElem?]

theorem ahead_eq (tracks : Tracks lines replies ahead c) :
    ∃ rest, ahead = c.peeked.toList ++ rest := by
  have next := tracks.stands.ahead_eq
  cases peeked : c.peeked with
  | none => exact ⟨ahead, rfl⟩
  | some line =>
    rw [ahead_of_peeked_eq_some peeked] at next
    obtain ⟨first, rest, rfl, same, _⟩ := List.map_eq_cons_iff.1 next.symm
    exact ⟨rest, by rw [Option.some.inj same]; rfl⟩

theorem head?_eq (tracks : Tracks lines replies ahead c) {line : Line}
    (peeked : c.peeked = some line) : ahead.head? = some line := by
  obtain ⟨rest, parts⟩ := tracks.ahead_eq
  rw [parts, peeked]
  rfl

/-- A cursor that stands where another does is on the lines as well. -/
theorem of_stands (tracks : Tracks lines replies ahead c) {c' : Cursor}
    (stands : c'.Stands (handed replies).length c.window.toList (ahead.map some)) :
    Tracks lines replies ahead c' := by
  have same := stands.window_eq
  refine ⟨tracks.answered, tracks.numbered, by rwa [same], ?_⟩
  rw [consumed, same]
  exact tracks.whole

theorem peek (tracks : Tracks lines replies ahead c) :
    c.peek.1 = .ok ahead.head? ∧ c.peek.2.peeked = ahead.head? ∧
      Tracks lines replies ahead c.peek.2 := by
  have before := tracks.stands
  cases ahead with
  | nil =>
    obtain ⟨c', peek, stands⟩ := before.peek_nil
    rw [peek]
    exact ⟨rfl, stands.peeked_eq_none, tracks.of_stands stands⟩
  | cons line ahead =>
    obtain ⟨c', peek, peeked, stands⟩ := before.peek_line
    rw [peek]
    exact ⟨rfl, peeked, tracks.of_stands stands⟩

theorem consume (tracks : Tracks lines replies (c.peeked.toList ++ ahead) c) :
    Tracks lines replies ahead c.consume := by
  obtain ⟨answered, numbered, stands, whole⟩ := tracks
  cases peeked : c.peeked with
  | none =>
    rw [peeked] at stands whole
    rw [Cursor.consume, peeked]
    exact ⟨answered, numbered, stands, whole⟩
  | some line =>
    rw [peeked] at stands whole
    have stands := (stands.consume peeked).1
    rw [← stands.window_eq] at stands
    refine ⟨answered, numbered, stands, ?_⟩
    rw [consumed, stands.window_eq, Cursor.consume, peeked]
    simpa [consumed] using whole

theorem reply (tracks : Tracks lines replies ahead c) (line : Option Line) :
    Tracks lines (replies ++ [.line (.ok line)]) ahead c where
  answered := by simpa using tracks.answered
  numbered := by simpa using tracks.numbered
  stands := by simpa using tracks.stands
  whole := by simpa [consumed] using tracks.whole

theorem numbered_windows (tracks : Tracks lines replies ahead c) :
    Numbered 0 (windows replies c) := by
  refine numbered_append.2 ⟨tracks.numbered, ?_, trivial⟩
  rw [Nat.zero_add]
  exact tracks.stands.start_eq

theorem fetch (tracks : Tracks lines replies ahead c) :
    Tracks lines (replies ++ [.window c.fetch.1]) ahead c.fetch.2 where
  answered := by simpa using tracks.answered
  numbered := by
    rw [captures_append, captures_window, captures_nil]
    exact tracks.numbered_windows
  stands := by
    have stands := tracks.stands.fetch.2
    rw [handed_append, handed_window, handed_nil, List.append_nil, List.length_append]
    exact stands
  whole := by simpa [consumed, Cursor.fetch] using tracks.whole

/-- One call keeps the cursor on the lines and moves the lines it is to move. -/
theorem call (tracks : Tracks lines replies ahead c) (call : Call) :
    ∃ rest, ahead = call.moves c ahead.head? ++ rest ∧
      Tracks lines (replies ++ [(c.call call).1]) rest (c.call call).2 := by
  obtain ⟨looked, peeked, tracked⟩ := tracks.peek
  cases call with
  | peek =>
    refine ⟨ahead, rfl, ?_⟩
    rw [Cursor.call, looked]
    exact tracked.reply _
  | advance =>
    obtain ⟨rest, parts⟩ := tracked.ahead_eq
    refine ⟨rest, by rwa [peeked] at parts, ?_⟩
    rw [Cursor.call, advance_fst, looked, advance_snd looked]
    rw [parts] at tracked
    exact tracked.consume.reply _
  | fetch includePeeked =>
    cases includePeeked with
    | false => exact ⟨ahead, rfl, tracks.fetch⟩
    | true =>
      obtain ⟨rest, parts⟩ := tracks.ahead_eq
      rw [parts] at tracks
      exact ⟨rest, parts, tracks.consume.fetch⟩

/-- And so does every sequence of calls. -/
theorem run (tracks : Tracks lines replies ahead c) (calls : List Call) :
    ∃ rest, Tracks lines (replies ++ (c.run calls).1) rest (c.run calls).2 := by
  induction calls generalizing replies ahead c with
  | nil => exact ⟨ahead, by simpa [Cursor.run] using tracks⟩
  | cons first calls ih =>
    obtain ⟨_, _, tracks⟩ := tracks.call first
    obtain ⟨rest, tracks⟩ := ih tracks
    exact ⟨rest, by simpa [Cursor.run] using tracks⟩

theorem consumed_call (tracks : Tracks lines replies ahead c) (call : Call) :
    consumed (replies ++ [(c.call call).1]) (c.call call).2 =
      consumed replies c ++ call.moves c ahead.head? := by
  obtain ⟨rest, parts, tracked⟩ := tracks.call call
  apply (List.append_left_inj rest).1
  rw [tracked.whole, List.append_assoc, ← parts, tracks.whole]

/-- The windows behind a fetch are made of the lines ahead of it, from their first one on. -/
theorem windows_fetch (tracks : Tracks lines replies ahead c) (calls : List Call) :
    ∃ rest, consumed (c.fetch.2.run calls).1 (c.fetch.2.run calls).2 ++ rest = ahead ∧
      Numbered (consumed replies c).length
        (windows (c.fetch.2.run calls).1 (c.fetch.2.run calls).2) := by
  obtain ⟨rest, ran⟩ := tracks.fetch.run calls
  refine ⟨rest, ?_, ?_⟩
  · apply (List.append_right_inj (consumed replies c)).1
    rw [tracks.whole, ← ran.whole]
    simp [consumed, Cursor.fetch]
  · have numbered := ran.numbered_windows
    rw [windows, captures_append, captures_append, captures_window, captures_nil,
      List.append_assoc] at numbered
    have behind := (numbered_append.1 numbered).2
    rwa [Nat.zero_add, ← windows, ← windows, flatMap_windows] at behind

theorem number_eq (tracks : Tracks lines replies ahead c) :
    c.number = (consumed replies c ++ c.peeked.toList).length := by
  rw [tracks.stands.number_eq, consumed]
  cases c.peeked <;> simp [Nat.add_assoc]

theorem deferred (tracks : Tracks lines replies ahead c) {line : Line}
    (peeked : c.peeked = some line) (calls : List Call) {window : Capture}
    (opened : (windows (c.fetch.2.run calls).1 (c.fetch.2.run calls).2).find?
      (fun window => !window.lines.isEmpty) = some window) :
    window.lines.head? = some line ∧ window.start = some c.number := by
  obtain ⟨rest, parts, numbered⟩ := tracks.windows_fetch calls
  obtain ⟨head, nonempty, start⟩ := numbered.find? opened
  rw [flatMap_windows] at head
  constructor
  · have some : consumed (c.fetch.2.run calls).1 (c.fetch.2.run calls).2 ≠ [] := by
      intro none
      rw [none] at head
      exact nonempty (List.head?_eq_none_iff.1 head)
    rw [head, ← List.head?_append_of_ne_nil _ some, parts, tracks.head?_eq peeked]
  · rw [start, tracks.number_eq, peeked, List.length_append]
    rfl

theorem whole_reader (tracks : Tracks lines replies ahead c) :
    (consumed replies c ++ c.peeked.toList).map some ++ c.reader.lines = lines.map some := by
  have upcoming : c.peeked.toList.map some ++ c.reader.lines = ahead.map some := by
    rw [← tracks.stands.ahead_eq, Cursor.ahead]
    cases c.peeked <;> rfl
  rw [← tracks.whole, List.map_append, List.map_append, List.append_assoc, upcoming]

theorem finished_iff (tracks : Tracks lines replies ahead c) :
    c.peek.1 = .ok none ↔ consumed replies c = lines := by
  rw [tracks.peek.1, ← tracks.whole, List.self_eq_append_right, ← List.head?_eq_none_iff]
  exact ⟨Except.ok.inj, congrArg _⟩

theorem follows (tracks : Tracks lines replies ahead c) : Follows lines replies c where
  answered := tracks.answered
  whole := tracks.whole_reader
  peek_eq := by rw [tracks.peek.1, tracks.next_eq]
  advance_eq := by rw [advance_fst, tracks.peek.1, tracks.next_eq]
  atEnd_iff := tracks.finished_iff
  again := peek_peek tracks.peek.1
  number_eq := tracks.number_eq
  start_eq := by
    intro before window after parts
    have numbered := tracks.numbered_windows
    rw [parts] at numbered
    have own := (numbered_append.1 numbered).2.1
    rwa [Nat.zero_add] at own
  consumed_call := by
    intro call
    rw [tracks.next_eq]
    exact tracks.consumed_call call
  fetched := by
    intro peeked
    cases peeked <;> rfl
  deferred := by
    intro line peeked
    have next := tracks.fetch.peek.1
    rw [tracks.head?_eq peeked] at next
    exact ⟨next, by rw [advance_fst, next], fun calls _ opened => tracks.deferred peeked calls opened⟩

end Tracks

/-- Whatever is called on a cursor over a text, no call fails, and the cursor goes through
the lines of the text one by one. -/
theorem follows_run (text : Text) (calls : List Call) :
    Follows (Lines.delivered text) ((ofBytes text.encode).run calls).1
      ((ofBytes text.encode).run calls).2 := by
  obtain ⟨rest, tracks⟩ := (tracks_ofBytes text).run calls
  rw [List.nil_append] at tracks
  exact tracks.follows

example : ((ofBytes (Text.encode "a\nb\nc".toList)).run
    [.advance, .peek, .fetch false, .fetch true, .advance, .peek]).1 =
      [.line (.ok (some ['a'])), .line (.ok (some ['b'])), .window ⟨some 1, [['a']]⟩,
        .window ⟨some 2, [['b']]⟩, .line (.ok (some ['c'])), .line (.ok none)] := by
  rfl

end Bootscript.Cursor
