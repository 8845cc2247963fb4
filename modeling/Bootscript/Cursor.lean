import Bootscript.Reader

/-! A cursor over the lines of a file with one line of lookahead. Every consumed line
enters the open window; a fetch hands the window over and opens the next one. -/
namespace Bootscript

/-- The lines consumed since the fetch before, and the number of the first of them. -/
structure Capture where
  start : Option Nat
  lines : List Line
  deriving DecidableEq, Repr

/-- `number` counts the lines looked at so far, undecodable ones apart. -/
structure Cursor where
  reader : Reader
  peeked : Option Line := none
  number : Nat := 0
  start : Option Nat := none
  window : Array Line := #[]
  deriving DecidableEq, Repr

namespace Cursor

abbrev Fault := Reader.Fault

def ofBytes (data : Bytes) : Cursor := { reader := { unread := data } }

/-- The lines not consumed yet, the peeked one first. -/
def ahead (c : Cursor) : List (Option Line) := (c.peeked.map some).toList ++ c.reader.lines

/-- Looks at the next line without consuming it. An undecodable line is passed over. -/
def peek (c : Cursor) : Except Fault (Option Line) × Cursor :=
  match c.peeked with
  | some line => (.ok (some line), c)
  | none =>
    match c.reader.next with
    | (.error fault, reader) => (.error fault, { c with reader })
    | (.ok none, reader) => (.ok none, { c with reader })
    | (.ok (some line), reader) =>
      (.ok (some line), { c with reader, peeked := some line, number := c.number + 1 })

/-- Moves the peeked line, if there is one, into the window. -/
def consume (c : Cursor) : Cursor :=
  match c.peeked with
  | none => c
  | some line =>
    let start := if c.window.isEmpty then some c.number else c.start
    { c with peeked := none, start, window := c.window.push line }

def advance (c : Cursor) : Except Fault (Option Line) × Cursor :=
  match c.peek with
  | (.ok line, c) => (.ok line, c.consume)
  | (.error fault, c) => (.error fault, c)

/-- Hands the window over, without the peeked line, which will open the next window. -/
def fetch (c : Cursor) : Capture × Cursor :=
  (⟨c.start, c.window.toList⟩, { c with window := #[], start := none })

def fetchPeeked (c : Cursor) : Capture × Cursor := c.consume.fetch

@[simp] theorem ahead_fetch (c : Cursor) : c.fetch.2.ahead = c.ahead := rfl

def seekAmong {α : Type} (find : Line → Option α) :
    List (Option Line) → Cursor → Except Fault (Option α × Cursor)
  | [], c => .ok (none, c)
  | _ :: ahead, c =>
    match c.peek with
    | (.error fault, _) => .error fault
    | (.ok none, c) => .ok (none, c)
    | (.ok (some line), c) =>
      match find line with
      | some found => .ok (some found, c)
      | none => seekAmong find ahead c.consume

/-- Consumes lines up to the first one that `find` accepts, which stays peeked. -/
def seek {α : Type} (find : Line → Option α) (c : Cursor) : Except Fault (Option α × Cursor) :=
  seekAmong find c.ahead c

end Cursor
end Bootscript
