import Bootscript.Cursor
import Bootscript.Script.Basic

/-! Reading a script. Only the directive, section markers and the notice mean anything;
a file without them is all body. Inside a section start markers are content, outside of
sections end markers are ordinary lines. -/
namespace Bootscript.Script

inductive Malformed where
  | mismatch (line column : Nat) (expected found : Text)
  | unterminated (name : Text)
  | undecodable
  deriving DecidableEq, Repr

def Malformed.message : Malformed → String
  | mismatch line column expected found =>
    toString line ++ ": " ++ toString column ++ ": section end name (\"" ++ String.ofList found ++
      "\") doesn't match start name (\"" ++ String.ofList expected ++ "\")"
  | unterminated name =>
    "reached end of file when looking for section \"" ++ String.ofList name ++ "\" end marker"
  | undecodable => "stream did not contain valid UTF-8"

/-- Any line that starts with `#!` is a directive, or only the one that is written. -/
def isDirective (canonical : Bool) (line : Line) : Bool :=
  ['#', '!'].isPrefixOf line && (!canonical || line == directiveLine)

/-- Consumes lines up to one that `find` accepts, and that one. Yields what it found,
the number of its line and the lines before it. -/
def through {α : Type} (find : Line → Option α) (c : Cursor) :
    Except Malformed (Option (α × Nat × List Line) × Cursor) :=
  match c.seek find with
  | .error .undecodable => .error .undecodable
  | .ok (none, c) => .ok (none, c)
  | .ok (some found, c) =>
    let (before, rest) := c.fetch
    .ok (some (found, c.number, before.lines), rest.fetchPeeked.2)

/-- The next section, or `none` when no start marker is left. The window then holds all
lines that remain. -/
def nextSection (c : Cursor) : Except Malformed (Option Section × Cursor) := do
  match ← through Marker.start? c with
  | (none, c) => return (none, c)
  | (some (name, _, leading), c) =>
    match ← through Marker.finish? c with
    | (none, _) => .error (.unterminated name)
    | (some ((found, column), line, content), c) =>
      if found = name then return (some ⟨leading, name, content⟩, c)
      else .error (.mismatch line column name found)

/-- The sections among the lines ahead, which bound the recursion: a section takes two
lines or more. -/
def sectionsAmong : List (Option Line) → List Section → Cursor →
    Except Malformed (List Section × Cursor)
  | [], read, c => .ok (read, c)
  | _ :: ahead, read, c => do
    match ← nextSection c with
    | (none, c) => return (read, c)
    | (some s, c) => sectionsAmong ahead (insertSection s read) c

def splitNotice (lines : List Line) : List Line × Option (List Line) :=
  match lines.dropWhile (· ≠ notice) with
  | [] => (lines, none)
  | _ :: embedded => (lines.takeWhile (· ≠ notice), some embedded)

/-- Whether the first line is a directive, and the cursor after it if it is. -/
def takeDirective (canonical : Bool) (c : Cursor) : Except Malformed (Bool × Cursor) :=
  match c.peek with
  | (.error .undecodable, _) => .error .undecodable
  | (.ok line, c) =>
    if line.any (isDirective canonical) then .ok (true, c.fetchPeeked.2) else .ok (false, c)

/-- Reads a script, keeping of two sections of one name the later in the place of the earlier. -/
def parse (canonical : Bool) (data : Bytes) : Except Malformed Script := do
  let (directive, c) ← takeDirective canonical (Cursor.ofBytes data)
  let (sections, c) ← sectionsAmong c.ahead [] c
  let (content, embedded) := splitNotice c.fetchPeeked.1.lines
  return { directive, sections, content, embedded }

end Bootscript.Script
