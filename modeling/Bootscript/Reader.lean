import Bootscript.Lines

/-! A file that is read line by line. A line is decoded with its terminator and delivered
without it, and a file that ends in a terminator has an empty line behind it. -/
namespace Bootscript

/-- `terminated` tells of the last line that could be decoded whether it ended in LF. -/
structure Reader where
  unread : Bytes
  terminated : Bool := false
  exhausted : Bool := false
  deriving DecidableEq, Repr

namespace Reader

inductive Fault where
  | undecodable
  deriving DecidableEq, Repr

def cut (data : Bytes) : Bytes × Bytes :=
  match data.dropWhile (· ≠ 0x0A) with
  | [] => (data, [])
  | feed :: rest => (data.takeWhile (· ≠ 0x0A) ++ [feed], rest)

def trim (line : Text) : Line := (line.reverse.dropWhile fun c => c = '\r' || c = '\n').reverse

/-- The next line, or nothing at the end. Of an undecodable line only its bytes are gone. -/
def next (r : Reader) : Except Fault (Option Line) × Reader :=
  if r.exhausted then (.ok none, r)
  else if r.unread.isEmpty then
    (.ok (if r.terminated then some [] else none), { r with exhausted := true })
  else
    let (line, rest) := cut r.unread
    match Text.decode? line with
    | none => (.error .undecodable, { r with unread := rest })
    | some line =>
      (.ok (some (trim line)), { r with unread := rest, terminated := line.getLast? = some '\n' })

/-- The lines that are still delivered, as far as `fuel` reaches. -/
def linesWithin : Nat → Reader → List (Option Line)
  | 0, _ => []
  | fuel + 1, r =>
    match r.next with
    | (.error .undecodable, r) => none :: linesWithin fuel r
    | (.ok none, _) => []
    | (.ok (some line), r) => some line :: linesWithin fuel r

/-- All lines that are still delivered, `none` for one that is not UTF-8. Each but the
empty line at the end takes a byte or more. -/
def lines (r : Reader) : List (Option Line) := linesWithin (r.unread.length + 1) r

end Reader
end Bootscript
