import Bootscript.Python.Literal
import Bootscript.Toml.Parser

/-! String literals of Python in single quotes, with all their escapes. The names that a
character may be escaped by are left to a parameter. -/
namespace Bootscript.Python

def hexWidth? (c : Char) : Option Nat :=
  match c with
  | 'x' => some 2
  | 'u' => some 4
  | 'U' => some 8
  | _ => none

def braced? : Text → Option Text
  | '\x7b' :: rest => if '\x7d' ∈ rest then some (rest.takeWhile (· ≠ '\x7d')) else none
  | _ => none

/-- What an escape stands for, read behind its backslash, and how many characters it takes
there. A line break may be escaped, as LF, as CR or as both. -/
def escape? (names : Text → Option Char) (text : Text) : Option (Text × Nat) :=
  match text with
  | [] => none
  | c :: rest =>
    if c = '\x00' then none
    else if c = '\r' then some ([], if rest.head? = some '\n' then 2 else 1)
    else if text.octal ≠ [] then
      some ([Char.ofNat (Nat.ofDigitChars 8 text.octal 0)], text.octal.length)
    else if c = 'N' then do
      let name ← braced? rest
      return ([← names name], name.length + 3)
    else match hexWidth? c with
      | some width =>
        if width ≤ rest.length then
          (Toml.hexChar? (rest.take width)).map fun char => ([char], width + 1)
        else none
      | none => (Piece.pair c).literal?.map fun value => (value, 1)

/-- Characters that do not stand for themselves in such a literal: its quote, the backslash,
and those that cannot be in one. -/
def special : List Char := ['\'', '\\', '\n', '\r', '\x00']

def quoted? (names : Text → Option Char) (text : Text) : Option (Text × Text) :=
  match text with
  | [] => none
  | c :: rest =>
    if c = '\'' then some ([], rest)
    else if c = '\\' then do
      let (value, extent) ← escape? names rest
      let (further, after) ← quoted? names (rest.drop extent)
      return (value ++ further, after)
    else if c ∈ special then none
    else (quoted? names rest).map fun (value, after) => (c :: value, after)
termination_by text.length
decreasing_by all_goals simp; try omega

/-- Reads a literal. Three quotes start one over several lines, which is not read here. -/
def string? (names : Text → Option Char) : Text → Option (Text × Text)
  | '\'' :: '\'' :: '\'' :: _ => none
  | '\'' :: text => quoted? names text
  | _ => none

end Bootscript.Python
