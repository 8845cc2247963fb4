import Bootscript.Text

/-! JSON text laid out over several lines, two spaces for each level. An empty list
stays on its line. -/
namespace Bootscript.Json

def hexDigit (n : Nat) : Char := Char.ofNat (if n < 10 then '0'.toNat + n else 'a'.toNat + (n - 10))

/-- Quotes, backslashes and characters below U+0020 are escaped and nothing else. -/
def escapeChar (c : Char) : Text :=
  if c = '"' then ['\\', '"']
  else if c = '\\' then ['\\', '\\']
  else if c = '\x08' then ['\\', 'b']
  else if c = '\x0c' then ['\\', 'f']
  else if c = '\n' then ['\\', 'n']
  else if c = '\r' then ['\\', 'r']
  else if c = '\t' then ['\\', 't']
  else if c.toNat < 0x20 then
    ['\\', 'u', '0', '0', hexDigit (c.toNat / 16), hexDigit (c.toNat % 16)]
  else [c]

def string (text : Text) : Text := '"' :: text.flatMap escapeChar ++ ['"']

def bool (b : Bool) : Text := (if b then "true" else "false").toList

def newline (level : Nat) : Text := '\n' :: List.replicate (2 * level) ' '

/-- Items on lines of their own, one level further in than the brackets. -/
def block (opening closing : Char) (level : Nat) (items : List Text) : Text :=
  match items with
  | [] => [opening, closing]
  | items =>
    opening :: [','].intercalate (items.map (newline (level + 1) ++ ·)) ++ newline level ++ [closing]

def array (level : Nat) (items : List Text) : Text := block '[' ']' level items

def object (level : Nat) (fields : List (Text × Text)) : Text :=
  block '\x7b' '\x7d' level (fields.map fun field => string field.1 ++ [':', ' '] ++ field.2)

end Bootscript.Json
