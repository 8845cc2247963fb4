import Bootscript.Text.Visible
import Bootscript.Text

/-! Text shown inside an error message: in double quotes, with every character that
could not be told apart on a terminal written as an escape. -/
namespace Bootscript.Text

def hexDigits (n : Nat) : Text := Nat.toDigits 16 n

def showChar (c : Char) : Text :=
  if c = '\x00' then ['\\', '0']
  else if c = '\t' then ['\\', 't']
  else if c = '\r' then ['\\', 'r']
  else if c = '\n' then ['\\', 'n']
  else if c = '"' ∨ c = '\\' then ['\\', c]
  else if isVisible c then [c]
  else ['\\', 'u', '\x7b'] ++ hexDigits c.toNat ++ ['\x7d']

def quoted (text : Text) : Text := '"' :: text.flatMap showChar ++ ['"']

end Bootscript.Text
