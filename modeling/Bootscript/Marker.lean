import Bootscript.Text

/-! The comment lines that open and close a named section, `# NAME -->` and `# <-- NAME`.
The arrows hold only characters that names may hold too, but stand at fixed places. -/
namespace Bootscript.Marker

/-- Names are made of ASCII letters and digits, spaces and dashes. -/
def isNameChar (c : Char) : Bool := c.isAlphanum || c == ' ' || c == '-'

def isName (name : Text) : Bool := !name.isEmpty && name.all isNameChar

def startOpening : Text := ['#', ' ']
def startClosing : Text := [' ', '-', '-', '>']
def finishOpening : Text := ['#', ' ', '<', '-', '-', ' ']

def start (name : Text) : Line := startOpening ++ name ++ startClosing

def finish (name : Text) : Line := finishOpening ++ name

def after? (opening line : Text) : Option Text :=
  if opening.isPrefixOf line then some (line.drop opening.length) else none

def before? (closing line : Text) : Option Text :=
  if closing.isSuffixOf line then some (line.take (line.length - closing.length)) else none

def start? (line : Line) : Option Text :=
  (after? startOpening line).bind fun rest =>
  (before? startClosing rest).bind fun name =>
  if isName name then some name else none

/-- The name of the section that the line closes and the column, from 1, where it begins. -/
def finish? (line : Line) : Option (Text × Nat) :=
  (after? finishOpening line).bind fun name =>
  if isName name then some (name, finishOpening.length + 1) else none

end Bootscript.Marker
