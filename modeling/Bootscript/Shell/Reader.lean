import Bootscript.Text.Piece

/-! What the shell makes of double-quoted words in which nothing is expanded, and `printf`
of the argument of its `%b`. -/
namespace Bootscript

namespace Piece

/-- Characters that lose a backslash in front of them inside double quotes. -/
def shellSpecial : List Char := ['$', '\x60', '"', '\\']

/-- A pair with a line feed is a continued line. All other pairs stay as they are. -/
def unescaped : Piece → Text
  | plain c => [c]
  | pair c => if c ∈ shellSpecial then [c] else if c = '\n' then [] else ['\\', c]

/-- What `printf` prints for `%b`. Only the escapes of a backslash and a line feed are read. -/
def printed? : Piece → Option Text
  | plain c => some [c]
  | pair c => if c = '\\' then some ['\\'] else if c = 'n' then some ['\n'] else none

end Piece

namespace Shell

/-- Removes one level of escapes from the inside of a double-quoted word. -/
def unescape (body : Text) : Text := body.pieces.flatMap Piece.unescaped

def printf? (argument : Text) : Option Text := Piece.readAll Piece.printed? argument.pieces

/-- The words of a line that is nothing but double-quoted words with single spaces between. -/
def words? (line : Line) : Option (List Text) := line.bodies?.map (·.map unescape)

end Shell
end Bootscript
