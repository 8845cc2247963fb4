import Bootscript.Text.Piece

/-! Double-quoted string literals of Python that fit on one line. Literals next to each
other are one string. -/
namespace Bootscript

namespace Piece

/-- Letters of escapes that take digits or a name behind them, which are not read here. -/
def longEscapes : List Char := ['x', 'u', 'U', 'N', '0', '1', '2', '3', '4', '5', '6', '7']

/-- What a piece of a literal stands for. A bare line break is no part of one, and a NUL is
in no source at all. An escape that means nothing stays as it is. -/
def literal? : Piece → Option Text
  | plain c => if c = '\\' ∨ c = '\n' ∨ c = '\r' ∨ c = '\x00' then none else some [c]
  | pair c =>
    if c ∈ ['\\', '"', '\''] then some [c]
    else if c = 'n' then some ['\n']
    else if c = 't' then some ['\t']
    else if c = 'r' then some ['\r']
    else if c = 'a' then some ['\x07']
    else if c = 'b' then some ['\x08']
    else if c = 'f' then some ['\x0c']
    else if c = 'v' then some ['\x0b']
    else if c = '\n' then some []
    else if c = '\r' ∨ c = '\x00' ∨ c ∈ longEscapes then none
    else some ['\\', c]

end Piece

namespace Python

def literals? (line : Line) : Option Text :=
  line.bodies?.bind fun bodies =>
    Piece.readAll Piece.literal? (bodies.flatMap Text.pieces)

end Python
end Bootscript
