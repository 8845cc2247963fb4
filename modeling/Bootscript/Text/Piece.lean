import Bootscript.Text

/-! Text in which a backslash belongs to the character after it. The shell, `printf` and
Python cut quoted text into the same pieces and differ in what a pair means to them. -/
namespace Bootscript

/-- A character of quoted text, alone or with a backslash in front of it. -/
inductive Piece where
  | plain (c : Char)
  | pair (c : Char)
  deriving DecidableEq, Repr

namespace Piece

def text : Piece → Text
  | plain c => [c]
  | pair c => ['\\', c]

/-- What a reader makes of pieces, if it takes all of them. -/
def readAll (read : Piece → Option Text) : List Piece → Option Text
  | [] => some []
  | piece :: rest => do return (← read piece) ++ (← readAll read rest)

end Piece

namespace Text

/-- Backslashes are paired from the left. One at the end of the text stands alone. -/
def pieces : Text → List Piece
  | [] => []
  | c :: rest =>
    if c = '\\' then
      match rest with
      | [] => [.plain '\\']
      | escaped :: rest => .pair escaped :: pieces rest
    else .plain c :: pieces rest

/-- The octal digits of an escape: those that the text starts with, but at most three. -/
def octal (text : Text) : Text := (text.takeWhile fun c => '0' ≤ c && c ≤ '7').take 3

mutual

/-- The bodies of double-quoted strings, if the text is a run of them with one space
between two. -/
def bodies? : Text → Option (List Text)
  | [] => none
  | c :: rest => if c = '"' then bodiesOnto [] rest else none

/-- Reads on in a body, of which `body` is read and reversed. A quote with a backslash in
front does not end it. -/
def bodiesOnto (body : Text) : Text → Option (List Text)
  | [] => none
  | c :: rest =>
    if c = '\\' then
      match rest with
      | [] => none
      | escaped :: rest => bodiesOnto (escaped :: '\\' :: body) rest
    else if c = '"' then
      match rest with
      | [] => some [body.reverse]
      | gap :: rest => if gap = ' ' then (bodies? rest).map (body.reverse :: ·) else none
    else bodiesOnto (c :: body) rest

end

end Text
end Bootscript
