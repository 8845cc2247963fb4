import Bootscript.Text

/-! The lines of a file. A line ends at LF and loses the carriage returns before it, an
LF at the very end is followed by an empty line, and lines are joined again by LF. -/
namespace Bootscript

/-- Removes the carriage returns at the end. -/
def Line.chomp (line : Line) : Line := (line.reverse.dropWhile (· = '\r')).reverse

namespace Lines

/-- `none` stands for a line that is not UTF-8. -/
def decodeLine (data : Bytes) : Option Line := (Text.decode? data).map Line.chomp

/-- Whether a reader delivers the empty line after a final LF: it does when the last
line it could decode was terminated. -/
def endsOpen (terminated : List Bytes) (last : Bytes) : Bool :=
  (last.isEmpty || (decodeLine last).isNone) && terminated.any fun piece => (decodeLine piece).isSome

/-- All lines of a file in order; the empty file has none. -/
def ofBytes (data : Bytes) : List (Option Line) :=
  let pieces := split 0x0A data
  let terminated := pieces.dropLast
  let last := pieces.getLastD []
  terminated.map decodeLine ++ (if last.isEmpty then [] else [decodeLine last]) ++
    (if endsOpen terminated last then [some []] else [])

def join (lines : List Line) : Text := ['\n'].intercalate lines

end Lines
end Bootscript
