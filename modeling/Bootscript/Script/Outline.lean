import Bootscript.Json
import Bootscript.Script.Basic

/-! The structure of a script as JSON, for display. Embedded lines are not shown, only
whether there are any. -/
namespace Bootscript.Script

def linesJson (level : Nat) (lines : List Line) : Text :=
  Json.array level (lines.map Json.string)

def sectionJson (level : Nat) (s : Section) : Text :=
  Json.object level [
    ("leading".toList, linesJson (level + 1) s.leading),
    ("name".toList, Json.string s.name),
    ("content".toList, linesJson (level + 1) s.content)]

def outline (s : Script) : Text :=
  Json.object 0 [
    ("directive".toList, Json.bool s.directive),
    ("sections".toList, Json.array 1 (s.sections.map (sectionJson 2))),
    ("content".toList, linesJson 1 s.content),
    ("distributable".toList, Json.bool s.isDistributable)]

end Bootscript.Script
