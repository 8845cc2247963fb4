import Bootscript.Launcher.Lines
import Bootscript.Payload
import Bootscript.Script.Basic

/-! Putting a launcher into a script. The section that describes the format comes first
and the launcher last; both are written anew, and all other sections stay in order. -/
namespace Bootscript.Script

def infoName : Text := "PySH Information".toList
def launcherName : Text := "PySH Bootstrap".toList

def isReserved (name : Text) : Bool := name == infoName || name == launcherName

/-- The revision of the format is part of the text. -/
def infoLines : List Line := [
  "# This is a PySH script (format 1), a shell script written in Python.".toList,
  "# It requires Python 3 and the `pysh` package.".toList]

def infoSection : Section := ⟨[['#']], infoName, infoLines⟩

def launcherSection (l : Launcher) (distributable : Bool) : Section :=
  ⟨[[]], launcherName, l.lines distributable⟩

/-- Sections other than the first are set off by a blank line if by nothing else. -/
def setOff (s : Section) : Section :=
  if s.leading.isEmpty then { s with leading := [[]] } else s

def keptSections (sections : List Section) : List Section :=
  (sections.filter fun s => !isReserved s.name).map setOff

/-- Writes the reserved sections anew, and embeds the payload or drops the old one. -/
def install (s : Script) (l : Launcher) (payload : Option Payload) : Script where
  directive := true
  sections :=
    infoSection :: keptSections s.sections ++ [launcherSection l payload.isSome]
  content := s.content
  embedded := payload.map Payload.lines

end Bootscript.Script
