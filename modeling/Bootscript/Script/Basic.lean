import Bootscript.Lines
import Bootscript.Marker

/-! A script: a directive line, named sections of metadata, a body that is never
interpreted, and the lines of an embedded module after a notice. -/
namespace Bootscript

/-- A block of lines between two markers, with the lines that stand before it. -/
structure Section where
  leading : List Line
  name : Text
  content : List Line
  deriving DecidableEq, Repr

namespace Section

def startMarker (s : Section) : Line := Marker.start s.name
def endMarker (s : Section) : Line := Marker.finish s.name

def lines (s : Section) : List Line :=
  s.leading ++ s.startMarker :: s.content ++ [s.endMarker]

end Section

structure Script where
  directive : Bool := false
  sections : List Section := []
  content : List Line := []
  embedded : Option (List Line) := none
  deriving DecidableEq, Repr

namespace Script

def directiveLine : Line := "#!/bin/sh -e".toList

def notice : Line := "# PySH: Module embedded below".toList

def section? (s : Script) (name : Text) : Option Section := s.sections.find? (·.name = name)

/-- Puts a section in the place of the one of its name, or after all others. -/
def insertSection (added : Section) : List Section → List Section
  | [] => [added]
  | s :: rest => if s.name = added.name then added :: rest else s :: insertSection added rest

def insert (s : Script) (added : Section) : Script :=
  { s with sections := insertSection added s.sections }

def isDistributable (s : Script) : Bool := s.embedded.isSome

/-- The lines after the directive, in the order in which they are written. -/
def body (s : Script) : List Line :=
  s.sections.flatMap Section.lines ++ s.content ++
    match s.embedded with
    | none => []
    | some lines => notice :: lines

def lines (s : Script) : List Line := directiveLine :: s.body

def text (s : Script) : Text := Lines.join s.lines

def bytes (s : Script) : Bytes := s.text.encode

end Script
end Bootscript
