import Bootscript.Shell.Reader

/-! What the shell makes of double-quoted words when it expands them. Where an expansion
starts and ends is told from the text, what comes in its place from the environment. -/
namespace Bootscript.Shell

/-- What comes in the place of an expansion as it is written, or nothing if it fails. -/
abbrev Environment := Text → Option Text

def isNameStart (c : Char) : Bool := c.isAlpha || c == '_'

def isNameChar (c : Char) : Bool := c.isAlphanum || c == '_'

/-- Parameters that have no name, and the brackets around longer expansions. -/
def isOpening (c : Char) : Bool := ['@', '*', '#', '?', '-', '$', '!', '\x7b', '('].contains c

/-- Whether an expansion starts with a character, given what follows it. A dollar sign before
anything else stands for itself, also before a square bracket, where what it means is left
open. -/
def startsExpansion (c : Char) (rest : Text) : Bool :=
  c == '\x60' || c == '$' && rest.head?.any fun d => isNameChar d || isOpening d

/-- How many characters there are up to the closing bracket, which is one of them. Brackets
inside are told apart from it by counting alone. -/
def closing? (opening closing : Char) (depth : Nat) : Text → Option Nat
  | [] => none
  | c :: rest =>
    if c = '\\' then
      match rest with
      | [] => none
      | _ :: rest => (closing? opening closing depth rest).map (· + 2)
    else if c = closing then
      match depth with
      | 0 => some 1
      | depth + 1 => (closing? opening closing depth rest).map (· + 1)
    else if c = opening then (closing? opening closing (depth + 1) rest).map (· + 1)
    else (closing? opening closing depth rest).map (· + 1)

def extent? (c : Char) : Text → Option Nat
  | [] => none
  | d :: rest =>
    if c = '\x60' then closing? '\x60' '\x60' 0 (d :: rest)
    else if d = '\x7b' then (closing? '\x7b' '\x7d' 0 rest).map (· + 1)
    else if d = '(' then (closing? '(' ')' 0 rest).map (· + 1)
    else if isNameStart d then some ((rest.takeWhile isNameChar).length + 1)
    else some 1

/-- Reads a double-quoted word behind its first quote: its value, and what follows its
last quote. -/
def expand? (env : Environment) (text : Text) : Option (Text × Text) :=
  match text with
  | [] => none
  | c :: rest =>
    if c = '"' then some ([], rest)
    else if c = '\\' then
      match rest with
      | [] => none
      | escaped :: rest =>
        (expand? env rest).map fun (value, after) =>
          ((Piece.pair escaped).unescaped ++ value, after)
    else if startsExpansion c rest then do
      let extent ← extent? c rest
      let first ← env (c :: rest.take extent)
      let (value, after) ← expand? env (rest.drop extent)
      return (first ++ value, after)
    else (expand? env rest).map fun (value, after) => (c :: value, after)
termination_by text.length
decreasing_by all_goals simp; try omega

def expandBody? (env : Environment) (body : Text) : Option Text :=
  match expand? env (body ++ ['"']) with
  | some (value, []) => some value
  | _ => none

def expandWords? (env : Environment) (line : Line) : Option (List Text) :=
  line.bodies?.bind fun bodies => bodies.mapM (expandBody? env)

def hasExpansion : Text → Bool
  | [] => false
  | c :: rest => startsExpansion c rest || hasExpansion rest

end Bootscript.Shell
