import Bootscript.Text

/-! Double-quoted words that the shell and Python read alike. A backslash in the text is
kept together with the character after it and tripled, so that the pair outlives one
more reading; bare quotes and dollar signs get a backslash of their own. -/
namespace Bootscript.Shell

/-- A backslash and what it escapes. A line continuation needs no more backslashes. -/
def escapePair (c : Char) : Text := if c = '\n' then ['\\', '\n'] else ['\\', '\\', '\\', c]

/-- Triples each escaping backslash. A backslash at the end is doubled, so that it
cannot swallow a closing quote. -/
def escapeBackslashes : Text → Text
  | [] => []
  | c :: rest =>
    if c = '\\' then
      match rest with
      | [] => ['\\', '\\']
      | escaped :: rest => escapePair escaped ++ escapeBackslashes rest
    else c :: escapeBackslashes rest

def escapeWord : Text → Text
  | [] => []
  | c :: rest =>
    if c = '\\' then
      match rest with
      | [] => ['\\', '\\']
      | escaped :: rest => escapePair escaped ++ escapeWord rest
    else if c = '"' ∨ c = '$' then '\\' :: c :: escapeWord rest
    else c :: escapeWord rest

def quoteWord (word : Text) : Text := '"' :: escapeWord word ++ ['"']

end Bootscript.Shell
