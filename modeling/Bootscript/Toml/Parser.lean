import Bootscript.Toml.Scalar

/-! Reading a configuration file. Each reader takes what it reads from the start of the
text and yields the rest, or nothing where the text breaks the format. -/
namespace Bootscript.Toml

def isBlank (c : Char) : Bool := c == ' ' || c == '\t'

/-- Characters that may stand in comments and strings: tab and all that are not control
characters. -/
def isPlain (c : Char) : Bool := c == '\t' || (0x20 ≤ c.toNat && c != '\x7f')

def skipBlanks (text : Text) : Text := text.dropWhile isBlank

def newline? : Text → Option Text
  | '\n' :: rest => some rest
  | '\r' :: '\n' :: rest => some rest
  | _ => none

def skipComment : Text → Text
  | '#' :: rest => rest.dropWhile isPlain
  | text => text

def skipLines : Nat → Text → Text
  | 0, text => text
  | fuel + 1, text =>
    let after := skipComment (skipBlanks text)
    match newline? after with
    | some rest => skipLines fuel rest
    | none => after

def hexChar? (digits : Text) : Option Char :=
  let n := Scalar.value 16 digits
  if digits.all Scalar.isHexDigit ∧ n.isValidChar then some (Char.ofNat n) else none

/-- The character that an escape stands for; the text starts after the backslash. -/
def escape? : Text → Option (Char × Text)
  | [] => none
  | c :: rest =>
    if c = 'b' then some ('\x08', rest)
    else if c = 't' then some ('\t', rest)
    else if c = 'n' then some ('\n', rest)
    else if c = 'f' then some ('\x0c', rest)
    else if c = 'r' then some ('\r', rest)
    else if c = '"' ∨ c = '\\' then some (c, rest)
    else if c = 'u' ∧ 4 ≤ rest.length then (hexChar? (rest.take 4)).map ((·, rest.drop 4))
    else if c = 'U' ∧ 8 ≤ rest.length then (hexChar? (rest.take 8)).map ((·, rest.drop 8))
    else none

def basic? : Nat → Text → Text → Option (Text × Text)
  | 0, _, _ => none
  | fuel + 1, read, text =>
    match text with
    | [] => none
    | c :: rest =>
      if c = '"' then some (read.reverse, rest)
      else if c = '\\' then (escape? rest).bind fun (d, rest) => basic? fuel (d :: read) rest
      else if isPlain c then basic? fuel (c :: read) rest
      else none

def literal? (text : Text) : Option (Text × Text) :=
  let inside := text.takeWhile fun c => isPlain c && c != '\''
  match text.drop inside.length with
  | '\'' :: rest => some (inside, rest)
  | _ => none

/-- A line break right after the opening quotes is not part of the text. -/
def skipFirstBreak (text : Text) : Text := (newline? text).getD text

/-- The closing quotes, before which up to two quotes belong to the text. -/
def closing? (quote : Char) (text : Text) : Option (Text × Text) :=
  let quotes := (text.take 5).takeWhile (· == quote)
  if 3 ≤ quotes.length then some (quotes.drop 3, text.drop quotes.length) else none

def skipSpace : Text → Text
  | ' ' :: rest => skipSpace rest
  | '\t' :: rest => skipSpace rest
  | '\n' :: rest => skipSpace rest
  | '\r' :: '\n' :: rest => skipSpace rest
  | text => text

def continuation? (text : Text) : Option Text := (newline? (skipBlanks text)).map skipSpace

/-- The inside of a string over several lines; with `escapes` in double quotes. -/
def block? (quote : Char) (escapes : Bool) : Nat → Text → Text → Option (Text × Text)
  | 0, _, _ => none
  | fuel + 1, read, text =>
    match closing? quote text with
    | some (extra, rest) => some (read.reverse ++ extra, rest)
    | none =>
      match newline? text with
      | some rest => block? quote escapes fuel ('\n' :: read) rest
      | none =>
        match text with
        | [] => none
        | c :: rest =>
          if escapes && c == '\\' then
            match continuation? rest with
            | some rest => block? quote escapes fuel read rest
            | none => (escape? rest).bind fun (d, rest) => block? quote escapes fuel (d :: read) rest
          else if isPlain c then block? quote escapes fuel (c :: read) rest
          else none

def string? (text : Text) : Option (Text × Text) :=
  match text with
  | '"' :: '"' :: '"' :: rest => block? '"' true (rest.length + 1) [] (skipFirstBreak rest)
  | '\'' :: '\'' :: '\'' :: rest => block? '\'' false (rest.length + 1) [] (skipFirstBreak rest)
  | '"' :: rest => basic? (rest.length + 1) [] rest
  | '\'' :: rest => literal? rest
  | _ => none

def isBareChar (c : Char) : Bool := c.isAlphanum || c == '_' || c == '-'

def simpleKey? (text : Text) : Option (Text × Text) :=
  match text with
  | '"' :: rest => basic? (rest.length + 1) [] rest
  | '\'' :: rest => literal? rest
  | text =>
    let key := text.takeWhile isBareChar
    if key.isEmpty then none else some (key, text.drop key.length)

/-- Arrays and tables within each other, and the keys of one path, are fewer than this. -/
def maxDepth : Nat := 80

/-- Keys joined by dots, all but the last and the last, and the rest after blanks. -/
def path? : Nat → List Text → Text → Option (List Text × Text × Text)
  | 0, _, _ => none
  | fuel + 1, before, text => do
    let (key, rest) ← simpleKey? (skipBlanks text)
    match skipBlanks rest with
    | '.' :: rest => path? fuel (before ++ [key]) rest
    | rest => some (before, key, rest)

def keys? (text : Text) : Option (List Text × Text × Text) :=
  (path? (text.length + 1) [] text).filter fun (before, _) => before.length + 1 < maxDepth

def isScalarChar (c : Char) : Bool := c.isAlphanum || ['+', '-', '_', '.', ':'].contains c

/-- A date and a time may be joined by a single space. -/
def scalar? (text : Text) : Option (Item × Text) :=
  let word := text.takeWhile isScalarChar
  let rest := text.drop word.length
  let joined := match rest with
    | ' ' :: c :: more =>
      if Scalar.afterDate? word = some [] ∧ c.isDigit then
        word ++ ' ' :: (c :: more).takeWhile isScalarChar
      else word
    | _ => word
  (Scalar.read? joined).map ((·, text.drop joined.length))

mutual

def value? : Nat → Nat → Text → Option (Item × Text)
  | 0, _, _ => none
  | fuel + 1, depth, text =>
    match text with
    | '[' :: rest => if depth + 1 < maxDepth then array? fuel (depth + 1) [] rest else none
    | '\x7b' :: rest =>
      if depth + 1 < maxDepth then
        match skipBlanks rest with
        | '\x7d' :: rest => some (.table .inline [], rest)
        | rest => inline? fuel (depth + 1) [] rest
      else none
    | '"' :: _ => (string? text).map fun (s, rest) => (.string s, rest)
    | '\'' :: _ => (string? text).map fun (s, rest) => (.string s, rest)
    | text => scalar? text

def array? : Nat → Nat → List Item → Text → Option (Item × Text)
  | 0, _, _, _ => none
  | fuel + 1, depth, read, text =>
    match skipLines (text.length + 1) text with
    | ']' :: rest => some (.array read.reverse, rest)
    | text => do
      let (item, rest) ← value? fuel depth text
      match skipLines (rest.length + 1) rest with
      | ',' :: rest => array? fuel depth (item :: read) rest
      | ']' :: rest => some (.array (item :: read).reverse, rest)
      | _ => none

def inline? : Nat → Nat → Entries → Text → Option (Item × Text)
  | 0, _, _, _ => none
  | fuel + 1, depth, entries, text => do
    let (keys, key, rest) ← keys? text
    let (item, rest) ← value? fuel depth (skipBlanks (← Scalar.expect? '=' rest))
    let entries ← Entries.assign keys key item entries
    match skipBlanks rest with
    | ',' :: rest => inline? fuel depth entries rest
    | '\x7d' :: rest => some (.table .inline entries, rest)
    | _ => none

end

/-- What has been read: all tables, and the keys of the header that is open. -/
structure Progress where
  root : Entries := []
  header : List Text := []

def endOfLine? (text : Text) : Option Text :=
  match skipComment (skipBlanks text) with
  | [] => some []
  | text => newline? text

def statement? (p : Progress) (text : Text) : Option (Progress × Text) :=
  match text with
  | '[' :: '[' :: rest => do
    let (keys, key, rest) ← keys? rest
    let rest ← Scalar.expect? ']' (← Scalar.expect? ']' rest)
    some (⟨← Entries.openElement keys key p.root, keys ++ [key]⟩, ← endOfLine? rest)
  | '[' :: rest => do
    let (keys, key, rest) ← keys? rest
    let rest ← Scalar.expect? ']' rest
    some (⟨← Entries.openTable keys key p.root, keys ++ [key]⟩, ← endOfLine? rest)
  | text => do
    let (keys, key, rest) ← keys? text
    let (item, rest) ← value? (rest.length + 1) 0 (skipBlanks (← Scalar.expect? '=' rest))
    let root ← Entries.within false (Entries.assign keys key item) p.header p.root
    some ({ p with root }, ← endOfLine? rest)

def statements? : Nat → Progress → Text → Option Entries
  | 0, _, _ => none
  | fuel + 1, p, text =>
    match skipLines (text.length + 1) text with
    | [] => some p.root
    | text => do
      let (p, rest) ← statement? p text
      statements? fuel p rest

/-- All tables of a file. A byte order mark at its start is skipped. -/
def parse? (text : Text) : Option Entries :=
  let text := match text with
    | '\ufeff' :: rest => rest
    | text => text
  statements? (text.length + 1) {} text

end Bootscript.Toml
