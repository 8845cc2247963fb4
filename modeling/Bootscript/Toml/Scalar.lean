import Bootscript.Toml.Item

/-! Numbers, booleans, dates and times. An underscore may stand between two digits of a
number, numbers have no leading zeros, and integers have 64 bits. -/
namespace Bootscript.Toml.Scalar

def isHexDigit (c : Char) : Bool :=
  c.isDigit || ('a' ≤ c && c ≤ 'f') || ('A' ≤ c && c ≤ 'F')

def digitValue (c : Char) : Nat :=
  if c.isDigit then c.toNat - '0'.toNat
  else if 'a' ≤ c then c.toNat - 'a'.toNat + 10
  else c.toNat - 'A'.toNat + 10

def value (base : Nat) (digits : Text) : Nat :=
  digits.foldl (fun n c => n * base + digitValue c) 0

def grouped? (isDigit : Char → Bool) (text : Text) : Option Text :=
  let groups := split '_' text
  if groups.all fun group => !group.isEmpty && group.all isDigit then some groups.flatten else none

def decimal? (text : Text) : Option Text :=
  (grouped? Char.isDigit text).bind fun digits =>
    if digits.head? = some '0' ∧ digits.length ≠ 1 then none else some digits

def signed : Text → Bool × Text
  | '-' :: rest => (true, rest)
  | '+' :: rest => (false, rest)
  | rest => (false, rest)

def minInteger : Int := -9223372036854775808
def maxInteger : Int := 9223372036854775807

def bounded? (n : Int) : Option Item :=
  if minInteger ≤ n ∧ n ≤ maxInteger then some (.integer n) else none

def integer? (text : Text) : Option Item :=
  match text with
  | '0' :: 'x' :: digits => (grouped? isHexDigit digits).bind fun ds => bounded? (value 16 ds)
  | '0' :: 'o' :: digits =>
    (grouped? (fun c => '0' ≤ c && c ≤ '7') digits).bind fun ds => bounded? (value 8 ds)
  | '0' :: 'b' :: digits =>
    (grouped? (fun c => c == '0' || c == '1') digits).bind fun ds => bounded? (value 2 ds)
  | text =>
    let (negative, digits) := signed text
    (decimal? digits).bind fun ds =>
      bounded? (if negative then -(value 10 ds : Int) else value 10 ds)

/-- The least number that rounds to none of the finite doubles. -/
def overflow : Nat := Nat.pow 2 1024 - Nat.pow 2 970

def overflows (digits : Text) (exponent : Int) : Bool :=
  let n := value 10 digits
  let magnitude := (Nat.toDigits 10 n).length + exponent
  n != 0 && (magnitude > 310 || (magnitude > 300 &&
    (if exponent ≥ 0 then overflow ≤ n * Nat.pow 10 exponent.toNat
     else overflow * Nat.pow 10 (-exponent).toNat ≤ n)))

/-- A number too large to be a finite double is refused, but one too small is taken. -/
def float? (text : Text) : Option Item :=
  let (negative, unsigned) := signed text
  if unsigned = "inf".toList ∨ unsigned = "nan".toList then some (.float text)
  else
    let mantissa := unsigned.takeWhile fun c => c ≠ 'e' ∧ c ≠ 'E'
    let exponent? : Option (Option Int) :=
      match unsigned.drop mantissa.length with
      | [] => some none
      | _ :: rest =>
        let (negative, digits) := signed rest
        (grouped? Char.isDigit digits).map fun ds =>
          some (if negative then -(value 10 ds : Int) else value 10 ds)
    let whole := mantissa.takeWhile (· ≠ '.')
    let fraction? : Option (Option Text) :=
      match mantissa.drop whole.length with
      | [] => some none
      | _ :: digits => (grouped? Char.isDigit digits).map some
    match decimal? whole, fraction?, exponent? with
    | some _, some none, some none => none
    | some whole, some fraction, some exponent =>
      let fraction := fraction.getD []
      if !negative && overflows (whole ++ fraction) (exponent.getD 0 - fraction.length) then none
      else some (.float text)
    | _, _, _ => none

def fixed? (count : Nat) (text : Text) : Option (Nat × Text) :=
  let digits := text.take count
  if digits.length = count ∧ digits.all Char.isDigit then some (value 10 digits, text.drop count)
  else none

def expect? (c : Char) (text : Text) : Option Text :=
  match text with
  | d :: rest => if d = c then some rest else none
  | [] => none

def isLeap (year : Nat) : Bool := year % 4 == 0 && (year % 100 != 0 || year % 400 == 0)

def daysIn (year month : Nat) : Nat :=
  if month = 2 then (if isLeap year then 29 else 28)
  else if [4, 6, 9, 11].contains month then 30
  else 31

def afterDate? (text : Text) : Option Text := do
  let (year, rest) ← fixed? 4 text
  let (month, rest) ← fixed? 2 (← expect? '-' rest)
  let (day, rest) ← fixed? 2 (← expect? '-' rest)
  if 1 ≤ month ∧ month ≤ 12 ∧ 1 ≤ day ∧ day ≤ daysIn year month then some rest else none

/-- What follows a time of day. A minute may have a leap second. -/
def afterTime? (text : Text) : Option Text := do
  let (hour, rest) ← fixed? 2 text
  let (minute, rest) ← fixed? 2 (← expect? ':' rest)
  let (second, rest) ← fixed? 2 (← expect? ':' rest)
  if hour ≤ 23 ∧ minute ≤ 59 ∧ second ≤ 60 then
    match rest with
    | '.' :: fraction =>
      let tail := fraction.dropWhile Char.isDigit
      if tail.length < fraction.length then some tail else none
    | rest => some rest
  else none

/-- What follows an offset from universal time, which may be missing. -/
def afterOffset? (text : Text) : Option Text :=
  match text with
  | [] => some []
  | c :: rest =>
    if c = 'Z' ∨ c = 'z' then some rest
    else if c = '+' ∨ c = '-' then do
      let (hour, rest) ← fixed? 2 rest
      let (minute, rest) ← fixed? 2 (← expect? ':' rest)
      if hour ≤ 23 ∧ minute ≤ 59 then some rest else none
    else none

def isMoment (text : Text) : Bool :=
  match afterDate? text with
  | some [] => true
  | some (c :: rest) =>
    (c == 'T' || c == 't' || c == ' ') && ((afterTime? rest).bind afterOffset?) == some []
  | none => afterTime? text == some []

def read? (text : Text) : Option Item :=
  if text = "true".toList then some (.boolean true)
  else if text = "false".toList then some (.boolean false)
  else
    match integer? text with
    | some item => some item
    | none =>
      match float? text with
      | some item => some item
      | none => if isMoment text then some (.moment text) else none

end Bootscript.Toml.Scalar
