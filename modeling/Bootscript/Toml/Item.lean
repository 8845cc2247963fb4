import Bootscript.Text

/-! Tables of a configuration file. A table remembers how it came to be, because a
header may define a table only once and dotted keys may extend only tables that dotted
keys have made. -/
namespace Bootscript.Toml

/-- How a table came to be: as a value, by its own header, as part of a longer header,
or as part of a dotted key. -/
inductive Origin where
  | inline
  | header
  | implied
  | dotted
  deriving DecidableEq, Repr

/-- `moment` is a date, a time or both. The elements of `tables` stand last first. -/
inductive Item where
  | string (text : Text)
  | integer (n : Int)
  | float (literal : Text)
  | boolean (b : Bool)
  | moment (literal : Text)
  | array (items : List Item)
  | table (origin : Origin) (entries : List (Text × Item))
  | tables (elements : List (List (Text × Item)))

abbrev Entries := List (Text × Item)

namespace Entries

def replace (key : Text) (item : Item) (entries : Entries) : Entries :=
  entries.map fun entry => if entry.1 = key then (key, item) else entry

/-- Changes the table that the keys lead to, making the tables that are missing. With
`dotted` the keys are those of a dotted key, else those of a header. -/
def within (dotted : Bool) (change : Entries → Option Entries) : List Text → Entries → Option Entries
  | [], entries => change entries
  | key :: keys, entries =>
    match entries.lookup key with
    | none =>
      (within dotted change keys []).map fun inner =>
        entries ++ [(key, .table (if dotted then .dotted else .implied) inner)]
    | some (.table origin inner) =>
      if origin = .inline || (dotted && (origin = .header || (keys.isEmpty && origin ≠ .dotted))) then
        none
      else (within dotted change keys inner).map fun inner => replace key (.table origin inner) entries
    | some (.tables (last :: earlier)) =>
      if dotted && keys.isEmpty then none
      else (within dotted change keys last).map fun last => replace key (.tables (last :: earlier)) entries
    | some _ => none

def assign (keys : List Text) (key : Text) (item : Item) : Entries → Option Entries :=
  within true (fun entries =>
    if (entries.lookup key).isSome then none else some (entries ++ [(key, item)])) keys

def openTable (keys : List Text) (key : Text) : Entries → Option Entries :=
  within false (fun entries =>
    match entries.lookup key with
    | none => some (entries ++ [(key, .table .header [])])
    | some (.table .implied inner) => some (replace key (.table .header inner) entries)
    | some _ => none) keys

def openElement (keys : List Text) (key : Text) : Entries → Option Entries :=
  within false (fun entries =>
    match entries.lookup key with
    | none => some (entries ++ [(key, .tables [[]])])
    | some (.tables elements) => some (replace key (.tables ([] :: elements)) entries)
    | some _ => none) keys

end Entries
end Bootscript.Toml
