import BootVolume.Decimal.Double

/-!
# TOML documents as data

The value that a key of a document holds. A table remembers how it came to be, because that decides
what may still be added to it.
-/

namespace BootVolume.Toml

inductive Fault where
  | grammar
  /-- A number or a date lies outside its range. -/
  | outOfRange
  /-- Arrays and inline tables, or the parts of a key, are nested too deeply. -/
  | tooDeep
  /-- A key is defined twice, or a table is extended that is complete. -/
  | redefined
  deriving DecidableEq, Inhabited

/-- How a table came to be. -/
inductive Origin where
  | inline
  | header
  /-- Only passed through on the way to a table below it. -/
  | implied
  | dotted
  deriving DecidableEq, Inhabited

inductive Node where
  | string (text : String)
  | integer (value : Int)
  | float (value : Double)
  | boolean (value : Bool)
  | moment
  | array (items : List Node)
  | table (origin : Origin) (entries : List (String × Node))
  /-- The tables that share one header in double brackets. -/
  | tables (elements : List (List (String × Node)))
  deriving Inhabited

/-- The entries of a table, in the order in which they were defined. -/
abbrev Entries := List (String × Node)

namespace Entries

def get? (entries : Entries) (key : String) : Option Node :=
  (entries.find? (·.1 = key)).map (·.2)

/-- The entries with another value for a key, which comes last if it is new. -/
def set (entries : Entries) (key : String) (node : Node) : Entries :=
  match entries with
  | [] => [(key, node)]
  | entry :: rest => if entry.1 = key then (key, node) :: rest else entry :: set rest key node

end Entries
end BootVolume.Toml
