import BootVolume.Toml.Value

/-!
# Reading TOML documents

A document is a sequence of lines: blank ones, pairs of a key and a value, and headers, which name
the table that the pairs below them go to.
-/

namespace BootVolume.Toml

/-- What has been read of a document: its entries, and the table that pairs go to. -/
structure Draft where
  entries : Entries := []
  current : List String := []

def changeLast (change : Entries → Except Fault Entries) (elements : List Entries) :
    Except Fault Node :=
  match elements.getLast? with
  | some last => do return .tables (elements.dropLast ++ [← change last])
  | none => .error .redefined

namespace Entries

/-- Changes the table that a header has named. -/
def inTable (change : Entries → Except Fault Entries) :
    List String → Entries → Except Fault Entries
  | [], entries => change entries
  | k :: rest, entries =>
    match entries.get? k with
    | some (.table origin sub) => do
      return entries.set k (.table origin (← inTable change rest sub))
    | some (.tables elements) => do
      return entries.set k (← changeLast (inTable change rest) elements)
    | _ => .error .redefined

/-- Enters the name at the end of a header into the table that its other parts lead to. Tables
missing on the way are implied; those in braces are complete and let no header through. -/
def atHeader (enter : String → Entries → Except Fault Entries) :
    List String → Entries → Except Fault Entries
  | [], _ => .error .grammar
  | [k], entries => enter k entries
  | k :: rest, entries =>
    match entries.get? k with
    | none => do return entries.set k (.table .implied (← atHeader enter rest []))
    | some (.table origin sub) =>
      if origin = .inline then .error .redefined
      else do return entries.set k (.table origin (← atHeader enter rest sub))
    | some (.tables elements) => do
      return entries.set k (← changeLast (atHeader enter rest) elements)
    | some _ => .error .redefined

/-- A header in single brackets names a table that is new or only implied so far. -/
def openTable (k : String) (entries : Entries) : Except Fault Entries :=
  match entries.get? k with
  | none => .ok (entries.set k (.table .header []))
  | some (.table .implied sub) => .ok (entries.set k (.table .header sub))
  | some _ => .error .redefined

/-- A header in double brackets begins one more table of its name. -/
def openElement (k : String) (entries : Entries) : Except Fault Entries :=
  match entries.get? k with
  | none => .ok (entries.set k (.tables [[]]))
  | some (.tables elements) => .ok (entries.set k (.tables (elements ++ [[]])))
  | some _ => .error .redefined

end Entries

def Draft.header (draft : Draft) (enter : String → Entries → Except Fault Entries)
    (parts : List String) : Except Fault Draft := do
  return { entries := ← draft.entries.atHeader enter parts, current := parts }

def Draft.pair (draft : Draft) (parts : List String) (node : Node) : Except Fault Draft := do
  let add (entries : Entries) := entries.define node parts .header true
  return { draft with entries := ← draft.entries.inTable add draft.current }

/-- The draft after one line, and the lines below it; nothing at the end of the document. -/
def line (draft : Draft) (cs : List Char) : Except Fault (Draft × Option (List Char)) := do
  match skipSpace cs with
  | [] => return (draft, none)
  | '[' :: '[' :: rest =>
    let (parts, rest) ← key rest
    match rest with
    | ']' :: ']' :: rest =>
      return (← draft.header Entries.openElement parts, some (← restOfLine rest))
    | _ => throw .grammar
  | '[' :: rest =>
    let (parts, rest) ← key rest
    match rest with
    | ']' :: rest => return (← draft.header Entries.openTable parts, some (← restOfLine rest))
    | _ => throw .grammar
  | c :: rest =>
    if c = '#' || c = '\n' || c = '\r' then
      return (draft, some (← restOfLine (c :: rest)))
    else
      let (parts, node, rest) ← Toml.pair (value depthLimit) (c :: rest)
      return (← draft.pair parts node, some (← restOfLine rest))

/-- The draft after all lines. The number bounds the lines. -/
def lines : Nat → Draft → List Char → Except Fault Draft
  | 0, _, _ => .error .grammar
  | count + 1, draft, cs => do
    match ← line draft cs with
    | (draft, none) => return draft
    | (draft, some rest) => lines count draft rest

/-- One byte order mark may stand in front. -/
def skipMark : List Char → List Char
  | '\uFEFF' :: rest => rest
  | cs => cs

def parse (text : String) : Except Fault Entries := do
  let cs := skipMark text.toList
  return (← lines (cs.length + 2) {} cs).entries

end BootVolume.Toml
