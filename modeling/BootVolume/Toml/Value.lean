import BootVolume.Toml.Scalar

/-!
# Reading TOML values

A value is a string, a scalar, an array or an inline table. The number that `value` takes is how
many arrays and inline tables it may still open in one another.
-/

namespace BootVolume.Toml

/-- What follows the blanks, comments and line ends between the items of an array; `comment` says
that a comment is being skipped. -/
def skipFiller (comment : Bool) : List Char → List Char
  | '\n' :: rest => skipFiller false rest
  | '\r' :: '\n' :: rest => skipFiller false rest
  | c :: rest =>
    if comment then if isPlain c then skipFiller true rest else c :: rest
    else if isSpace c then skipFiller false rest
    else if c = '#' then skipFiller true rest
    else c :: rest
  | [] => []

/-- Adds what a key with dots defines to the table that it is written in. The tables on the way are
made by this key or another one with dots, are only implied, or are the last of several under one
header; the one that holds the last part is made by keys with dots. -/
def Entries.define (node : Node) : List String → Origin → Bool → Entries → Except Fault Entries
  | [], _, _, _ => .error .grammar
  | [k], origin, top, entries =>
    if (!top && origin ≠ .dotted) || (entries.get? k).isSome then .error .redefined
    else .ok (entries.set k node)
  | k :: rest, _, _, entries =>
    match entries.get? k with
    | none => do
      let sub ← define node rest .dotted false []
      return entries.set k (.table .dotted sub)
    | some (.table origin sub) =>
      if origin = .dotted || origin = .implied then do
        let sub ← define node rest origin false sub
        return entries.set k (.table origin sub)
      else .error .redefined
    | some (.tables elements) =>
      match elements.getLast? with
      | some last => do
        let last ← define node rest .header false last
        return entries.set k (.tables (elements.dropLast ++ [last]))
      | none => .error .redefined
    | some _ => .error .redefined

/-- The items of an array and what follows its closing bracket. The number bounds the items. -/
def arrayItems (read : List Char → Except Fault (Node × List Char)) :
    Nat → List Char → Except Fault (List Node × List Char)
  | 0, _ => .error .grammar
  | items + 1, cs =>
    match skipFiller false cs with
    | ']' :: rest => .ok ([], rest)
    | cs => do
      let (node, rest) ← read cs
      match skipFiller false rest with
      | ',' :: rest =>
        let (more, rest) ← arrayItems read items rest
        return (node :: more, rest)
      | ']' :: rest => return ([node], rest)
      | _ => throw .grammar

def pair (read : List Char → Except Fault (Node × List Char)) (cs : List Char) :
    Except Fault (List String × Node × List Char) := do
  let (parts, rest) ← key cs
  match rest with
  | '=' :: rest =>
    let (node, rest) ← read (skipSpace rest)
    return (parts, node, rest)
  | _ => throw .grammar

/-- The pairs of an inline table, added to those before them, and what follows its closing brace.
The number bounds the pairs. -/
def inlinePairs (read : List Char → Except Fault (Node × List Char)) :
    Nat → Entries → List Char → Except Fault (Entries × List Char)
  | 0, _, _ => .error .grammar
  | pairs + 1, entries, cs => do
    let (parts, node, rest) ← pair read cs
    let entries ← entries.define node parts .inline true
    match skipSpace rest with
    | ',' :: rest => inlinePairs read pairs entries rest
    | '}' :: rest => return (entries, rest)
    | _ => throw .grammar

def value (depth : Nat) (cs : List Char) : Except Fault (Node × List Char) :=
  match string? cs with
  | some quoted => quoted.map fun (text, rest) => (.string (String.ofList text), rest)
  | none =>
    match depth, cs with
    | 0, '[' :: _ => .error .tooDeep
    | 0, '{' :: _ => .error .tooDeep
    | depth + 1, '[' :: rest =>
      (arrayItems (value depth) cs.length rest).map fun (items, rest) => (.array items, rest)
    | depth + 1, '{' :: rest =>
      match skipSpace rest with
      | '}' :: rest => .ok (.table .inline [], rest)
      | _ =>
        (inlinePairs (value depth) cs.length [] rest).map fun (entries, rest) =>
          (.table .inline entries, rest)
    | _, cs => scalar cs

end BootVolume.Toml
