import BootVolume.Files.Operations
import BootVolume.Script.Fields

/-!
# Redirections

What the numbers of the streams are tied to when a command runs.
-/

namespace BootVolume.Script

/-- A redirection whose target is expanded. -/
structure Tie where
  source : Nat
  arrow : Arrow
  target : List Char

def expandRedirections (substitute : Substitute) : List Redirection → Shell (List Tie)
  | [] => pure []
  | .mk source arrow word :: rest => do
    let target := (← wholeField substitute word).text
    if arrow = .duplicate && target ≠ ['-'] && !(target.all Char.isDigit && target.length = 1) then
      fail "Syntax error: Bad fd number".toList
    return { source, arrow, target } :: (← expandRedirections substitute rest)

def device? (name : List Char) : Option (Option Nat) :=
  [("/dev/null", none), ("/dev/stdin", some 0), ("/dev/stdout", some 1), ("/dev/stderr", some 2),
    ("/dev/fd/0", some 0), ("/dev/fd/1", some 1), ("/dev/fd/2", some 2)].lookup (String.ofList name)

namespace State

def deviceChannel? (s : State) (name : List Char) : Option Channel :=
  (device? name).map fun number => (number.bind s.channel?).getD .nowhere

def openInput (s : State) (name : List Char) : Except SystemError (State × Channel) :=
  match s.deviceChannel? name with
  | some channel => .ok (s, channel)
  | none =>
    match s.tree.find s.dir ⟨toBytes name⟩ with
    | .error cause => .error cause
    | .ok (_, .file content _) =>
      let (s, index) := s.addText (ofBytes content)
      .ok (s, .text index)
    | .ok _ => .ok (s, .nowhere)

/-- Opens a file to be written: it is emptied unless something is appended. -/
def openOutput (s : State) (name : List Char) (append : Bool) :
    Except SystemError (State × Channel) :=
  match s.deviceChannel? name with
  | some channel => .ok (s, channel)
  | none =>
    match s.tree.openPlace s.dir ⟨toBytes name⟩ with
    | .error cause => .error cause
    | .ok place =>
      let file : Entry :=
        match s.tree.get? place with
        | some (.file content executable) =>
          .file (if append then content else []) executable
        | _ => .file [] false
      .ok ({ s with tree := s.tree.put place file }, .file place)

end State

/-- What is told of a refusal; `absent` tells that there is no such file. -/
def refusal (absent : String) (cause : SystemError) : List Char :=
  match cause with
  | .os errno =>
    (if errno = .noEntry || errno = .notDirectory then absent else errno.text).toList
  | _ => absent.toList

/-- Ties a stream to what an opened file gives. -/
def tieOpened (tie : Tie) (request absent : String)
    (opened : Except SystemError (State × Channel)) : Shell Unit := do
  match opened with
  | .ok (s, channel) => set (s.setChannel tie.source (some channel))
  | .error cause =>
    fail (request.toList ++ tie.target ++ ": ".toList ++ refusal absent cause)

def Tie.make (tie : Tie) : Shell Unit := do
  let s ← get
  match tie.arrow with
  | .input => tieOpened tie "cannot open " "No such file" (s.openInput tie.target)
  | .output =>
    tieOpened tie "cannot create " "Directory nonexistent" (s.openOutput tie.target false)
  | .append =>
    tieOpened tie "cannot create " "Directory nonexistent" (s.openOutput tie.target true)
  | .inline =>
    let (s, index) := s.addText tie.target
    set (s.setChannel tie.source (some (.text index)))
  | .duplicate =>
    if tie.target = ['-'] then set (s.setChannel tie.source none)
    else
      match (String.ofList tie.target).toNat?.bind s.channel? with
      | none => fail (about tie.target "Bad file descriptor")
      | some channel => set (s.setChannel tie.source (some channel))

/-- Makes all ties until one fails, which is told. -/
def makeTies (ties : List Tie) : Shell Bool :=
  tryCatch (do ties.forM Tie.make; return true) fun halt =>
    if halt = .fault then pure false else throw halt

end BootVolume.Script
