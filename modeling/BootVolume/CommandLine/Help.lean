import BootVolume.CommandLine.Option
import BootVolume.Text.Visible

/-!
# Help texts

What the program tells about itself on request. A summary has one line for each option, its columns
aligned; the full text has a paragraph for each.
-/

namespace BootVolume.CommandLine

/-- What help is about. -/
inductive Topic where
  | program
  | task (task : Task)
  | help
  deriving DecidableEq, Inhabited

def Level.topic : Level → Topic
  | program => .program
  | task t => .task t

namespace Help

def programName : String := "ysos"

def version : String := programName ++ " 1.0.0\n"

/-- The word that asks for help in the place of a task. -/
def word : String := "help"

def aboutTask : Task → String
  | .build => "Compila bootloader, kernel e apps e monta o volume de boot"
  | .clean => "Remove o volume de boot e roda cargo clean"
  | .launch => "Inicia o QEMU com o volume de boot atual"
  | .run => "Build seguido de launch"
  | .clippy => "Roda cargo fmt e clippy em todos os componentes"

def about : Topic → String
  | .program => "Build script for YSOS"
  | .task t => aboutTask t
  | .help => "Print this message or the help of the given subcommand(s)"

def explain (full : Bool) : Opt → String
  | .switch .debug => "Enable debug for qemu (gdb stub, halt at startup)"
  | .switch .intdbg => "Enable interrupt output for qemu"
  | .switch .verbose => "Enable verbose output"
  | .switch .dryRun => "Print what would be done without doing it"
  | .setting .memory => "Set memory size for qemu"
  | .setting .output => "Set output for qemu"
  | .setting .profile => "Set build profile for kernel and apps"
  | .setting .bios => "Set BIOS path"
  | .setting .boot => "Set boot path"
  | .setting .debugListen => "Set listen address for gdbserver"
  | .setting .manifestScan => "How to read package names from app manifests"
  | .help => if full then "Print help (see a summary with '-h')"
    else "Print help (see more with '--help')"
  | .version => "Print version"

def explainScan : ManifestScan → String
  | .literal => "First line containing `name`, first quoted token on it"
  | .strict => "Parse the manifest and read `package.name`"

def defaultOf : Setting → String
  | .memory => Default.memory
  | .output => Default.output
  | .profile => (default : Config).profile.name
  | .bios => Default.bios
  | .boot => Default.boot
  | .debugListen => Default.debugListen
  | .manifestScan => (default : Config).manifestScan.name

/-- The names of the values of a setting that has only a few. -/
def valuesOf : Setting → List String
  | .profile => Profile.all.map (·.name)
  | .manifestScan => ManifestScan.all.map (·.name)
  | _ => []

/-- The values of a setting that are explained one by one. -/
def explainedValues : Setting → List (String × String)
  | .manifestScan => ManifestScan.all.map fun scan => (scan.name, explainScan scan)
  | _ => []

def spaces (n : Nat) : String := .ofList (List.replicate n ' ')

/-- A text filled up to a width. -/
def pad (width : Nat) (s : String) : String := s ++ spaces (width - s.length)

/-- Lines with two columns, the second one aligned. -/
def table (rows : List (String × String)) : List String :=
  let width := (rows.map (·.1.length)).foldl max 0
  rows.map fun (left, right) => "  " ++ pad width left ++ "  " ++ right

def head (opt : Opt) : String :=
  (match opt.short? with
    | some c => "-" ++ String.singleton c ++ ", "
    | none => spaces 4) ++ opt.usage

def bracketed (title content : String) : String := "[" ++ title ++ ": " ++ content ++ "]"

/-- The remark about the values of a setting, if there are only a few. -/
def valuesRemark (s : Setting) : List String :=
  if (valuesOf s).isEmpty then [] else [bracketed "possible values" (", ".intercalate (valuesOf s))]

def row (opt : Opt) : String × String :=
  let remarks :=
    match opt with
    | .setting s => bracketed "default" (defaultOf s) :: valuesRemark s
    | _ => []
  (head opt, " ".intercalate (explain false opt :: remarks))

def indent : String := spaces 10

/-- An option in the full text: how it is written, what it does, and what its value may be. -/
def paragraph (opt : Opt) : List String :=
  ("  " ++ head opt) :: (indent ++ explain true opt) ::
    match opt with
    | .setting s =>
      let standard := [indent, indent ++ bracketed "default" (defaultOf s)]
      match explainedValues s with
      | [] => standard ++ (valuesRemark s).map (indent ++ ·)
      | values =>
        let width := (values.map (·.1.length)).foldl max 0 + 1
        let listed := values.map fun (name, text) =>
          indent ++ "- " ++ pad width (name ++ ":") ++ " " ++ text
        ["", indent ++ "Possible values:"] ++ listed ++ standard
    | _ => []

def optionLines (full : Bool) (level : Level) : List String :=
  "Options:" ::
    if full then [""].intercalate (level.options.map paragraph)
    else table (level.options.map row)

def taskLines : List String :=
  "Commands:" ::
    table ((Task.all.map fun t => (t.name, aboutTask t)) ++ [(word, about .help)])

/-- How the program is called; `program` is its name, if that is known. The words of the call are
told as a terminal shows them. -/
def usage (program : Option String) (topic : Topic) : String :=
  let before := program.elim "" (· ++ " ")
  "Usage: " ++
    match topic with
    | .program => visible (program.getD programName) ++ " [OPTIONS] [COMMAND]"
    | .task t => visible (before ++ t.name) ++ " [OPTIONS]"
    | .help => visible (before ++ word) ++ " [COMMAND]..."

/-- The parts of a help text. -/
def sections (program : Option String) (full : Bool) (topic : Topic) : List (List String) :=
  [[about topic], [usage program topic]] ++
    match topic with
    | .program => [taskLines, optionLines full .program]
    | .task t => [optionLines full (.task t)]
    | .help => ["Arguments:" :: table [("[COMMAND]...", "Print help for the subcommand(s)")]]

def text (program : Option String) (full : Bool) (topic : Topic) : String :=
  "\n".intercalate ([""].intercalate (sections program full topic)) ++ "\n"

end Help
end BootVolume.CommandLine
