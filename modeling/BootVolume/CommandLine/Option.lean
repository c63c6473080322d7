import BootVolume.Config

/-!
# Options of the command line

The options that may stand before or behind a task: switches, settings that take a value, and the
two that ask for a text. Each has a long name, most have a letter too.
-/

namespace BootVolume.CommandLine

inductive Switch where
  | debug
  | intdbg
  | verbose
  | dryRun
  deriving DecidableEq, Inhabited

inductive Setting where
  | memory
  | output
  | profile
  | bios
  | boot
  | debugListen
  | manifestScan
  deriving DecidableEq, Inhabited

inductive Opt where
  | switch (switch : Switch)
  | setting (setting : Setting)
  | help
  | version
  deriving DecidableEq, Inhabited

namespace Switch

def long : Switch → String
  | debug => "debug"
  | intdbg => "intdbg"
  | verbose => "verbose"
  | dryRun => "dry-run"

def short? : Switch → Option Char
  | debug => some 'd'
  | intdbg => some 'i'
  | verbose => some 'v'
  | dryRun => none

end Switch

namespace Setting

def long : Setting → String
  | memory => "memory"
  | output => "output"
  | profile => "profile"
  | bios => "bios"
  | boot => "boot"
  | debugListen => "debug-listen"
  | manifestScan => "manifest-scan"

def short? : Setting → Option Char
  | memory => some 'm'
  | output => some 'o'
  | profile => some 'p'
  | bios => none
  | boot => none
  | debugListen => none
  | manifestScan => none

/-- What stands for the value in a text about the option. -/
def valueName (s : Setting) : String :=
  .ofList (s.long.toList.map fun c => if c = '-' then '_' else c.toUpper)

/-- Whether the argument behind the option is its value whatever it looks like. -/
def takesAnything (s : Setting) : Bool := s = .output

end Setting

namespace Opt

def all : List Opt :=
  [.switch .debug, .switch .intdbg, .setting .memory, .setting .output, .setting .profile,
    .switch .verbose, .switch .dryRun, .setting .bios, .setting .boot, .setting .debugListen,
    .setting .manifestScan, .help, .version]

def long : Opt → String
  | switch s => s.long
  | setting s => s.long
  | help => "help"
  | version => "version"

def short? : Opt → Option Char
  | switch s => s.short?
  | setting s => s.short?
  | help => some 'h'
  | version => some 'V'

def usage (opt : Opt) : String :=
  "--" ++ opt.long ++
    match opt with
    | setting s => " <" ++ s.valueName ++ ">"
    | _ => ""

end Opt

/-- Where options stand: before a task, or behind it. -/
inductive Level where
  | program
  | task (task : Task)
  deriving DecidableEq, Inhabited

namespace Level

/-- The options of a level. The version can be asked for only before a task. -/
def options : Level → List Opt
  | program => Opt.all
  | task _ => Opt.all.filter (· ≠ .version)

def ofLong? (level : Level) (name : String) : Option Opt :=
  level.options.find? (·.long = name)

def ofShort? (level : Level) (c : Char) : Option Opt :=
  level.options.find? (·.short? = some c)

def request : Level → Task
  | program => .build
  | task t => t

end Level

/-- Something that the command line settles. -/
inductive Choice where
  | switch (switch : Switch)
  | memory (size : String)
  | output (arguments : String)
  | profile (profile : Profile)
  | bios (path : Path)
  | boot (path : Path)
  | debugListen (address : String)
  | manifestScan (scan : ManifestScan)
  deriving DecidableEq

namespace Choice

def opt : Choice → Opt
  | switch s => .switch s
  | memory _ => .setting .memory
  | output _ => .setting .output
  | profile _ => .setting .profile
  | bios _ => .setting .bios
  | boot _ => .setting .boot
  | debugListen _ => .setting .debugListen
  | manifestScan _ => .setting .manifestScan

def apply (config : Config) : Choice → Config
  | switch .debug => { config with debug := true }
  | switch .intdbg => { config with intdbg := true }
  | switch .verbose => { config with verbose := true }
  | switch .dryRun => { config with dryRun := true }
  | memory size => { config with memory := size }
  | output arguments => { config with output := arguments }
  | profile p => { config with profile := p }
  | bios path => { config with bios := path }
  | boot path => { config with boot := path }
  | debugListen address => { config with debugListen := address }
  | manifestScan scan => { config with manifestScan := scan }

end Choice
end BootVolume.CommandLine
