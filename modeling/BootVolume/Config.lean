import BootVolume.Path

/-!
# Configuration

The choices that one run of the program is made with, and their defaults.
-/

namespace BootVolume

/-- How the kernel and the applications are compiled. -/
inductive Profile where
  | release
  | debug
  | releaseWithDebug
  deriving DecidableEq, Inhabited

namespace Profile

def all : List Profile := [.release, .debug, .releaseWithDebug]

def name : Profile → String
  | release => "release"
  | debug => "debug"
  | releaseWithDebug => "release-with-debug"

/-- The flag that asks the toolchain for this profile. -/
def flag? : Profile → Option String
  | release => some "--release"
  | debug => none
  | releaseWithDebug => some "--profile=release-with-debug"

/-- The directory under the target directory that holds the compiled output. -/
def dir : Profile → String
  | release => "release"
  | debug => "debug"
  | releaseWithDebug => "release-with-debug"

end Profile

/-- How the package name of an application is read from its manifest. -/
inductive ManifestScan where
  | literal
  | strict
  deriving DecidableEq, Inhabited

namespace ManifestScan

def all : List ManifestScan := [.literal, .strict]

def name : ManifestScan → String
  | literal => "literal"
  | strict => "strict"

end ManifestScan

inductive Task where
  | build
  | clean
  | launch
  | run
  | clippy
  deriving DecidableEq, Inhabited

namespace Task

def all : List Task := [.build, .clean, .launch, .run, .clippy]

def name : Task → String
  | build => "build"
  | clean => "clean"
  | launch => "launch"
  | run => "run"
  | clippy => "clippy"

end Task

/-- The first of some choices with a given name, letters of either case being the same on
request. Only the letters of ASCII have a case here. -/
def choose? {α : Type} (name : α → String) (choices : List α) (ignoreCase : Bool)
    (wanted : String) : Option α :=
  let fold (s : String) := if ignoreCase then s.toList.map Char.toLower else s.toList
  choices.find? fun choice => fold (name choice) = fold wanted

namespace Default

def memory : String := "96M"
def output : String := "-nographic"
def bios : String := "assets/OVMF.fd"
def boot : String := "esp"
def debugListen : String := "0.0.0.0:1234"

end Default

structure Config where
  task : Task := .build
  /-- Wait for a debugger before the first instruction. -/
  debug : Bool := false
  intdbg : Bool := false
  memory : String := Default.memory
  /-- Further arguments of the hypervisor, between blanks. -/
  output : String := Default.output
  profile : Profile := .release
  verbose : Bool := false
  dryRun : Bool := false
  bios : Path := .ofString Default.bios
  boot : Path := .ofString Default.boot
  debugListen : String := Default.debugListen
  manifestScan : ManifestScan := .literal
  deriving DecidableEq, Inhabited

/-- Whether details are printed: always when nothing is done. -/
def Config.showDebug (config : Config) : Bool := config.verbose || config.dryRun

end BootVolume
