import BootVolume.Manifest.Scan
import BootVolume.Config
import BootVolume.Text.Quoted
import BootVolume.Toml.Document

/-!
# Reading a package name from a manifest

The strict scan reads the manifest as a TOML document and takes the string `name` of the table
`package`. An array in the place of that table is read as its values in order.
-/

namespace BootVolume.Manifest

/-- What the place of a value asks for. -/
inductive Expected where
  | text
  | package
  deriving DecidableEq, Inhabited

namespace Expected

def describe : Expected → String
  | text => "a string"
  | package => "struct Package"

end Expected

/-- Why a manifest gives no package name. -/
inductive Fault where
  | malformed (cause : Toml.Fault)
  | nameMissing
  /-- The package is an empty array. -/
  | nothingGiven
  /-- A value is of the wrong type; it is described by its kind. -/
  | wrongType (found : String) (expected : Expected)
  deriving DecidableEq, Inhabited

/-- A value as an error about its type shows it. -/
def describe : Toml.Node → String
  | .string text => "string " ++ quoted text
  | .integer n => "integer `" ++ toString n ++ "`"
  | .float x => "floating point `" ++ x.text ++ "`"
  | .boolean b => "boolean `" ++ (if b then "true" else "false") ++ "`"
  | .moment => "map"
  | .array _ => "sequence"
  | .table _ _ => "map"
  | .tables _ => "sequence"

/-- The type error of a document; there is none if it is no document at all. -/
def Fault.detail? : Fault → Option String
  | malformed _ => none
  | nameMissing => some "missing field `name`"
  | nothingGiven => some "invalid length 0, expected struct Package with 1 element"
  | wrongType found expected =>
    some ("invalid type: " ++ found ++ ", expected " ++ expected.describe)

def text : Toml.Node → Except Fault String
  | .string s => .ok s
  | node => .error (.wrongType (describe node) .text)

def nameIn (entries : Toml.Entries) : Except Fault String :=
  match entries.get? "name" with
  | some node => text node
  | none => .error .nameMissing

/-- The name of a package. A date or a time is a table without a name. -/
def packageName : Toml.Node → Except Fault String
  | .table _ entries => nameIn entries
  | .moment => .error .nameMissing
  | .array [] => .error .nothingGiven
  | .array (node :: _) => text node
  | .tables [] => .error .nothingGiven
  | .tables (entries :: _) => text (.table .header entries)
  | node => .error (.wrongType (describe node) .package)

/-- The package name of a document, or none if it has no package. -/
def parseName (text : String) : Except Fault (Option String) :=
  match Toml.parse text with
  | .error cause => .error (.malformed cause)
  | .ok entries =>
    match entries.get? "package" with
    | none => .ok none
    | some node => (packageName node).map some

/-- The package name that a way of reading finds in a manifest, if there is one. -/
def readName (scan : ManifestScan) (text : String) : Except Fault (Option String) :=
  match scan with
  | .literal => .ok (scanName text)
  | .strict => parseName text

end BootVolume.Manifest
