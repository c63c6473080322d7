import BootVolume.Text.Lines

/-!
# Reading a package name by its look

The literal scan takes a manifest as lines of text: the first line that mentions `name` decides,
and the name is what stands behind its first double quote, up to the next one or to the end of the
line. Comments and dependencies are not told apart from the package itself.
-/

namespace BootVolume.Manifest

/-- The text behind the first double quote of a line, up to the second one. -/
def firstQuoted? (line : List Char) : Option (List Char) :=
  (pieces (· = '"') line)[1]?

def scanChars (text : List Char) : Option (List Char) :=
  ((textLines text).find? (mentions "name".toList)).bind firstQuoted?

def scanName (text : String) : Option String :=
  (scanChars text.toList).map String.ofList

end BootVolume.Manifest
