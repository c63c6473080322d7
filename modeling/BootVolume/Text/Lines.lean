import BootVolume.Text.Pieces

/-!
# Lines of a text

A line ends with a line feed, which may have a carriage return in front of it; the last line may
end with the text. Neither terminator belongs to its line.
-/

namespace BootVolume

/-- A terminated line without the carriage return at its end. -/
def dropReturn (line : List Char) : List Char :=
  if line.getLast? = some '\r' then line.dropLast else line

/-- What stands behind the last line feed is a line only if there is anything. -/
def textLines (cs : List Char) : List (List Char) :=
  let stretches := pieces (· = '\n') cs
  stretches.dropLast.map dropReturn ++ stretches.getLast?.toList.filter (!·.isEmpty)

/-- Whether a word stands somewhere in a line. -/
def mentions (word : List Char) : List Char → Bool
  | [] => word.isEmpty
  | c :: rest => word.isPrefixOf (c :: rest) || mentions word rest

end BootVolume
