import BootVolume.CommandLine.Option
import BootVolume.Text.Visible

/-!
# Complaints about the command line

What can be wrong with the arguments of the program, each with the line that tells it.
-/

namespace BootVolume.CommandLine

inductive Complaint where
  | valueRequired (setting : Setting)
  | invalidValue (setting : Setting) (value : String)
  /-- A value that has to be text is none. -/
  | notText
  /-- A value for an option that takes none. -/
  | unexpectedValue (opt : Opt) (value : String)
  | repeated (opt : Opt)
  | unknownArgument (argument : String)
  | unknownTask (name : String)
  deriving DecidableEq, Inhabited

/-- The complaint in words. An argument is told as a terminal shows it: it has an attribute of its
own there, whose end also ends a sequence that the argument leaves open. -/
def Complaint.message (complaint : Complaint) : String :=
  "error: " ++
    match complaint with
    | valueRequired s =>
      "a value is required for '" ++ (Opt.setting s).usage ++ "' but none was supplied"
    | invalidValue s value =>
      "invalid value '" ++ visible value ++ "' for '" ++ (Opt.setting s).usage ++ "'"
    | notText => "invalid UTF-8 was detected in one or more arguments"
    | unexpectedValue opt value =>
      "unexpected value '" ++ visible value ++ "' for '" ++ opt.usage ++
        "' found; no more were expected"
    | repeated opt => "the argument '" ++ opt.usage ++ "' cannot be used multiple times"
    | unknownArgument argument => "unexpected argument '" ++ visible argument ++ "' found"
    | unknownTask name => "unrecognized subcommand '" ++ visible name ++ "'"

end BootVolume.CommandLine
