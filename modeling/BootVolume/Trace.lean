import BootVolume.Console
import BootVolume.Files.Request
import BootVolume.Invocation
import BootVolume.SystemError

/-!
# Traces

What happens during a run, in order: the messages that the program prints, its own requests to the
file system, and the children that it starts, each with what it wrote and how it ended.
-/

namespace BootVolume

/-- The two streams that text is written to. -/
inductive Stream where
  | out
  | err
  deriving DecidableEq, Inhabited

/-- Errors go to the error stream, everything else to the standard one. -/
def Message.stream (message : Message) : Stream :=
  if message.level = .error then .err else .out

/-- What a child wrote, in order. -/
abbrev Output := List (Stream × Bytes)

/-- What was written to one stream. -/
def Output.on (output : Output) (stream : Stream) : Bytes :=
  output.flatMap fun part => if part.1 = stream then part.2 else []

inductive Event where
  | said (message : Message)
  /-- The program asked something of the files, which was granted or refused. -/
  | asked (request : FileRequest) (granted : Bool)
  /-- A child ran to its end; a signal leaves no code. -/
  | ran (invocation : Invocation) (output : Output) (code : Option Int)
  | notStarted (invocation : Invocation) (cause : SystemError)
  deriving DecidableEq

namespace Event

/-- What an event writes: a message one line, and a child whatever it wrote. -/
def output : Event → Output
  | said message => [(message.stream, Utf8.encode message.plain)]
  | asked _ _ => []
  | ran _ output _ => output
  | notStarted _ _ => []

def child? : Event → Option Invocation
  | ran inv _ _ | notStarted inv _ => some inv
  | said _ | asked _ _ => none

end Event

/-- Everything that a trace writes to a stream. -/
def written (stream : Stream) (events : List Event) : Bytes :=
  Output.on (events.flatMap Event.output) stream

theorem written_append (stream : Stream) (events more : List Event) :
    written stream (events ++ more) = written stream events ++ written stream more := by
  rw [written, List.flatMap_append, Output.on, List.flatMap_append]
  rfl

theorem written_cons (stream : Stream) (event : Event) (rest : List Event) :
    written stream (event :: rest) = event.output.on stream ++ written stream rest := by
  rw [written, List.flatMap_cons, Output.on, List.flatMap_append]
  rfl

end BootVolume
