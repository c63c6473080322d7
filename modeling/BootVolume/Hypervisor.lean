import BootVolume.Config
import BootVolume.Text.Blank

/-!
# The hypervisor's command line

The arguments that make the hypervisor boot the volume. They are a function of the configuration.
-/

namespace BootVolume

/-- What watches the machine while it runs; never more than one thing. -/
inductive DebugHook where
  | none
  /-- A debugger is awaited at this address, and the machine stands still until it comes. -/
  | gdb (listen : String)
  /-- Interrupts and resets are logged, and a triple fault stops the machine. -/
  | trace
  deriving DecidableEq

namespace DebugHook

def ofConfig (config : Config) : DebugHook :=
  if config.debug then .gdb config.debugListen
  else if config.intdbg then .trace
  else .none

def args : DebugHook → List String
  | none => []
  | gdb listen => ["-gdb", "tcp:" ++ listen, "-S"]
  | trace => ["-no-reboot", "-d", "int,cpu_reset"]

end DebugHook

namespace Hypervisor

/-- Everything after the name of the program. -/
def arguments (config : Config) : List Bytes :=
  [Utf8.encode "-bios", config.bios.bytes] ++
    ["-net", "none"].map Utf8.encode ++
    (tokens config.output).map Utf8.encode ++
    ["-m", config.memory].map Utf8.encode ++
    [Utf8.encode "-drive", Utf8.encode "format=raw,file=fat:" ++ config.boot.bytes,
      Utf8.encode "-snapshot"] ++
    (DebugHook.ofConfig config).args.map Utf8.encode

end Hypervisor
end BootVolume
