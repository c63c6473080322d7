import BootVolume.App
import BootVolume.Hypervisor
import BootVolume.Volume

/-!
# Tasks

What the program does on request: build the boot volume, remove it, check the sources, and boot the
volume in the hypervisor. Each is a job over an executor, in a fixed order, and stops at its first
failure.
-/

namespace BootVolume

namespace Build

/-- Compiles the boot loader, always for release, and stages it with the kernel's boot
configuration, if there is one. -/
def bootloader (config : Config) (site : Site) (executor : Executor) (toolchain : Path) :
    Job Unit := do
  Job.say .info "Building" "bootloader..."
  executor.run (.compile toolchain .release (.ofString Layout.bootloaderSource))
  let _ ← Volume.stage config site
    (Layout.artifact Layout.bootloaderTarget .release (Layout.bootloaderPackage ++ ".efi"))
    (.ofString Layout.bootloaderEntry)
  if ← Job.ask (·.exists? site.here (site.path (.ofString Layout.bootConfigSource))) then
    let _ ← Volume.stage config site (.ofString Layout.bootConfigSource)
      (.ofString Layout.bootConfigEntry)
  else
    Job.detail config "Skipping" "no kernel boot.conf"

def kernel (config : Config) (site : Site) (executor : Executor) (toolchain : Path) :
    Job Unit := do
  Job.say .info "Building" "kernel..."
  executor.run (.compile toolchain config.profile (.ofString Layout.kernelSource))
  let _ ← Volume.stage config site
    (Layout.artifact Layout.kernelTarget config.profile Layout.kernelPackage)
    (.ofString Layout.kernelEntry)

/-- Compiles an application and stages what its package names under the name of its directory. -/
def app (config : Config) (site : Site) (executor : Executor) (toolchain : Path) (app : App) :
    Job Unit := do
  Job.say .info "Building" ("app " ++ app.dir ++ "...")
  executor.run (.compile toolchain config.profile app.source)
  let _ ← Volume.stage config site (Layout.artifact Layout.appTarget config.profile app.package)
    (Layout.appEntry app.dir)

def appsIn (config : Config) (site : Site) (executor : Executor) (toolchain : Path) :
    List String → Job Unit
  | [] => pure ()
  | dir :: rest => do
    let loaded ← App.load site dir config.manifestScan
    app config site executor toolchain loaded
    appsIn config site executor toolchain rest

def apps (config : Config) (site : Site) (executor : Executor) (toolchain : Path) : Job Unit := do
  let dirs ← App.discover site
  appsIn config site executor toolchain dirs

def all (config : Config) (site : Site) (executor : Executor) : Job Unit := do
  let toolchain ← executor.find Layout.toolchain
  bootloader config site executor toolchain
  kernel config site executor toolchain
  apps config site executor toolchain

end Build

namespace Task

/-- Removes the boot volume and lets the toolchain remove its output. -/
def removeOutput (config : Config) (site : Site) (executor : Executor) : Job Unit := do
  if ← Volume.removeAll config site then
    Job.say .info "Removed" (Volume.root config site).display
  let toolchain ← executor.find Layout.toolchain
  Job.say .info "Running" "cargo clean..."
  executor.run ((Invocation.new toolchain.bytes).arg (Utf8.encode "clean"))

/-- The toolchain's checks in the directory of a component. -/
def check (toolchain dir : Path) : Invocation :=
  ((Invocation.new toolchain.bytes).arg (Utf8.encode "clippy")).inDir dir

def checkApps (executor : Executor) (toolchain : Path) : List String → Job Unit
  | [] => pure ()
  | dir :: rest => do
    Job.say .info "Running" ("clippy on app " ++ dir ++ "...")
    executor.run (check toolchain (Layout.appSource dir))
    checkApps executor toolchain rest

/-- Formats all sources, then checks the kernel and every application. -/
def lint (site : Site) (executor : Executor) : Job Unit := do
  let toolchain ← executor.find Layout.toolchain
  Job.say .info "Running" "cargo fmt on root..."
  executor.run ((Invocation.new toolchain.bytes).addArgs
    (["+nightly", "fmt", "--all"].map Utf8.encode))
  Job.say .info "Running" "clippy on kernel..."
  executor.run (check toolchain (.ofString Layout.kernelSource))
  let dirs ← App.discover site
  checkApps executor toolchain dirs

end Task

namespace Hypervisor

def launch (config : Config) (executor : Executor) : Job Unit := do
  let hypervisor ← executor.find Layout.hypervisor
  executor.run ((Invocation.new hypervisor.bytes).addArgs (arguments config))

end Hypervisor
end BootVolume
