import BootVolume.Executor
import BootVolume.Layout

/-!
# Applications

Each directory among the applications that is not reserved is one. Its directory names its place on
the boot volume, and its package names what the toolchain makes of it.
-/

namespace BootVolume

structure App where
  dir : String
  package : String
  deriving DecidableEq, Inhabited

namespace App

/-- The source directory, relative to the project root. -/
def source (app : App) : Path := Layout.appSource app.dir

/-- The directory names of the applications, in order. Names that are no text are shown as such
here. Without the directory of applications there are none. -/
def discover (site : Site) : Job (List String) := do
  let apps := site.path (.ofString Layout.appsSource)
  unless ← Job.ask (·.exists? site.here apps) do
    return []
  let names ← Job.query (.listDir apps) (·.list site.here apps)
  let dirs ← Job.ask fun tree =>
    names.filter fun name => tree.isDir site.here (apps.join ⟨name.bytes⟩)
  return (dirs.map fun name => Utf8.lossy name.bytes).filter (!Layout.reserved.contains ·)

def manifest (dir : String) : Path := (Layout.appSource dir).join (.ofString Layout.manifest)

/-- Reads the package of an application from its manifest. -/
def load (site : Site) (dir : String) (scan : ManifestScan) : Job App := do
  let path := site.path (manifest dir)
  let text ← Job.query (.readText path) (·.readText site.here path)
  match Manifest.readName scan text with
  | .error fault => throw (.manifest (manifest dir) fault)
  | .ok none => throw (.missingPackageName (manifest dir))
  | .ok (some package) => return { dir, package }

end App
end BootVolume
