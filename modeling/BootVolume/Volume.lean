import BootVolume.Executor

/-!
# The boot volume

Staging copies files into the directory that stands for the boot volume; removing takes the whole
directory away. A dry run only says what would be done.
-/

namespace BootVolume.Volume

def root (config : Config) (site : Site) : Path := site.path config.boot

def destination (config : Config) (site : Site) (rel : Path) : Path :=
  (root config site).join rel

/-- Makes the directories that lead to a path, unless they are there. -/
def prepare (site : Site) (target : Path) : Job Unit := do
  match target.parent? with
  | none => pure ()
  | some parent =>
    if ← Job.ask (·.exists? site.here parent) then pure ()
    else Job.change (.makeDir parent) (·.makeDirs site.here parent)

/-- Copies a file of the project into the volume and tells where. -/
def stage (config : Config) (site : Site) (source rel : Path) : Job Path := do
  let source := site.path source
  let target := destination config site rel
  let route := source.display ++ " -> " ++ target.display
  if config.dryRun then
    Job.detail config "Would copy" route
    return target
  prepare site target
  unless ← Job.ask (·.isFile site.here source) do
    throw (.notAFile source)
  Job.detail config "Copying" route
  let copied ← Job.ask (·.copyTarget site.here source target)
  Job.update (.copy source copied) (·.copy site.here source copied)
  return target

/-- Removes the volume and tells whether anything was there. -/
def removeAll (config : Config) (site : Site) : Job Bool := do
  let root := root config site
  unless ← Job.ask (·.exists? site.here root) do
    return false
  if config.dryRun then
    Job.detail config "Would remove" root.display
    return true
  Job.detail config "Removing" root.display
  Job.change (.remove root) (·.remove site.here root)
  return true

end BootVolume.Volume
