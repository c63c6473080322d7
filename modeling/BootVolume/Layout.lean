import BootVolume.Config

/-!
# Layout

Where the sources lie under the project root, where compiled artifacts appear, and where each of
them goes on the boot volume.
-/

namespace BootVolume.Layout

/-! Compilation targets -/

def bootloaderTarget : String := "x86_64-unknown-uefi"
def kernelTarget : String := "x86_64-unknown-none"
def appTarget : String := "x86_64-unknown-ysos"

/-! Packages of the fixed components -/

def bootloaderPackage : String := "ysos_boot"
def kernelPackage : String := "ysos_kernel"

/-! Sources, relative to the project root -/

def bootloaderSource : String := "pkg/boot"
def kernelSource : String := "pkg/kernel"
def appsSource : String := "pkg/app"
def bootConfigSource : String := "pkg/kernel/config/boot.conf"
def targetDir : String := "target"
def manifest : String := "Cargo.toml"

/-- Directories among the applications that are none. -/
def reserved : List String := ["config", ".cargo"]

/-! The boot volume, relative to its root -/

def bootloaderEntry : String := "EFI/BOOT/BOOTX64.EFI"
def bootConfigEntry : String := "EFI/BOOT/boot.conf"
def kernelEntry : String := "KERNEL.ELF"
def appsEntry : String := "APP"

/-! Tools -/

def toolchain : String := "cargo"
def hypervisor : String := "qemu-system-x86_64"

def appSource (dir : String) : Path := (Path.ofString appsSource).join (.ofString dir)

/-- The entry of an application on the boot volume, named by its directory. -/
def appEntry (dir : String) : Path := (Path.ofString appsEntry).join (.ofString dir)

/-- The compiled output of `name`, relative to the project root. -/
def artifact (target : String) (profile : Profile) (name : String) : Path :=
  (((Path.ofString targetDir).join (.ofString target)).join (.ofString profile.dir)).join
    (.ofString name)

end BootVolume.Layout
