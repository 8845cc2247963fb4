import Bootscript.Generator

/-! Putting a file in the place of another, step by step. Up to the last step the new file
stands beside the old one under a name of its own. If a step is refused, it is removed. -/
namespace Bootscript

/-- What a run may change on the machine it runs on. A handle stands for a file that the run
has made. -/
class Disk (m : Type → Type) (Handle : outParam Type) where
  /-- Letters and digits for a new name. -/
  draw : m Text
  /-- Makes an empty file in a directory. There is no handle if the name is taken. -/
  create : (directory : Bytes) → (name : Path.Name) → m (Except OsError (Option Handle))
  write : Handle → Bytes → m (Except OsError Unit)
  sync : Handle → m (Except OsError Unit)
  setMode : Handle → Nat → m (Except OsError Unit)
  /-- Moves the file to the place of what a path names. -/
  rename : Handle → Bytes → m (Except OsError Unit)
  remove : Handle → m Unit

namespace Replacement

variable {m : Type → Type} {Handle : Type} [Monad m] [Disk m Handle]

def attempts : Nat := 65536

/-- A new file beside the old one, under the first name that is not taken. -/
def create (path : Bytes) : Nat → m (Except OsError Handle)
  | 0 => return .error (.other "File exists" 17)
  | left + 1 => do
    let name := (temporaryName path (← Disk.draw)).encode
    match ← Disk.create (directory path) name with
    | .error cause => return .error cause
    | .ok (some handle) => return .ok handle
    | .ok none => create path left

/-- What is done with the new file. The first step that is refused is the last. -/
def fill (handle : Handle) (r : Replacement) : m (Except OsError Unit) := ExceptT.run do
  ExceptT.mk (Disk.write handle r.data)
  ExceptT.mk (Disk.sync handle)
  ExceptT.mk (Disk.setMode handle r.mode)
  ExceptT.mk (Disk.rename handle r.path)

/-- Puts a whole file in the place of the old one. What was begun is removed on failure. -/
def commit (r : Replacement) : m (Except OsError Unit) := do
  match ← create r.path attempts with
  | .error cause => return .error cause
  | .ok handle =>
    match ← fill handle r with
    | .ok () => return .ok ()
    | .error cause =>
      Disk.remove handle
      return .error cause

end Replacement
end Bootscript
