import SpawnGuard.Files.System

/-!
Walks below a directory: what one meets on its way, and where it fails.
-/
namespace SpawnGuard

/-- What a walk meets, by the names that lead to it from where the walk started. -/
structure WalkEntry where
  names : List String
  isFile : Bool
  deriving DecidableEq, Repr

class Walker (m : Type → Type) where
  /-- Each directory is met in front of what it holds, and this in the order of names. A directory
  that cannot be read is told of by a message behind it. -/
  walk : Path → m (List (Except String WalkEntry))

namespace Walk

/-- All that was met, or the first message. -/
def collect (told : List (Except String WalkEntry)) : Except String (List WalkEntry) :=
  told.mapM id

def unread (path : Path) (fault : FileFault) : String :=
  s!"IO error for operation on {path.text}: {fault.message}"

end Walk

end SpawnGuard
