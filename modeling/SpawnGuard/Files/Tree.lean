import SpawnGuard.Files.Gzip
import SpawnGuard.Files.Tree.Basic
import SpawnGuard.Files.Walk

/-!
The walk below a directory of a tree held in memory. A directory cannot be read if its path cannot
be taken.
-/
namespace SpawnGuard.FileTree

def nameIn? (place : List String) (entry : List String × FileEntry) : Option String :=
  if entry.1.dropLast = place then entry.1.getLast? else none

/-- The names of what a directory holds, in their order. -/
def namesIn (tree : FileTree) (place : List String) : List String :=
  (tree.entries.filterMap (nameIn? place)).mergeSort fun name other => name ≤ other

/-- How many names lead to an entry, at most. -/
def height (tree : FileTree) : Nat := (tree.entries.map (·.1.length)).foldr max 0

/-- What is met from some names on; `depth` bounds how far down it is looked. -/
def meet (tree : FileTree) (input : Path) (place : List String) :
    Nat → List String → List (Except String WalkEntry)
  | 0, _ => []
  | depth + 1, names =>
    if tree.isDirectory (place ++ names) then
      .ok ⟨names, false⟩ ::
        match checkPath (input.below names) with
        | .error fault => [.error (Walk.unread (input.below names) fault)]
        | .ok () =>
          (tree.namesIn (place ++ names)).flatMap fun name =>
            meet tree input place depth (names ++ [name])
    else [.ok ⟨names, true⟩]

def meetAll (tree : FileTree) (input : Path) : List (Except String WalkEntry) :=
  match tree.resolve input with
  | .error fault => [.error (Walk.unread input fault)]
  | .ok place => tree.meet input place (tree.height + 1) []

instance : Walker (StateM FileTree) where
  walk input := fun tree => (tree.meetAll input, tree)

end SpawnGuard.FileTree
