import Mathlib.Data.List.Basic
import SpawnGuard.Listing.Reader
import SpawnGuard.Proofs.PrintedWords
import SpawnGuard.Proofs.Sites
import SpawnGuard.Tile.Occupier

/-!
The spawn method as the game ships it, a listing of its own: reading it gives the body that
occupiers run, and the patch finds the subscription that ends it.
-/
namespace SpawnGuard

namespace Listing

theorem read_of_statements {given text : String} {statements : List Numbered}
    (sound : readStatements [] 1 (lines text.toList) = .ok statements) :
    read given text = assemble given statements := by
  unfold read
  rw [sound]

end Listing

def spawnLines : List String :=
  ["",
    ".method \"SimCellOccupier.OnSpawn\"",
    "    ldarg.0",
    "    ldfld \"Boolean doReplaceElement\"",
    "    brfalse.s no_replace",
    "    ldarg.0",
    "    call \"Void ReplaceAndDisplaceElement()\"",
    "    br.s done",
    "no_replace:",
    "    ldarg.0",
    "    call \"Void ForceSetGameCellData()\"",
    "done:",
    "    nop",
    "    ldarg.0",
    "    ldc.i4 -1699355994",
    "    ldsfld \"EventSystem.IntraObjectHandler`1[SimCellOccupier] OnBuildingRepairedDelegate\"",
    "    call \"Int32 Subscribe[SimCellOccupier]" ++
      "(Int32, EventSystem.IntraObjectHandler`1[SimCellOccupier])\"",
    "    pop",
    "    ret"]

def spawnListing : String := String.join (spawnLines.map (· ++ "\n"))

def spawnStatements : List Listing.Numbered :=
  let plain (line : Nat) (opcode : Opcode) (operand : Operand String) : Listing.Numbered :=
    ⟨line, .code [] (some ⟨opcode, operand⟩)⟩
  [⟨2, .method "SimCellOccupier.OnSpawn"⟩,
    plain 3 .ldarg0 .none,
    plain 4 .ldfld (.field "Boolean doReplaceElement"),
    plain 5 .brfalseS (.label "no_replace"),
    plain 6 .ldarg0 .none,
    plain 7 .call (.method "Void ReplaceAndDisplaceElement()"),
    plain 8 .brS (.label "done"),
    ⟨9, .code ["no_replace"] none⟩,
    plain 10 .ldarg0 .none,
    plain 11 .call (.method "Void ForceSetGameCellData()"),
    ⟨12, .code ["done"] none⟩,
    plain 13 .nop .none,
    plain 14 .ldarg0 .none,
    plain 15 .ldcI4 (.int repairEvent),
    plain 16 .ldsfld (.field
      "EventSystem.IntraObjectHandler`1[SimCellOccupier] OnBuildingRepairedDelegate"),
    plain 17 .call (.method ("Int32 Subscribe[SimCellOccupier]" ++
      "(Int32, EventSystem.IntraObjectHandler`1[SimCellOccupier])")),
    plain 18 .pop .none,
    plain 19 .ret .none]

-- The two halves of reading are evaluated apart: assembling looks at its statements many times.
private theorem readStatements_spawnLines :
    Listing.readStatements [] 1
      (Listing.lines (spawnLines.flatMap fun text => text.toList ++ ['\n'])) =
        .ok spawnStatements := by
  decide +kernel

private theorem assemble_spawnStatements :
    Listing.assemble "SimCellOccupier.OnSpawn" spawnStatements = .ok spawnBody := by
  decide

/-- Reading the spawn method of the game gives the body that occupiers run. -/
theorem read_spawnListing :
    Listing.read "SimCellOccupier.OnSpawn" spawnListing = .ok spawnBody := by
  have text := Listing.toList_join_lines spawnLines
  have sound : Listing.readStatements [] 1 (Listing.lines spawnListing.toList) =
      .ok spawnStatements := by
    rw [spawnListing, text]
    exact readStatements_spawnLines
  exact (Listing.read_of_statements sound).trans assemble_spawnStatements

def guardedSpawnBody (hook : String) : Body :=
  ⟨spawnBody.name, PatchSite.guarded spawnBody.code 9 hook ⟨2⟩, 3⟩

theorem locate?_spawnBody :
    PatchSite.locate? spawnBody repairTail = some ⟨9, repairTail⟩ := by
  decide

theorem insertGuard_spawnBody (hook : String) :
    PatchSite.insertGuard ⟨9, repairTail⟩ hook spawnBody =
      .ok (some (⟨2⟩, guardedSpawnBody hook)) := by
  obtain ⟨_, _, matched⟩ := PatchSite.locate?_eq_some locate?_spawnBody
  exact PatchSite.insertGuard_eq_some.mpr ⟨matched, by decide, rfl, rfl⟩

theorem transpile_spawnBody (hook : String) :
    transpile hook spawnBody = .ok (guardedSpawnBody hook, .patched 9 ⟨2⟩) := by
  unfold transpile
  rw [locate?_spawnBody]
  simp only [insertGuard_spawnBody]

end SpawnGuard
