import SpawnGuard.Tile.Checker
import SpawnGuard.Tile.MemoryGrid

/-!
A world: one grid, the tiles on it in the order in which they were made, and the gate of the
thread they live on.
-/
namespace SpawnGuard

structure World (ω : Type) where
  grid : MemoryGrid
  tiles : List (LiquidChecker ω)
  gate : Gate

namespace World

variable {ω : Type} [Occupier ω]

def ofSides (width height : Int32) : Except Overflow (World ω) :=
  (MemoryGrid.ofSides width height).map fun grid => ⟨grid, [], .closed⟩

def addTile (world : World ω) (tile : LiquidChecker ω) : World ω :=
  { world with tiles := world.tiles ++ [tile] }

def setTile (world : World ω) (number : Nat) (tile : LiquidChecker ω) : World ω :=
  { world with tiles := world.tiles.set number tile }

def settle (world : World ω) (number : Nat) (checked : LiquidChecker.Checked ω) :
    World ω × Log :=
  ({ world.setTile number checked.checker with gate := checked.gate }, checked.log)

def spawn (world : World ω) (number : Nat) (position : Position) :
    Except GridFault (World ω × Log) :=
  match world.tiles[number]? with
  | none => .ok (world, [])
  | some tile => do
    let (grid, checked) ← tile.spawn world.grid world.gate position
    .ok ({ world with grid }.settle number checked)

def cleanUp (world : World ω) (number : Nat) : World ω :=
  match world.tiles[number]? with
  | none => world
  | some tile =>
    let (grid, tile) := tile.cleanUp world.grid
    { world with grid }.setTile number tile

def check (world : World ω) (number : Nat) : Except GridFault (Bool × World ω × Log) :=
  match world.tiles[number]? with
  | none => .ok (false, world, [])
  | some tile => do
    let checked ← tile.check world.grid world.gate
    .ok (checked.replayed, world.settle number checked)

def checkAll (world : World ω) : List Nat → Except GridFault (World ω × Log)
  | [] => .ok (world, [])
  | number :: rest => do
    let (_, world, log) ← world.check number
    let (world, later) ← world.checkAll rest
    .ok (world, log ++ later)

/-- The numbers of the tiles of some owners, owner by owner. -/
def tilesOf (world : World ω) (owners : List Owner) : List Nat :=
  owners.flatMap fun owner =>
    (List.range world.tiles.length).filter fun number =>
      world.tiles[number]?.any (·.owner = owner)

def setLiquid (world : World ω) (cell : Cell) (liquid : Bool) :
    Except GridFault (List Owner × World ω) := do
  let (owners, grid) ← world.grid.setLiquid cell liquid
  .ok (owners, { world with grid })

def pour (world : World ω) (cell : Cell) (liquid : Bool) :
    Except GridFault (List Owner × World ω × Log) := do
  let (owners, world) ← world.setLiquid cell liquid
  .ok (owners, ← world.checkAll (world.tilesOf owners))

end World

end SpawnGuard
