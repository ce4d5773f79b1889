import SpawnGuard.Tile.Grid
import SpawnGuard.Tile.Occupier

/-!
The liquid checker of a tile. It watches the cells around its own and, each time the liquid there
comes or goes, takes its occupier down and spawns it again behind an open gate.
-/
namespace SpawnGuard

structure LiquidChecker (ω : Type) where
  owner : Owner
  occupier : ω
  entry : GridEntry
  cell : Cell
  active : Bool
  deriving DecidableEq, Repr

namespace LiquidChecker

def registrationName : String := "AirflowTileLiquidChecker.OnSpawn"

variable {γ ω : Type} [GridService γ] [Occupier ω]

def ofOwner (owner : Owner) (occupier : ω) : LiquidChecker ω :=
  ⟨owner, occupier, .none, .invalid, false⟩

def isWet (grid : γ) (cell : Cell) : Except GridFault Bool := do
  let valid ← GridService.isValid grid cell
  if valid then GridService.isLiquid grid cell else .ok false

/-- Whether there is liquid above a cell, or left or right of it, asked in this order and only
until the answer is known. -/
def senses (grid : γ) (cell : Cell) : Except GridFault Bool := do
  let above ← GridService.above grid cell
  let wetAbove ← isWet grid above
  if wetAbove then .ok true
  else do
    let left ← GridService.left grid cell
    let wetLeft ← isWet grid left
    if wetLeft then .ok true
    else do
      let right ← GridService.right grid cell
      isWet grid right

/-- Takes the occupier down and spawns it again with the gate open, for a given activity. -/
def replay (active : Bool) (gate : Gate) (checker : LiquidChecker ω) :
    LiquidChecker ω × Gate × Log :=
  let opened := gate.openGuard
  let occupier := Occupier.setReplace active checker.occupier
  let occupier := Occupier.setCallDestroy true (Occupier.destroy occupier)
  let occupier := Occupier.spawn opened occupier
  let state := if active then "active" else "inactive"
  let entry : Log.Entry :=
    ⟨.debug, .checker, s!"ObjectId({checker.owner}) liquid checker now {state}"⟩
  ({ checker with occupier, active }, opened.dropGuard, entry :: Occupier.spawnLog occupier)

structure Checked (ω : Type) where
  replayed : Bool
  checker : LiquidChecker ω
  gate : Gate
  log : Log

def check (grid : γ) (gate : Gate) (checker : LiquidChecker ω) :
    Except GridFault (Checked ω) := do
  let active ← senses grid checker.cell
  if active = checker.active then .ok ⟨false, checker, gate, []⟩
  else
    let (checker, gate, log) := checker.replay active gate
    .ok ⟨true, checker, gate, log⟩

/-- The rectangle a checker at a point watches: its own row and the one above, three wide. -/
def watched (point : Point) : Except Overflow Extents := do
  let x ← Word.sub point.x 1
  .ok ⟨x, point.y, 3, 2⟩

/-- Places the checker at a position, registers it there instead of where it was, and checks. -/
def spawn (grid : γ) (gate : Gate) (position : Position) (checker : LiquidChecker ω) :
    Except GridFault (γ × Checked ω) := do
  let cell ← GridService.cellAt grid position
  let extents ← GridFault.ofWord (watched (GridService.pointOf grid cell))
  let (_, grid) := GridService.free grid checker.entry
  let (entry, grid) := GridService.add grid registrationName checker.owner extents .liquid
  let message : Log.Entry := ⟨.debug, .checker,
    s!"ObjectId({checker.owner}) watching {extents.text} around cell {cell.toInt}"⟩
  let checked ← check grid gate { checker with cell, entry }
  .ok (grid, { checked with log := message :: checked.log })

def cleanUp (grid : γ) (checker : LiquidChecker ω) : γ × LiquidChecker ω :=
  let (entry, grid) := GridService.free grid checker.entry
  (grid, { checker with entry })

end LiquidChecker

end SpawnGuard
