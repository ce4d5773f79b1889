import SpawnGuard.Tile.Grid

/-!
A grid held in memory: its sides, its wet cells, and its live registrations in the order of their
handles, which are never given out twice.
-/
namespace SpawnGuard

structure Registration where
  name : String
  owner : Owner
  extents : Extents
  layer : Layer
  deriving DecidableEq, Repr

structure MemoryGrid where
  width : Int32
  height : Int32
  size : Nat
  wet : List Cell
  registrations : List (Nat × Registration)
  nextHandle : Nat
  released : Nat
  deriving DecidableEq, Repr

namespace MemoryGrid

open GridFault (ofWord)

def ofSides (width height : Int32) : Except Overflow MemoryGrid := do
  let cells ← Word.mul (max width 0) (max height 0)
  .ok ⟨width, height, cells.toInt.toNat, [], [], 1, 0⟩

def cellOf (grid : MemoryGrid) (x y : Int32) : Except GridFault Cell := ofWord do
  let start ← Word.mul y grid.width
  Word.add start x

def cellAt (grid : MemoryGrid) (position : Position) : Except GridFault Cell :=
  grid.cellOf position.x.floorWord position.y.floorWord

/-- The column and row of a cell, also of one outside the grid; all cells of a grid without
columns are at the origin. -/
def pointOf (grid : MemoryGrid) (cell : Cell) : Point :=
  if grid.width ≤ 0 then ⟨0, 0⟩
  else ⟨Int32.ofInt (cell.toInt % grid.width.toInt), Int32.ofInt (cell.toInt / grid.width.toInt)⟩

def above (grid : MemoryGrid) (cell : Cell) : Except GridFault Cell :=
  ofWord (Word.add cell grid.width)

def left (_ : MemoryGrid) (cell : Cell) : Except GridFault Cell := ofWord (Word.sub cell 1)

def right (_ : MemoryGrid) (cell : Cell) : Except GridFault Cell := ofWord (Word.add cell 1)

/-- Whether a cell is one of the grid. The area is computed only for a cell that is not negative. -/
def isValid (grid : MemoryGrid) (cell : Cell) : Except GridFault Bool :=
  if cell < 0 then .ok false
  else do
    let area ← ofWord (Word.mul grid.width grid.height)
    .ok (cell < area)

def tableIndex (grid : MemoryGrid) (cell : Cell) : Except GridFault Nat :=
  let index := cell.toInt.toNat
  if index < grid.size then .ok index else .error (.outOfTable grid.size index)

def isLiquid (grid : MemoryGrid) (cell : Cell) : Except GridFault Bool := do
  let valid ← grid.isValid cell
  if valid then do
    let _ ← grid.tableIndex cell
    .ok (cell ∈ grid.wet)
  else .ok false

def interested (layer : Layer) (point : Point) :
    List (Nat × Registration) → Except GridFault (List Owner)
  | [] => .ok []
  | (_, registration) :: rest =>
    if registration.layer = layer then do
      let inside ← ofWord (registration.extents.contains point)
      let owners ← interested layer point rest
      .ok (if inside then registration.owner :: owners else owners)
    else interested layer point rest

def listeners (grid : MemoryGrid) (cell : Cell) (layer : Layer) :
    Except GridFault (List Owner) :=
  interested layer (grid.pointOf cell) grid.registrations

def pour (grid : MemoryGrid) (cell : Cell) (liquid : Bool) : MemoryGrid :=
  let others := grid.wet.filter (· ≠ cell)
  { grid with wet := if liquid then cell :: others else others }

def setLiquid (grid : MemoryGrid) (cell : Cell) (liquid : Bool) :
    Except GridFault (List Owner × MemoryGrid) := do
  let valid ← grid.isValid cell
  if valid then do
    let _ ← grid.tableIndex cell
    let grid := grid.pour cell liquid
    let owners ← grid.listeners cell .liquid
    .ok (owners, grid)
  else .ok ([], grid)

def add (grid : MemoryGrid) (name : String) (owner : Owner) (extents : Extents) (layer : Layer) :
    GridEntry × MemoryGrid :=
  (.ofHandle grid.nextHandle,
    { grid with
      registrations := grid.registrations ++ [(grid.nextHandle, ⟨name, owner, extents, layer⟩)]
      nextHandle := grid.nextHandle + 1 })

/-- The grid once an entry is given back; an empty entry, or one whose handle is not live, changes
nothing. -/
def free (grid : MemoryGrid) (entry : GridEntry) : MemoryGrid :=
  match entry.handle? with
  | none => grid
  | some handle =>
    if grid.registrations.any (·.1 = handle) then
      { grid with
        registrations := grid.registrations.filter (·.1 ≠ handle)
        released := grid.released + 1 }
    else grid

def registrationNames (grid : MemoryGrid) : List String := grid.registrations.map (·.2.name)

instance : GridService MemoryGrid where
  cellAt := cellAt
  pointOf := pointOf
  above := above
  left := left
  right := right
  isValid := isValid
  isLiquid := isLiquid
  add := add
  free grid entry := (.none, grid.free entry)

end MemoryGrid

end SpawnGuard
