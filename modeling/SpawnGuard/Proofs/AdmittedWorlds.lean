import SpawnGuard.Proofs.CheckerRuns
import SpawnGuard.Proofs.TileRegistrations

/-!
Worlds small enough for their arithmetic. Where a row more than the grid has could still be
numbered in words, nothing that tiles and liquid do overflows or misses the table.
-/
namespace SpawnGuard

/-- A spawn lands on a cell of a grid of some sides. -/
def TileStep.Lands (width height : Int32) : TileStep → Prop
  | spawn _ position =>
    0 ≤ position.x.floorWord.toInt ∧ position.x.floorWord.toInt < width.toInt ∧
      0 ≤ position.y.floorWord.toInt ∧ position.y.floorWord.toInt < height.toInt
  | cleanUp _ | write _ _ _ | check _ => True

instance (width height : Int32) (step : TileStep) : Decidable (step.Lands width height) :=
  match step with
  | .spawn _ _ => inferInstanceAs (Decidable (_ ∧ _))
  | .cleanUp _ | .write _ _ _ | .check _ => .isTrue trivial

namespace MemoryGrid

/-- The cells a checker may stand on: those of the grid, and the one of a checker that never
spawned. -/
def Known (grid : MemoryGrid) (cell : Cell) : Prop :=
  -1 ≤ cell.toInt ∧ cell.toInt < grid.width.toInt * grid.height.toInt

/-- There is room for one more row, and no rectangle that is registered overflows. -/
structure Roomy (grid : MemoryGrid) : Prop where
  sound : grid.Sound
  room : grid.width.toInt * (grid.height.toInt + 1) ≤ 2147483647
  extents : ∀ entry ∈ grid.registrations, entry.2.extents.Fits

variable {grid : MemoryGrid} {cell : Cell}

theorem Roomy.above_row (roomy : grid.Roomy) :
    grid.width.toInt * grid.height.toInt + grid.width.toInt ≤ 2147483647 := by
  have room := roomy.room
  rwa [Int.mul_add, Int.mul_one] at room

theorem answers_of_tabled (tabled : grid.Tabled) {neighbour : Except GridFault Cell}
    (asked : neighbour = .ok cell) : LiquidChecker.Answers grid neighbour :=
  ⟨cell, asked, _, isValid_eq tabled cell, fun _ => ⟨_, isLiquid_eq tabled cell⟩⟩

/-- Around a known cell no step overflows. -/
theorem Roomy.answersBeside (roomy : grid.Roomy) (known : grid.Known cell) :
    LiquidChecker.AnswersBeside grid cell := by
  obtain ⟨low, high⟩ := known
  have row := roomy.above_row
  have wide := roomy.sound.wide
  have upward : Word.Fits (cell.toInt + grid.width.toInt) := ⟨by omega, by omega⟩
  have leftward : Word.Fits (cell.toInt - (1 : Int32).toInt) := by
    show Word.Fits (cell.toInt - 1)
    exact ⟨by omega, by omega⟩
  have rightward : Word.Fits (cell.toInt + (1 : Int32).toInt) := by
    show Word.Fits (cell.toInt + 1)
    exact ⟨by omega, by omega⟩
  have tabled := roomy.sound.tabled
  exact ⟨answers_of_tabled tabled (congrArg GridFault.ofWord (if_pos upward)),
    answers_of_tabled tabled (congrArg GridFault.ofWord (if_pos leftward)),
    answers_of_tabled tabled (congrArg GridFault.ofWord (if_pos rightward))⟩

theorem Roomy.cellAt_isOk (roomy : grid.Roomy) {position : Position}
    (inside : grid.Inside position.x.floorWord.toInt position.y.floorWord.toInt) :
    ∃ cell, grid.cellAt position = .ok cell ∧
      cell.toInt = position.y.floorWord.toInt * grid.width.toInt + position.x.floorWord.toInt := by
  obtain ⟨left, right, bottom, top⟩ := inside
  have low := (index_nonneg_iff left right).mpr bottom
  have high := (index_lt_area_iff left right).mpr top
  have area := roomy.sound.area.2
  have start := Int.mul_nonneg bottom roomy.sound.wide.le
  have rowFits : Word.Fits (position.y.floorWord.toInt * grid.width.toInt) :=
    ⟨by omega, by omega⟩
  have cellFits :
      Word.Fits (position.y.floorWord.toInt * grid.width.toInt + position.x.floorWord.toInt) :=
    ⟨by omega, by omega⟩
  have row := Word.toInt_ofInt rowFits
  have cell := Word.toInt_ofInt cellFits
  have multiplied : Word.mul position.y.floorWord grid.width = .ok _ :=
    Word.checked_eq_ok.mpr row
  have added : Word.add (Int32.ofInt (position.y.floorWord.toInt * grid.width.toInt))
      position.x.floorWord = .ok (Int32.ofInt
        (position.y.floorWord.toInt * grid.width.toInt + position.x.floorWord.toInt)) :=
    Word.checked_eq_ok.mpr (by rw [cell, row])
  refine ⟨_, ?_, cell⟩
  unfold cellAt cellOf
  rw [multiplied]
  exact congrArg GridFault.ofWord added

/-- The rectangle watched from a cell of the grid does not overflow. -/
theorem Roomy.fits_watchedFrom (roomy : grid.Roomy) {x y : Int} (inside : grid.Inside x y)
    (index : cell.toInt = y * grid.width.toInt + x) : (grid.watchedFrom cell).Fits := by
  obtain ⟨column, row⟩ := pointOf_index inside index
  obtain ⟨left, right, bottom, top⟩ := inside
  have west := Word.toInt_ofInt (grid.fits_west cell)
  have room := roomy.above_row
  have wide := roomy.sound.wide
  have high := roomy.sound.high
  have columns : grid.width.toInt ≤ grid.width.toInt * grid.height.toInt := by nlinarith
  have rows : grid.height.toInt ≤ grid.width.toInt * grid.height.toInt := by nlinarith
  constructor
  · show Word.Fits ((Int32.ofInt ((grid.pointOf cell).x.toInt - 1)).toInt + 3)
    rw [west, column]
    exact ⟨by omega, by omega⟩
  · show Word.Fits ((grid.pointOf cell).y.toInt + 2)
    rw [row]
    exact ⟨by omega, by omega⟩

theorem Roomy.free (roomy : grid.Roomy) (entry : GridEntry) : (grid.free entry).Roomy := by
  refine ⟨roomy.sound.free entry, ?_, fun registered listed => ?_⟩
  · rw [width_free, height_free]
    exact roomy.room
  · obtain ⟨none | handle⟩ := entry
    · exact roomy.extents registered listed
    · have left : registered ∈ (grid.free (.ofHandle handle)).registrations := listed
      rw [registrations_free] at left
      exact roomy.extents registered (List.mem_of_mem_filter left)

theorem Roomy.add (roomy : grid.Roomy) (name : String) (owner : Owner) {extents : Extents}
    (fits : extents.Fits) (layer : Layer) : (grid.add name owner extents layer).2.Roomy := by
  refine ⟨roomy.sound.add name owner extents layer, roomy.room, fun entry listed => ?_⟩
  rcases List.mem_append.mp listed with old | new
  · exact roomy.extents entry old
  · cases List.mem_singleton.mp new
    exact fits

theorem Roomy.pour (roomy : grid.Roomy) (cell : Cell) (liquid : Bool) :
    (grid.pour cell liquid).Roomy :=
  ⟨⟨roomy.sound.wide, roomy.sound.high, roomy.sound.area, roomy.sound.size⟩, roomy.room,
    roomy.extents⟩

theorem Roomy.listeners_isOk (roomy : grid.Roomy) (cell : Cell) (layer : Layer) :
    ∃ owners, grid.listeners cell layer = .ok owners :=
  ⟨_, interested_eq layer _ roomy.extents⟩

theorem Roomy.setLiquid_isOk (roomy : grid.Roomy) (cell : Cell) (liquid : Bool) :
    ∃ owners after, grid.setLiquid cell liquid = .ok (owners, after) ∧ after.Roomy ∧
      after.width = grid.width ∧ after.height = grid.height := by
  have tabled := roomy.sound.tabled
  by_cases valid : grid.Valid cell
  · obtain ⟨owners, heard⟩ := roomy.listeners_isOk cell .liquid
    rw [setLiquid_eq tabled valid, heard]
    exact ⟨_, _, rfl, roomy.pour cell liquid, rfl, rfl⟩
  · exact ⟨_, _, setLiquid_outside tabled valid liquid, roomy, rfl, rfl⟩

end MemoryGrid

namespace LiquidChecker

variable {ω : Type} [Occupier ω] {grid : MemoryGrid}

theorem check_isOk (roomy : grid.Roomy) {checker : LiquidChecker ω}
    (known : grid.Known checker.cell) (gate : Gate) :
    ∃ checked, checker.check grid gate = .ok checked ∧
      checked.checker.cell = checker.cell := by
  obtain ⟨wet, answered⟩ := senses_isOk (roomy.answersBeside known)
  have done : checker.check grid gate = .ok _ := check_of_senses answered
  exact ⟨_, done, congrArg (·.2.2) (place_check done)⟩

theorem spawn_isOk (roomy : grid.Roomy) (gate : Gate) (checker : LiquidChecker ω)
    {position : Position}
    (inside : grid.Inside position.x.floorWord.toInt position.y.floorWord.toInt) :
    ∃ after checked, checker.spawn grid gate position = .ok (after, checked) ∧ after.Roomy ∧
      after.width = grid.width ∧ after.height = grid.height ∧
      grid.Known checked.checker.cell := by
  obtain ⟨cell, placed, index⟩ := roomy.cellAt_isOk inside
  have fits := roomy.fits_watchedFrom inside index
  obtain ⟨left, right, bottom, top⟩ := inside
  have low := (MemoryGrid.index_nonneg_iff left right).mpr bottom
  have high := (MemoryGrid.index_lt_area_iff left right).mpr top
  have known : grid.Known cell := ⟨by omega, by omega⟩
  let after := ((grid.free checker.entry).add registrationName checker.owner
    (grid.watchedFrom cell) .liquid).2
  have kept : after.Roomy := (roomy.free checker.entry).add _ _ fits _
  have width : after.width = grid.width := grid.width_free checker.entry
  have height : after.height = grid.height := grid.height_free checker.entry
  have stands : after.Known cell := by
    unfold MemoryGrid.Known
    rw [width, height]
    exact known
  let moved : LiquidChecker ω :=
    { checker with cell, entry := .ofHandle (grid.free checker.entry).nextHandle }
  have stands : after.Known moved.cell := stands
  obtain ⟨looked, checked, _⟩ := check_isOk kept stands gate
  have answered : ∃ answer, checker.spawn grid gate position = .ok answer := by
    unfold LiquidChecker.spawn
    show ∃ answer, (grid.cellAt position >>= _) = .ok answer
    rw [placed]
    show ∃ answer, (GridFault.ofWord (watched (grid.pointOf cell)) >>= _) = .ok answer
    rw [grid.watched_eq cell]
    show ∃ answer, (check after gate moved >>= _) = .ok answer
    rw [checked]
    exact ⟨_, rfl⟩
  obtain ⟨⟨_, spawned⟩, done⟩ := answered
  obtain ⟨_, same, place, rfl⟩ := place_spawn done
  cases placed.symm.trans same
  have there : spawned.checker.cell = cell := congrArg (·.2.2) place
  exact ⟨after, spawned, done, kept, width, height, there ▸ known⟩

end LiquidChecker

namespace World

variable {ω : Type}

/-- A world on a grid of some sides that has room, with every tile on a known cell. -/
structure Admitted (width height : Int32) (world : World ω) : Prop where
  width : world.grid.width = width
  height : world.grid.height = height
  roomy : world.grid.Roomy
  known : ∀ tile ∈ world.tiles, world.grid.Known tile.cell

variable {width height : Int32} {world : World ω}

/-- One tile is replaced, and with it a grid of the same sides. -/
theorem Admitted.replace (admitted : world.Admitted width height) {grid : MemoryGrid}
    (roomy : grid.Roomy) (wide : grid.width = world.grid.width)
    (high : grid.height = world.grid.height) {tile : LiquidChecker ω}
    (known : world.grid.Known tile.cell) (number : Nat) (gate : Gate) :
    Admitted width height ⟨grid, world.tiles.set number tile, gate⟩ := by
  refine ⟨wide.trans admitted.width, high.trans admitted.height, roomy, fun placed listed => ?_⟩
  have same : grid.Known placed.cell = world.grid.Known placed.cell := by
    unfold MemoryGrid.Known
    rw [wide, high]
  show grid.Known placed.cell
  rw [same]
  rcases List.mem_or_eq_of_mem_set listed with old | rfl
  · exact admitted.known placed old
  · exact known

theorem Admitted.cleanUp (admitted : world.Admitted width height) (number : Nat) :
    (world.cleanUp number).Admitted width height := by
  unfold World.cleanUp
  split
  · exact admitted
  · rename_i tile found
    let emptied : LiquidChecker ω := { tile with entry := .none }
    have known : world.grid.Known emptied.cell :=
      admitted.known tile (List.mem_of_getElem? found)
    exact admitted.replace (admitted.roomy.free tile.entry) (world.grid.width_free tile.entry)
      (world.grid.height_free tile.entry) known number world.gate

theorem Admitted.setLiquid (admitted : world.Admitted width height) (cell : Cell)
    (liquid : Bool) :
    ∃ owners after, world.setLiquid cell liquid = .ok (owners, after) ∧
      after.Admitted width height := by
  obtain ⟨owners, grid, written, roomy, wide, high⟩ :=
    admitted.roomy.setLiquid_isOk cell liquid
  rw [World.setLiquid, written]
  refine ⟨_, _, rfl, wide.trans admitted.width, high.trans admitted.height, roomy, ?_⟩
  intro tile listed
  show grid.Known tile.cell
  unfold MemoryGrid.Known
  rw [wide, high]
  exact admitted.known tile listed

variable [Occupier ω]

theorem Admitted.check (admitted : world.Admitted width height) (number : Nat) :
    ∃ replayed after log, world.check number = .ok (replayed, after, log) ∧
      after.Admitted width height := by
  unfold World.check
  split
  · exact ⟨_, _, _, rfl, admitted⟩
  · rename_i tile found
    have known := admitted.known tile (List.mem_of_getElem? found)
    obtain ⟨checked, looked, stays⟩ :=
      LiquidChecker.check_isOk admitted.roomy known world.gate
    have known : world.grid.Known checked.checker.cell := stays ▸ known
    rw [looked]
    exact ⟨_, _, _, rfl, admitted.replace admitted.roomy rfl rfl known number checked.gate⟩

theorem Admitted.checkAll (admitted : world.Admitted width height) (told : List Nat) :
    ∃ after log, world.checkAll told = .ok (after, log) ∧ after.Admitted width height := by
  induction told generalizing world with
  | nil => exact ⟨_, _, rfl, admitted⟩
  | cons number rest ih =>
    obtain ⟨replayed, next, log, checked, kept⟩ := admitted.check number
    obtain ⟨last, later, settled, done⟩ := ih kept
    rw [World.checkAll, checked]
    show ∃ after log, (next.checkAll rest >>= _) = .ok (after, log) ∧ _
    rw [settled]
    exact ⟨_, _, rfl, done⟩

theorem Admitted.spawn (admitted : world.Admitted width height) (number : Nat)
    {position : Position} (lands : (TileStep.spawn number position).Lands width height) :
    ∃ after log, world.spawn number position = .ok (after, log) ∧
      after.Admitted width height := by
  unfold World.spawn
  split
  · exact ⟨_, _, rfl, admitted⟩
  · rename_i tile found
    have inside : world.grid.Inside position.x.floorWord.toInt position.y.floorWord.toInt := by
      unfold MemoryGrid.Inside
      rw [admitted.width, admitted.height]
      exact lands
    obtain ⟨grid, checked, spawned, roomy, wide, high, known⟩ :=
      LiquidChecker.spawn_isOk admitted.roomy world.gate tile inside
    rw [spawned]
    exact ⟨_, _, rfl, admitted.replace roomy wide high known number checked.gate⟩

theorem Admitted.apply (admitted : world.Admitted width height) {step : TileStep}
    (lands : step.Lands width height) :
    ∃ after, world.apply step = .ok after ∧ after.Admitted width height := by
  cases step with
  | spawn number position =>
    obtain ⟨after, log, spawned, kept⟩ := admitted.spawn number lands
    rw [World.apply, spawned]
    exact ⟨after, rfl, kept⟩
  | cleanUp number => exact ⟨_, rfl, admitted.cleanUp number⟩
  | write cell liquid told =>
    obtain ⟨owners, poured, written, wet⟩ := admitted.setLiquid cell liquid
    obtain ⟨after, log, checked, kept⟩ := wet.checkAll told
    rw [World.apply, written]
    show ∃ last, (poured.checkAll told >>= _) = .ok last ∧ _
    rw [checked]
    exact ⟨after, rfl, kept⟩
  | check number =>
    obtain ⟨replayed, after, log, checked, kept⟩ := admitted.check number
    rw [World.apply, checked]
    exact ⟨after, rfl, kept⟩

theorem Admitted.run (admitted : world.Admitted width height) {steps : List TileStep}
    (lands : ∀ step ∈ steps, step.Lands width height) :
    ∃ after, world.run steps = .ok after ∧ after.Admitted width height := by
  induction steps generalizing world with
  | nil => exact ⟨world, rfl, admitted⟩
  | cons step rest ih =>
    obtain ⟨next, applied, kept⟩ := admitted.apply (lands step List.mem_cons_self)
    obtain ⟨last, ran, done⟩ := ih kept fun later listed =>
      lands later (List.mem_cons_of_mem step listed)
    rw [World.run, List.foldlM_cons, applied]
    exact ⟨last, ran, done⟩

end World

/-- Nothing fails in a world of an admitted size. Where a grid has at least one cell and one row
more than it has could still be numbered in words, no run of tiles that spawn on its cells comes
to an overflow or misses the liquid table, and after it every question about any cell is
answered; it does not matter which tiles are checked, cleaned up or told, or which cells are
written. -/
theorem admitted_world_never_fails {ω : Type} [Occupier ω] {width height : Int32}
    (wide : 1 ≤ width.toInt) (high : 1 ≤ height.toInt)
    (room : width.toInt * (height.toInt + 1) ≤ 2147483647) {tiles : List (LiquidChecker ω)}
    (fresh : ∀ tile ∈ tiles, tile.cell = .invalid) (gate : Gate) {steps : List TileStep}
    (lands : ∀ step ∈ steps, step.Lands width height) :
    ∃ grid, MemoryGrid.ofSides width height = .ok grid ∧
      ∃ now, World.run ⟨grid, tiles, gate⟩ steps = .ok now ∧
        ∀ cell, (∃ wet, now.grid.isLiquid cell = .ok wet) ∧
          ∀ layer, ∃ owners, now.grid.listeners cell layer = .ok owners := by
  have area : 0 < width.toInt * height.toInt := Int.mul_pos wide high
  have row := room
  rw [Int.mul_add, Int.mul_one] at row
  have fits : Word.Fits (width.toInt * height.toInt) := ⟨by omega, by omega⟩
  have made : MemoryGrid.ofSides width height = .ok _ :=
    (MemoryGrid.ofSides_eq_ok (by omega) (by omega)).mpr ⟨fits, rfl⟩
  refine ⟨_, made, ?_⟩
  have start : World.Admitted width height
      ⟨⟨width, height, (width.toInt * height.toInt).toNat, [], [], 1, 0⟩, tiles, gate⟩ := by
    refine ⟨rfl, rfl, ⟨MemoryGrid.sound_ofSides wide high made, room, ?_⟩, ?_⟩
    · exact fun entry listed => absurd listed List.not_mem_nil
    · intro tile listed
      rw [fresh tile listed]
      exact ⟨le_rfl, Int.lt_trans (by decide) area⟩
  obtain ⟨now, ran, admitted⟩ := start.run lands
  exact ⟨now, ran, fun cell => ⟨⟨_, MemoryGrid.isLiquid_eq admitted.roomy.sound.tabled cell⟩,
    fun layer => admitted.roomy.listeners_isOk cell layer⟩⟩

/-- Two tiles on a column of the greatest height that is admitted: one is checked before it ever
spawned, the other one spawns far up and is told of liquid there. -/
def climb : List TileStep :=
  [.check 1, .spawn 0 ⟨⟨0⟩, ⟨1325400063⟩⟩, .write 2147483520 true [0, 1], .write (-7) true [],
    .cleanUp 0, .check 0]

theorem tower_never_fails :
    (∀ tile ∈ pond.tiles, tile.cell = .invalid) ∧
      (∀ step ∈ climb, step.Lands 1 2147483646) ∧
      ∃ grid, MemoryGrid.ofSides 1 2147483646 = .ok grid ∧
        ∃ now, World.run ⟨grid, pond.tiles, .closed⟩ climb = .ok now ∧
          ∀ cell, (∃ wet, now.grid.isLiquid cell = .ok wet) ∧
            ∀ layer, ∃ owners, now.grid.listeners cell layer = .ok owners := by
  have fresh : ∀ tile ∈ pond.tiles, tile.cell = .invalid := by decide
  have lands : ∀ step ∈ climb, step.Lands 1 2147483646 := by decide
  exact ⟨fresh, lands,
    admitted_world_never_fails (by decide) (by decide) (by decide) fresh .closed lands⟩

end SpawnGuard
