import SpawnGuard.Proofs.WatchedCells
import SpawnGuard.Tile.World

/-!
Tiles and the changes they are told of. Once the owners that a write returns have been told, no
registered tile is out of date.
-/
namespace SpawnGuard

/-- What can happen to the tiles of a world. A write is followed by checks of some tiles, in some
order, before anything else happens. -/
inductive TileStep where
  | spawn (number : Nat) (position : Position)
  | cleanUp (number : Nat)
  | write (cell : Cell) (liquid : Bool) (told : List Nat)
  | check (number : Nat)
  deriving DecidableEq, Repr

namespace World

variable {ω : Type}

section Steps

variable [Occupier ω]

def apply (world : World ω) : TileStep → Except GridFault (World ω)
  | .spawn number position => do
    let (world, _) ← world.spawn number position
    .ok world
  | .cleanUp number => .ok (world.cleanUp number)
  | .write cell liquid told => do
    let (_, world) ← world.setLiquid cell liquid
    let (world, _) ← world.checkAll told
    .ok world
  | .check number => do
    let (_, world, _) ← world.check number
    .ok world

/-- A run ends at the first operation that is refused. -/
def run (world : World ω) (steps : List TileStep) : Except GridFault (World ω) :=
  steps.foldlM apply world

/-- Tiles spawn in interior columns, and after a write every tile of an owner it returned is
told. -/
def Allows (world : World ω) : TileStep → Prop
  | .spawn _ position =>
    world.grid.Interior position.x.floorWord.toInt position.y.floorWord.toInt
  | .write cell liquid told =>
    ∀ owners after, world.setLiquid cell liquid = .ok (owners, after) →
      ∀ number tile, world.tiles[number]? = some tile → tile.owner ∈ owners → number ∈ told
  | .cleanUp _ | .check _ => True

/-- How a world may come to stand, step by step; after an overflow nothing more happens. -/
inductive Reaches (world : World ω) : Except GridFault (World ω) → Prop where
  | start : Reaches world (.ok world)
  | step {now : World ω} {step : TileStep} (before : Reaches world (.ok now))
      (allowed : now.Allows step) : Reaches world (now.apply step)

theorem Reaches.next {world now after : World ω} (before : world.Reaches (.ok now))
    (step : TileStep) (allowed : now.Allows step) (done : now.apply step = .ok after) :
    world.Reaches (.ok after) := by
  rw [← done]
  exact .step before allowed

end Steps

/-- No handle is held by two tiles, the grid knows of every tile that holds one, and every such
tile is up to date but for some that are still to be told. -/
structure Current (stale : List Nat) (world : World ω) : Prop where
  sound : world.grid.Sound
  apart : ∀ {first second : Nat} {one other : LiquidChecker ω} {handle : Nat},
    world.tiles[first]? = some one → world.tiles[second]? = some other →
      one.entry = .ofHandle handle → other.entry = .ofHandle handle → first = second
  known : ∀ {number : Nat} {tile : LiquidChecker ω} {handle : Nat},
    world.tiles[number]? = some tile → tile.entry = .ofHandle handle →
      ∃ x y, tile.Registered world.grid handle x y ∧
        (number ∉ stale → (tile.active = true ↔ world.grid.NearLiquid x y))

variable {world : World ω} {stale : List Nat} {number : Nat}

theorem Current.weaken (kept : world.Current stale) {more : List Nat}
    (fewer : ∀ number ∈ stale, number ∈ more) : world.Current more where
  sound := kept.sound
  apart := kept.apart
  known found held := by
    obtain ⟨x, y, known, current⟩ := kept.known found held
    exact ⟨x, y, known, fun told => current (mt (fewer _) told)⟩

private theorem getElem?_set_cases {α : Type} {items : List α} {index other : Nat} {new item : α}
    (found : (items.set index new)[other]? = some item) :
    (other = index ∧ item = new) ∨ (other ≠ index ∧ items[other]? = some item) := by
  rw [List.getElem?_set] at found
  split at found
  · rename_i same
    split at found
    · cases found
      exact .inl ⟨same.symm, rfl⟩
    · cases found
  · rename_i apart
    exact .inr ⟨Ne.symm apart, found⟩

/-- One tile is replaced, with what the grid knows of it, by one that is up to date. -/
theorem Current.replace (kept : world.Current (number :: stale)) {old new : LiquidChecker ω}
    (found : world.tiles[number]? = some old) {grid : MemoryGrid} (sound : grid.Sound)
    (others : ∀ (tile : LiquidChecker ω) handle x y, tile.Registered world.grid handle x y →
      old.entry ≠ .ofHandle handle → tile.Registered grid handle x y)
    (same : ∀ x y, grid.NearLiquid x y ↔ world.grid.NearLiquid x y)
    (renewed : ∀ handle, new.entry = .ofHandle handle →
      (old.entry = .ofHandle handle ∨ world.grid.nextHandle ≤ handle) ∧
        ∃ x y, new.Registered grid handle x y ∧ (new.active = true ↔ grid.NearLiquid x y))
    (gate : Gate) : Current stale ⟨grid, world.tiles.set number new, gate⟩ := by
  -- A handle of another tile is neither the replaced one's nor a fresh one.
  have foreign {index : Nat} {tile : LiquidChecker ω} {handle : Nat} (other : index ≠ number)
      (placed : world.tiles[index]? = some tile) (held : tile.entry = .ofHandle handle) :
      old.entry ≠ .ofHandle handle ∧ new.entry ≠ .ofHandle handle := by
    have notOld : old.entry ≠ .ofHandle handle :=
      fun shared => other (kept.apart placed found held shared)
    refine ⟨notOld, fun shared => ?_⟩
    obtain ⟨x, y, known, _⟩ := kept.known placed held
    rcases (renewed handle shared).1 with given | fresh
    · exact notOld given
    · exact absurd known.given (Nat.not_lt.mpr fresh)
  refine ⟨sound, ?_, ?_⟩
  · intro first second one other handle atFirst atSecond heldFirst heldSecond
    rcases getElem?_set_cases atFirst with ⟨rfl, rfl⟩ | ⟨apart, oldFirst⟩
    · rcases getElem?_set_cases atSecond with ⟨rfl, rfl⟩ | ⟨apart, oldSecond⟩
      · rfl
      · exact absurd heldFirst (foreign apart oldSecond heldSecond).2
    · rcases getElem?_set_cases atSecond with ⟨rfl, rfl⟩ | ⟨_, oldSecond⟩
      · exact absurd heldSecond (foreign apart oldFirst heldFirst).2
      · exact kept.apart oldFirst oldSecond heldFirst heldSecond
  · intro index tile handle placed held
    rcases getElem?_set_cases placed with ⟨rfl, rfl⟩ | ⟨apart, placed⟩
    · obtain ⟨_, x, y, known, current⟩ := renewed handle held
      exact ⟨x, y, known, fun _ => current⟩
    · obtain ⟨x, y, known, current⟩ := kept.known placed held
      refine ⟨x, y, others tile handle x y known (foreign apart placed held).1, fun told => ?_⟩
      rw [current (List.not_mem_cons_of_ne_of_not_mem apart told), same]

theorem current_cleanUp (kept : world.Current []) (number : Nat) :
    (world.cleanUp number).Current [] := by
  unfold cleanUp
  split
  · exact kept
  · rename_i tile found
    refine (kept.weaken (by simp)).replace found (kept.sound.free tile.entry)
      (fun _ _ _ _ known other => known.free other) (fun x y => ?_) ?_ world.gate
    · exact MemoryGrid.nearLiquid_free world.grid tile.entry x y
    · intro handle impossible
      cases impossible

/-- After a write the tiles that are not told are up to date: none of them watches the cell. -/
theorem current_write (kept : world.Current []) {cell : Cell} {liquid : Bool} {told : List Nat}
    (allowed : world.Allows (.write cell liquid told)) :
    OrOverflow (fun answer => answer.2.Current told) (world.setLiquid cell liquid) := by
  have said := MemoryGrid.setLiquid_said kept.sound cell liquid
  cases written : world.grid.setLiquid cell liquid with
  | error fault =>
    rw [written] at said
    unfold setLiquid
    rw [written]
    cases fault <;> exact said
  | ok answer =>
    obtain ⟨owners, grid⟩ := answer
    rw [written] at said
    have answered : world.setLiquid cell liquid = .ok (owners, { world with grid }) := by
      unfold setLiquid
      rw [written]
      rfl
    have covered := allowed owners _ answered
    rw [answered]
    show Current _ { world with grid }
    rcases said with ⟨rfl, _⟩ | ⟨rfl, heard⟩
    · exact kept.weaken (by simp)
    · refine ⟨⟨kept.sound.wide, kept.sound.high, kept.sound.area, kept.sound.size⟩, kept.apart, ?_⟩
      intro number tile handle placed held
      obtain ⟨x, y, known, current⟩ := kept.known placed held
      refine ⟨x, y, ⟨⟨known.stands.interior, known.stands.index⟩, known.given, known.listed⟩, ?_⟩
      intro untold
      -- The owner of a tile that is not told is not in the answer.
      have unheard : ¬ MemoryGrid.Hears world.grid.registrations .liquid
          (world.grid.pointOf cell) tile.owner :=
        fun hears => untold (covered number tile placed ((heard tile.owner).mpr hears))
      rw [known.nearLiquid_pour kept.sound liquid unheard]
      exact current (by simp)

variable [Occupier ω]

theorem current_check (kept : world.Current (number :: stale)) :
    OrOverflow (fun answer => answer.2.1.Current stale) (world.check number) := by
  unfold check
  split
  · rename_i absent
    refine ⟨kept.sound, kept.apart, fun {index tile handle} placed held => ?_⟩
    obtain ⟨x, y, known, current⟩ := kept.known placed held
    refine ⟨x, y, known, fun told => current (List.not_mem_cons_of_ne_of_not_mem ?_ told)⟩
    rintro rfl
    cases absent.symm.trans placed
  · rename_i tile found
    refine (LiquidChecker.check_said kept.sound world.gate tile).bind ?_
    rintro ⟨replayed, checker, gate, log⟩ ⟨⟨occupier, active, rfl⟩, current⟩
    refine kept.replace found kept.sound (fun _ _ _ _ known _ => known) (fun _ _ => .rfl) ?_ gate
    intro handle held
    obtain ⟨x, y, known, _⟩ := kept.known found held
    have stands := known.stands
    exact ⟨.inl held, x, y, ⟨⟨stands.interior, stands.index⟩, known.given, known.listed⟩,
      current x y stands⟩

theorem current_checkAll {told : List Nat} (kept : world.Current told) :
    OrOverflow (fun answer => answer.1.Current []) (world.checkAll told) := by
  -- Each check takes the tile that it is about out of those still to be told.
  induction told generalizing world with
  | nil => exact kept
  | cons number rest ih =>
    refine (current_check kept).bind fun answer checked => ?_
    exact (ih checked).bind fun last settled => settled

theorem current_spawn (kept : world.Current []) (number : Nat) {position : Position}
    (interior :
      world.grid.Interior position.x.floorWord.toInt position.y.floorWord.toInt) :
    OrOverflow (fun answer => answer.1.Current []) (world.spawn number position) := by
  unfold spawn
  split
  · exact kept
  · rename_i tile found
    refine (LiquidChecker.spawn_said kept.sound world.gate tile interior).bind ?_
    rintro ⟨_, checked⟩ ⟨extents, x, y, rfl, held, known, current⟩
    refine (kept.weaken (by simp)).replace found ((kept.sound.free tile.entry).add _ _ _ _)
      (fun _ _ _ _ known other => (known.free other).add _ _ _ _) (fun x y => ?_) ?_ checked.gate
    · exact MemoryGrid.nearLiquid_free world.grid tile.entry x y
    · intro handle same
      cases held.symm.trans same
      exact ⟨.inr le_rfl, x, y, known, current⟩

theorem current_apply (kept : world.Current []) {step : TileStep} (allowed : world.Allows step) :
    OrOverflow (Current []) (world.apply step) := by
  cases step with
  | spawn number position =>
    exact (current_spawn kept number allowed).bind fun answer settled => settled
  | cleanUp number => exact current_cleanUp kept number
  | check number =>
    exact (current_check (kept.weaken (by simp))).bind fun answer settled => settled
  | write cell liquid told =>
    refine (current_write kept allowed).bind fun answer written => ?_
    exact (current_checkAll written).bind fun last settled => settled

theorem current_reaches (kept : world.Current []) {now : Except GridFault (World ω)}
    (reached : world.Reaches now) : OrOverflow (Current []) now := by
  induction reached with
  | start => exact kept
  | step before allowed ih => exact current_apply ih allowed

end World

/-- No liquid notification is lost. Whatever tiles do on a grid with positive sides, as long as
they spawn in interior columns and every owner a write returns is told, each tile that is
registered is active exactly while there is liquid above it or beside it. -/
theorem registered_tiles_up_to_date {ω : Type} [Occupier ω] {world : World ω}
    (sound : world.grid.Sound) (fresh : ∀ tile ∈ world.tiles, tile.entry = .none)
    {result : Except GridFault (World ω)} (reached : world.Reaches result) :
    OrOverflow (fun now => ∀ tile ∈ now.tiles, tile.entry.isValid = true →
        ∃ x y, tile.StandsAt now.grid x y ∧ (tile.active = true ↔
          now.grid.WetAt x (y + 1) ∨ now.grid.WetAt (x - 1) y ∨ now.grid.WetAt (x + 1) y))
      result := by
  have unheld {number : Nat} {tile : LiquidChecker ω} {handle : Nat}
      (placed : world.tiles[number]? = some tile) : tile.entry ≠ .ofHandle handle := by
    rw [fresh tile (List.mem_of_getElem? placed)]
    rintro ⟨⟩
  have start : world.Current [] :=
    ⟨sound, fun placed _ held _ => absurd held (unheld placed),
      fun placed held => absurd held (unheld placed)⟩
  refine (World.current_reaches start reached).mono fun now kept tile member valid => ?_
  obtain ⟨number, placed⟩ := List.mem_iff_getElem?.mp member
  obtain ⟨handle, held⟩ := Option.isSome_iff_exists.mp valid
  obtain ⟨x, y, known, current⟩ := kept.known placed (congrArg GridEntry.mk held)
  exact ⟨x, y, known.stands, current (by simp)⟩

/-- Two tiles of one owner on a dry grid. -/
def pond : World CellOccupier where
  grid := ⟨5, 3, 15, [], [], 1, 0⟩
  tiles := [.ofOwner 7 (.ofBody spawnBody), .ofOwner 7 (.ofBody spawnBody)]
  gate := .closed

/-- The tiles spawn at the columns 1 and 3 of the rows 1 and 2; then liquid comes to the cell on
the right of the first one. Both are registered where they stand, and each is up to date. -/
theorem pond_tiles_up_to_date :
    pond.grid.Sound ∧ (∀ tile ∈ pond.tiles, tile.entry = .none) ∧
      ∃ now first second, pond.Reaches (.ok now) ∧ now.tiles = [first, second] ∧
        (first.entry.isValid = true ∧ first.StandsAt now.grid 1 1 ∧ first.active = true) ∧
        (second.entry.isValid = true ∧ second.StandsAt now.grid 3 2 ∧ second.active = false) ∧
        ∀ tile ∈ now.tiles, tile.entry.isValid = true →
          ∃ x y, tile.StandsAt now.grid x y ∧ (tile.active = true ↔
            now.grid.WetAt x (y + 1) ∨ now.grid.WetAt (x - 1) y ∨ now.grid.WetAt (x + 1) y) := by
  have sound : pond.grid.Sound := ⟨by decide, by decide, by decide, by decide⟩
  have fresh : ∀ tile ∈ pond.tiles, tile.entry = .none := by decide
  have reached : ∃ now first second, pond.Reaches (.ok now) ∧ now.tiles = [first, second] ∧
      (first.entry.isValid = true ∧ first.StandsAt now.grid 1 1 ∧ first.active = true) ∧
      (second.entry.isValid = true ∧ second.StandsAt now.grid 3 2 ∧ second.active = false) := by
    have once := World.Reaches.next .start (.spawn 0 ⟨⟨1065353216⟩, ⟨1065353216⟩⟩)
      (by decide : pond.grid.Interior 1 1) rfl
    have twice := once.next (.spawn 1 ⟨⟨1077936128⟩, ⟨1073741824⟩⟩)
      (by decide : pond.grid.Interior 3 2) rfl
    refine ⟨_, _, _, twice.next (.write 7 true [1, 0]) ?_ rfl, rfl, ⟨rfl, ?_, rfl⟩, rfl, ?_, rfl⟩
    · intro owners after written number tile placed owned
      have bound : number < 2 := (List.getElem?_eq_some_iff.mp placed).1
      simp only [List.mem_cons, List.not_mem_nil, or_false]
      omega
    · exact ⟨(by decide : pond.grid.Interior 1 1), by decide⟩
    · exact ⟨(by decide : pond.grid.Interior 3 2), by decide⟩
  obtain ⟨now, first, second, reached, tiles, left, right⟩ := reached
  exact ⟨sound, fresh, now, first, second, reached, tiles, left, right,
    registered_tiles_up_to_date sound fresh reached⟩

end SpawnGuard
