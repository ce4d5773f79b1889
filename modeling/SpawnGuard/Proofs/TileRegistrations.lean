import SpawnGuard.Proofs.GridHandles
import SpawnGuard.Proofs.LiquidNotifications

/-!
The registrations of a grid on which only tiles register. Whatever the tiles do, each one that
holds an entry has one live registration, for where it stands now, and there are no others; the
grid counts what was given back.
-/
namespace SpawnGuard

namespace MemoryGrid

/-- The rectangle a checker watches from a cell: its row and the one above, three wide. -/
def watchedFrom (grid : MemoryGrid) (cell : Cell) : Extents :=
  let point := grid.pointOf cell
  ⟨Int32.ofInt (point.x.toInt - 1), point.y, 3, 2⟩

theorem column_nonneg (grid : MemoryGrid) (cell : Cell) : 0 ≤ (grid.pointOf cell).x.toInt := by
  have lies := grid.liesAt_pointOf cell
  unfold LiesAt at lies
  split at lies
  · exact lies.1
  · exact lies.1.ge

theorem fits_west (grid : MemoryGrid) (cell : Cell) :
    Word.Fits ((grid.pointOf cell).x.toInt - 1) := by
  have low := grid.column_nonneg cell
  have high := (Word.fits_toInt (grid.pointOf cell).x).2
  exact ⟨by omega, by omega⟩

theorem watched_eq (grid : MemoryGrid) (cell : Cell) :
    LiquidChecker.watched (grid.pointOf cell) = .ok (grid.watchedFrom cell) := by
  have west : Word.sub (grid.pointOf cell).x 1 = .ok _ := if_pos (grid.fits_west cell)
  unfold LiquidChecker.watched
  rw [west]
  rfl

variable {grid : MemoryGrid} {entry : GridEntry} {others : List (Nat × Registration)}

/-- Giving an entry back takes off the one registration it stands for. -/
theorem perm_free (apart : grid.handles.Nodup) {registration : Registration}
    (held : grid.registrations.Perm ((entry.handle?.map (·, registration)).toList ++ others)) :
    (grid.free entry).registrations.Perm others := by
  obtain ⟨none | handle⟩ := entry
  · exact held
  have held : grid.registrations.Perm ((handle, registration) :: others) := held
  have distinct : (((handle, registration) :: others).map Prod.fst).Nodup :=
    (held.map Prod.fst).nodup_iff.mp apart
  have elsewhere : ∀ entry ∈ others, decide (entry.1 ≠ handle) = true := by
    intro entry listed
    rw [decide_eq_true_iff]
    rintro rfl
    exact (List.nodup_cons.mp distinct).1 (List.mem_map.mpr ⟨entry, listed, rfl⟩)
  show (grid.free (.ofHandle handle)).registrations.Perm others
  rw [registrations_free]
  refine (held.filter _).trans ?_
  rw [List.filter_cons_of_neg (by simp), List.filter_eq_self.mpr elsewhere]

theorem released_free {registration : Registration}
    (held : grid.registrations.Perm ((entry.handle?.map (·, registration)).toList ++ others)) :
    (grid.free entry).released = grid.released + if entry.isValid then 1 else 0 := by
  obtain ⟨none | handle⟩ := entry
  · rfl
  have live : handle ∈ grid.handles :=
    List.mem_map.mpr ⟨(handle, registration), held.mem_iff.mpr List.mem_cons_self, rfl⟩
  show (grid.free (.ofHandle handle)).released = _
  rw [free_of_mem live]
  rfl

end MemoryGrid

namespace LiquidChecker

variable {ω : Type}

/-- The registration a checker has on a grid, by its handle, if it holds an entry. -/
def registration? (grid : MemoryGrid) (checker : LiquidChecker ω) : Option (Nat × Registration) :=
  checker.entry.handle?.map fun handle =>
    (handle, ⟨registrationName, checker.owner, grid.watchedFrom checker.cell, .liquid⟩)

/-- What of a checker decides on its registration. -/
def place (checker : LiquidChecker ω) : Owner × GridEntry × Cell :=
  (checker.owner, checker.entry, checker.cell)

theorem registration?_congr {grid after : MemoryGrid} (width : after.width = grid.width) :
    (registration? after : LiquidChecker ω → _) = registration? grid := by
  funext checker
  unfold registration? MemoryGrid.watchedFrom MemoryGrid.pointOf
  rw [width]

variable [Occupier ω] {grid : MemoryGrid} {gate : Gate} {checker : LiquidChecker ω}
  {checked : Checked ω}

theorem place_check (done : checker.check grid gate = .ok checked) :
    checked.checker.place = checker.place := by
  obtain ⟨active, _, done⟩ := bind_eq_ok done
  split at done
  · cases done
    rfl
  · cases done
    rfl

theorem place_spawn {position : Position} {after : MemoryGrid}
    (done : checker.spawn grid gate position = .ok (after, checked)) :
    ∃ cell, grid.cellAt position = .ok cell ∧
      checked.checker.place = (checker.owner, .ofHandle grid.nextHandle, cell) ∧
      after = ((grid.free checker.entry).add registrationName checker.owner
        (grid.watchedFrom cell) .liquid).2 := by
  obtain ⟨cell, placed, done⟩ := bind_eq_ok done
  obtain ⟨extents, chosen, done⟩ := bind_eq_ok done
  obtain ⟨looked, found, done⟩ := bind_eq_ok done
  cases done
  have chosen : GridFault.ofWord (watched (grid.pointOf cell)) = .ok extents := chosen
  rw [grid.watched_eq cell] at chosen
  cases chosen
  refine ⟨cell, placed, ?_, rfl⟩
  rw [place_check found]
  show (_, GridEntry.ofHandle (grid.free checker.entry).nextHandle, _) = _
  rw [MemoryGrid.nextHandle_free]

end LiquidChecker

private theorem filterMap_set_perm {α β : Type} (f : α → Option β) {items : List α} {number : Nat}
    {item : α} (found : items[number]? = some item) :
    ∃ others, (items.filterMap f).Perm ((f item).toList ++ others) ∧
      ∀ new, ((items.set number new).filterMap f).Perm ((f new).toList ++ others) := by
  obtain ⟨inside, same⟩ := List.getElem?_eq_some_iff.mp found
  have replaced (new : α) : ((items.set number new).filterMap f).Perm ((f new).toList ++
      ((items.take number).filterMap f ++ (items.drop (number + 1)).filterMap f)) := by
    rw [List.set_eq_take_append_cons_drop, if_pos inside, List.filterMap_append]
    have middle : (new :: items.drop (number + 1)).filterMap f =
        (f new).toList ++ (items.drop (number + 1)).filterMap f := by
      cases kept : f new <;> simp [kept]
    rw [middle]
    exact List.perm_append_comm_assoc _ _ _
  refine ⟨_, ?_, replaced⟩
  have unchanged := replaced item
  rw [← same, List.set_getElem_self] at unchanged
  rw [← same]
  exact unchanged

/-- Whether a tile spawned and was not cleaned up since. -/
def TileStep.life (number : Nat) (registered : Bool) : TileStep → Bool
  | spawn other _ => if other = number then true else registered
  | cleanUp other => if other = number then false else registered
  | write _ _ _ | check _ => registered

namespace World

variable {ω : Type}

/-- Whether a step is a spawn of one of the tiles. -/
def spawns (world : World ω) : TileStep → Bool
  | .spawn number _ => number < world.tiles.length
  | _ => false

/-- Whether a step is a spawn or clean-up of a tile that is registered. -/
def givesBack (world : World ω) : TileStep → Bool
  | .spawn number _ | .cleanUp number => world.tiles[number]?.any (·.entry.isValid)
  | _ => false

/-- How many spawns and clean-ups of a run find their tile registered. -/
def givenBack [Occupier ω] (world : World ω) : List TileStep → Nat
  | [] => 0
  | step :: rest =>
    (if world.givesBack step then 1 else 0) +
      match world.apply step with
      | .ok next => next.givenBack rest
      | .error _ => 0

/-- The grid's registrations are those of the tiles, under different handles that were given
out. -/
structure Matched (world : World ω) : Prop where
  apart : world.grid.handles.Nodup
  given : ∀ handle ∈ world.grid.handles, handle < world.grid.nextHandle
  matched : world.grid.registrations.Perm
    (world.tiles.filterMap (LiquidChecker.registration? world.grid))

/-- What a step does to the counts of a grid and to whether tiles are registered. -/
structure Accounted (world : World ω) (step : TileStep) (after : World ω) : Prop where
  tiles : after.tiles.length = world.tiles.length
  released : after.grid.released = world.grid.released + if world.givesBack step then 1 else 0
  total : after.grid.released + after.grid.registrations.length =
    world.grid.released + world.grid.registrations.length + if world.spawns step then 1 else 0
  life : ∀ number : Nat, after.tiles[number]?.map (·.entry.isValid) =
    world.tiles[number]?.map fun tile => step.life number tile.entry.isValid

/-- Nothing that registrations depend on is different. -/
structure Unmoved (before after : World ω) : Prop where
  width : after.grid.width = before.grid.width
  registrations : after.grid.registrations = before.grid.registrations
  nextHandle : after.grid.nextHandle = before.grid.nextHandle
  released : after.grid.released = before.grid.released
  places : after.tiles.map LiquidChecker.place = before.tiles.map LiquidChecker.place

variable {world after : World ω} {number : Nat}

theorem Unmoved.refl (world : World ω) : world.Unmoved world := ⟨rfl, rfl, rfl, rfl, rfl⟩

theorem Unmoved.trans {last : World ω} (first : world.Unmoved after)
    (second : after.Unmoved last) : world.Unmoved last :=
  ⟨second.width.trans first.width, second.registrations.trans first.registrations,
    second.nextHandle.trans first.nextHandle, second.released.trans first.released,
    second.places.trans first.places⟩

theorem Unmoved.matched (unmoved : world.Unmoved after) (kept : world.Matched) : after.Matched := by
  have handles : after.grid.handles = world.grid.handles :=
    congrArg (List.map Prod.fst) unmoved.registrations
  -- What a tile has registered is told by its place alone.
  let told (place : Owner × GridEntry × Cell) : Option (Nat × Registration) :=
    place.2.1.handle?.map fun handle =>
      (handle, ⟨LiquidChecker.registrationName, place.1, world.grid.watchedFrom place.2.2, .liquid⟩)
  have listed (tiles : List (LiquidChecker ω)) :
      tiles.filterMap (LiquidChecker.registration? world.grid) =
        (tiles.map LiquidChecker.place).filterMap told := by
    rw [List.filterMap_map]
    rfl
  refine ⟨handles ▸ kept.apart, ?_, ?_⟩
  · rw [handles, unmoved.nextHandle]
    exact kept.given
  · rw [unmoved.registrations, LiquidChecker.registration?_congr unmoved.width, listed,
      unmoved.places, ← listed]
    exact kept.matched

theorem Unmoved.accounted (unmoved : world.Unmoved after) {step : TileStep}
    (quiet : ∀ number registered, step.life number registered = registered)
    (noSpawn : world.spawns step = false) (noReturn : world.givesBack step = false) :
    world.Accounted step after := by
  have lengths := congrArg List.length unmoved.places
  rw [List.length_map, List.length_map] at lengths
  refine ⟨lengths, ?_, ?_, fun number => ?_⟩
  · rw [noReturn]
    exact unmoved.released
  · rw [noSpawn, unmoved.released, unmoved.registrations]
    rfl
  · have place := congrArg (fun places => places[number]?.map (·.2.1.isValid)) unmoved.places
    simp only [List.getElem?_map, Option.map_map] at place
    simp only [quiet]
    exact place

theorem unmoved_setLiquid {cell : Cell} {liquid : Bool} {owners : List Owner}
    (done : world.setLiquid cell liquid = .ok (owners, after)) : world.Unmoved after := by
  obtain ⟨⟨heard, grid⟩, written, done⟩ := bind_eq_ok done
  cases done
  rcases MemoryGrid.setLiquid_eq_ok written with rfl | rfl
  · exact .refl world
  · exact ⟨rfl, rfl, rfl, rfl, rfl⟩

/-- A tile that gives its entry back leaves the other tiles matched. -/
theorem Matched.release (kept : world.Matched) {tile : LiquidChecker ω}
    (found : world.tiles[number]? = some tile) :
    Matched ⟨world.grid.free tile.entry, world.tiles.set number { tile with entry := .none },
      world.gate⟩ := by
  have fewer := world.grid.handles_free_sublist tile.entry
  refine ⟨kept.apart.sublist fewer, fun handle live => ?_, ?_⟩
  · show handle < (world.grid.free tile.entry).nextHandle
    rw [MemoryGrid.nextHandle_free]
    exact kept.given handle (fewer.subset live)
  · obtain ⟨others, before, replaced⟩ :=
      filterMap_set_perm (LiquidChecker.registration? world.grid) found
    have left := replaced { tile with entry := .none }
    have gone := MemoryGrid.perm_free kept.apart (kept.matched.trans before)
    rw [← LiquidChecker.registration?_congr (world.grid.width_free tile.entry)] at left
    exact gone.trans left.symm

/-- A tile without an entry registers where it stands. -/
theorem Matched.register (kept : world.Matched) {tile new : LiquidChecker ω}
    (found : world.tiles[number]? = some tile) (unheld : tile.entry = .none)
    (held : new.entry = .ofHandle world.grid.nextHandle) (gate : Gate) :
    Matched ⟨(world.grid.add LiquidChecker.registrationName new.owner
        (world.grid.watchedFrom new.cell) .liquid).2, world.tiles.set number new, gate⟩ := by
  let grid := (world.grid.add LiquidChecker.registrationName new.owner
    (world.grid.watchedFrom new.cell) .liquid).2
  have handles : grid.handles = world.grid.handles ++ [world.grid.nextHandle] := List.map_append
  refine ⟨?_, ?_, ?_⟩
  · show grid.handles.Nodup
    rw [handles, List.nodup_append]
    refine ⟨kept.apart, List.nodup_singleton _, fun handle live fresh same => ?_⟩
    rw [List.mem_singleton.mp same]
    exact Nat.ne_of_lt (kept.given handle live)
  · show ∀ handle ∈ grid.handles, handle < world.grid.nextHandle + 1
    rw [handles]
    intro handle live
    rcases List.mem_append.mp live with old | fresh
    · exact Nat.lt_succ_of_lt (kept.given handle old)
    · rw [List.mem_singleton.mp fresh]
      exact Nat.lt_succ_self _
  · obtain ⟨others, before, replaced⟩ :=
      filterMap_set_perm (LiquidChecker.registration? world.grid) found
    have nothing : tile.registration? world.grid = none := by
      rw [LiquidChecker.registration?, unheld]
      rfl
    have added : new.registration? world.grid = some (world.grid.nextHandle,
        ⟨LiquidChecker.registrationName, new.owner, world.grid.watchedFrom new.cell, .liquid⟩) := by
      rw [LiquidChecker.registration?, held]
      rfl
    have now := replaced new
    rw [nothing] at before
    rw [added] at now
    show (world.grid.registrations ++ [_]).Perm
      (List.filterMap (LiquidChecker.registration? grid) _)
    rw [LiquidChecker.registration?_congr (rfl : grid.width = world.grid.width)]
    exact (((kept.matched.trans before).append_right _).trans List.perm_append_comm).trans now.symm

section Lives

variable {tile new : LiquidChecker ω} {step : TileStep}

theorem isValid_set (found : world.tiles[number]? = some tile)
    (alone : ∀ other registered, step.life other registered =
      if number = other then new.entry.isValid else registered) (other : Nat) :
    (world.tiles.set number new)[other]?.map (·.entry.isValid) =
      world.tiles[other]?.map fun tile => step.life other tile.entry.isValid := by
  rw [List.getElem?_set]
  by_cases same : number = other
  · have inside := (List.getElem?_eq_some_iff.mp found).1
    rw [if_pos same, if_pos inside, ← same, found]
    simp only [Option.map_some, alone, if_true]
  · rw [if_neg same]
    simp only [alone, if_neg same]

/-- A step of a tile that there is not is none. -/
theorem isValid_absent (absent : world.tiles[number]? = none)
    (alone : ∀ other registered, number ≠ other → step.life other registered = registered)
    (other : Nat) :
    world.tiles[other]?.map (·.entry.isValid) =
      world.tiles[other]?.map fun tile => step.life other tile.entry.isValid := by
  by_cases same : number = other
  · rw [← same, absent]
    rfl
  · simp only [alone other _ same]

theorem Matched.released_free (kept : world.Matched) (found : world.tiles[number]? = some tile) :
    (world.grid.free tile.entry).released =
      world.grid.released +
        if world.tiles[number]?.any (·.entry.isValid) then 1 else 0 := by
  obtain ⟨others, before, _⟩ :=
    filterMap_set_perm (LiquidChecker.registration? world.grid) found
  rw [MemoryGrid.released_free (kept.matched.trans before), found]
  rfl

end Lives

theorem Matched.cleanUp (kept : world.Matched) (number : Nat) :
    (world.cleanUp number).Matched ∧ world.Accounted (.cleanUp number) (world.cleanUp number) := by
  unfold World.cleanUp
  split
  · rename_i absent
    refine ⟨kept, rfl, ?_, rfl, isValid_absent absent fun other registered apart => if_neg apart⟩
    rw [givesBack, absent]
    rfl
  · rename_i tile found
    have total := MemoryGrid.length_free kept.apart tile.entry
    refine ⟨kept.release found, List.length_set, kept.released_free found, ?_,
      isValid_set found fun other registered => rfl⟩
    show (world.grid.free tile.entry).released + (world.grid.free tile.entry).registrations.length =
      world.grid.released + world.grid.registrations.length
    omega

variable [Occupier ω]

theorem Matched.spawn (kept : world.Matched) {position : Position} {log : Log}
    (done : world.spawn number position = .ok (after, log)) :
    after.Matched ∧ world.Accounted (.spawn number position) after := by
  unfold World.spawn at done
  split at done
  · rename_i absent
    cases done
    have outside : ¬ number < world.tiles.length :=
      Nat.not_lt.mpr (List.getElem?_eq_none_iff.mp absent)
    refine ⟨kept, rfl, ?_, ?_, isValid_absent absent fun other registered apart => if_neg apart⟩
    · rw [givesBack, absent]
      rfl
    · rw [spawns, decide_eq_false outside]
      rfl
  · rename_i tile found
    obtain ⟨⟨grid, checked⟩, spawned, done⟩ := bind_eq_ok done
    cases done
    obtain ⟨cell, _, place, rfl⟩ := LiquidChecker.place_spawn spawned
    have inside := (List.getElem?_eq_some_iff.mp found).1
    have owner : checked.checker.owner = tile.owner := congrArg (·.1) place
    have entry : checked.checker.entry = .ofHandle world.grid.nextHandle := congrArg (·.2.1) place
    have stands : checked.checker.cell = cell := congrArg (·.2.2) place
    have next := world.grid.nextHandle_free tile.entry
    have extents : (world.grid.free tile.entry).watchedFrom cell = world.grid.watchedFrom cell := by
      unfold MemoryGrid.watchedFrom MemoryGrid.pointOf
      rw [MemoryGrid.width_free]
    -- The tile gives its entry back first, and then registers as one that holds none.
    have emptied : (world.tiles.set number { tile with entry := .none })[number]? =
        some { tile with entry := .none } := List.getElem?_set_self inside
    have registered := (kept.release found).register emptied rfl (next ▸ entry) checked.gate
    rw [List.set_set, owner, stands, extents] at registered
    have total := MemoryGrid.length_free kept.apart tile.entry
    refine ⟨registered, List.length_set, kept.released_free found, ?_,
      isValid_set found fun other alive => ?_⟩
    · rw [spawns, decide_eq_true inside]
      show (world.grid.free tile.entry).released +
          ((world.grid.free tile.entry).registrations ++ [_]).length =
        world.grid.released + world.grid.registrations.length + 1
      rw [List.length_append, List.length_singleton]
      omega
    · rw [entry]
      rfl

theorem unmoved_check {replayed : Bool} {log : Log}
    (done : world.check number = .ok (replayed, after, log)) : world.Unmoved after := by
  unfold World.check at done
  split at done
  · cases done
    exact .refl world
  · rename_i tile found
    obtain ⟨checked, looked, done⟩ := bind_eq_ok done
    cases done
    refine ⟨rfl, rfl, rfl, rfl, ?_⟩
    obtain ⟨inside, same⟩ := List.getElem?_eq_some_iff.mp found
    have listed : number < (world.tiles.map LiquidChecker.place).length := by
      rwa [List.length_map]
    have place : checked.checker.place = (world.tiles.map LiquidChecker.place)[number] := by
      rw [List.getElem_map, same]
      exact LiquidChecker.place_check looked
    show (world.tiles.set number checked.checker).map LiquidChecker.place = _
    rw [List.map_set, place, List.set_getElem_self]

theorem unmoved_checkAll {told : List Nat} {log : Log}
    (done : world.checkAll told = .ok (after, log)) : world.Unmoved after := by
  induction told generalizing world log with
  | nil =>
    cases done
    exact .refl _
  | cons number rest ih =>
    obtain ⟨⟨replayed, next, before⟩, checked, done⟩ := bind_eq_ok done
    obtain ⟨⟨last, later⟩, settled, done⟩ := bind_eq_ok done
    cases done
    exact (unmoved_check checked).trans (ih settled)

theorem Matched.apply (kept : world.Matched) {step : TileStep}
    (done : world.apply step = .ok after) : after.Matched ∧ world.Accounted step after := by
  cases step with
  | spawn number position =>
    obtain ⟨⟨last, log⟩, spawned, done⟩ := bind_eq_ok done
    cases done
    exact kept.spawn spawned
  | cleanUp number =>
    cases done
    exact kept.cleanUp number
  | write cell liquid told =>
    obtain ⟨⟨owners, poured⟩, written, done⟩ := bind_eq_ok done
    obtain ⟨⟨last, log⟩, checked, done⟩ := bind_eq_ok done
    cases done
    have unmoved := (unmoved_setLiquid written).trans (unmoved_checkAll checked)
    exact ⟨unmoved.matched kept, unmoved.accounted (fun _ _ => rfl) rfl rfl⟩
  | check number =>
    obtain ⟨⟨replayed, last, log⟩, checked, done⟩ := bind_eq_ok done
    cases done
    have unmoved := unmoved_check checked
    exact ⟨unmoved.matched kept, unmoved.accounted (fun _ _ => rfl) rfl rfl⟩

/-- What a run does, summed over its steps. -/
theorem Matched.run (kept : world.Matched) {steps : List TileStep}
    (ran : world.run steps = .ok after) :
    after.Matched ∧ after.grid.released = world.grid.released + world.givenBack steps ∧
      after.grid.released + after.grid.registrations.length =
        world.grid.released + world.grid.registrations.length + steps.countP world.spawns ∧
      ∀ number : Nat, after.tiles[number]?.map (·.entry.isValid) =
        world.tiles[number]?.map fun tile => steps.foldl (TileStep.life number) tile.entry.isValid
    := by
  induction steps generalizing world with
  | nil =>
    cases ran
    exact ⟨kept, rfl, rfl, fun number => rfl⟩
  | cons step rest ih =>
    rw [World.run, List.foldlM_cons] at ran
    obtain ⟨next, applied, ran⟩ := bind_eq_ok ran
    obtain ⟨matched, accounted⟩ := kept.apply applied
    obtain ⟨last, released, total, life⟩ := ih matched ran
    have spawns : next.spawns = world.spawns := by
      funext step
      cases step with
      | spawn number position => simp only [World.spawns, accounted.tiles]
      | cleanUp number | write cell liquid told | check number => rfl
    refine ⟨last, ?_, ?_, fun number => ?_⟩
    · rw [released, accounted.released, givenBack, applied, Nat.add_assoc]
    · rw [total, accounted.total, spawns, List.countP_cons, Nat.add_assoc, Nat.add_comm (ite _ _ _)]
    · have before := congrArg (Option.map (rest.foldl (TileStep.life number)))
        (accounted.life number)
      rw [Option.map_map, Option.map_map] at before
      rw [life number]
      exact before

end World

/-- Registrations match live tiles. Where only tiles register on a grid, then after any run the
live registrations are those of the tiles that are registered, one for each, under its owner and
for the three by two cells around where it stands now. A tile is registered while it was spawned
and not cleaned up since; what its spawns and clean-ups gave back is what is counted as released,
and together with what is live it is one registration for each spawn. -/
theorem registrations_match_tiles {ω : Type} [Occupier ω] {width height : Int32}
    {grid : MemoryGrid} (made : MemoryGrid.ofSides width height = .ok grid)
    {tiles : List (LiquidChecker ω)} (fresh : ∀ tile ∈ tiles, tile.entry = .none) (gate : Gate)
    {steps : List TileStep} {now : World ω} (ran : World.run ⟨grid, tiles, gate⟩ steps = .ok now) :
    now.grid.registrations.Perm (now.tiles.filterMap (LiquidChecker.registration? now.grid)) ∧
      now.grid.handles.Nodup ∧
      (∀ cell, (now.grid.watchedFrom cell).x.toInt = (now.grid.pointOf cell).x.toInt - 1) ∧
      (∀ number tile, now.tiles[number]? = some tile →
        tile.entry.isValid = steps.foldl (TileStep.life number) false) ∧
      now.grid.released = World.givenBack ⟨grid, tiles, gate⟩ steps ∧
      now.grid.released + now.grid.registrations.length =
        steps.countP (World.spawns ⟨grid, tiles, gate⟩) := by
  obtain ⟨cells, _, made⟩ := bind_eq_ok made
  cases made
  have empty (grid : MemoryGrid) :
      ∀ tile ∈ tiles, LiquidChecker.registration? grid tile = none := by
    intro tile listed
    rw [LiquidChecker.registration?, fresh tile listed]
    rfl
  have start : World.Matched ⟨⟨width, height, cells.toInt.toNat, [], [], 1, 0⟩, tiles, gate⟩ := by
    refine ⟨.nil, fun handle live => absurd live List.not_mem_nil, ?_⟩
    rw [List.filterMap_eq_nil_iff.mpr (empty _)]
  obtain ⟨last, released, total, life⟩ := start.run ran
  refine ⟨last.matched, last.apart, fun cell => Word.toInt_ofInt (now.grid.fits_west cell), ?_, ?_,
    ?_⟩
  · intro number tile found
    have lived := life number
    rw [found] at lived
    obtain ⟨first, placed, same⟩ := Option.map_eq_some_iff.mp lived.symm
    rw [fresh first (List.mem_of_getElem? placed)] at same
    exact same.symm
  · rw [released]
    exact Nat.zero_add _
  · rw [total]
    exact Nat.zero_add _

/-- Both tiles spawn, the first one a second time elsewhere, and the second one is cleaned up
twice. -/
def moves : List TileStep :=
  [.spawn 0 ⟨⟨1065353216⟩, ⟨1065353216⟩⟩, .spawn 1 ⟨⟨1077936128⟩, ⟨1073741824⟩⟩, .check 0,
    .spawn 0 ⟨⟨1073741824⟩, ⟨1065353216⟩⟩, .cleanUp 1, .cleanUp 1]

/-- Of three registrations two are given back, and the first tile keeps the last one. -/
theorem pond_registrations_match :
    MemoryGrid.ofSides 5 3 = .ok pond.grid ∧ (∀ tile ∈ pond.tiles, tile.entry = .none) ∧
      ∃ now, pond.run moves = .ok now ∧
        now.grid.registrations.Perm
          (now.tiles.filterMap (LiquidChecker.registration? now.grid)) ∧
        (∀ number tile, now.tiles[number]? = some tile → tile.entry.isValid = decide (number = 0)) ∧
        now.grid.released = 2 ∧ now.grid.released + now.grid.registrations.length = 3 := by
  have made : MemoryGrid.ofSides 5 3 = .ok pond.grid := by decide
  have fresh : ∀ tile ∈ pond.tiles, tile.entry = .none := by decide
  have ran : ∃ now, pond.run moves = .ok now := ⟨_, rfl⟩
  obtain ⟨now, ran⟩ := ran
  obtain ⟨matched, _, _, life, released, total⟩ := registrations_match_tiles made fresh .closed ran
  refine ⟨made, fresh, now, ran, matched, fun number tile placed => ?_, released, total⟩
  rw [life number tile placed]
  rcases number with _ | _ | number
  · rfl
  · rfl
  · simp [moves, TileStep.life]

end SpawnGuard
