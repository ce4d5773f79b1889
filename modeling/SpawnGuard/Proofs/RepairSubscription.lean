import Mathlib.Logic.Function.Iterate
import SpawnGuard.Proofs.Answers
import SpawnGuard.Proofs.OccupierSpawn
import SpawnGuard.Tile.Checker
import SpawnGuard.Tile.MemoryGrid

/-!
The life of a tile whose occupier carries the guard. However often liquid comes and goes around
it, the repair handler is subscribed once for each spawn by the game and never by a replay.
-/
namespace SpawnGuard

namespace OccupierState

/-- The state a replay spawns an occupier from. -/
def tornDown (active : Bool) (state : OccupierState) : OccupierState :=
  { destroy { state with replace := active } with callDestroy := true }

variable (active : Bool) (state : OccupierState)

@[simp] theorem replace_tornDown : (state.tornDown active).replace = active := rfl

@[simp] theorem callDestroy_tornDown : (state.tornDown active).callDestroy = true := rfl

@[simp] theorem placed_tornDown : (state.tornDown active).placed = false := rfl

@[simp] theorem subscriptions_tornDown :
    (state.tornDown active).subscriptions = state.subscriptions := rfl

end OccupierState

theorem Gate.dropGuard_openGuard (gate : Gate) :
    gate.openGuard.dropGuard = ⟨false, gate.guards⟩ := by
  simp [openGuard, dropGuard]

namespace LiquidChecker

theorem replay_guarded {checker : LiquidChecker CellOccupier}
    (guarded : checker.occupier.body = guardedSpawnBody defaultHook) (active : Bool)
    (gate : Gate) :
    (checker.replay active gate).1 =
        { checker with
          occupier := ⟨checker.occupier.body, (checker.occupier.state.tornDown active).place, none⟩
          active } ∧
      (checker.replay active gate).2.1 = ⟨false, gate.guards⟩ := by
  obtain ⟨owner, ⟨body, state, lastFault⟩, entry, cell, was⟩ := checker
  have spawned : CellOccupier.spawn gate.openGuard ⟨body, state.tornDown active, lastFault⟩ =
      ⟨body, (state.tornDown active).place, none⟩ := spawn_guarded gate.openGuard guarded
  constructor
  · rw [← spawned]
    rfl
  · exact gate.dropGuard_openGuard

variable {γ : Type} [GridService γ] {grid : γ} {checker : LiquidChecker CellOccupier} {gate : Gate}
  {checked : Checked CellOccupier}

theorem check_eq_ok (done : checker.check grid gate = .ok checked) :
    (checked.checker = checker ∧ checked.gate = gate) ∨
      ∃ active, checked.checker = (checker.replay active gate).1 ∧
        checked.gate = (checker.replay active gate).2.1 := by
  obtain ⟨active, _, done⟩ := bind_eq_ok done
  split at done
  · cases done
    exact .inl ⟨rfl, rfl⟩
  · cases done
    exact .inr ⟨active, rfl, rfl⟩

theorem spawn_eq_ok {position : Position} {after : γ}
    (done : checker.spawn grid gate position = .ok (after, checked)) :
    ∃ cell entry looked, { checker with cell, entry }.check after gate = .ok looked ∧
      checked.checker = looked.checker ∧ checked.gate = looked.gate := by
  obtain ⟨cell, _, done⟩ := bind_eq_ok done
  obtain ⟨extents, _, done⟩ := bind_eq_ok done
  obtain ⟨looked, found, done⟩ := bind_eq_ok done
  cases done
  exact ⟨cell, _, looked, found, rfl, rfl⟩

end LiquidChecker

namespace CellOccupier

theorem cleanUp_iterate {occupier : CellOccupier} (pending : occupier.state.callDestroy = true)
    (again : Nat) : cleanUp^[again + 1] occupier = occupier.destroy := by
  induction again with
  | zero => simp [cleanUp, pending]
  | succ again ih =>
    rw [Function.iterate_succ_apply', ih]
    rfl

end CellOccupier

structure Tile where
  checker : LiquidChecker CellOccupier
  gate : Gate
  deriving DecidableEq

/-- What can happen to a tile, each time with the grid as it then is. -/
inductive TileOperation (γ : Type) where
  | hostSpawn
  | spawn (grid : γ) (position : Position)
  | liquidChanged (grid : γ)
  | check (grid : γ)
  | cleanUp (grid : γ)

def TileOperation.isHostSpawn {γ : Type} : TileOperation γ → Bool
  | hostSpawn => true
  | _ => false

namespace Tile

def ofBody (owner : Owner) (body : Body) (gate : Gate) : Tile :=
  ⟨.ofOwner owner (.ofBody body), gate⟩

def hostSpawn (tile : Tile) : Tile :=
  { tile with
    checker := { tile.checker with occupier := tile.checker.occupier.spawn tile.gate } }

variable {γ : Type} [GridService γ]

def apply (tile : Tile) : TileOperation γ → Except GridFault Tile
  | .hostSpawn => .ok tile.hostSpawn
  | .spawn grid position => do
    let (_, checked) ← tile.checker.spawn grid tile.gate position
    .ok ⟨checked.checker, checked.gate⟩
  | .liquidChanged grid | .check grid => do
    let checked ← tile.checker.check grid tile.gate
    .ok ⟨checked.checker, checked.gate⟩
  | .cleanUp grid => .ok { tile with checker := (tile.checker.cleanUp grid).2 }

def run (tile : Tile) (operations : List (TileOperation γ)) : Except GridFault Tile :=
  operations.foldlM apply tile

/-- How a tile stands between two operations, after so many spawns by the game. -/
structure Settled (spawns : Nat) (tile : Tile) : Prop where
  closed : tile.gate.active = false
  guarded : tile.checker.occupier.body = guardedSpawnBody defaultHook
  sound : tile.checker.occupier.lastFault = none
  replace : tile.checker.occupier.state.replace = tile.checker.active
  placed : tile.checker.occupier.state.placed = tile.checker.active
  callDestroy : tile.checker.occupier.state.callDestroy = true
  subscriptions :
    tile.checker.occupier.state.subscriptions = List.replicate spawns repairEvent

variable {spawns : Nat} {checker : LiquidChecker CellOccupier} {gate : Gate}

theorem settled_ofBody (owner : Owner) {gate : Gate} (closed : gate.active = false) :
    Settled 0 (ofBody owner (guardedSpawnBody defaultHook) gate) :=
  ⟨closed, rfl, rfl, rfl, rfl, rfl, rfl⟩

theorem settled_hostSpawn {tile : Tile} (settled : Settled spawns tile) :
    Settled (spawns + 1) tile.hostSpawn := by
  have spawned := spawn_guarded tile.gate settled.guarded
  rw [settled.closed, if_neg Bool.false_ne_true] at spawned
  unfold hostSpawn
  rw [spawned]
  refine ⟨settled.closed, settled.guarded, rfl, ?_, ?_, ?_, ?_⟩
  · simp [settled.replace]
  · simp [settled.replace, settled.placed]
  · simp [settled.callDestroy]
  · simp [settled.subscriptions, List.replicate_succ']

theorem settled_replay (settled : Settled spawns ⟨checker, gate⟩) (active : Bool) :
    Settled spawns ⟨(checker.replay active gate).1, (checker.replay active gate).2.1⟩ := by
  obtain ⟨replayed, dropped⟩ := LiquidChecker.replay_guarded settled.guarded active gate
  rw [replayed, dropped]
  refine ⟨rfl, settled.guarded, rfl, by simp, by simp, by simp, ?_⟩
  simpa using settled.subscriptions

theorem settled_check {grid : γ} {checked : LiquidChecker.Checked CellOccupier}
    (settled : Settled spawns ⟨checker, gate⟩) (done : checker.check grid gate = .ok checked) :
    Settled spawns ⟨checked.checker, checked.gate⟩ := by
  rcases LiquidChecker.check_eq_ok done with ⟨same, kept⟩ | ⟨active, replayed, dropped⟩
  · rw [same, kept]
    exact settled
  · rw [replayed, dropped]
    exact settled_replay settled active

theorem Settled.move (settled : Settled spawns ⟨checker, gate⟩) (cell : Cell) (entry : GridEntry) :
    Settled spawns ⟨{ checker with cell, entry }, gate⟩ :=
  ⟨settled.closed, settled.guarded, settled.sound, settled.replace, settled.placed,
    settled.callDestroy, settled.subscriptions⟩

theorem settled_apply {tile after : Tile} {operation : TileOperation γ}
    (settled : Settled spawns tile) (done : tile.apply operation = .ok after) :
    Settled (spawns + if operation.isHostSpawn then 1 else 0) after := by
  cases operation with
  | hostSpawn =>
    cases done
    exact settled_hostSpawn settled
  | spawn grid position =>
    obtain ⟨⟨grid', checked⟩, spawned, done⟩ := bind_eq_ok done
    cases done
    obtain ⟨cell, entry, looked, found, same, kept⟩ := LiquidChecker.spawn_eq_ok spawned
    rw [same, kept]
    exact settled_check (settled.move cell entry) found
  | liquidChanged grid | check grid =>
    obtain ⟨checked, found, done⟩ := bind_eq_ok done
    cases done
    exact settled_check settled found
  | cleanUp grid =>
    cases done
    exact settled.move tile.checker.cell _

theorem settled_run {tile last : Tile} {operations : List (TileOperation γ)}
    (settled : Settled spawns tile) (done : tile.run operations = .ok last) :
    Settled (spawns + operations.countP TileOperation.isHostSpawn) last := by
  induction operations generalizing tile spawns with
  | nil =>
    cases done
    exact settled
  | cons operation rest ih =>
    rw [run, List.foldlM_cons] at done
    obtain ⟨next, applied, done⟩ := bind_eq_ok done
    have final := ih (settled_apply settled applied) done
    rw [List.countP_cons, Nat.add_comm (List.countP _ rest), ← Nat.add_assoc]
    exact final

end Tile

/-- Whatever happens to a tile that runs the patched spawn method of the game, it keeps one
subscription of the repair handler for each spawn by the game, and none for a replay. Between two
operations the gate is closed, the last spawn was without fault, the occupier is placed as an
element exactly while the checker is active, and cleaning up destroys it exactly once. -/
theorem repair_subscribed_once_per_spawn {body patched : Body} {outcome : Outcome}
    (shipped : Listing.read "SimCellOccupier.OnSpawn" spawnListing = .ok body)
    (done : transpile defaultHook body = .ok (patched, outcome)) (owner : Owner) {gate : Gate}
    (closed : gate.active = false) {γ : Type} [GridService γ]
    {operations : List (TileOperation γ)} {tile : Tile}
    (ran : (Tile.ofBody owner patched gate).run operations = .ok tile) :
    let occupier := tile.checker.occupier
    outcome = .patched 9 ⟨2⟩ ∧ tile.gate.active = false ∧ occupier.lastFault = none ∧
      occupier.state.replace = tile.checker.active ∧
      occupier.state.placed = tile.checker.active ∧ occupier.state.callDestroy = true ∧
      occupier.state.subscriptions =
        List.replicate (operations.countP TileOperation.isHostSpawn) repairEvent ∧
      ∀ again, (CellOccupier.cleanUp^[again + 1] occupier).state.events =
        occupier.state.events ++ [.destroyed] := by
  cases shipped.symm.trans read_spawnListing
  cases done.symm.trans (transpile_spawnBody defaultHook)
  have settled := Tile.settled_run (Tile.settled_ofBody owner closed) ran
  rw [Nat.zero_add] at settled
  refine ⟨rfl, settled.closed, settled.sound, settled.replace, settled.placed,
    settled.callDestroy, settled.subscriptions, ?_⟩
  intro again
  rw [CellOccupier.cleanUp_iterate settled.callDestroy]
  rfl

def smallGrid (wet : List Cell) : MemoryGrid := ⟨3, 3, 9, wet, [], 1, 0⟩

/-- The game spawns a tile in the middle of the grid twice; meanwhile liquid comes to the cell
above, goes, and comes back. -/
def floods : List (TileOperation MemoryGrid) :=
  [.hostSpawn, .spawn (smallGrid []) ⟨⟨1065353216⟩, ⟨1065353216⟩⟩, .liquidChanged (smallGrid [7]),
    .hostSpawn, .check (smallGrid []), .check (smallGrid [7]), .cleanUp (smallGrid [7])]

/-- The replays place the element and leave the two subscriptions of the game. -/
theorem floods_subscribe_twice :
    Listing.read "SimCellOccupier.OnSpawn" spawnListing = .ok spawnBody ∧
      transpile defaultHook spawnBody = .ok (guardedSpawnBody defaultHook, .patched 9 ⟨2⟩) ∧
      Gate.closed.active = false ∧
      ∃ tile, (Tile.ofBody 7 (guardedSpawnBody defaultHook) .closed).run floods = .ok tile ∧
        tile.checker.active = true ∧ tile.checker.occupier.state.placed = true ∧
        tile.checker.occupier.state.subscriptions = [repairEvent, repairEvent] := by
  have shipped := read_spawnListing
  have done := transpile_spawnBody defaultHook
  have closed : Gate.closed.active = false := rfl
  have ends : ((Tile.ofBody 7 (guardedSpawnBody defaultHook) .closed).run floods).toOption.any
      (·.checker.active) = true := by
    decide
  refine ⟨shipped, done, closed, ?_⟩
  cases ran : (Tile.ofBody 7 (guardedSpawnBody defaultHook) .closed).run floods with
  | error fault =>
    rw [ran] at ends
    cases ends
  | ok tile =>
    rw [ran] at ends
    have active : tile.checker.active = true := ends
    obtain ⟨_, _, _, _, placed, _, subscriptions, _⟩ :=
      repair_subscribed_once_per_spawn shipped done 7 closed ran
    exact ⟨tile, rfl, active, placed.trans active, subscriptions⟩

end SpawnGuard
