import SpawnGuard.Proofs.CheckerRuns
import SpawnGuard.Proofs.RepairSubscription

/-!
The guards of a gate, taken by the host and by the replays of its tiles. The gate is as the last
of them left it, whoever had it: a guard that is dropped closes the gate also under guards that
still live.
-/
namespace SpawnGuard

/-- What happens to a guard of the gate. -/
inductive GuardEvent where
  | opened
  | dropped
  deriving DecidableEq, Repr

/-- Each guard that is dropped is the only one that lives. -/
def DroppedAlone (events : List GuardEvent) : Prop :=
  ∀ earlier, earlier ++ [.dropped] <+: events →
    earlier.count .opened = earlier.count .dropped + 1

namespace Gate

variable {gate next : Gate} {events more : List GuardEvent}

/-- A closed gate has come to be this one by what happened to its guards. -/
structure Follows (events : List GuardEvent) (gate : Gate) : Prop where
  counted : events.count .opened = events.count .dropped + gate.guards
  held : gate.active = true → 0 < gate.guards
  last : gate.active = true ↔ events.getLast? = some .opened

theorem follows_closed : Follows [] closed where
  counted := rfl
  held := Bool.noConfusion
  last := by simp [closed]

theorem Follows.openGuard (follows : Follows events gate) :
    Follows (events ++ [.opened]) gate.openGuard where
  counted := by simp [Gate.openGuard, follows.counted, Nat.add_assoc]
  held := fun _ => Nat.succ_pos gate.guards
  last := by simp [Gate.openGuard]

theorem Follows.dropGuard (follows : Follows events gate) (live : gate.guards ≠ 0) :
    Follows (events ++ [.dropped]) gate.dropGuard := by
  have counted := follows.counted
  rw [Gate.dropGuard, if_neg live]
  constructor
  · simp
    omega
  · exact Bool.noConfusion
  · simp

/-- The gate is open exactly if a guard lives and the last thing that happened was no drop. -/
theorem Follows.active_iff (follows : Follows events gate) :
    gate.active = true ↔ 0 < gate.guards ∧ events.getLast? ≠ some .dropped := by
  rw [follows.last]
  constructor
  · intro opened
    refine ⟨follows.held (follows.last.mpr opened), ?_⟩
    rw [opened]
    decide
  · rintro ⟨lives, other⟩
    cases last : events.getLast? with
    | none =>
      obtain rfl := List.getLast?_eq_none_iff.mp last
      have counted : 0 = 0 + gate.guards := follows.counted
      omega
    | some event =>
      cases event with
      | opened => rfl
      | dropped => exact absurd last other

theorem Follows.counted_dropped (follows : Follows (events ++ [.dropped]) gate) :
    events.count .opened = events.count .dropped + 1 + gate.guards := by
  simpa using follows.counted

theorem Follows.active_iff_of_droppedAlone (follows : Follows events gate)
    (alone : DroppedAlone events) : gate.active = true ↔ 0 < gate.guards := by
  rw [follows.active_iff, and_iff_left_iff_imp]
  intro lives last
  obtain ⟨earlier, rfl⟩ := List.getLast?_eq_some_iff.mp last
  have before := alone earlier List.prefix_rfl
  have counted := follows.counted_dropped
  omega

/-- The next event is as it should be exactly if the gate is open behind it while a guard lives. -/
theorem Follows.droppedAlone_concat {event : GuardEvent}
    (follows : Follows (events ++ [event]) gate) :
    DroppedAlone (events ++ [event]) ↔
      DroppedAlone events ∧ (gate.active = true ↔ 0 < gate.guards) := by
  constructor
  · intro alone
    exact ⟨fun earlier before => alone earlier (before.trans (List.prefix_append _ _)),
      follows.active_iff_of_droppedAlone alone⟩
  · rintro ⟨alone, faithful⟩ earlier before
    obtain same | before := List.prefix_concat_iff.mp before
    · obtain ⟨rfl, rfl⟩ := List.append_singleton_inj.mp same
      have shut : ¬ 0 < gate.guards := by
        rw [← faithful, follows.active_iff]
        simp
      have counted := follows.counted_dropped
      omega
    · exact alone earlier before

/-- What one step can do to a gate, and what happens to guards in it. -/
inductive Moves (gate : Gate) : List GuardEvent → Gate → Prop where
  | still : Moves gate [] gate
  | opened : Moves gate [.opened] gate.openGuard
  | dropped (live : gate.guards ≠ 0) : Moves gate [.dropped] gate.dropGuard
  | replayed : Moves gate [.opened, .dropped] gate.openGuard.dropGuard

theorem Follows.moves (follows : Follows events gate) (moves : Moves gate more next) :
    Follows (events ++ more) next := by
  cases moves with
  | still => rwa [List.append_nil]
  | opened => exact follows.openGuard
  | dropped live => exact follows.dropGuard live
  | replayed =>
    rw [List.append_cons]
    exact follows.openGuard.dropGuard (Nat.succ_ne_zero _)

theorem Follows.droppedAlone_moves (follows : Follows events gate) (moves : Moves gate more next) :
    DroppedAlone (events ++ more) ↔
      DroppedAlone events ∧ (next.active = true ↔ 0 < next.guards) := by
  have after := follows.moves moves
  cases moves with
  | still =>
    rw [List.append_nil, iff_self_and]
    exact follows.active_iff_of_droppedAlone
  | opened | dropped _ => exact after.droppedAlone_concat
  | replayed =>
    have opened : gate.openGuard.active = true ↔ 0 < gate.openGuard.guards :=
      iff_of_true rfl (Nat.succ_pos _)
    rw [List.append_cons] at after ⊢
    rw [after.droppedAlone_concat, follows.openGuard.droppedAlone_concat, and_iff_left opened]

end Gate

namespace LiquidChecker

variable {γ ω : Type} [GridService γ] [Occupier ω] {grid : γ} {checker : LiquidChecker ω}
  {gate : Gate} {checked : Checked ω}

/-- A check leaves the gate alone, but for a guard that it opens and drops if the checker turns. -/
theorem gate_check (done : checker.check grid gate = .ok checked) :
    checked.gate =
      if checked.checker.active = checker.active then gate else gate.openGuard.dropGuard := by
  obtain ⟨wet, answered, _⟩ := bind_eq_ok done
  cases (check_of_senses answered).symm.trans done
  by_cases same : wet = checker.active
  · simp [same]
  · simp [same, replay]

end LiquidChecker

namespace Station

variable {γ ω : Type} [GridService γ] [Occupier ω] {station next : Station ω}
  {operation : CheckerOperation γ} {answer : Option Bool}

theorem gate_apply (done : station.apply operation = .ok (next, answer)) :
    next.gate = if next.checker.active = station.checker.active then station.gate
      else station.gate.openGuard.dropGuard := by
  cases looks : station.place? operation with
  | none =>
    cases operation with
    | cleanUp grid =>
      cases done
      exact (if_pos rfl).symm
    | _ => cases looks
  | some place =>
    rw [apply_of_place? looks] at done
    obtain ⟨⟨grid, placed⟩, rfl, told⟩ := bind_eq_ok done
    obtain ⟨checked, looked, told⟩ := bind_eq_ok told
    cases told
    rw [← (keeps_of_place? looks).1]
    exact LiquidChecker.gate_check looked

end Station

/-- What the host does on a thread: it opens the gate, drops the newest of the guards it got for
that, or asks something of a tile. -/
inductive ThreadStep (γ : Type) where
  | openGuard
  | dropGuard
  | tile (number : Nat) (operation : CheckerOperation γ)

namespace ThreadStep

variable {γ : Type}

/-- How many guards the host has after a step, by how many it had before. -/
def held (guards : Nat) : ThreadStep γ → Nat
  | openGuard => guards + 1
  | dropGuard => guards - 1
  | tile _ _ => guards

/-- How many guards the host has after some steps. -/
def heldAfter (steps : List (ThreadStep γ)) : Nat := steps.foldl held 0

end ThreadStep

/-- The tiles of a thread and its gate. -/
structure Thread (ω : Type) where
  tiles : List (LiquidChecker ω)
  gate : Gate

namespace Thread

variable {γ ω : Type} [GridService γ] [Occupier ω]

/-- A step, and what happens to guards in it; a tile that turns has opened and dropped one. -/
def apply (thread : Thread ω) : ThreadStep γ → Except GridFault (Thread ω × List GuardEvent)
  | .openGuard => .ok ({ thread with gate := thread.gate.openGuard }, [.opened])
  | .dropGuard =>
    .ok ({ thread with gate := thread.gate.dropGuard },
      if thread.gate.guards = 0 then [] else [.dropped])
  | .tile number operation =>
    match thread.tiles[number]? with
    | none => .ok (thread, [])
    | some tile => do
      let (station, _) ← Station.apply ⟨tile, thread.gate⟩ operation
      .ok (⟨thread.tiles.set number station.checker, station.gate⟩,
        if station.checker.active = tile.active then [] else [.opened, .dropped])

/-- Steps one after the other, with the events of all of them. -/
def record (thread : Thread ω) (events : List GuardEvent) :
    List (ThreadStep γ) → Except GridFault (Thread ω × List GuardEvent)
  | [] => .ok (thread, events)
  | step :: rest => do
    let (thread, more) ← thread.apply step
    thread.record (events ++ more) rest

variable {thread next last : Thread ω} {events more : List GuardEvent} {step : ThreadStep γ}
  {steps : List (ThreadStep γ)}

theorem moves_apply (done : thread.apply step = .ok (next, more)) :
    thread.gate.Moves more next.gate ∧ next.gate.guards = step.held thread.gate.guards := by
  cases step with
  | openGuard =>
    cases done
    exact ⟨.opened, rfl⟩
  | dropGuard =>
    cases done
    by_cases none : thread.gate.guards = 0
    · simp [Gate.dropGuard, ThreadStep.held, none, Gate.Moves.still]
    · rw [if_neg none]
      exact ⟨.dropped none, by simp [Gate.dropGuard, ThreadStep.held, none]⟩
  | tile number operation =>
    rw [apply] at done
    split at done
    · cases done
      exact ⟨.still, rfl⟩
    · obtain ⟨⟨station, answer⟩, applied, done⟩ := bind_eq_ok done
      cases done
      have gate := Station.gate_apply applied
      show thread.gate.Moves _ station.gate ∧ station.gate.guards = _
      split at gate
      · rename_i same
        rw [if_pos same, gate]
        exact ⟨.still, rfl⟩
      · rename_i turned
        rw [if_neg turned, gate]
        exact ⟨.replayed, rfl⟩

theorem follows_record (follows : thread.gate.Follows events)
    (ran : thread.record events steps = .ok (last, more)) :
    last.gate.Follows more ∧
      last.gate.guards = steps.foldl ThreadStep.held thread.gate.guards := by
  induction steps generalizing thread events with
  | nil =>
    cases ran
    exact ⟨follows, rfl⟩
  | cons step rest ih =>
    obtain ⟨⟨next, news⟩, done, ran⟩ := bind_eq_ok ran
    obtain ⟨moves, guards⟩ := moves_apply done
    rw [List.foldl_cons, ← guards]
    exact ih (follows.moves moves) ran

/-- After each of the steps the gate is open exactly if a guard lives. -/
def Faithful (thread : Thread ω) (events : List GuardEvent) (steps : List (ThreadStep γ)) : Prop :=
  ∀ earlier, earlier <+: steps → ∀ middle news,
    thread.record events earlier = .ok (middle, news) →
      (middle.gate.active = true ↔ 0 < middle.gate.guards)

theorem faithful_cons (done : thread.apply step = .ok (next, more)) :
    thread.Faithful events (step :: steps) ↔
      (thread.gate.active = true ↔ 0 < thread.gate.guards) ∧
        next.Faithful (events ++ more) steps := by
  have unfolded (earlier : List (ThreadStep γ)) :
      thread.record events (step :: earlier) = next.record (events ++ more) earlier := by
    rw [record, done]
    rfl
  constructor
  · intro faithful
    refine ⟨faithful [] List.nil_prefix thread events rfl, ?_⟩
    intro earlier before middle news ran
    rw [← unfolded] at ran
    exact faithful _ (List.cons_prefix_cons.mpr ⟨rfl, before⟩) middle news ran
  · rintro ⟨here, later⟩ earlier before middle news ran
    obtain rfl | ⟨rest, rfl, inside⟩ := List.prefix_cons_iff.mp before
    · cases ran
      exact here
    · rw [unfolded] at ran
      exact later rest inside middle news ran

theorem droppedAlone_record (follows : thread.gate.Follows events)
    (ran : thread.record events steps = .ok (last, more)) :
    DroppedAlone more ↔ DroppedAlone events ∧ thread.Faithful events steps := by
  induction steps generalizing thread events with
  | nil =>
    cases ran
    rw [iff_self_and]
    rintro alone earlier before middle news ran
    cases List.prefix_nil.mp before
    cases ran
    exact follows.active_iff_of_droppedAlone alone
  | cons step rest ih =>
    obtain ⟨⟨next, news⟩, done, ran⟩ := bind_eq_ok ran
    obtain ⟨moves, _⟩ := moves_apply done
    rw [ih (follows.moves moves) ran, follows.droppedAlone_moves moves, faithful_cons done]
    constructor
    · rintro ⟨⟨alone, _⟩, later⟩
      exact ⟨alone, follows.active_iff_of_droppedAlone alone, later⟩
    · rintro ⟨alone, _, later⟩
      exact ⟨⟨alone, later [] List.nil_prefix next _ rfl⟩, later⟩

/-- A thread that starts with some tiles behind a closed gate. -/
def ofTiles (tiles : List (LiquidChecker ω)) : Thread ω := ⟨tiles, .closed⟩

/-- From the start on, the gate is open after each of the steps exactly if the host still has a
guard. -/
def OpenWhileHeld (tiles : List (LiquidChecker ω)) (steps : List (ThreadStep γ)) : Prop :=
  ∀ earlier, earlier <+: steps → ∀ middle events,
    (ofTiles tiles).record [] earlier = .ok (middle, events) →
      (middle.gate.active = true ↔ 0 < ThreadStep.heldAfter earlier)

theorem openWhileHeld_iff (tiles : List (LiquidChecker ω)) :
    OpenWhileHeld tiles steps ↔ (ofTiles tiles).Faithful [] steps := by
  refine forall₂_congr fun earlier _ => forall₂_congr fun middle events => ?_
  refine forall_congr' fun ran => ?_
  rw [(follows_record Gate.follows_closed ran).2]
  rfl

end Thread

/-- The gate is open exactly if the host still has a guard and the last thing that happened to any
guard, of the host or of a replay, was no drop. So it stays open for as long as the host has a guard
exactly if no guard is ever dropped beside another one, neither by the host nor in a replay. -/
theorem open_while_held_iff_dropped_alone {γ ω : Type} [GridService γ] [Occupier ω]
    (tiles : List (LiquidChecker ω)) {steps : List (ThreadStep γ)} {last : Thread ω}
    {events : List GuardEvent}
    (ran : (Thread.ofTiles tiles).record [] steps = .ok (last, events)) :
    last.gate.guards = ThreadStep.heldAfter steps ∧
      (last.gate.active = true ↔
        0 < ThreadStep.heldAfter steps ∧ events.getLast? ≠ some .dropped) ∧
      (Thread.OpenWhileHeld tiles steps ↔ DroppedAlone events) := by
  have start : (Thread.ofTiles tiles).gate.Follows [] := Gate.follows_closed
  obtain ⟨follows, guards⟩ := Thread.follows_record start ran
  have held : last.gate.guards = ThreadStep.heldAfter steps := guards
  have alone : DroppedAlone [] := fun earlier before => by simp at before
  refine ⟨held, ?_, ?_⟩
  · rw [← held]
    exact follows.active_iff
  · rw [Thread.openWhileHeld_iff, Thread.droppedAlone_record start ran, and_iff_right alone]

def guardedTile : LiquidChecker CellOccupier :=
  .ofOwner 7 (.ofBody (guardedSpawnBody defaultHook))

/-- The host opens the gate and tells a tile of liquid that came to the cell above it. -/
def floodUnderGuard : List (ThreadStep MemoryGrid) :=
  [.tile 0 (.spawn (smallGrid []) ⟨⟨1065353216⟩, ⟨1065353216⟩⟩), .openGuard,
    .tile 0 (.liquidChanged (smallGrid [7]))]

/-- The replay of the tile leaves the gate closed under the guard of the host. -/
theorem floodUnderGuard_closes_gate :
    ∃ last, (Thread.ofTiles [guardedTile]).record [] floodUnderGuard =
        .ok (last, [.opened, .opened, .dropped]) ∧
      last.gate = ⟨false, 1⟩ ∧ ¬ Thread.OpenWhileHeld [guardedTile] floodUnderGuard := by
  have ends : ((Thread.ofTiles [guardedTile]).record [] floodUnderGuard).toOption.map
      (fun (last, events) => (last.gate, events)) =
        some (⟨false, 1⟩, [.opened, .opened, .dropped]) := by
    decide
  cases ran : (Thread.ofTiles [guardedTile]).record [] floodUnderGuard with
  | error fault =>
    rw [ran] at ends
    cases ends
  | ok answer =>
    obtain ⟨last, events⟩ := answer
    rw [ran] at ends
    simp only [Except.toOption, Option.map_some, Option.some.injEq, Prod.mk.injEq] at ends
    obtain ⟨gate, rfl⟩ := ends
    obtain ⟨_, _, alone⟩ := open_while_held_iff_dropped_alone [guardedTile] ran
    refine ⟨last, rfl, gate, fun faithful => ?_⟩
    exact absurd (alone.mp faithful [.opened, .opened] List.prefix_rfl) (by decide)

/-- The host opens the gate twice and drops the newer guard. -/
def nestedGuards : List (ThreadStep MemoryGrid) := [.openGuard, .openGuard, .dropGuard]

/-- The first of two guards does not keep the gate open once the second one is dropped. -/
theorem nestedGuards_not_openWhileHeld :
    ¬ Thread.OpenWhileHeld ([] : List (LiquidChecker CellOccupier)) nestedGuards := by
  intro faithful
  have after := faithful nestedGuards List.prefix_rfl ⟨[], ⟨false, 1⟩⟩ _ rfl
  exact absurd after (by decide)

end SpawnGuard
