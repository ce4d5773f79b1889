import SpawnGuard.Proofs.CheckerRuns
import SpawnGuard.Proofs.RepairSubscription

/-!
The replays of a checker, seen from its occupier. Calls come in whole blocks, one each time the
liquid beside the checker comes or goes, and the gate is open for the spawn in a block and closed
after it.
-/
namespace SpawnGuard

/-- A call on an occupier; a spawn comes with what the gate says then. -/
inductive OccupierCall where
  | setReplace (active : Bool)
  | destroy
  | setCallDestroy (pending : Bool)
  | spawn (hook : Bool)
  deriving DecidableEq, Repr

/-- An occupier and the calls that were made on it. -/
structure Recorded (ω : Type) where
  occupier : ω
  calls : List OccupierCall
  deriving DecidableEq

namespace Recorded

variable {ω : Type} [Occupier ω]

def ofOccupier (occupier : ω) : Recorded ω := ⟨occupier, []⟩

instance : Occupier (Recorded ω) where
  setReplace active recorded :=
    ⟨Occupier.setReplace active recorded.occupier, recorded.calls ++ [.setReplace active]⟩
  destroy recorded := ⟨Occupier.destroy recorded.occupier, recorded.calls ++ [.destroy]⟩
  setCallDestroy pending recorded :=
    ⟨Occupier.setCallDestroy pending recorded.occupier,
      recorded.calls ++ [.setCallDestroy pending]⟩
  spawn gate recorded :=
    ⟨Occupier.spawn gate recorded.occupier, recorded.calls ++ [.spawn gate.hook]⟩
  spawnLog recorded := Occupier.spawnLog recorded.occupier

/-- The calls of one replay. -/
def block (active : Bool) : List OccupierCall :=
  [.setReplace active, .destroy, .setCallDestroy true, .spawn true]

end Recorded

namespace LiquidChecker

variable {γ ω : Type} [GridService γ] [Occupier ω]

theorem calls_replay (checker : LiquidChecker (Recorded ω)) (active : Bool) (gate : Gate) :
    (checker.replay active gate).1.occupier.calls =
      checker.occupier.calls ++ Recorded.block active := by
  show (((_ ++ [_]) ++ [_]) ++ [_]) ++ [_] = _
  simp [Recorded.block, Gate.hook, Gate.openGuard]

/-- The checker without the record of the calls on its occupier. -/
def forget (checker : LiquidChecker (Recorded ω)) : LiquidChecker ω where
  owner := checker.owner
  occupier := checker.occupier.occupier
  entry := checker.entry
  cell := checker.cell
  active := checker.active

def Checked.forget (checked : Checked (Recorded ω)) : Checked ω :=
  ⟨checked.replayed, checked.checker.forget, checked.gate, checked.log⟩

theorem check_forget (grid : γ) (gate : Gate) (checker : LiquidChecker (Recorded ω)) :
    checker.forget.check grid gate = (checker.check grid gate).map Checked.forget := by
  unfold check
  rw [show checker.forget.cell = checker.cell from rfl]
  cases senses grid checker.cell with
  | error fault => rfl
  | ok wet =>
    show (if wet = checker.active then _ else _) =
      Except.map _ (if wet = checker.active then _ else _)
    split <;> rfl

omit [Occupier ω] in
theorem moved_forget (grid : γ) (position : Position) (checker : LiquidChecker (Recorded ω)) :
    checker.forget.moved grid position =
      (checker.moved grid position).map fun (grid, placed) => (grid, placed.forget) := by
  unfold moved
  cases GridService.cellAt grid position with
  | error fault => rfl
  | ok cell =>
    show (GridFault.ofWord _ >>= _) = Except.map _ (GridFault.ofWord _ >>= _)
    cases GridFault.ofWord (watched (GridService.pointOf grid cell)) <;> rfl

end LiquidChecker

namespace Station

variable {γ ω : Type} [GridService γ] [Occupier ω]

variable {station next : Station (Recorded ω)} {operation : CheckerOperation γ} {wet : Bool}

/-- What comes of a test: a replay if its answer is new, and nothing otherwise. -/
structure Turned (station : Station (Recorded ω)) (wet : Bool) (next : Station (Recorded ω)) :
    Prop where
  active : next.checker.active = wet
  calls : next.checker.occupier.calls = station.checker.occupier.calls ++
    if wet = station.checker.active then [] else Recorded.block wet
  gate : next.gate =
    if wet = station.checker.active then station.gate else ⟨false, station.gate.guards⟩

theorem turned_check {grid : γ} {checker : LiquidChecker (Recorded ω)} (gate : Gate)
    (answered : LiquidChecker.senses grid checker.cell = .ok wet) :
    ∃ checked, checker.check grid gate = .ok checked ∧
      checked.replayed = decide (wet ≠ checker.active) ∧ checked.checker.cell = checker.cell ∧
        Turned ⟨checker, gate⟩ wet ⟨checked.checker, checked.gate⟩ := by
  refine ⟨_, LiquidChecker.check_of_senses answered, ?_⟩
  by_cases same : wet = checker.active
  · rw [if_pos same]
    exact ⟨by simp [same], rfl, same.symm, by simp [same], by simp [same]⟩
  · rw [if_neg same]
    refine ⟨by simp [same], rfl, rfl, ?_, ?_⟩
    · rw [if_neg same]
      exact LiquidChecker.calls_replay checker wet gate
    · rw [if_neg same]
      exact Gate.dropGuard_openGuard gate

/-- An operation that looks for liquid turns the checker to what it finds. -/
theorem turned_apply {grid : γ} {placed : LiquidChecker (Recorded ω)}
    (looks : station.place? operation = some (.ok (grid, placed)))
    (answered : LiquidChecker.senses grid placed.cell = .ok wet) :
    ∃ next, station.apply operation =
        .ok (next, operation.answer (decide (wet ≠ station.checker.active))) ∧
      next.checker.cell = placed.cell ∧ Turned station wet next := by
  obtain ⟨active, occupier⟩ := keeps_of_place? looks
  obtain ⟨checked, looked, replayed, cell, turned⟩ :=
    turned_check station.gate answered
  refine ⟨⟨checked.checker, checked.gate⟩, ?_, cell, turned.active, ?_, ?_⟩
  · rw [apply_of_place? looks, ← active, ← replayed]
    show (placed.check grid station.gate >>= _) = _
    rw [looked]
    rfl
  · rw [← active, ← occupier]
    exact turned.calls
  · rw [← active]
    exact turned.gate

/-- The values of so many replays: true, false, true and so on. -/
def turns (count : Nat) : List Bool := (List.range count).map fun turn => decide (turn % 2 = 0)

theorem turns_succ (count : Nat) : turns (count + 1) = turns count ++ [decide (count % 2 = 0)] := by
  simp [turns, List.range_succ]

theorem getLast?_turns (count : Nat) :
    (turns count).getLast?.getD false = decide (count % 2 = 1) := by
  cases count with
  | zero => rfl
  | succ count =>
    rw [turns_succ, List.getLast?_concat, Option.getD_some, decide_eq_decide]
    omega

/-- The calls so far are whole replays whose values take turns, and the last one is in force. -/
def Alternated (station : Station (Recorded ω)) : Prop :=
  ∃ count, station.checker.occupier.calls = (turns count).flatMap Recorded.block ∧
    station.checker.active = (turns count).getLast?.getD false

omit [Occupier ω] in
theorem Turned.alternated (turned : Turned station wet next) (alternated : station.Alternated) :
    next.Alternated := by
  obtain ⟨count, calls, active⟩ := alternated
  by_cases same : wet = station.checker.active
  · refine ⟨count, ?_, by rw [turned.active, same, active]⟩
    rw [turned.calls, if_pos same, List.append_nil, calls]
  · -- What is new is the value whose turn it is.
    have value : wet = decide (count % 2 = 0) := by
      rw [active, getLast?_turns] at same
      rw [Bool.eq_not_of_ne same, ← decide_not, decide_eq_decide]
      omega
    refine ⟨count + 1, ?_, ?_⟩
    · rw [turned.calls, if_neg same, calls, value, turns_succ, List.flatMap_append]
      simp
    · rw [turned.active, value, turns_succ, List.getLast?_concat, Option.getD_some]

theorem alternated_apply (alternated : station.Alternated) {answer : Option Bool}
    (done : station.apply operation = .ok (next, answer)) : next.Alternated := by
  cases looks : station.place? operation with
  | none =>
    cases operation with
    | cleanUp grid =>
      cases done
      exact alternated
    | _ => cases looks
  | some place =>
    cases tested : place >>= fun (grid, placed) => LiquidChecker.senses grid placed.cell with
    | error fault => cases (apply_of_error looks tested).symm.trans done
    | ok wet =>
      obtain ⟨⟨grid, placed⟩, rfl, answered⟩ := bind_eq_ok tested
      obtain ⟨other, applied, _, turned⟩ := turned_apply looks answered
      cases applied.symm.trans done
      exact turned.alternated alternated

theorem alternated_run {operations : List (CheckerOperation γ)} (alternated : station.Alternated)
    (ran : station.run operations = .ok next) : next.Alternated := by
  induction operations generalizing station with
  | nil =>
    cases ran
    exact alternated
  | cons operation rest ih =>
    rw [run, List.foldlM_cons] at ran
    obtain ⟨middle, first, ran⟩ := bind_eq_ok ran
    obtain ⟨⟨_, answer⟩, applied, rfl⟩ := map_eq_ok first
    exact ih (alternated_apply alternated applied) ran

def forget (station : Station (Recorded ω)) : Station ω := ⟨station.checker.forget, station.gate⟩

omit [Occupier ω] in
theorem place?_forget (station : Station (Recorded ω)) (operation : CheckerOperation γ) :
    station.forget.place? operation =
      (station.place? operation).map (Except.map fun (grid, placed) => (grid, placed.forget)) := by
  cases operation with
  | spawn grid position => exact congrArg some (station.checker.moved_forget grid position)
  | liquidChanged grid | check grid | cleanUp grid => rfl

theorem apply_forget (station : Station (Recorded ω)) (operation : CheckerOperation γ) :
    station.forget.apply operation =
      (station.apply operation).map fun (next, answer) => (next.forget, answer) := by
  have forgot := place?_forget station operation
  cases looks : station.place? operation with
  | none =>
    cases operation with
    | cleanUp grid => rfl
    | _ => cases looks
  | some place =>
    rw [looks] at forgot
    rw [apply_of_place? forgot, apply_of_place? looks]
    cases place with
    | error fault => rfl
    | ok place =>
      obtain ⟨grid, placed⟩ := place
      show (placed.forget.check grid station.gate >>= _) =
        Except.map _ (placed.check grid station.gate >>= _)
      rw [LiquidChecker.check_forget]
      cases placed.check grid station.gate <;> rfl

/-- Recording the calls on an occupier changes nothing in a run. -/
theorem run_forget (station : Station (Recorded ω)) (operations : List (CheckerOperation γ)) :
    station.forget.run operations = (station.run operations).map forget := by
  induction operations generalizing station with
  | nil => rfl
  | cons operation rest ih =>
    rw [run, run, List.foldlM_cons, List.foldlM_cons, apply_forget]
    cases station.apply operation with
    | error fault => rfl
    | ok answered => exact ih answered.1

end Station

/-- However a checker is placed, told of liquid, asked and cleaned up, its occupier is called in
whole replays whose values take turns, the first being true, and the checker is as active as the
last one says. An operation that looks for liquid replays exactly if what it finds differs from
that, and a check answers whether it did; a replay leaves the gate closed. Nothing else calls the
occupier or touches the gate. -/
theorem replays_are_edge_triggered {γ ω : Type} [GridService γ] [Occupier ω] (owner : Owner)
    (occupier : ω) (gate : Gate) {operations : List (CheckerOperation γ)}
    {last : Station (Recorded ω)}
    (ran : (Station.ofOwner owner (.ofOccupier occupier) gate).run operations = .ok last) :
    (Station.ofOwner owner occupier gate).run operations = .ok last.forget ∧ last.Alternated ∧
      (∀ grid : γ, ∃ next, last.apply (.cleanUp grid) = .ok (next, none) ∧
        next.checker.active = last.checker.active ∧
        next.checker.occupier = last.checker.occupier ∧ next.gate = last.gate) ∧
      ∀ (operation : CheckerOperation γ) place, last.place? operation = some place →
        (∀ fault, (place >>= fun (grid, placed) => LiquidChecker.senses grid placed.cell) =
          .error fault → last.apply operation = .error fault) ∧
        ∀ grid placed, place = .ok (grid, placed) →
          (LiquidChecker.AnswersBeside grid placed.cell →
            ∃ wet, LiquidChecker.senses grid placed.cell = .ok wet) ∧
          ∀ wet, LiquidChecker.senses grid placed.cell = .ok wet →
            (wet = true ↔ LiquidChecker.LiquidBeside grid placed.cell) ∧
            ∃ next, last.apply operation =
                .ok (next, operation.answer (decide (wet ≠ last.checker.active))) ∧
              next.checker.cell = placed.cell ∧ last.Turned wet next := by
  refine ⟨?_, ?_, fun grid => ⟨_, rfl, rfl, rfl, rfl⟩, fun operation place looks => ⟨?_, ?_⟩⟩
  · have forgot := Station.run_forget (.ofOwner owner (.ofOccupier occupier) gate) operations
    rw [ran] at forgot
    exact forgot
  · have fresh : (Station.ofOwner owner (.ofOccupier occupier) gate).Alternated := ⟨0, rfl, rfl⟩
    exact Station.alternated_run fresh ran
  · exact fun fault refused => Station.apply_of_error looks refused
  · rintro grid placed rfl
    refine ⟨LiquidChecker.senses_isOk, fun wet answered => ?_⟩
    exact ⟨LiquidChecker.senses_iff answered, Station.turned_apply looks answered⟩

/-- Liquid comes to the cell above a checker, goes and comes back; then the checker is cleaned
up. -/
def showers : List (CheckerOperation MemoryGrid) :=
  [.spawn (smallGrid []) ⟨⟨1065353216⟩, ⟨1065353216⟩⟩, .liquidChanged (smallGrid [7]),
    .liquidChanged (smallGrid [5, 7]), .check (smallGrid []), .check (smallGrid [7]),
    .cleanUp (smallGrid [7])]

def newStation : Station (Recorded CellOccupier) :=
  .ofOwner 7 (.ofOccupier (.ofBody (guardedSpawnBody defaultHook))) .closed

/-- The showers replay the occupier three times, and a look at a dry grid replays it once more. -/
theorem showers_replay_in_turns :
    ∃ last, newStation.run showers = .ok last ∧
      newStation.forget.run showers = .ok last.forget ∧
      last.checker.occupier.calls =
        Recorded.block true ++ Recorded.block false ++ Recorded.block true ∧
      ∃ next, last.apply (.check (smallGrid [])) = .ok (next, some true) ∧
        next.checker.occupier.calls = last.checker.occupier.calls ++ Recorded.block false ∧
        next.gate = .closed := by
  have ends : (newStation.run showers).toOption.map (fun last =>
      (last.checker.occupier.calls, last.checker.cell, last.checker.active, last.gate)) =
        some (Recorded.block true ++ Recorded.block false ++ Recorded.block true, 4, true,
          .closed) := by
    decide
  cases ran : newStation.run showers with
  | error fault =>
    rw [ran] at ends
    cases ends
  | ok last =>
    rw [ran] at ends
    simp only [Except.toOption, Option.map_some, Option.some.injEq, Prod.mk.injEq] at ends
    obtain ⟨calls, cell, active, closed⟩ := ends
    obtain ⟨plain, _, _, turns⟩ := replays_are_edge_triggered 7 _ .closed ran
    have dry : LiquidChecker.senses (smallGrid []) last.checker.cell = .ok false := by
      rw [cell]
      decide
    obtain ⟨_, tested⟩ := turns (.check (smallGrid [])) _ rfl
    obtain ⟨_, next, applied, _, turned⟩ := (tested _ _ rfl).2 false dry
    refine ⟨last, rfl, plain, calls, next, ?_, ?_, ?_⟩
    · rw [applied, active]
      rfl
    · rw [turned.calls, active]
      rfl
    · rw [turned.gate, active, closed]
      rfl

end SpawnGuard
