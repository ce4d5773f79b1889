import SpawnGuard.Proofs.Answers
import SpawnGuard.Tile.Checker

/-!
Runs of a checker on any grid and over any occupier: where an operation looks for liquid, and what
it comes to by the answer.
-/
namespace SpawnGuard

namespace LiquidChecker

variable {γ ω : Type} [GridService γ]

/-- A question for a neighbour of a cell is answered with one that has liquid in it. -/
def LiquidAt (grid : γ) (neighbour : Except GridFault Cell) : Prop :=
  ∃ cell, neighbour = .ok cell ∧ GridService.isValid grid cell = .ok true ∧
    GridService.isLiquid grid cell = .ok true

def LiquidBeside (grid : γ) (cell : Cell) : Prop :=
  LiquidAt grid (GridService.above grid cell) ∨ LiquidAt grid (GridService.left grid cell) ∨
    LiquidAt grid (GridService.right grid cell)

/-- A question for a neighbour of a cell and those that follow from it are answered. -/
def Answers (grid : γ) (neighbour : Except GridFault Cell) : Prop :=
  ∃ cell, neighbour = .ok cell ∧ ∃ valid, GridService.isValid grid cell = .ok valid ∧
    (valid = true → ∃ wet, GridService.isLiquid grid cell = .ok wet)

def AnswersBeside (grid : γ) (cell : Cell) : Prop :=
  Answers grid (GridService.above grid cell) ∧ Answers grid (GridService.left grid cell) ∧
    Answers grid (GridService.right grid cell)

private theorem isWet_of_answers {grid : γ} {neighbour : Except GridFault Cell}
    (answers : Answers grid neighbour) :
    ∃ cell, neighbour = .ok cell ∧ ∃ wet, isWet grid cell = .ok wet := by
  obtain ⟨cell, asked, valid, inside, liquid⟩ := answers
  refine ⟨cell, asked, ?_⟩
  rw [isWet, inside]
  show ∃ wet, (if valid = true then _ else _) = _
  split
  · rename_i real
    exact liquid real
  · exact ⟨false, rfl⟩

/-- The test is answered by a grid that answers all it may be asked. -/
theorem senses_isOk {grid : γ} {cell : Cell} (answers : AnswersBeside grid cell) :
    ∃ wet, senses grid cell = .ok wet := by
  obtain ⟨first, second, third⟩ := answers
  obtain ⟨above, askedAbove, wetAbove, toldAbove⟩ := isWet_of_answers first
  obtain ⟨left, askedLeft, wetLeft, toldLeft⟩ := isWet_of_answers second
  obtain ⟨right, askedRight, wetRight, toldRight⟩ := isWet_of_answers third
  simp only [senses, askedAbove, toldAbove, askedLeft, toldLeft, askedRight, toldRight, bind,
    Except.bind]
  cases wetAbove
  · cases wetLeft
    · exact ⟨wetRight, rfl⟩
    · exact ⟨true, rfl⟩
  · exact ⟨true, rfl⟩

private theorem liquidAt_iff {grid : γ} {neighbour : Except GridFault Cell} {cell : Cell}
    {wet : Bool} (asked : neighbour = .ok cell) (answered : isWet grid cell = .ok wet) :
    wet = true ↔ LiquidAt grid neighbour := by
  obtain ⟨valid, inside, answered⟩ := bind_eq_ok answered
  constructor
  · rintro rfl
    split at answered
    · rename_i real
      exact ⟨cell, asked, real ▸ inside, answered⟩
    · cases answered
  · rintro ⟨other, same, real, liquid⟩
    cases asked.symm.trans same
    cases inside.symm.trans real
    exact Except.ok.inj (answered.symm.trans liquid)

/-- A test that is answered tells whether there is liquid in one of the three cells. -/
theorem senses_iff {grid : γ} {cell : Cell} {wet : Bool} (answered : senses grid cell = .ok wet) :
    wet = true ↔ LiquidBeside grid cell := by
  unfold LiquidBeside
  obtain ⟨above, asked, answered⟩ := bind_eq_ok answered
  obtain ⟨wetAbove, told, answered⟩ := bind_eq_ok answered
  rw [← liquidAt_iff asked told]
  split at answered
  · rename_i here
    cases answered
    simp [here]
  rename_i dryAbove
  obtain ⟨left, asked, answered⟩ := bind_eq_ok answered
  obtain ⟨wetLeft, told, answered⟩ := bind_eq_ok answered
  rw [← liquidAt_iff asked told]
  split at answered
  · rename_i here
    cases answered
    simp [here]
  rename_i dryLeft
  obtain ⟨right, asked, answered⟩ := bind_eq_ok answered
  rw [← liquidAt_iff asked answered]
  simp [dryAbove, dryLeft]

variable [Occupier ω] {grid : γ} {checker : LiquidChecker ω} {gate : Gate}

theorem check_of_senses {wet : Bool} (answered : senses grid checker.cell = .ok wet) :
    checker.check grid gate = .ok
      (if wet = checker.active then ⟨false, checker, gate, []⟩
        else ⟨true, (checker.replay wet gate).1, (checker.replay wet gate).2.1,
          (checker.replay wet gate).2.2⟩) := by
  rw [check, answered]
  show (if wet = checker.active then _ else _) = _
  split <;> rfl

theorem check_of_error {fault : GridFault} (refused : senses grid checker.cell = .error fault) :
    checker.check grid gate = .error fault := by
  rw [check, refused]
  rfl

/-- The checker placed at a position and registered there instead of where it was. -/
def moved (grid : γ) (position : Position) (checker : LiquidChecker ω) :
    Except GridFault (γ × LiquidChecker ω) := do
  let cell ← GridService.cellAt grid position
  let extents ← GridFault.ofWord (watched (GridService.pointOf grid cell))
  let (_, grid) := GridService.free grid checker.entry
  let (entry, grid) := GridService.add grid registrationName checker.owner extents .liquid
  .ok (grid, { checker with cell, entry })

end LiquidChecker

/-- What is asked of a checker, each time with the grid as it then is. -/
inductive CheckerOperation (γ : Type) where
  | spawn (grid : γ) (position : Position)
  | liquidChanged (grid : γ)
  | check (grid : γ)
  | cleanUp (grid : γ)

/-- What an operation answers; only a check tells whether there was a replay. -/
def CheckerOperation.answer {γ : Type} (replayed : Bool) : CheckerOperation γ → Option Bool
  | check _ => some replayed
  | _ => none

/-- A checker and the gate of the thread it lives on. -/
structure Station (ω : Type) where
  checker : LiquidChecker ω
  gate : Gate
  deriving DecidableEq

namespace Station

variable {γ ω : Type} [GridService γ] [Occupier ω]

def ofOwner (owner : Owner) (occupier : ω) (gate : Gate) : Station ω :=
  ⟨.ofOwner owner occupier, gate⟩

def apply (station : Station ω) (operation : CheckerOperation γ) :
    Except GridFault (Station ω × Option Bool) :=
  match operation with
  | .spawn grid position => do
    let (_, checked) ← station.checker.spawn grid station.gate position
    .ok (⟨checked.checker, checked.gate⟩, operation.answer checked.replayed)
  | .liquidChanged grid | .check grid => do
    let checked ← station.checker.check grid station.gate
    .ok (⟨checked.checker, checked.gate⟩, operation.answer checked.replayed)
  | .cleanUp grid => .ok ({ station with checker := (station.checker.cleanUp grid).2 }, none)

def run (station : Station ω) (operations : List (CheckerOperation γ)) :
    Except GridFault (Station ω) :=
  operations.foldlM (fun station operation => (station.apply operation).map (·.1)) station

/-- The grid and the checker in its place when an operation looks for liquid, if it does. -/
def place? (station : Station ω) :
    CheckerOperation γ → Option (Except GridFault (γ × LiquidChecker ω))
  | .spawn grid position => some (station.checker.moved grid position)
  | .liquidChanged grid | .check grid => some (.ok (grid, station.checker))
  | .cleanUp _ => none

/-- An operation that looks for liquid puts the checker in its place and checks there. -/
theorem apply_of_place? {station : Station ω} {operation : CheckerOperation γ}
    {place : Except GridFault (γ × LiquidChecker ω)}
    (looks : station.place? operation = some place) :
    station.apply operation = (do
      let (grid, checker) ← place
      let checked ← checker.check grid station.gate
      .ok (⟨checked.checker, checked.gate⟩, operation.answer checked.replayed)) := by
  cases operation with
  | spawn grid position =>
    cases looks
    simp only [apply, LiquidChecker.spawn, LiquidChecker.moved, bind_assoc]
    rfl
  | liquidChanged grid | check grid =>
    cases looks
    rfl
  | cleanUp grid => cases looks

theorem apply_of_error {station : Station ω} {operation : CheckerOperation γ}
    {place : Except GridFault (γ × LiquidChecker ω)}
    (looks : station.place? operation = some place) {fault : GridFault}
    (refused : (place >>= fun (grid, placed) => LiquidChecker.senses grid placed.cell) =
      .error fault) : station.apply operation = .error fault := by
  rw [apply_of_place? looks]
  cases place with
  | error other =>
    cases refused
    rfl
  | ok place =>
    obtain ⟨grid, placed⟩ := place
    show (placed.check grid station.gate >>= _) = _
    rw [LiquidChecker.check_of_error refused]
    rfl

omit [Occupier ω] in
theorem keeps_of_place? {station : Station ω} {operation : CheckerOperation γ} {grid : γ}
    {placed : LiquidChecker ω} (looks : station.place? operation = some (.ok (grid, placed))) :
    placed.active = station.checker.active ∧ placed.occupier = station.checker.occupier := by
  cases operation with
  | spawn before position =>
    obtain ⟨cell, _, moved⟩ := bind_eq_ok (Option.some.inj looks)
    obtain ⟨extents, _, moved⟩ := bind_eq_ok moved
    cases moved
    exact ⟨rfl, rfl⟩
  | liquidChanged grid | check grid =>
    cases looks
    exact ⟨rfl, rfl⟩
  | cleanUp grid => cases looks

end Station

end SpawnGuard
