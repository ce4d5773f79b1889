import SpawnGuard.Proofs.CheckerRuns
import SpawnGuard.Proofs.RepairSubscription
import SpawnGuard.Tile.World

/-!
Checkers that are told of liquid one after the other. A replay always runs behind an open gate,
and a checker that has been told is up to date, so what they all come to depends only on which of
them were told.
-/
namespace SpawnGuard

theorem CellOccupier.spawn_openGuard (gate other : Gate) (occupier : CellOccupier) :
    occupier.spawn gate.openGuard = occupier.spawn other.openGuard := by
  have same : OccupierState.host gate.openGuard = OccupierState.host other.openGuard := rfl
  rw [spawn, spawn, same]

namespace LiquidChecker

variable {γ : Type} [GridService γ] {grid : γ} {checker : LiquidChecker CellOccupier} {wet : Bool}

/-- The checker once it knows whether there is liquid: replayed if this is new to it. -/
def turn (wet : Bool) (checker : LiquidChecker CellOccupier) : LiquidChecker CellOccupier :=
  if wet = checker.active then checker else (checker.replay wet .closed).1

@[simp] theorem cell_turn : (checker.turn wet).cell = checker.cell := by
  unfold turn
  split <;> rfl

@[simp] theorem active_turn : (checker.turn wet).active = wet := by
  unfold turn
  split
  · rename_i same
    exact same.symm
  · rfl

theorem turn_turn : (checker.turn wet).turn wet = checker.turn wet := by
  rw [turn, if_pos active_turn.symm]

theorem replay_congr (gate other : Gate) :
    (checker.replay wet gate).1 = (checker.replay wet other).1 := by
  have same (occupier : CellOccupier) :
      Occupier.spawn gate.openGuard occupier = Occupier.spawn other.openGuard occupier :=
    occupier.spawn_openGuard gate other
  simp only [replay, same]

/-- A checker comes to the same whatever the gate is when it is told. -/
theorem check_turn (gate : Gate) (answered : senses grid checker.cell = .ok wet) :
    ∃ checked, checker.check grid gate = .ok checked ∧ checked.checker = checker.turn wet ∧
      checked.gate = if wet = checker.active then gate else ⟨false, gate.guards⟩ := by
  refine ⟨_, check_of_senses answered, ?_⟩
  unfold turn
  split
  · exact ⟨rfl, rfl⟩
  · exact ⟨replay_congr gate .closed, gate.dropGuard_openGuard⟩

theorem senses_of_check {gate : Gate} {checked : Checked CellOccupier}
    (done : checker.check grid gate = .ok checked) : ∃ wet, senses grid checker.cell = .ok wet := by
  obtain ⟨wet, answered, _⟩ := bind_eq_ok done
  exact ⟨wet, answered⟩

end LiquidChecker

/-- Checkers, the grid they watch and the gate of the thread they live on. -/
@[ext]
structure Watch (γ : Type) where
  grid : γ
  checkers : List (LiquidChecker CellOccupier)
  gate : Gate

namespace Watch

variable {γ : Type} [GridService γ]

/-- Tells a checker of a change, by its number. -/
def notify (watch : Watch γ) (number : Nat) : Except GridFault (Watch γ) :=
  match watch.checkers[number]? with
  | none => .ok watch
  | some checker => do
    let checked ← checker.check watch.grid watch.gate
    .ok { watch with
      checkers := watch.checkers.set number checked.checker
      gate := checked.gate }

def deliver (watch : Watch γ) (numbers : List Nat) : Except GridFault (Watch γ) :=
  numbers.foldlM notify watch

/-- Whether the liquid beside a checker has come or gone since it last looked. -/
def flips (watch : Watch γ) (number : Nat) : Bool :=
  watch.checkers[number]?.any fun checker =>
    LiquidChecker.senses watch.grid checker.cell = .ok !checker.active

/-- What is left once the checkers with these numbers have been told: each of them has turned to
what is beside it, and the gate is closed if one was replayed. -/
structure Told (numbers : List Nat) (before after : Watch γ) : Prop where
  grid : after.grid = before.grid
  length : after.checkers.length = before.checkers.length
  told : ∀ number ∈ numbers, ∀ checker, before.checkers[number]? = some checker → ∃ wet,
    LiquidChecker.senses before.grid checker.cell = .ok wet ∧
      after.checkers[number]? = some (checker.turn wet)
  untold : ∀ number, number ∉ numbers → after.checkers[number]? = before.checkers[number]?
  gate : after.gate =
    if numbers.any before.flips then ⟨false, before.gate.guards⟩ else before.gate

variable {watch middle last other : Watch γ} {number : Nat} {numbers rest : List Nat}

theorem told_nil (watch : Watch γ) : Told [] watch watch :=
  ⟨rfl, rfl, fun _ told => absurd told List.not_mem_nil, fun _ _ => rfl, rfl⟩

theorem told_notify (done : watch.notify number = .ok last) : Told [number] watch last := by
  unfold notify at done
  split at done
  · rename_i missing
    cases done
    refine ⟨rfl, rfl, ?_, fun _ _ => rfl, ?_⟩
    · intro told member checker found
      cases List.mem_singleton.mp member
      cases missing.symm.trans found
    · simp [flips, missing]
  · rename_i checker found
    obtain ⟨checked, looked, done⟩ := bind_eq_ok done
    cases done
    obtain ⟨wet, answered⟩ := LiquidChecker.senses_of_check looked
    obtain ⟨_, again, turned, gate⟩ := LiquidChecker.check_turn watch.gate answered
    cases looked.symm.trans again
    obtain ⟨bound, _⟩ := List.getElem?_eq_some_iff.mp found
    refine ⟨rfl, List.length_set, ?_, ?_, ?_⟩
    · intro told member other there
      cases List.mem_singleton.mp member
      cases found.symm.trans there
      exact ⟨wet, answered, by rw [List.getElem?_set_self bound, turned]⟩
    · intro told absent
      have apart : number ≠ told := fun same => absent (List.mem_singleton.mpr same.symm)
      exact List.getElem?_set_ne apart
    · -- Two truth values differ exactly if one is the negation of the other.
      have flipped : watch.flips number = true ↔ wet ≠ checker.active := by
        rw [flips, found, Option.any_some, answered, decide_eq_true_iff, Except.ok.injEq]
        cases wet <;> cases checker.active <;> decide
      show checked.gate = _
      rw [gate, List.any_cons, List.any_nil, Bool.or_false]
      by_cases same : wet = checker.active
      · rw [if_pos same, if_neg fun flips => flipped.mp flips same]
      · rw [if_neg same, if_pos (flipped.mpr same)]

theorem Told.flips_eq (told : Told [number] watch middle) (other : Nat) :
    middle.flips other = (decide (other ≠ number) && watch.flips other) := by
  by_cases same : other = number
  · subst same
    cases found : watch.checkers[other]? with
    | none =>
      have missing : middle.checkers[other]? = none := by
        rw [List.getElem?_eq_none_iff] at found ⊢
        rw [told.length]
        exact found
      simp [flips, missing]
    | some checker =>
      obtain ⟨wet, answered, there⟩ := told.told other List.mem_cons_self checker found
      simp [flips, there, told.grid, answered]
  · have kept := told.untold other (mt List.mem_singleton.mp same)
    simp [flips, kept, told.grid, same]

theorem Told.trans (first : Told [number] watch middle) (second : Told rest middle last) :
    Told (number :: rest) watch last := by
  refine ⟨second.grid.trans first.grid, second.length.trans first.length, ?_, ?_, ?_⟩
  · intro told member checker found
    by_cases here : told = number
    · subst here
      obtain ⟨wet, answered, there⟩ := first.told told List.mem_cons_self checker found
      refine ⟨wet, answered, ?_⟩
      by_cases again : told ∈ rest
      · -- Told again, the checker finds what it has already turned to.
        obtain ⟨wet', answered', after⟩ := second.told told again _ there
        rw [first.grid, LiquidChecker.cell_turn] at answered'
        cases answered.symm.trans answered'
        rw [after, LiquidChecker.turn_turn]
      · rw [second.untold told again, there]
    · have later := (List.mem_cons.mp member).resolve_left here
      have kept := first.untold told (mt List.mem_singleton.mp here)
      obtain ⟨wet, answered, after⟩ := second.told told later checker (kept.trans found)
      rw [first.grid] at answered
      exact ⟨wet, answered, after⟩
  · intro told absent
    obtain ⟨here, later⟩ := not_or.mp (mt List.mem_cons.mpr absent)
    rw [second.untold told later, first.untold told (mt List.mem_singleton.mp here)]
  · have gate := first.gate
    rw [List.any_cons, List.any_nil, Bool.or_false] at gate
    rw [second.gate, gate, List.any_cons]
    cases turned : watch.flips number with
    | true => simp
    | false =>
      -- Without a replay the rest finds all the flips that there were.
      have same : middle.flips = watch.flips := by
        funext other
        rw [first.flips_eq]
        by_cases here : other = number
        · simp [here, turned]
        · simp [here]
      simp [same]

theorem told_deliver (done : watch.deliver numbers = .ok last) : Told numbers watch last := by
  induction numbers generalizing watch with
  | nil =>
    cases done
    exact told_nil last
  | cons number rest ih =>
    rw [deliver, List.foldlM_cons] at done
    obtain ⟨middle, first, done⟩ := bind_eq_ok done
    exact (told_notify first).trans (ih done)

/-- The checkers with these numbers are all answered when they look for liquid. -/
def Answered (watch : Watch γ) (numbers : List Nat) : Prop :=
  ∀ number ∈ numbers, ∀ checker, watch.checkers[number]? = some checker →
    ∃ wet, LiquidChecker.senses watch.grid checker.cell = .ok wet

theorem Told.answered (told : Told numbers watch last) : watch.Answered numbers := by
  intro number member checker found
  obtain ⟨wet, answered, _⟩ := told.told number member checker found
  exact ⟨wet, answered⟩

theorem notify_isOk (answered : watch.Answered [number]) :
    ∃ next, watch.notify number = .ok next := by
  unfold notify
  split
  · exact ⟨_, rfl⟩
  · rename_i checker found
    obtain ⟨wet, answered⟩ := answered number List.mem_cons_self checker found
    obtain ⟨checked, looked, _⟩ := LiquidChecker.check_turn watch.gate answered
    rw [looked]
    exact ⟨_, rfl⟩

theorem Answered.after (answered : watch.Answered rest) (told : Told [number] watch middle) :
    middle.Answered rest := by
  intro other member checker found
  by_cases same : other = number
  · subst same
    cases before : watch.checkers[other]? with
    | none =>
      rw [List.getElem?_eq_none_iff, ← told.length, ← List.getElem?_eq_none_iff] at before
      cases before.symm.trans found
    | some old =>
      obtain ⟨wet, seen, there⟩ := told.told other List.mem_cons_self old before
      cases there.symm.trans found
      rw [told.grid, LiquidChecker.cell_turn]
      exact ⟨wet, seen⟩
  · rw [told.untold other (mt List.mem_singleton.mp same)] at found
    rw [told.grid]
    exact answered other member checker found

theorem deliver_isOk (answered : watch.Answered numbers) :
    ∃ last, watch.deliver numbers = .ok last := by
  induction numbers generalizing watch with
  | nil => exact ⟨watch, rfl⟩
  | cons number rest ih =>
    obtain ⟨here, later⟩ := List.forall_mem_cons.mp answered
    obtain ⟨middle, first⟩ := notify_isOk (List.forall_mem_singleton.mpr here)
    obtain ⟨last, done⟩ := ih (Answered.after later (told_notify first))
    refine ⟨last, ?_⟩
    rw [deliver, List.foldlM_cons, first]
    exact done

theorem Told.congr (same : ∀ number, number ∈ rest ↔ number ∈ numbers)
    (told : Told numbers watch last) : Told rest watch last := by
  refine ⟨told.grid, told.length, fun number member => told.told number ((same number).mp member),
    fun number absent => told.untold number (mt (same number).mpr absent), ?_⟩
  have flipped : rest.any watch.flips = numbers.any watch.flips := by
    rw [Bool.eq_iff_iff]
    simp only [List.any_eq_true, same]
  rw [told.gate, flipped]

theorem Told.unique (first : Told numbers watch last) (second : Told numbers watch other) :
    last = other := by
  have checkers : last.checkers = other.checkers := by
    refine List.ext_getElem? fun number => ?_
    by_cases member : number ∈ numbers
    · cases found : watch.checkers[number]? with
      | none =>
        rw [List.getElem?_eq_none_iff] at found
        rw [List.getElem?_eq_none (first.length ▸ found),
          List.getElem?_eq_none (second.length ▸ found)]
      | some checker =>
        obtain ⟨wet, answered, there⟩ := first.told number member checker found
        obtain ⟨wet', answered', there'⟩ := second.told number member checker found
        cases answered.symm.trans answered'
        rw [there, there']
    · rw [first.untold number member, second.untold number member]
  exact Watch.ext (first.grid.trans second.grid.symm) checkers (first.gate.trans second.gate.symm)

end Watch

namespace World

def watch (world : World CellOccupier) : Watch MemoryGrid :=
  ⟨world.grid, world.tiles, world.gate⟩

theorem check_watch (world : World CellOccupier) (number : Nat) :
    (world.check number).map (·.2.1.watch) = world.watch.notify number := by
  unfold check Watch.notify
  rw [show world.watch.checkers[number]? = world.tiles[number]? from rfl]
  cases world.tiles[number]? with
  | none => rfl
  | some tile =>
    show Except.map _ (tile.check world.grid world.gate >>= _) =
      (tile.check world.grid world.gate >>= _)
    cases tile.check world.grid world.gate <;> rfl

/-- Checking tiles one after the other tells their checkers in this order. -/
theorem checkAll_watch (world : World CellOccupier) (numbers : List Nat) :
    (world.checkAll numbers).map (·.1.watch) = world.watch.deliver numbers := by
  induction numbers generalizing world with
  | nil => rfl
  | cons number rest ih =>
    rw [checkAll, Watch.deliver, List.foldlM_cons, ← check_watch]
    cases world.check number with
    | error fault => rfl
    | ok answered =>
      obtain ⟨_, middle, _⟩ := answered
      show Except.map _ (middle.checkAll rest >>= _) = middle.watch.deliver rest
      rw [← ih middle]
      cases middle.checkAll rest <;> rfl

theorem watch_injective {world other : World CellOccupier} (same : world.watch = other.watch) :
    world = other := by
  cases world
  cases other
  cases same
  rfl

end World

/-- When liquid changes, it does not matter in which order or how often checkers are told, only
which of them are: if no question to the grid fails, all checkers and their occupiers, the grid
and the gate are the same afterwards. This is so on every grid, and for the tiles of a world. -/
theorem notification_order_irrelevant {one two : List Nat}
    (same : ∀ number, number ∈ one ↔ number ∈ two) :
    (∀ (γ : Type) [GridService γ] (watch last : Watch γ), watch.deliver one = .ok last →
      watch.deliver two = .ok last ∧ Watch.Told one watch last) ∧
    ∀ (world last : World CellOccupier) (log : Log), world.checkAll one = .ok (last, log) →
      ∃ log', world.checkAll two = .ok (last, log') := by
  have delivered (γ : Type) [GridService γ] (watch last : Watch γ)
      (done : watch.deliver one = .ok last) : watch.deliver two = .ok last := by
    have told := Watch.told_deliver done
    have again : Watch.Told two watch last := told.congr fun number => (same number).symm
    obtain ⟨other, reached⟩ := Watch.deliver_isOk again.answered
    rw [reached, (Watch.told_deliver reached).unique again]
  refine ⟨fun γ _ watch last done => ⟨delivered γ watch last done, Watch.told_deliver done⟩, ?_⟩
  intro world last log done
  have reached := world.checkAll_watch one
  rw [done] at reached
  have other := world.checkAll_watch two
  rw [delivered MemoryGrid world.watch last.watch reached.symm] at other
  obtain ⟨⟨after, log'⟩, told, there⟩ := map_eq_ok other
  cases World.watch_injective there
  exact ⟨log', told⟩

/-- A body that fails at once. -/
def popBody : Body := ⟨"pop", [⟨.pop, .none, []⟩], 0⟩

/-- Liquid above the first of three tiles and left of the second, which faults when it spawns, but
not beside the third; the gate has been opened. -/
def pool : World CellOccupier where
  grid := smallGrid [7]
  tiles :=
    [⟨1, .ofBody (guardedSpawnBody defaultHook), .none, 4, false⟩,
      ⟨2, .ofBody popBody, .none, 8, false⟩,
      ⟨3, .ofBody (guardedSpawnBody defaultHook), .none, 0, false⟩]
  gate := ⟨true, 1⟩

/-- Told in another order and some of them again, the tiles stand the same. -/
theorem pool_told_in_any_order :
    (∀ number, number ∈ [0, 1, 2] ↔ number ∈ [2, 1, 0, 1, 1]) ∧
      ∃ last, pool.watch.deliver [0, 1, 2] = .ok last ∧
        pool.watch.deliver [2, 1, 0, 1, 1] = .ok last ∧ last.gate = ⟨false, 1⟩ ∧
        last.checkers.map (·.active) = [true, true, false] ∧
        last.checkers.map (·.occupier.lastFault) = [none, some (.stackUnderflow 0 .pop), none] := by
  have same : ∀ number, number ∈ [0, 1, 2] ↔ number ∈ [2, 1, 0, 1, 1] := by
    intro number
    simp only [List.mem_cons, List.not_mem_nil, or_false]
    tauto
  have ends : (pool.watch.deliver [0, 1, 2]).toOption.map (fun last =>
      (last.gate, last.checkers.map (·.active), last.checkers.map (·.occupier.lastFault))) =
        some (⟨false, 1⟩, [true, true, false], [none, some (.stackUnderflow 0 .pop), none]) := by
    decide
  refine ⟨same, ?_⟩
  cases done : pool.watch.deliver [0, 1, 2] with
  | error fault =>
    rw [done] at ends
    cases ends
  | ok last =>
    rw [done] at ends
    simp only [Except.toOption, Option.map_some, Option.some.injEq, Prod.mk.injEq] at ends
    obtain ⟨gate, active, faults⟩ := ends
    obtain ⟨delivered, _⟩ := notification_order_irrelevant same
    exact ⟨last, rfl, (delivered MemoryGrid pool.watch last done).1, gate, active, faults⟩

end SpawnGuard
