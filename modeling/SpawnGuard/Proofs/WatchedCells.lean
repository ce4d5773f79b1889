import Mathlib.Tactic.Ring
import SpawnGuard.Proofs.GridCells
import SpawnGuard.Tile.Checker

/-!
The cells a checker looks at and the cells it watches. A registered checker hears of every write
that can change what it looks at; a check and a spawn leave it up to date.
-/
namespace SpawnGuard

namespace LiquidChecker

variable {ω : Type} {grid : MemoryGrid} {checker : LiquidChecker ω} {x y : Int}

/-- A checker in an interior column. -/
structure StandsAt (grid : MemoryGrid) (checker : LiquidChecker ω) (x y : Int) : Prop where
  interior : grid.Interior x y
  index : checker.cell.toInt = y * grid.width.toInt + x

/-- What the grid knows of a checker: a live registration of its owner for the row of the checker
and the one above, from the column on the left to the one on the right. -/
structure Registered (grid : MemoryGrid) (checker : LiquidChecker ω) (handle : Nat) (x y : Int) :
    Prop where
  stands : checker.StandsAt grid x y
  given : handle < grid.nextHandle
  listed : ∃ extents, (handle, ⟨registrationName, checker.owner, extents, .liquid⟩) ∈
    grid.registrations ∧ extents.x.toInt = x - 1 ∧ extents.y.toInt = y ∧
      extents.width.toInt = 3 ∧ extents.height.toInt = 2

theorem Registered.hears {handle : Nat} (known : checker.Registered grid handle x y)
    {point : Point} (left : x - 1 ≤ point.x.toInt) (right : point.x.toInt ≤ x + 1)
    (bottom : y ≤ point.y.toInt) (top : point.y.toInt ≤ y + 1) :
    MemoryGrid.Hears grid.registrations .liquid point checker.owner := by
  obtain ⟨extents, listed, nearX, nearY, wide, high⟩ := known.listed
  refine ⟨_, listed, rfl, ?_, rfl⟩
  show extents.Covers point
  unfold Extents.Covers
  omega

theorem Registered.free {handle : Nat} (known : checker.Registered grid handle x y)
    {entry : GridEntry} (other : entry ≠ .ofHandle handle) :
    checker.Registered (grid.free entry) handle x y := by
  obtain ⟨extents, listed, place⟩ := known.listed
  have kept : entry.handle? ≠ some handle := fun same => other (congrArg GridEntry.mk same)
  have still := MemoryGrid.mem_registrations_free listed kept
  obtain ⟨registrations, released, freed⟩ := grid.free_eq entry
  rw [freed] at still ⊢
  exact ⟨⟨known.stands.interior, known.stands.index⟩, known.given, extents, still, place⟩

theorem Registered.add {handle : Nat} (known : checker.Registered grid handle x y)
    (name : String) (owner : Owner) (extents : Extents) (layer : Layer) :
    checker.Registered (grid.add name owner extents layer).2 handle x y := by
  obtain ⟨watched, listed, place⟩ := known.listed
  exact ⟨⟨known.stands.interior, known.stands.index⟩, Nat.lt_succ_of_lt known.given, watched,
    List.mem_append_left _ listed, place⟩

/-- A write that a registered checker does not hear of leaves the liquid around it as it was. -/
theorem Registered.nearLiquid_pour {handle : Nat} (known : checker.Registered grid handle x y)
    (sound : grid.Sound) {cell : Cell} (liquid : Bool)
    (unheard : ¬ MemoryGrid.Hears grid.registrations .liquid (grid.pointOf cell) checker.owner) :
    (grid.pour cell liquid).NearLiquid x y ↔ grid.NearLiquid x y := by
  -- All of the rectangle that is watched keeps its liquid, not only the three cells looked at.
  have elsewhere (u v : Int) (left : x - 1 ≤ u) (right : u ≤ x + 1) (bottom : y ≤ v)
      (top : v ≤ y + 1) : (grid.pour cell liquid).WetAt u v ↔ grid.WetAt u v := by
    refine MemoryGrid.wetAt_pour_of_ne sound liquid fun inside index => unheard ?_
    obtain ⟨column, row⟩ := MemoryGrid.pointOf_index inside index
    exact known.hears (by omega) (by omega) (by omega) (by omega)
  unfold MemoryGrid.NearLiquid
  rw [elsewhere x (y + 1) (by omega) (by omega) (by omega) (by omega),
    elsewhere (x - 1) y (by omega) (by omega) (by omega) (by omega),
    elsewhere (x + 1) y (by omega) (by omega) (by omega) (by omega)]

theorem isWet_eq (tabled : grid.Tabled) (cell : Cell) :
    isWet grid cell = .ok (decide (grid.Valid cell ∧ cell ∈ grid.wet)) := by
  unfold isWet
  show (grid.isValid cell >>= fun valid => if valid then grid.isLiquid cell else _) = _
  rw [MemoryGrid.isValid_eq tabled, MemoryGrid.isLiquid_eq tabled]
  show (if decide _ = true then _ else _) = _
  split
  · rfl
  · rename_i outside
    rw [decide_eq_true_iff] at outside
    have dry : ¬ (grid.Valid cell ∧ cell ∈ grid.wet) := fun both => outside both.1
    rw [decide_eq_false dry]

theorem isWet_said (sound : grid.Sound) (cell : Cell) :
    OrOverflow (fun wet => wet = true ↔ grid.Wet cell.toInt) (isWet grid cell) := by
  rw [isWet_eq sound.tabled, MemoryGrid.wet_iff_valid]
  exact decide_eq_true_iff

theorem senses_said (sound : grid.Sound) (cell : Cell) :
    OrOverflow (fun active => active = true ↔
        grid.Wet (cell.toInt + grid.width.toInt) ∨ grid.Wet (cell.toInt - 1) ∨
          grid.Wet (cell.toInt + 1))
      (senses grid cell) := by
  refine (OrOverflow.ofWord fun above => Word.checked_eq_ok.mp).bind fun above aboveIndex => ?_
  rw [← aboveIndex]
  refine (isWet_said sound above).bind fun wetAbove aboveMeans => ?_
  rw [← aboveMeans]
  split
  · rename_i wet
    exact ⟨fun _ => .inl wet, fun _ => rfl⟩
  rename_i dryAbove
  refine (OrOverflow.ofWord fun left => Word.checked_eq_ok.mp).bind fun left leftIndex => ?_
  have leftIndex : left.toInt = cell.toInt - 1 := leftIndex
  rw [← leftIndex]
  refine (isWet_said sound left).bind fun wetLeft leftMeans => ?_
  rw [← leftMeans]
  split
  · rename_i wet
    exact ⟨fun _ => .inr (.inl wet), fun _ => rfl⟩
  rename_i dryLeft
  refine (OrOverflow.ofWord fun right => Word.checked_eq_ok.mp).bind fun right rightIndex => ?_
  have rightIndex : right.toInt = cell.toInt + 1 := rightIndex
  rw [← rightIndex]
  refine (isWet_said sound right).mono fun wetRight rightMeans => ?_
  rw [rightMeans]
  tauto

theorem StandsAt.wet_iff (stands : checker.StandsAt grid x y) :
    grid.Wet (checker.cell.toInt + grid.width.toInt) ∨ grid.Wet (checker.cell.toInt - 1) ∨
        grid.Wet (checker.cell.toInt + 1) ↔ grid.NearLiquid x y := by
  obtain ⟨left, right, _, _⟩ := stands.interior
  have above : checker.cell.toInt + grid.width.toInt = (y + 1) * grid.width.toInt + x := by
    rw [stands.index]
    ring
  have beside : checker.cell.toInt - 1 = y * grid.width.toInt + (x - 1) := by
    rw [stands.index]
    ring
  have behind : checker.cell.toInt + 1 = y * grid.width.toInt + (x + 1) := by
    rw [stands.index]
    ring
  rw [above, beside, behind, MemoryGrid.wet_iff_wetAt (by omega) (by omega),
    MemoryGrid.wet_iff_wetAt (by omega) (by omega), MemoryGrid.wet_iff_wetAt (by omega) (by omega)]
  rfl

variable [Occupier ω]

/-- A check leaves a checker where it is, and where it stands it is then up to date. -/
theorem check_said (sound : grid.Sound) (gate : Gate) (checker : LiquidChecker ω) :
    OrOverflow (fun checked =>
        (∃ occupier active, checked.checker = { checker with occupier, active }) ∧
          ∀ x y, checker.StandsAt grid x y →
            (checked.checker.active = true ↔ grid.NearLiquid x y))
      (checker.check grid gate) := by
  refine (senses_said sound checker.cell).bind fun active meaning => ?_
  split
  · rename_i same
    refine ⟨⟨checker.occupier, checker.active, rfl⟩, fun x y stands => ?_⟩
    show checker.active = true ↔ _
    rw [← same, meaning, stands.wet_iff]
  · refine ⟨⟨_, active, rfl⟩, fun x y stands => ?_⟩
    show active = true ↔ _
    rw [meaning, stands.wet_iff]

/-- A spawn gives the old registration back, registers the checker where it now stands, and leaves
it up to date. -/
theorem spawn_said (sound : grid.Sound) (gate : Gate) (checker : LiquidChecker ω)
    {position : Position}
    (interior : grid.Interior position.x.floorWord.toInt position.y.floorWord.toInt) :
    OrOverflow (fun answer => ∃ extents x y,
        answer.1 =
          ((grid.free checker.entry).add registrationName checker.owner extents .liquid).2 ∧
        answer.2.checker.entry = .ofHandle grid.nextHandle ∧
        answer.2.checker.Registered answer.1 grid.nextHandle x y ∧
        (answer.2.checker.active = true ↔ answer.1.NearLiquid x y))
      (checker.spawn grid gate position) := by
  have inside : grid.Inside position.x.floorWord.toInt position.y.floorWord.toInt := by
    obtain ⟨left, right, bottom, top⟩ := interior
    exact ⟨by omega, by omega, bottom, top⟩
  refine (MemoryGrid.cellOf_said grid _ _).bind fun cell index => ?_
  obtain ⟨column, row⟩ := MemoryGrid.pointOf_index inside index
  refine (OrOverflow.ofWord fun extents => id).bind fun extents chosen => ?_
  obtain ⟨west, subtracted, chosen⟩ := bind_eq_ok chosen
  have westIndex : west.toInt = (grid.pointOf cell).x.toInt - 1 :=
    Word.checked_eq_ok.mp subtracted
  cases chosen
  let extents : Extents := ⟨west, (grid.pointOf cell).y, 3, 2⟩
  let after := ((grid.free checker.entry).add registrationName checker.owner extents .liquid).2
  obtain ⟨registrations, released, freed⟩ := grid.free_eq checker.entry
  have kept : after.Sound := (sound.free checker.entry).add _ _ _ _
  have next : (grid.free checker.entry).nextHandle = grid.nextHandle := by rw [freed]
  show OrOverflow _ (check after gate
    { checker with cell, entry := .ofHandle (grid.free checker.entry).nextHandle } >>= _)
  -- The check reads the grid on which the new registration already is.
  refine (check_said kept gate _).bind ?_
  rintro checked ⟨⟨occupier, active, same⟩, current⟩
  rw [next] at same current
  have stands : ({ checker with cell, entry := .ofHandle grid.nextHandle } :
      LiquidChecker ω).StandsAt after position.x.floorWord.toInt position.y.floorWord.toInt := by
    unfold after
    rw [freed]
    exact ⟨interior, index⟩
  refine ⟨extents, _, _, rfl, congrArg LiquidChecker.entry same, ⟨?_, ?_, extents, ?_, ?_⟩,
    current _ _ stands⟩
  · show checked.checker.StandsAt after _ _
    rw [same]
    exact ⟨stands.interior, stands.index⟩
  · show grid.nextHandle < after.nextHandle
    unfold after
    rw [freed]
    exact Nat.lt_succ_self _
  · show (_, ⟨_, checked.checker.owner, _, _⟩) ∈ after.registrations
    unfold after
    rw [freed, same]
    exact List.mem_append_right _ (List.mem_singleton_self _)
  · exact ⟨westIndex.trans (by rw [column]), row, rfl, rfl⟩

end LiquidChecker

end SpawnGuard
