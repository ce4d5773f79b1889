import Mathlib.Tactic.Linarith
import SpawnGuard.Proofs.Answers
import SpawnGuard.Tile.MemoryGrid

/-!
Cells of a grid by column and row: which index a cell has, which cells are wet, and who hears of a
change to one. What an answer of a grid says is said as long as no word overflows.
-/
namespace SpawnGuard

/-- An answer is as said, unless a word overflowed on the way to it. -/
def OrOverflow {α : Type} (said : α → Prop) : Except GridFault α → Prop
  | .ok value => said value
  | .error (.overflow _) => True
  | .error (.outOfTable _ _) => False

namespace OrOverflow

variable {α β : Type} {said : α → Prop} {answer : Except GridFault α}

theorem mono (holds : OrOverflow said answer) {less : α → Prop}
    (implies : ∀ value, said value → less value) : OrOverflow less answer := by
  cases answer with
  | ok value => exact implies value holds
  | error fault => cases fault <;> exact holds

theorem bind (holds : OrOverflow said answer) {next : α → Except GridFault β} {last : β → Prop}
    (onward : ∀ value, said value → OrOverflow last (next value)) :
    OrOverflow last (answer >>= next) := by
  cases answer with
  | ok value => exact onward value holds
  | error fault => cases fault <;> exact holds

theorem ofWord {word : Except Overflow α} (holds : ∀ value, word = .ok value → said value) :
    OrOverflow said (GridFault.ofWord word) := by
  cases word with
  | ok value => exact holds value rfl
  | error operation => trivial

end OrOverflow

namespace Extents

/-- The points of a rectangle; its far edges are outside. -/
def Covers (extents : Extents) (point : Point) : Prop :=
  extents.x.toInt ≤ point.x.toInt ∧ point.x.toInt < extents.x.toInt + extents.width.toInt ∧
    extents.y.toInt ≤ point.y.toInt ∧ point.y.toInt < extents.y.toInt + extents.height.toInt

instance (extents : Extents) (point : Point) : Decidable (extents.Covers point) :=
  inferInstanceAs (Decidable (_ ∧ _))

/-- The far edges of a rectangle are words. -/
def Fits (extents : Extents) : Prop :=
  Word.Fits (extents.x.toInt + extents.width.toInt) ∧
    Word.Fits (extents.y.toInt + extents.height.toInt)

instance (extents : Extents) : Decidable extents.Fits := inferInstanceAs (Decidable (_ ∧ _))

theorem covers_of_contains {extents : Extents} {point : Point} {inside : Bool}
    (answered : extents.contains point = .ok inside) : inside = true ↔ extents.Covers point := by
  unfold contains at answered
  unfold Covers
  split at answered
  · rename_i before
    rw [Int32.lt_iff_toInt_lt] at before
    cases answered
    simp only [Bool.false_eq_true, false_iff]
    omega
  rename_i near
  rw [Int32.lt_iff_toInt_lt] at near
  obtain ⟨right, added, answered⟩ := bind_eq_ok answered
  have rightEdge := Word.checked_eq_ok.mp added
  split at answered
  · rename_i behind
    rw [Int32.lt_iff_toInt_lt] at behind
    cases answered
    simp only [Bool.false_eq_true, false_iff]
    omega
  rename_i beside
  rw [Int32.lt_iff_toInt_lt] at beside
  split at answered
  · rename_i below
    rw [Int32.lt_iff_toInt_lt] at below
    cases answered
    simp only [Bool.false_eq_true, false_iff]
    omega
  rename_i level
  rw [Int32.lt_iff_toInt_lt] at level
  obtain ⟨top, added, answered⟩ := bind_eq_ok answered
  have topEdge := Word.checked_eq_ok.mp added
  cases answered
  rw [decide_eq_true_iff, Int32.lt_iff_toInt_lt]
  omega

theorem contains_eq {extents : Extents} (fits : extents.Fits) (point : Point) :
    extents.contains point = .ok (decide (extents.Covers point)) := by
  have answered : ∃ inside, extents.contains point = .ok inside := by
    have right : Word.add extents.x extents.width = .ok _ := if_pos fits.1
    have top : Word.add extents.y extents.height = .ok _ := if_pos fits.2
    simp only [contains, right, top, bind, Except.bind]
    split_ifs <;> exact ⟨_, rfl⟩
  obtain ⟨inside, answered⟩ := answered
  rw [answered]
  refine congrArg Except.ok (Bool.eq_iff_iff.mpr ?_)
  rw [decide_eq_true_iff, covers_of_contains answered]

end Extents

namespace MemoryGrid

/-- There is a place in the table for each cell. -/
structure Tabled (grid : MemoryGrid) : Prop where
  area : Word.Fits (grid.width.toInt * grid.height.toInt)
  size : (grid.size : Int) = grid.width.toInt * grid.height.toInt

/-- Both sides are positive, and there is a place in the table for each cell. -/
structure Sound (grid : MemoryGrid) : Prop where
  wide : 0 < grid.width.toInt
  high : 0 < grid.height.toInt
  area : Word.Fits (grid.width.toInt * grid.height.toInt)
  size : (grid.size : Int) = grid.width.toInt * grid.height.toInt

theorem Sound.tabled {grid : MemoryGrid} (sound : grid.Sound) : grid.Tabled :=
  ⟨sound.area, sound.size⟩

/-- The cells of a grid, by their index. -/
def Valid (grid : MemoryGrid) (cell : Cell) : Prop :=
  0 ≤ cell.toInt ∧ cell.toInt < grid.width.toInt * grid.height.toInt

instance (grid : MemoryGrid) (cell : Cell) : Decidable (grid.Valid cell) :=
  inferInstanceAs (Decidable (_ ∧ _))

def Inside (grid : MemoryGrid) (x y : Int) : Prop :=
  0 ≤ x ∧ x < grid.width.toInt ∧ 0 ≤ y ∧ y < grid.height.toInt

/-- The cells that have one of the grid on either side. -/
def Interior (grid : MemoryGrid) (x y : Int) : Prop :=
  1 ≤ x ∧ x ≤ grid.width.toInt - 2 ∧ 0 ≤ y ∧ y < grid.height.toInt

instance (grid : MemoryGrid) (x y : Int) : Decidable (grid.Interior x y) :=
  inferInstanceAs (Decidable (_ ∧ _))

/-- Whether the cell in some column and row is wet; outside the grid all is dry. -/
def WetAt (grid : MemoryGrid) (x y : Int) : Prop :=
  grid.Inside x y ∧ Int32.ofInt (y * grid.width.toInt + x) ∈ grid.wet

/-- Liquid above, left or right of a place. -/
def NearLiquid (grid : MemoryGrid) (x y : Int) : Prop :=
  grid.WetAt x (y + 1) ∨ grid.WetAt (x - 1) y ∨ grid.WetAt (x + 1) y

/-- Whether an index is one of a wet cell. -/
def Wet (grid : MemoryGrid) (index : Int) : Prop :=
  0 ≤ index ∧ index < grid.width.toInt * grid.height.toInt ∧ Int32.ofInt index ∈ grid.wet

variable {grid : MemoryGrid} {cell : Cell} {x y : Int}

private theorem max_zero_of_nonneg {a : Int32} (nonneg : 0 ≤ a.toInt) : max a 0 = a := by
  rcases Int.lt_or_eq_of_le nonneg with positive | zero
  · have above : ¬ a ≤ 0 := by
      rw [Int32.le_iff_toInt_le]
      exact Int.not_le.mpr positive
    exact if_neg above
  · rw [Int32.toInt_inj.mp (show a.toInt = (0 : Int32).toInt from zero.symm)]
    rfl

theorem ofSides_eq_ok {width height : Int32} (wide : 0 ≤ width.toInt) (high : 0 ≤ height.toInt) :
    ofSides width height = .ok grid ↔ Word.Fits (width.toInt * height.toInt) ∧
      grid = ⟨width, height, (width.toInt * height.toInt).toNat, [], [], 1, 0⟩ := by
  unfold ofSides
  rw [max_zero_of_nonneg wide, max_zero_of_nonneg high]
  constructor
  · intro made
    obtain ⟨cells, multiplied, made⟩ := bind_eq_ok made
    have area := Word.checked_eq_ok.mp multiplied
    cases made
    exact ⟨area ▸ Word.fits_toInt cells, by rw [area]⟩
  · rintro ⟨fits, rfl⟩
    have multiplied : Word.mul width height = .ok (Int32.ofInt (width.toInt * height.toInt)) :=
      if_pos fits
    rw [multiplied]
    show Except.ok _ = Except.ok _
    rw [Word.toInt_ofInt fits]

theorem tabled_ofSides {width height : Int32} (wide : 0 ≤ width.toInt) (high : 0 ≤ height.toInt)
    (made : ofSides width height = .ok grid) : grid.Tabled := by
  obtain ⟨fits, rfl⟩ := (ofSides_eq_ok wide high).mp made
  exact ⟨fits, Int.toNat_of_nonneg (Int.mul_nonneg wide high)⟩

theorem sound_ofSides {width height : Int32} (wide : 0 < width.toInt) (high : 0 < height.toInt)
    (made : ofSides width height = .ok grid) : grid.Sound := by
  have tabled := tabled_ofSides (by omega) (by omega) made
  obtain ⟨fits, rfl⟩ := (ofSides_eq_ok (by omega) (by omega)).mp made
  exact ⟨wide, high, fits, tabled.size⟩

theorem cellOf_said (grid : MemoryGrid) (x y : Int32) :
    OrOverflow (fun cell => cell.toInt = y.toInt * grid.width.toInt + x.toInt)
      (grid.cellOf x y) := by
  refine OrOverflow.ofWord fun cell answered => ?_
  obtain ⟨start, multiplied, added⟩ := bind_eq_ok answered
  rw [Word.checked_eq_ok.mp added, Word.checked_eq_ok.mp multiplied]

theorem index_nonneg_iff (left : 0 ≤ x) (right : x < grid.width.toInt) :
    0 ≤ y * grid.width.toInt + x ↔ 0 ≤ y := by
  constructor
  · intro inside
    by_contra below
    nlinarith
  · intro inside
    nlinarith

theorem index_lt_area_iff (left : 0 ≤ x) (right : x < grid.width.toInt) :
    y * grid.width.toInt + x < grid.width.toInt * grid.height.toInt ↔ y < grid.height.toInt := by
  constructor
  · intro inside
    by_contra above
    nlinarith
  · intro inside
    nlinarith

theorem wet_iff_wetAt (left : 0 ≤ x) (right : x < grid.width.toInt) :
    grid.Wet (y * grid.width.toInt + x) ↔ grid.WetAt x y := by
  unfold Wet WetAt Inside
  rw [index_nonneg_iff left right, index_lt_area_iff left right]
  simp only [left, right, true_and, and_assoc]

theorem toInt_index (sound : grid.Sound) (inside : grid.Inside x y) :
    (Int32.ofInt (y * grid.width.toInt + x)).toInt = y * grid.width.toInt + x := by
  obtain ⟨left, right, bottom, top⟩ := inside
  have low := (index_nonneg_iff left right).mpr bottom
  have high := (index_lt_area_iff left right).mpr top
  obtain ⟨_, most⟩ := sound.area
  exact Word.toInt_ofInt ⟨by omega, by omega⟩

/-- Where a cell lies in rows of some width: its column and its row. Without columns all cells lie
at the origin. -/
def LiesAt (width : Int32) (cell : Cell) (point : Point) : Prop :=
  if 0 < width.toInt then
    0 ≤ point.x.toInt ∧ point.x.toInt < width.toInt ∧
      cell.toInt = point.y.toInt * width.toInt + point.x.toInt
  else point.x.toInt = 0 ∧ point.y.toInt = 0

instance (width : Int32) (cell : Cell) (point : Point) : Decidable (LiesAt width cell point) :=
  inferInstanceAs (Decidable (ite _ _ _))

/-- One index has one column and one row. -/
theorem column_row_unique {width : Int} {column row : Int} (left : 0 ≤ x) (right : x < width)
    (first : 0 ≤ column) (last : column < width) (same : y * width + x = row * width + column) :
    x = column ∧ y = row := by
  have columns : x = column := by
    have rests := congrArg (· % width) same
    simpa only [Int.mul_add_emod_self_right, Int.emod_eq_of_lt left right,
      Int.emod_eq_of_lt first last] using rests
  refine ⟨columns, ?_⟩
  rw [columns, Int.add_left_inj] at same
  exact Int.eq_of_mul_eq_mul_right (ne_of_gt (first.trans_lt last)) same

theorem LiesAt.unique {width : Int32} {point other : Point} (lies : LiesAt width cell point)
    (again : LiesAt width cell other) : point = other := by
  unfold LiesAt at lies again
  have same : point.x.toInt = other.x.toInt ∧ point.y.toInt = other.y.toInt := by
    split at lies
    · rename_i wide
      rw [if_pos wide] at again
      obtain ⟨left, right, index⟩ := lies
      obtain ⟨first, last, other⟩ := again
      exact column_row_unique left right first last (index.symm.trans other)
    · rename_i flat
      rw [if_neg flat] at again
      exact ⟨lies.1.trans again.1.symm, lies.2.trans again.2.symm⟩
  obtain ⟨x, y⟩ := point
  obtain ⟨otherX, otherY⟩ := other
  exact congrArg₂ Point.mk (Int32.toInt_inj.mp same.1) (Int32.toInt_inj.mp same.2)

/-- The rows of a cell are no further from the origin than the cell itself. -/
private theorem fits_row (cell : Cell) {width : Int} (wide : 0 < width) :
    Word.Fits (cell.toInt / width) := by
  obtain ⟨low, high⟩ := Word.fits_toInt cell
  have rest := Int.emod_nonneg cell.toInt (ne_of_gt wide)
  have least := Int.emod_lt_of_pos cell.toInt wide
  have split := Int.mul_ediv_add_emod cell.toInt width
  constructor <;> nlinarith

/-- The grid finds each cell where it lies, also those outside. -/
theorem liesAt_pointOf (grid : MemoryGrid) (cell : Cell) :
    LiesAt grid.width cell (grid.pointOf cell) := by
  unfold LiesAt pointOf
  have sign : grid.width ≤ 0 ↔ grid.width.toInt ≤ 0 := Int32.le_iff_toInt_le
  by_cases flat : grid.width ≤ 0
  · have narrow : ¬ 0 < grid.width.toInt := Int.not_lt.mpr (sign.mp flat)
    rw [if_pos flat, if_neg narrow]
    exact ⟨rfl, rfl⟩
  · have wide : 0 < grid.width.toInt := Int.not_le.mp (mt sign.mpr flat)
    have low := Int.emod_nonneg cell.toInt (ne_of_gt wide)
    have high := Int.emod_lt_of_pos cell.toInt wide
    have widest := (Word.fits_toInt grid.width).2
    rw [if_neg flat, if_pos wide, Word.toInt_ofInt ⟨by omega, by omega⟩,
      Word.toInt_ofInt (fits_row cell wide), Int.mul_comm]
    exact ⟨low, high, (Int.mul_ediv_add_emod _ _).symm⟩

theorem pointOf_index (inside : grid.Inside x y)
    (index : cell.toInt = y * grid.width.toInt + x) :
    (grid.pointOf cell).x.toInt = x ∧ (grid.pointOf cell).y.toInt = y := by
  obtain ⟨left, right, bottom, top⟩ := inside
  have lies := grid.liesAt_pointOf cell
  unfold LiesAt at lies
  rw [if_pos (by omega)] at lies
  obtain ⟨first, last, found⟩ := lies
  exact column_row_unique first last left right (found.symm.trans index)

theorem isValid_eq (tabled : grid.Tabled) (cell : Cell) :
    grid.isValid cell = .ok (decide (grid.Valid cell)) := by
  unfold isValid Valid
  have sign : cell < 0 ↔ cell.toInt < 0 := Int32.lt_iff_toInt_lt
  by_cases negative : cell < 0
  · rw [if_pos negative]
    simp [Int.not_le.mpr (sign.mp negative)]
  · have above : 0 ≤ cell.toInt := Int.not_lt.mp (mt sign.mpr negative)
    have area : Word.mul grid.width grid.height =
        .ok (Int32.ofInt (grid.width.toInt * grid.height.toInt)) := if_pos tabled.area
    rw [if_neg negative, area]
    show Except.ok _ = Except.ok _
    simp only [Int32.lt_iff_toInt_lt, Word.toInt_ofInt tabled.area, above, true_and]

theorem tableIndex_eq (tabled : grid.Tabled) (valid : grid.Valid cell) :
    grid.tableIndex cell = .ok cell.toInt.toNat := by
  have size := tabled.size
  obtain ⟨low, inside⟩ := valid
  exact if_pos (by omega)

theorem isLiquid_eq (tabled : grid.Tabled) (cell : Cell) :
    grid.isLiquid cell = .ok (decide (grid.Valid cell ∧ cell ∈ grid.wet)) := by
  unfold isLiquid
  rw [isValid_eq tabled]
  by_cases valid : grid.Valid cell
  · rw [decide_eq_true valid]
    show (grid.tableIndex cell >>= _) = _
    rw [tableIndex_eq tabled valid]
    show Except.ok _ = Except.ok _
    simp only [valid, true_and]
  · have dry : ¬ (grid.Valid cell ∧ cell ∈ grid.wet) := fun both => valid both.1
    rw [decide_eq_false valid, decide_eq_false dry]
    rfl

theorem wet_iff_valid : grid.Wet cell.toInt ↔ grid.Valid cell ∧ cell ∈ grid.wet := by
  unfold Wet Valid
  rw [Int32.ofInt_toInt, and_assoc]

/-- An owner hears of a change at a point through a registration that covers it. -/
def Hears (registrations : List (Nat × Registration)) (layer : Layer) (point : Point)
    (owner : Owner) : Prop :=
  ∃ entry ∈ registrations, entry.2.layer = layer ∧ entry.2.extents.Covers point ∧
    entry.2.owner = owner

theorem interested_said (layer : Layer) (point : Point)
    (registrations : List (Nat × Registration)) :
    OrOverflow (fun owners => ∀ owner, owner ∈ owners ↔ Hears registrations layer point owner)
      (interested layer point registrations) := by
  unfold Hears
  induction registrations with
  | nil => exact fun owner => by simp
  | cons entry rest ih =>
    obtain ⟨handle, registration⟩ := entry
    unfold interested
    split
    · rename_i same
      refine (OrOverflow.ofWord fun inside => Extents.covers_of_contains).bind ?_
      intro inside covers
      refine ih.bind fun owners heard owner => ?_
      cases inside with
      | true => simp [heard, same, covers.mp, eq_comm]
      | false => simp [heard, ← covers]
    · rename_i other
      refine ih.mono fun owners heard owner => ?_
      simp [heard, other]

/-- Where no rectangle overflows, the owners that hear of a change at a point are told, one for each
registration and in their order. -/
theorem interested_eq (layer : Layer) (point : Point) {registrations : List (Nat × Registration)}
    (fits : ∀ entry ∈ registrations, entry.2.extents.Fits) :
    interested layer point registrations =
      .ok ((registrations.filter fun entry =>
        entry.2.layer = layer ∧ entry.2.extents.Covers point).map (·.2.owner)) := by
  induction registrations with
  | nil => rfl
  | cons entry rest ih =>
    obtain ⟨handle, registration⟩ := entry
    have answered := ih fun entry later => fits entry (List.mem_cons_of_mem _ later)
    have inside := Extents.contains_eq (fits _ List.mem_cons_self) point
    unfold interested
    by_cases same : registration.layer = layer
    · rw [if_pos same, inside, answered]
      by_cases covers : registration.extents.Covers point
      · simp [GridFault.ofWord, Except.mapError, bind, Except.bind, same, covers]
      · simp [GridFault.ofWord, Except.mapError, bind, Except.bind, covers]
    · rw [if_neg same, answered]
      simp [same]

theorem setLiquid_eq (tabled : grid.Tabled) (valid : grid.Valid cell) (liquid : Bool) :
    grid.setLiquid cell liquid =
      (grid.listeners cell .liquid).map fun owners => (owners, grid.pour cell liquid) := by
  unfold setLiquid
  rw [isValid_eq tabled, decide_eq_true valid]
  show (grid.tableIndex cell >>= _) = _
  rw [tableIndex_eq tabled valid]
  show (grid.listeners cell .liquid >>= _) = _
  cases grid.listeners cell .liquid <;> rfl

theorem setLiquid_outside (tabled : grid.Tabled) (outside : ¬ grid.Valid cell) (liquid : Bool) :
    grid.setLiquid cell liquid = .ok ([], grid) := by
  unfold setLiquid
  rw [isValid_eq tabled, decide_eq_false outside]
  rfl

theorem setLiquid_eq_ok {liquid : Bool} {owners : List Owner} {after : MemoryGrid}
    (done : grid.setLiquid cell liquid = .ok (owners, after)) :
    after = grid ∨ after = grid.pour cell liquid := by
  obtain ⟨valid, _, done⟩ := bind_eq_ok done
  split at done
  · obtain ⟨index, _, done⟩ := bind_eq_ok done
    obtain ⟨heard, _, done⟩ := bind_eq_ok done
    cases done
    exact .inr rfl
  · cases done
    exact .inl rfl

/-- What a write does: on a cell of the grid it changes that cell and finds all who hear of it;
elsewhere it changes nothing. -/
theorem setLiquid_said (sound : grid.Sound) (cell : Cell) (liquid : Bool) :
    OrOverflow (fun answer =>
      (answer.2 = grid ∧ ∀ x y, grid.Inside x y → cell.toInt ≠ y * grid.width.toInt + x) ∨
        (answer.2 = grid.pour cell liquid ∧
          ∀ owner, owner ∈ answer.1 ↔
            Hears grid.registrations .liquid (grid.pointOf cell) owner))
      (grid.setLiquid cell liquid) := by
  by_cases valid : grid.Valid cell
  · have heard := interested_said .liquid (grid.pointOf cell) grid.registrations
    rw [setLiquid_eq sound.tabled valid]
    show OrOverflow _ ((interested _ _ _).map _)
    cases answered : interested .liquid (grid.pointOf cell) grid.registrations with
    | ok owners =>
      rw [answered] at heard
      exact .inr ⟨rfl, heard⟩
    | error fault =>
      rw [answered] at heard
      cases fault <;> exact heard
  · rw [setLiquid_outside sound.tabled valid]
    refine .inl ⟨rfl, ?_⟩
    rintro x y ⟨left, right, bottom, top⟩ index
    have low := (index_nonneg_iff left right).mpr bottom
    have high := (index_lt_area_iff left right).mpr top
    exact valid ⟨by omega, by omega⟩

@[simp] theorem mem_wet_pour_self (grid : MemoryGrid) (cell : Cell) (liquid : Bool) :
    cell ∈ (grid.pour cell liquid).wet ↔ liquid = true := by
  cases liquid <;> simp [pour]

theorem mem_wet_pour {other : Cell} (elsewhere : other ≠ cell) (liquid : Bool) :
    other ∈ (grid.pour cell liquid).wet ↔ other ∈ grid.wet := by
  cases liquid <;> simp [pour, elsewhere]

theorem wetAt_pour_of_ne (sound : grid.Sound) (liquid : Bool)
    (elsewhere : grid.Inside x y → cell.toInt ≠ y * grid.width.toInt + x) :
    (grid.pour cell liquid).WetAt x y ↔ grid.WetAt x y := by
  show grid.Inside x y ∧ _ ↔ grid.Inside x y ∧ _
  refine and_congr_right fun inside => mem_wet_pour ?_ liquid
  intro same
  have index := toInt_index sound inside
  exact elsewhere inside ((congrArg Int32.toInt same).symm.trans index)

theorem free_eq (grid : MemoryGrid) (entry : GridEntry) :
    ∃ registrations released, grid.free entry = { grid with registrations, released } := by
  unfold free
  split
  · exact ⟨_, _, rfl⟩
  · split <;> exact ⟨_, _, rfl⟩

theorem Sound.free (sound : grid.Sound) (entry : GridEntry) : (grid.free entry).Sound := by
  obtain ⟨registrations, released, freed⟩ := grid.free_eq entry
  rw [freed]
  exact ⟨sound.wide, sound.high, sound.area, sound.size⟩

theorem Sound.add (sound : grid.Sound) (name : String) (owner : Owner) (extents : Extents)
    (layer : Layer) : (grid.add name owner extents layer).2.Sound :=
  ⟨sound.wide, sound.high, sound.area, sound.size⟩

theorem nearLiquid_free (grid : MemoryGrid) (entry : GridEntry) (x y : Int) :
    (grid.free entry).NearLiquid x y ↔ grid.NearLiquid x y := by
  obtain ⟨registrations, released, freed⟩ := grid.free_eq entry
  rw [freed]
  rfl

theorem mem_registrations_free {entry : GridEntry} {handle : Nat} {registration : Registration}
    (listed : (handle, registration) ∈ grid.registrations) (kept : entry.handle? ≠ some handle) :
    (handle, registration) ∈ (grid.free entry).registrations := by
  unfold free
  split
  · exact listed
  · rename_i given entryHandle
    split
    · have other : handle ≠ given := by
        rintro rfl
        exact kept entryHandle
      simpa [other] using listed
    · exact listed

end MemoryGrid

end SpawnGuard
