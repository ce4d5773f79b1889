import SpawnGuard.Proofs.GridHandles

/-!
A grid and its ledger. The ledger holds every registration ever made, in order, with whether it
still stands, and what was last written to each cell; the grid answers as the ledger says, also
when entries are given back twice or were never given out.
-/
namespace SpawnGuard

/-- What is done with a grid. The entries that were made are kept in a row, and a free is of one
of them; a forged entry holds any handle at all. -/
inductive GridOperation where
  | add (registration : Registration)
  | forge (handle : Nat)
  | free (number : Nat)
  | setLiquid (cell : Cell) (liquid : Bool)
  deriving DecidableEq, Repr

namespace GridOperation

def isAdd : GridOperation → Bool
  | add _ => true
  | _ => false

/-- No edge of a rectangle that is added overflows. -/
def Fits : GridOperation → Prop
  | add registration => registration.extents.Fits
  | _ => True

instance (operation : GridOperation) : Decidable operation.Fits :=
  match operation with
  | add registration => inferInstanceAs (Decidable registration.extents.Fits)
  | forge _ | free _ | setLiquid _ _ => .isTrue trivial

end GridOperation

/-- A grid and the entries its users hold. -/
structure GridHost where
  grid : MemoryGrid
  entries : List GridEntry

namespace GridHost

def add (host : GridHost) (registration : Registration) : GridHost :=
  let (entry, grid) := host.grid.add registration.name registration.owner registration.extents
    registration.layer
  ⟨grid, host.entries ++ [entry]⟩

def forge (host : GridHost) (handle : Nat) : GridHost :=
  { host with entries := host.entries ++ [.ofHandle handle] }

/-- Gives an entry back and holds what is left of it. -/
def free (host : GridHost) (number : Nat) : GridHost :=
  match host.entries[number]? with
  | none => host
  | some entry =>
    let (entry, grid) := GridService.free host.grid entry
    ⟨grid, host.entries.set number entry⟩

def setLiquid (host : GridHost) (cell : Cell) (liquid : Bool) : Except GridFault GridHost := do
  let (_, grid) ← host.grid.setLiquid cell liquid
  .ok { host with grid }

def apply (host : GridHost) : GridOperation → Except GridFault GridHost
  | .add registration => .ok (host.add registration)
  | .forge handle => .ok (host.forge handle)
  | .free number => .ok (host.free number)
  | .setLiquid cell liquid => host.setLiquid cell liquid

def run (host : GridHost) (operations : List GridOperation) : Except GridFault GridHost :=
  operations.foldlM apply host

end GridHost

structure Ledger where
  adds : List (Registration × Bool)
  entries : List GridEntry
  written : Cell → Bool

namespace Ledger

def empty : Ledger := ⟨[], [], fun _ => false⟩

/-- The registrations that stand, by their numbers; `first` is the number of the first one. -/
def standing (first : Nat) : List (Registration × Bool) → List (Nat × Registration)
  | [] => []
  | (registration, true) :: rest => (first, registration) :: standing (first + 1) rest
  | (_, false) :: rest => standing (first + 1) rest

/-- The registration of a number, if there is one, stands no longer. -/
def strike (number first : Nat) : List (Registration × Bool) → List (Registration × Bool)
  | [] => []
  | (registration, stands) :: rest =>
    (registration, stands && first ≠ number) :: strike number (first + 1) rest

def add (ledger : Ledger) (registration : Registration) : Ledger :=
  { ledger with
    adds := ledger.adds ++ [(registration, true)]
    entries := ledger.entries ++ [.ofHandle (ledger.adds.length + 1)] }

def forge (ledger : Ledger) (handle : Nat) : Ledger :=
  { ledger with entries := ledger.entries ++ [.ofHandle handle] }

def free (ledger : Ledger) (number : Nat) : Ledger :=
  match ledger.entries[number]? with
  | none => ledger
  | some entry =>
    { ledger with
      adds := entry.handle?.elim ledger.adds (strike · 1 ledger.adds)
      entries := ledger.entries.set number .none }

def write (ledger : Ledger) (cell : Cell) (liquid : Bool) : Ledger :=
  { ledger with written := fun other => if other = cell then liquid else ledger.written other }

def apply (ledger : Ledger) : GridOperation → Ledger
  | .add registration => ledger.add registration
  | .forge handle => ledger.forge handle
  | .free number => ledger.free number
  | .setLiquid cell liquid => ledger.write cell liquid

def ofOperations (operations : List GridOperation) : Ledger := operations.foldl apply empty

/-- The owners of the registrations that stand on a layer and cover a point, in the order in which
they were added. -/
def owners (ledger : Ledger) (layer : Layer) (point : Point) : List Owner :=
  (ledger.adds.filter fun add =>
    add.2 ∧ add.1.layer = layer ∧ add.1.extents.Covers point).map (·.1.owner)

variable {first number : Nat} {adds : List (Registration × Bool)}

@[simp] theorem length_strike : (strike number first adds).length = adds.length := by
  fun_induction strike number first adds with
  | case1 => rfl
  | case2 first registration stands rest ih => simp [ih]

theorem mem_strike {add : Registration × Bool} (struck : add ∈ strike number first adds) :
    ∃ stood, (add.1, stood) ∈ adds := by
  fun_induction strike number first adds with
  | case1 => cases struck
  | case2 first registration stands rest ih =>
    rcases List.mem_cons.mp struck with rfl | later
    · exact ⟨stands, List.mem_cons_self⟩
    · obtain ⟨stood, before⟩ := ih later
      exact ⟨stood, List.mem_cons_of_mem _ before⟩

theorem standing_snoc (registration : Registration) :
    standing first (adds ++ [(registration, true)]) =
      standing first adds ++ [(first + adds.length, registration)] := by
  fun_induction standing first adds with
  | case1 => rfl
  | case2 first earlier rest ih | case3 first earlier rest ih =>
    simp only [List.cons_append, standing, ih, List.length_cons]
    rw [Nat.add_assoc, Nat.add_comm 1]

theorem standing_strike :
    standing first (strike number first adds) = (standing first adds).filter (·.1 ≠ number) := by
  fun_induction strike number first adds with
  | case1 => rfl
  | case2 first registration stands rest ih =>
    cases stands with
    | false => exact ih
    | true =>
      by_cases struck : first = number
      · simpa [standing, struck] using ih
      · simpa [standing, struck] using ih

theorem mem_standing {entry : Nat × Registration} (listed : entry ∈ standing first adds) :
    ∃ index, entry.1 = first + index ∧ adds[index]? = some (entry.2, true) := by
  fun_induction standing first adds with
  | case1 => cases listed
  | case2 first registration rest ih =>
    rcases List.mem_cons.mp listed with rfl | later
    · exact ⟨0, rfl, rfl⟩
    · obtain ⟨index, number, found⟩ := ih later
      exact ⟨index + 1, by omega, found⟩
  | case3 first registration rest ih =>
    obtain ⟨index, number, found⟩ := ih listed
    exact ⟨index + 1, by omega, found⟩

theorem sorted_standing : (standing first adds).Pairwise (·.1 < ·.1) := by
  fun_induction standing first adds with
  | case1 => exact .nil
  | case2 first registration rest ih =>
    refine .cons (fun entry later => ?_) ih
    obtain ⟨index, number, _⟩ := mem_standing later
    show first < entry.1
    omega
  | case3 first registration rest ih => exact ih

theorem owners_standing (layer : Layer) (point : Point) :
    ((standing first adds).filter fun entry =>
        entry.2.layer = layer ∧ entry.2.extents.Covers point).map (·.2.owner) =
      (adds.filter fun add =>
        add.2 ∧ add.1.layer = layer ∧ add.1.extents.Covers point).map (·.1.owner) := by
  fun_induction standing first adds with
  | case1 => rfl
  | case2 first registration rest ih =>
    by_cases heard : registration.layer = layer ∧ registration.extents.Covers point
    · simpa [heard] using ih
    · simpa [heard] using ih
  | case3 first registration rest ih => simpa using ih

/-- A grid of some sides stands as the ledger says. -/
structure Keeps (width height : Int32) (ledger : Ledger) (host : GridHost) : Prop where
  width : host.grid.width = width
  height : host.grid.height = height
  tabled : host.grid.Tabled
  fits : ∀ add ∈ ledger.adds, add.1.extents.Fits
  registrations : host.grid.registrations = standing 1 ledger.adds
  next : host.grid.nextHandle = ledger.adds.length + 1
  total : host.grid.registrations.length + host.grid.released = ledger.adds.length
  wet : ∀ cell, host.grid.Valid cell → (cell ∈ host.grid.wet ↔ ledger.written cell = true)
  entries : host.entries = ledger.entries

variable {width height : Int32} {ledger : Ledger} {host : GridHost}

theorem keeps_empty (wide : 0 ≤ width.toInt) (high : 0 ≤ height.toInt) {grid : MemoryGrid}
    (made : MemoryGrid.ofSides width height = .ok grid) :
    empty.Keeps width height ⟨grid, []⟩ := by
  have tabled := MemoryGrid.tabled_ofSides wide high made
  obtain ⟨_, rfl⟩ := (MemoryGrid.ofSides_eq_ok wide high).mp made
  exact ⟨rfl, rfl, tabled, by simp [empty], rfl, rfl, rfl, by simp [empty], rfl⟩

theorem Keeps.handles (kept : ledger.Keeps width height host) : host.grid.handles.Nodup := by
  rw [MemoryGrid.handles, kept.registrations]
  exact (List.pairwise_map.mpr sorted_standing).imp Nat.ne_of_lt

theorem Keeps.extents (kept : ledger.Keeps width height host) :
    ∀ entry ∈ host.grid.registrations, entry.2.extents.Fits := by
  intro entry listed
  rw [kept.registrations] at listed
  obtain ⟨index, _, found⟩ := mem_standing listed
  exact kept.fits (entry.2, true) (List.mem_of_getElem? found)

theorem Keeps.listeners (kept : ledger.Keeps width height host) {cell : Cell} {point : Point}
    (lies : MemoryGrid.LiesAt host.grid.width cell point) (layer : Layer) :
    host.grid.listeners cell layer = .ok (ledger.owners layer point) := by
  unfold MemoryGrid.listeners
  rw [(host.grid.liesAt_pointOf cell).unique lies,
    MemoryGrid.interested_eq layer _ kept.extents, kept.registrations]
  exact congrArg Except.ok (owners_standing layer point)

theorem Keeps.setLiquid (kept : ledger.Keeps width height host) {cell : Cell} {point : Point}
    (lies : MemoryGrid.LiesAt host.grid.width cell point) (valid : host.grid.Valid cell)
    (liquid : Bool) :
    host.grid.setLiquid cell liquid =
      .ok (ledger.owners .liquid point, host.grid.pour cell liquid) := by
  rw [MemoryGrid.setLiquid_eq kept.tabled valid, kept.listeners lies]
  rfl

theorem Keeps.add (kept : ledger.Keeps width height host) {registration : Registration}
    (fits : registration.extents.Fits) :
    (ledger.add registration).Keeps width height (host.add registration) := by
  refine ⟨kept.width, kept.height, ⟨kept.tabled.area, kept.tabled.size⟩, ?_, ?_, ?_, ?_,
    kept.wet, ?_⟩
  · intro add listed
    rcases List.mem_append.mp listed with old | new
    · exact kept.fits add old
    · cases List.mem_singleton.mp new
      exact fits
  · show host.grid.registrations ++ [(host.grid.nextHandle, registration)] = standing 1 _
    rw [kept.registrations, kept.next, Ledger.add, standing_snoc, Nat.add_comm 1]
  · show host.grid.nextHandle + 1 = (ledger.adds ++ [(registration, true)]).length + 1
    rw [kept.next, List.length_append]
    rfl
  · have total := kept.total
    show (host.grid.registrations ++ [(host.grid.nextHandle, registration)]).length +
      host.grid.released = (ledger.adds ++ [(registration, true)]).length
    rw [List.length_append, List.length_append]
    simp only [List.length_singleton]
    omega
  · show host.entries ++ [.ofHandle host.grid.nextHandle] = ledger.entries ++ [.ofHandle _]
    rw [kept.entries, kept.next]

theorem Keeps.forge (kept : ledger.Keeps width height host) (handle : Nat) :
    (ledger.forge handle).Keeps width height (host.forge handle) :=
  ⟨kept.width, kept.height, kept.tabled, kept.fits, kept.registrations, kept.next, kept.total,
    kept.wet, congrArg (· ++ [GridEntry.ofHandle handle]) kept.entries⟩

theorem Keeps.free (kept : ledger.Keeps width height host) (number : Nat) :
    (ledger.free number).Keeps width height (host.free number) := by
  unfold GridHost.free Ledger.free
  rw [← kept.entries]
  cases host.entries[number]? with
  | none => exact kept
  | some entry =>
    have total := MemoryGrid.length_free kept.handles entry
    obtain ⟨none | handle⟩ := entry
    · exact ⟨kept.width, kept.height, kept.tabled, kept.fits, kept.registrations, kept.next,
        kept.total, kept.wet, rfl⟩
    have left := MemoryGrid.registrations_free host.grid handle
    rw [kept.registrations, ← standing_strike] at left
    show (Ledger.mk (strike handle 1 ledger.adds) _ ledger.written).Keeps width height
      ⟨host.grid.free (.ofHandle handle), host.entries.set number .none⟩
    refine ⟨?_, ?_, kept.tabled.free (.ofHandle handle), ?_, left, ?_, ?_, ?_, rfl⟩
    · simpa using kept.width
    · simpa using kept.height
    · intro add struck
      obtain ⟨stood, before⟩ := mem_strike struck
      exact kept.fits (add.1, stood) before
    · simpa using kept.next
    · exact (total.trans kept.total).trans length_strike.symm
    · intro cell valid
      rw [MemoryGrid.Valid, MemoryGrid.width_free, MemoryGrid.height_free] at valid
      rw [MemoryGrid.wet_free]
      exact kept.wet cell valid

theorem Keeps.write (kept : ledger.Keeps width height host) (cell : Cell) (liquid : Bool) :
    ∃ after, host.setLiquid cell liquid = .ok after ∧
      (ledger.write cell liquid).Keeps width height after := by
  unfold GridHost.setLiquid
  by_cases valid : host.grid.Valid cell
  · rw [kept.setLiquid (host.grid.liesAt_pointOf cell) valid]
    refine ⟨_, rfl, kept.width, kept.height, ⟨kept.tabled.area, kept.tabled.size⟩, kept.fits,
      kept.registrations, kept.next, kept.total, ?_, kept.entries⟩
    intro other inside
    show other ∈ (host.grid.pour cell liquid).wet ↔
      (if other = cell then liquid else ledger.written other) = true
    by_cases same : other = cell
    · rw [if_pos same, same]
      exact MemoryGrid.mem_wet_pour_self host.grid cell liquid
    · rw [if_neg same, MemoryGrid.mem_wet_pour same]
      exact kept.wet other inside
  · rw [MemoryGrid.setLiquid_outside kept.tabled valid]
    refine ⟨_, rfl, kept.width, kept.height, kept.tabled, kept.fits, kept.registrations,
      kept.next, kept.total, ?_, kept.entries⟩
    intro other inside
    have elsewhere : other ≠ cell := by
      rintro rfl
      exact valid inside
    show other ∈ host.grid.wet ↔ (if other = cell then liquid else ledger.written other) = true
    rw [if_neg elsewhere]
    exact kept.wet other inside

theorem Keeps.apply (kept : ledger.Keeps width height host) {operation : GridOperation}
    (fits : operation.Fits) :
    ∃ after, host.apply operation = .ok after ∧
      (ledger.apply operation).Keeps width height after := by
  cases operation with
  | add registration => exact ⟨_, rfl, kept.add fits⟩
  | forge handle => exact ⟨_, rfl, kept.forge handle⟩
  | free number => exact ⟨_, rfl, kept.free number⟩
  | setLiquid cell liquid => exact kept.write cell liquid

theorem Keeps.run (kept : ledger.Keeps width height host) {operations : List GridOperation}
    (fit : ∀ operation ∈ operations, operation.Fits) :
    ∃ after, host.run operations = .ok after ∧
      (operations.foldl Ledger.apply ledger).Keeps width height after := by
  induction operations generalizing ledger host with
  | nil => exact ⟨host, rfl, kept⟩
  | cons operation rest ih =>
    obtain ⟨next, applied, kept⟩ := kept.apply (fit operation List.mem_cons_self)
    obtain ⟨after, ran, kept⟩ := ih kept fun later listed =>
      fit later (List.mem_cons_of_mem _ listed)
    refine ⟨after, ?_, kept⟩
    rw [GridHost.run, List.foldlM_cons, applied]
    exact ran

/-- What a grid answers and does next, by the ledger of what was done with it. A cell is wet if that
was last written to it. A write tells the owners of the registrations that stand and cover the
column and row of the cell; outside the grid it does nothing. An add gets the next number as its
handle, a handle whose registration was given back gives nothing back, and a free empties its entry
and takes off one registration or none. -/
structure Mirrors (ledger : Ledger) (host : GridHost) : Prop where
  isLiquid : ∀ cell, host.grid.isLiquid cell =
    .ok (decide (host.grid.Valid cell) && ledger.written cell)
  lies : ∀ cell, MemoryGrid.LiesAt host.grid.width cell (host.grid.pointOf cell)
  listeners : ∀ cell point, MemoryGrid.LiesAt host.grid.width cell point → ∀ layer,
    host.grid.listeners cell layer = .ok (ledger.owners layer point)
  setLiquid : ∀ cell point, MemoryGrid.LiesAt host.grid.width cell point → host.grid.Valid cell →
    ∀ liquid, ∃ after, host.grid.setLiquid cell liquid = .ok (ledger.owners .liquid point, after)
  setLiquid_outside : ∀ cell liquid, ¬ host.grid.Valid cell →
    host.grid.setLiquid cell liquid = .ok ([], host.grid)
  add : ∀ name owner extents layer,
    (host.grid.add name owner extents layer).1 = .ofHandle (ledger.adds.length + 1)
  free_struck : ∀ index registration, ledger.adds[index]? = some (registration, false) →
    host.grid.free (.ofHandle (index + 1)) = host.grid
  free : ∀ number, number < host.entries.length →
    (host.free number).entries[number]? = some .none ∧
      (host.free number).grid.registrations.Sublist host.grid.registrations ∧
      host.grid.registrations.length ≤ (host.free number).grid.registrations.length + 1
  total : host.grid.registrations.length + host.grid.released = ledger.adds.length

theorem Keeps.free_struck (kept : ledger.Keeps width height host) {index : Nat}
    {registration : Registration} (struck : ledger.adds[index]? = some (registration, false)) :
    host.grid.free (.ofHandle (index + 1)) = host.grid := by
  refine MemoryGrid.free_of_notMem ?_
  rw [MemoryGrid.handles, kept.registrations]
  intro live
  obtain ⟨entry, listed, number⟩ := List.mem_map.mp live
  obtain ⟨place, counted, found⟩ := mem_standing listed
  have same : place = index := by omega
  rw [same, struck] at found
  cases found

theorem Keeps.mirrors (kept : ledger.Keeps width height host) : ledger.Mirrors host where
  isLiquid cell := by
    rw [MemoryGrid.isLiquid_eq kept.tabled]
    by_cases valid : host.grid.Valid cell
    · simp [valid, kept.wet cell valid]
    · simp [valid]
  lies := host.grid.liesAt_pointOf
  listeners cell point := kept.listeners
  setLiquid cell point lies valid liquid := ⟨_, kept.setLiquid lies valid liquid⟩
  setLiquid_outside cell liquid outside := MemoryGrid.setLiquid_outside kept.tabled outside liquid
  add name owner extents layer := congrArg GridEntry.ofHandle kept.next
  free_struck index registration := kept.free_struck
  free number inside := by
    have held := List.getElem?_eq_getElem inside
    have emptied : (host.entries.set number .none)[number]? = some .none := by
      rw [List.getElem?_set_self inside]
    unfold GridHost.free
    rw [held]
    refine ⟨emptied, ?_⟩
    show (host.grid.free host.entries[number]).registrations.Sublist _ ∧
      _ ≤ (host.grid.free host.entries[number]).registrations.length + 1
    obtain ⟨none | handle⟩ := host.entries[number]
    · exact ⟨.refl _, Nat.le_succ _⟩
    · show (host.grid.free (.ofHandle handle)).registrations.Sublist _ ∧
        _ ≤ (host.grid.free (.ofHandle handle)).registrations.length + 1
      rw [MemoryGrid.registrations_free]
      refine ⟨List.filter_sublist, ?_⟩
      by_cases live : handle ∈ host.grid.handles
      · exact (MemoryGrid.length_filter_handle kept.handles live).ge
      · rw [← MemoryGrid.registrations_free, MemoryGrid.free_of_notMem live]
        exact Nat.le_succ _
  total := kept.total

theorem length_adds (operations : List GridOperation) :
    (operations.foldl apply ledger).adds.length =
      ledger.adds.length + operations.countP GridOperation.isAdd := by
  induction operations generalizing ledger with
  | nil => rfl
  | cons operation rest ih =>
    rw [List.foldl_cons, ih, List.countP_cons]
    cases operation with
    | add registration => simp [apply, add, GridOperation.isAdd]; omega
    | forge handle | setLiquid cell liquid => rfl
    | free number =>
      have same : (ledger.free number).adds.length = ledger.adds.length := by
        unfold free
        split
        · rfl
        · rename_i entry _
          obtain ⟨none | handle⟩ := entry
          · rfl
          · exact length_strike
      exact congrArg (· + _) same

end Ledger

/-- A grid is what its ledger says. Whatever is added, given back, forged and written on a grid
without negative sides, as long as no rectangle overflows, no operation fails, and from then on
the grid answers by the ledger; as many registrations as were added stand or are released. -/
theorem grid_mirrors_ledger {width height : Int32} (wide : 0 ≤ width.toInt)
    (high : 0 ≤ height.toInt) {grid : MemoryGrid}
    (made : MemoryGrid.ofSides width height = .ok grid) {operations : List GridOperation}
    (fit : ∀ operation ∈ operations, operation.Fits) :
    ∃ host, GridHost.run ⟨grid, []⟩ operations = .ok host ∧
      host.grid.width = width ∧ host.grid.height = height ∧
      (Ledger.ofOperations operations).Mirrors host ∧
      host.grid.registrations.length + host.grid.released =
        operations.countP GridOperation.isAdd := by
  obtain ⟨host, ran, kept⟩ := (Ledger.keeps_empty wide high made).run fit
  refine ⟨host, ran, kept.width, kept.height, kept.mirrors, ?_⟩
  rw [kept.total, Ledger.length_adds]
  exact Nat.zero_add _

/-- Two owners beside each other; the first one gives its registration back, and then a forged
entry of the same handle is given back too. -/
def shore : List GridOperation :=
  [.add ⟨"west", 7, ⟨0, 0, 3, 2⟩, .liquid⟩, .add ⟨"east", 8, ⟨1, 0, 3, 2⟩, .liquid⟩,
    .setLiquid 5 true, .free 0, .forge 1, .free 2, .setLiquid 6 true, .setLiquid 6 false]

/-- The cell 5 is wet, the cell 6 is dry again, and of both the second owner alone would hear. -/
theorem shore_mirrors_ledger :
    0 ≤ (4 : Int32).toInt ∧ 0 ≤ (3 : Int32).toInt ∧
      MemoryGrid.ofSides 4 3 = .ok ⟨4, 3, 12, [], [], 1, 0⟩ ∧
      (∀ operation ∈ shore, operation.Fits) ∧
      ∃ host, GridHost.run ⟨⟨4, 3, 12, [], [], 1, 0⟩, []⟩ shore = .ok host ∧
        host.grid.isLiquid 5 = .ok true ∧ host.grid.isLiquid 6 = .ok false ∧
        (∃ after, host.grid.setLiquid 5 false = .ok ([8], after)) ∧
        host.grid.free (.ofHandle 1) = host.grid ∧
        host.grid.registrations.length + host.grid.released = 2 := by
  have wide : 0 ≤ (4 : Int32).toInt := by decide
  have high : 0 ≤ (3 : Int32).toInt := by decide
  have made : MemoryGrid.ofSides 4 3 = .ok ⟨4, 3, 12, [], [], 1, 0⟩ := by decide
  have fit : ∀ operation ∈ shore, operation.Fits := by decide
  obtain ⟨host, ran, width, height, mirrors, total⟩ := grid_mirrors_ledger wide high made fit
  have valid : host.grid.Valid 5 ∧ host.grid.Valid 6 := by
    unfold MemoryGrid.Valid
    rw [width, height]
    decide
  have lies : MemoryGrid.LiesAt host.grid.width 5 ⟨1, 1⟩ := by
    rw [width]
    decide
  refine ⟨wide, high, made, fit, host, ran, ?_, ?_, ?_, ?_, total⟩
  · rw [mirrors.isLiquid, decide_eq_true valid.1]
    rfl
  · rw [mirrors.isLiquid, decide_eq_true valid.2]
    rfl
  · have heard : (Ledger.ofOperations shore).owners .liquid ⟨1, 1⟩ = [8] := by decide
    rw [← heard]
    exact mirrors.setLiquid 5 ⟨1, 1⟩ lies valid.1 false
  · exact mirrors.free_struck 0 ⟨"west", 7, ⟨0, 0, 3, 2⟩, .liquid⟩ rfl

end SpawnGuard
