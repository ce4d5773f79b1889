import Mathlib.Data.List.Nodup
import SpawnGuard.Proofs.GridCells

/-!
The handles of a grid: what is given back with one, and what is counted of it.
-/
namespace SpawnGuard.MemoryGrid

variable {grid : MemoryGrid} {handle : Nat}

def handles (grid : MemoryGrid) : List Nat := grid.registrations.map (·.1)

@[simp] theorem width_free (grid : MemoryGrid) (entry : GridEntry) :
    (grid.free entry).width = grid.width := by
  obtain ⟨_, _, freed⟩ := grid.free_eq entry
  rw [freed]

@[simp] theorem height_free (grid : MemoryGrid) (entry : GridEntry) :
    (grid.free entry).height = grid.height := by
  obtain ⟨_, _, freed⟩ := grid.free_eq entry
  rw [freed]

@[simp] theorem wet_free (grid : MemoryGrid) (entry : GridEntry) :
    (grid.free entry).wet = grid.wet := by
  obtain ⟨_, _, freed⟩ := grid.free_eq entry
  rw [freed]

@[simp] theorem nextHandle_free (grid : MemoryGrid) (entry : GridEntry) :
    (grid.free entry).nextHandle = grid.nextHandle := by
  obtain ⟨_, _, freed⟩ := grid.free_eq entry
  rw [freed]

theorem Tabled.free (tabled : grid.Tabled) (entry : GridEntry) : (grid.free entry).Tabled := by
  obtain ⟨_, _, freed⟩ := grid.free_eq entry
  rw [freed]
  exact ⟨tabled.area, tabled.size⟩

theorem free_of_mem (live : handle ∈ grid.handles) :
    grid.free (.ofHandle handle) =
      { grid with
        registrations := grid.registrations.filter (·.1 ≠ handle)
        released := grid.released + 1 } := by
  refine if_pos ?_
  simpa [handles] using live

theorem free_of_notMem (gone : handle ∉ grid.handles) : grid.free (.ofHandle handle) = grid := by
  refine if_neg ?_
  simpa [handles] using gone

theorem registrations_free (grid : MemoryGrid) (handle : Nat) :
    (grid.free (.ofHandle handle)).registrations =
      grid.registrations.filter (·.1 ≠ handle) := by
  by_cases live : handle ∈ grid.handles
  · rw [free_of_mem live]
  · rw [free_of_notMem live, eq_comm, List.filter_eq_self]
    intro entry listed
    rw [decide_eq_true_iff]
    rintro rfl
    exact live (List.mem_map_of_mem listed)

theorem handles_free_sublist (grid : MemoryGrid) (entry : GridEntry) :
    (grid.free entry).handles.Sublist grid.handles := by
  obtain ⟨none | handle⟩ := entry
  · exact .refl _
  · show (grid.free (.ofHandle handle)).handles.Sublist grid.handles
    rw [handles, registrations_free]
    exact List.filter_sublist.map Prod.fst

theorem length_filter_handle (apart : grid.handles.Nodup) (live : handle ∈ grid.handles) :
    (grid.registrations.filter (·.1 ≠ handle)).length + 1 = grid.registrations.length := by
  have erased := List.length_erase_add_one live
  rw [apart.erase_eq_filter, handles, List.filter_map, List.length_map, List.length_map] at erased
  have same : grid.registrations.filter (·.1 ≠ handle) =
      grid.registrations.filter ((· != handle) ∘ (·.1)) :=
    List.filter_congr fun entry _ => Bool.eq_iff_iff.mpr (by simp)
  rw [same]
  exact erased

/-- Nothing is lost by a free: what no longer stands is counted as released. -/
theorem length_free (apart : grid.handles.Nodup) (entry : GridEntry) :
    (grid.free entry).registrations.length + (grid.free entry).released =
      grid.registrations.length + grid.released := by
  obtain ⟨none | handle⟩ := entry
  · rfl
  show (grid.free (.ofHandle handle)).registrations.length +
    (grid.free (.ofHandle handle)).released = _
  by_cases live : handle ∈ grid.handles
  · have fewer := length_filter_handle apart live
    rw [free_of_mem live]
    show (grid.registrations.filter _).length + (grid.released + 1) = _
    omega
  · rw [free_of_notMem live]

end SpawnGuard.MemoryGrid
