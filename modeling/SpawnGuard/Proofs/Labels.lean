import Mathlib.Data.List.Basic
import SpawnGuard.Code.Body

/-!
Where the labels of a body are. The table of first places and the search for one label agree,
and a body whose labels lie below its next one has room for a fresh label.
-/
namespace SpawnGuard

namespace Instruction

theorem branchTarget_mem_mentions {ins : Instruction Label} {label : Label}
    (target : ins.branchTarget? = some label) : label ∈ ins.mentions := by
  simp [mentions, target]

end Instruction

namespace Body

/-- Every label the code mentions was given out before the next one. -/
def Numbered (body : Body) : Prop :=
  ∀ ins ∈ body.code, ∀ label ∈ ins.mentions, label.id < body.nextLabel

instance (body : Body) : Decidable body.Numbered :=
  inferInstanceAs (Decidable (∀ ins ∈ body.code, ∀ label ∈ ins.mentions, _))

private theorem lookup_noteFirst (label : Label) (table : List (Label × Nat))
    (entry : Label × Nat) :
    (noteFirst table entry).lookup label = (table.lookup label).or ([entry].lookup label) := by
  obtain ⟨key, index⟩ := entry
  unfold noteFirst
  split
  · rename_i known
    by_cases same : label = key
    · subst same
      obtain ⟨first, found⟩ := Option.isSome_iff_exists.mp known
      simp [found]
    · have other : (label == key) = false := by simpa using same
      simp [List.lookup_cons, other]
  · exact List.lookup_append

theorem lookup_foldl_noteFirst (label : Label) (entries table : List (Label × Nat)) :
    (entries.foldl noteFirst table).lookup label =
      (table.lookup label).or (entries.lookup label) := by
  induction entries generalizing table with
  | nil => simp
  | cons entry entries ih =>
    rw [List.foldl_cons, ih, lookup_noteFirst, Option.or_assoc, ← List.lookup_append]
    rfl

private theorem lookup_places (label : Label) (labels : List Label) (index : Nat) :
    (labels.map (·, index)).lookup label = if label ∈ labels then some index else none := by
  induction labels with
  | nil => rfl
  | cons head rest ih =>
    by_cases same : label = head
    · simp [same]
    · have other : (label == head) = false := by simpa using same
      simp [List.lookup_cons, other, same, ih]

private theorem lookup_entries (label : Label) (code : Code Label) (start : Nat) :
    ((code.zipIdx start).flatMap fun (ins, index) => ins.labels.map (·, index)).lookup label =
      (code.findIdx? fun ins => label ∈ ins.labels).map (· + start) := by
  induction code generalizing start with
  | nil => rfl
  | cons ins rest ih =>
    rw [List.zipIdx_cons, List.flatMap_cons, List.lookup_append, lookup_places, ih,
      List.findIdx?_cons]
    by_cases here : label ∈ ins.labels
    · simp [here]
    · simp [here, Option.map_map, Function.comp_def, Nat.add_assoc, Nat.add_comm 1]

/-- The table of first places holds what the search for a label finds. -/
theorem lookup_labelIndex (body : Body) (label : Label) :
    body.labelIndex.lookup label = body.resolve label := by
  unfold labelIndex resolve
  rw [lookup_foldl_noteFirst, lookup_entries]
  simp

section OfCode

variable {name : String} {code : Code Label} {body : Body}

private theorem foldl_max_le {labels : List Label} {least bound : Nat} :
    labels.foldl (fun top label => max top (label.id + 1)) least ≤ bound ↔
      least ≤ bound ∧ ∀ label ∈ labels, label.id < bound := by
  induction labels generalizing least with
  | nil => simp
  | cons label labels ih =>
    rw [List.foldl_cons, ih, Nat.max_le, List.forall_mem_cons, Nat.succ_le_iff, and_assoc]

/-- The next label of new code is the first past all it mentions. -/
theorem firstFree_le {bound : Nat} : firstFree code ≤ bound ↔
    ∀ ins ∈ code, ∀ label ∈ ins.mentions, label.id < bound := by
  rw [firstFree, foldl_max_le]
  simp only [Nat.zero_le, true_and, List.mem_flatMap, forall_exists_index, and_imp]
  exact ⟨fun low ins member label named => low label ins member named,
    fun low label ins member named => low ins member label named⟩

theorem ofCode_eq_ok : ofCode name code = .ok body ↔
    firstFree code < Label.limit ∧ body = ⟨name, code, firstFree code⟩ := by
  unfold ofCode
  split
  · rename_i room
    simp [room, eq_comm]
  · rename_i crowded
    simp [crowded]

theorem numbered_ofCode (built : ofCode name code = .ok body) : body.Numbered := by
  obtain ⟨_, rfl⟩ := ofCode_eq_ok.mp built
  exact firstFree_le.mp (Nat.le_refl _)

/-- Code without the two largest labels leaves one to give out. -/
theorem firstFree_lt (small : ∀ label ∈ code.flatMap Instruction.mentions,
    label.id + 2 < Label.limit) : firstFree code + 1 < Label.limit := by
  have low : firstFree code ≤ Label.limit - 2 := by
    refine firstFree_le.mpr fun ins member label named => ?_
    have below := small label (List.mem_flatMap.mpr ⟨ins, member, named⟩)
    omega
  have room : 2 ≤ Label.limit := by decide
  omega

end OfCode

end Body

end SpawnGuard
