import Mathlib.Data.Finset.Card
import Mathlib.Data.List.TakeWhile
import SpawnGuard.Proofs.ReadBodies

/-!
Items that are met for the first time, and numbers by first appearance: an item of a list is given
the number of different items in front of the place where it is first met.
-/
namespace SpawnGuard.Listing

variable {α β : Type} [DecidableEq α]

/-- Items that differ from each other and from all that were seen before. -/
def Fresh (seen items : List α) : Prop := items.Nodup ∧ ∀ item ∈ items, item ∉ seen

omit [DecidableEq α] in
theorem fresh_nil {items : List α} : Fresh [] items ↔ items.Nodup := by
  simp [Fresh]

omit [DecidableEq α] in
theorem fresh_cons {seen rest : List α} {item : α} :
    Fresh seen (item :: rest) ↔ item ∉ seen ∧ Fresh (item :: seen) rest := by
  unfold Fresh
  rw [List.nodup_cons, List.forall_mem_cons]
  simp only [List.mem_cons, not_or]
  constructor
  · rintro ⟨⟨absent, different⟩, fresh, apart⟩
    exact ⟨fresh, different, fun other later =>
      ⟨fun same => absent (same ▸ later), apart other later⟩⟩
  · rintro ⟨fresh, different, apart⟩
    exact ⟨⟨fun later => (apart item later).1 rfl, different⟩, fresh, fun other later =>
      (apart other later).2⟩

omit [DecidableEq α] in
theorem fresh_append {seen first rest : List α} :
    Fresh seen (first ++ rest) ↔ Fresh seen first ∧ Fresh (first.reverse ++ seen) rest := by
  induction first generalizing seen with
  | nil => simp [Fresh]
  | cons item first ih => simp [fresh_cons, ih, and_assoc]

def firstNumber (items : List α) (item : α) : Nat :=
  (items.takeWhile (· ≠ item)).toFinset.card

theorem nodup_distinct (items : List α) : (distinct items).Nodup := by
  induction items with
  | nil => exact List.nodup_nil
  | cons item rest ih =>
    refine List.nodup_cons.mpr ⟨?_, ih.filter _⟩
    simp

theorem length_distinct (items : List α) : (distinct items).length = items.toFinset.card := by
  rw [← List.toFinset_card_of_nodup (nodup_distinct items)]
  congr 1
  ext item
  simp [mem_distinct]

theorem distinct_append (first rest : List α) :
    distinct (first ++ rest) = distinct first ++ (distinct rest).filter (· ∉ first) := by
  induction first with
  | nil => simp [distinct]
  | cons item first ih =>
    rw [List.cons_append, distinct, ih, List.filter_append, List.filter_filter]
    simp [distinct]

theorem firstNumber_append_cons {before : List α} {item : α} (absent : item ∉ before)
    (rest : List α) : firstNumber (before ++ item :: rest) item = before.toFinset.card := by
  have others : ∀ other ∈ before, decide (other ≠ item) = true := by
    rintro other member
    simpa using fun same : other = item => absent (same ▸ member)
  unfold firstNumber
  rw [List.takeWhile_append_of_pos others, List.takeWhile_cons_of_neg (by simp), List.append_nil]

theorem firstNumber_of_notMem {items : List α} {item : α} (absent : item ∉ items) :
    firstNumber items item = items.toFinset.card := by
  unfold firstNumber
  rw [List.takeWhile_eq_self_iff.mpr]
  intro other member
  simpa using fun same : other = item => absent (same ▸ member)

theorem idxOf_distinct (items : List α) (item : α) :
    (distinct items).idxOf item = firstNumber items item := by
  by_cases member : item ∈ items
  · obtain ⟨before, rest, rfl, absent⟩ := List.eq_append_cons_of_mem member
    rw [firstNumber_append_cons absent, distinct_append, ← length_distinct,
      List.idxOf_append_of_notMem fun inside => absent (mem_distinct.mp inside)]
    simp [distinct, absent]
  · rw [firstNumber_of_notMem member, ← length_distinct]
    exact List.idxOf_of_notMem fun inside => member (mem_distinct.mp inside)

theorem firstNumber_inj {items : List α} {item other : α} (member : item ∈ items) :
    firstNumber items item = firstNumber items other ↔ item = other := by
  rw [← idxOf_distinct, ← idxOf_distinct]
  exact List.idxOf_inj (mem_distinct.mpr member)

theorem card_map [DecidableEq β] {items : List α} {rename : α → β}
    (apart : ∀ one ∈ items, ∀ two ∈ items, rename one = rename two → one = two) :
    (items.map rename).toFinset.card = items.toFinset.card := by
  have image : (items.map rename).toFinset = items.toFinset.image rename := by
    ext item
    simp
  rw [image]
  refine Finset.card_image_of_injOn fun one here two there => ?_
  exact apart one (List.mem_toFinset.mp here) two (List.mem_toFinset.mp there)

/-- Items keep their numbers when they are renamed and stay apart. -/
theorem firstNumber_map [DecidableEq β] {items : List α} {item : α} {rename : α → β}
    (apart : ∀ one ∈ items, ∀ two ∈ items, rename one = rename two → one = two)
    (member : item ∈ items) :
    firstNumber (items.map rename) (rename item) = firstNumber items item := by
  obtain ⟨before, rest, rfl, absent⟩ := List.eq_append_cons_of_mem member
  have early {one : α} (inside : one ∈ before) : one ∈ before ++ item :: rest :=
    List.mem_append_left _ inside
  have fresh : rename item ∉ before.map rename := by
    intro met
    obtain ⟨one, inside, same⟩ := List.mem_map.mp met
    exact absent (apart one (early inside) item member same ▸ inside)
  rw [firstNumber_append_cons absent, List.map_append, List.map_cons,
    firstNumber_append_cons fresh, card_map]
  exact fun one here two there => apart one (early here) two (early there)

end SpawnGuard.Listing
