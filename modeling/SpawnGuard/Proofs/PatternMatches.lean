import SpawnGuard.Proofs.Sites
import SpawnGuard.Tile.Occupier

/-!
What it means that a pattern stands somewhere in code, and the search for the first such place. A
pattern that asks for its first operation only once cannot overlap itself, so a tail behind code
without one is found where it begins, whatever that code ends with.
-/
namespace SpawnGuard

/-- The operand texts that pass a test; an operand without a text passes only where any does. -/
inductive OperandTest.Allows : OperandTest → Option String → Prop where
  | any (text? : Option String) : Allows .any text?
  | equals (text : String) : Allows (.equals text) (some text)
  | startsWith (start rest : String) : Allows (.startsWith start) (some (start ++ rest))
  | endsWith (rest stop : String) : Allows (.endsWith stop) (some (rest ++ stop))

private theorem exists_append_right {start text : String} :
    start.toList <+: text.toList ↔ ∃ rest, start ++ rest = text := by
  constructor
  · rintro ⟨rest, same⟩
    refine ⟨String.ofList rest, String.toList_injective ?_⟩
    rw [String.toList_append, String.toList_ofList, same]
  · rintro ⟨rest, rfl⟩
    exact ⟨rest.toList, by rw [String.toList_append]⟩

private theorem exists_append_left {stop text : String} :
    stop.toList <:+ text.toList ↔ ∃ rest, rest ++ stop = text := by
  constructor
  · rintro ⟨rest, same⟩
    refine ⟨String.ofList rest, String.toList_injective ?_⟩
    rw [String.toList_append, String.toList_ofList, same]
  · rintro ⟨rest, rfl⟩
    exact ⟨rest.toList, by rw [String.toList_append]⟩

theorem OperandTest.accepts_iff {test : OperandTest} {text? : Option String} :
    test.accepts text? = true ↔ test.Allows text? := by
  constructor
  · intro accepted
    match test, text?, accepted with
    | .any, text?, _ => exact .any text?
    | .equals wanted, some text, accepted =>
      cases of_decide_eq_true accepted
      exact .equals wanted
    | .startsWith wanted, some text, accepted =>
      obtain ⟨rest, rfl⟩ := exists_append_right.mp (List.isPrefixOf_iff_prefix.mp accepted)
      exact .startsWith wanted rest
    | .endsWith wanted, some text, accepted =>
      obtain ⟨rest, rfl⟩ := exists_append_left.mp (List.isSuffixOf_iff_suffix.mp accepted)
      exact .endsWith rest wanted
  · intro allowed
    cases allowed with
    | any => cases text? <;> rfl
    | equals text => exact decide_eq_true rfl
    | startsWith start rest =>
      exact List.isPrefixOf_iff_prefix.mpr (exists_append_right.mpr ⟨rest, rfl⟩)
    | endsWith rest stop =>
      exact List.isSuffixOf_iff_suffix.mpr (exists_append_left.mpr ⟨rest, rfl⟩)

theorem InstructionTest.accepts_iff {test : InstructionTest} {ins : Instruction Label} :
    test.accepts ins = true ↔
      ins.opcode = test.opcode ∧ test.operand.Allows ins.operand.text? := by
  rw [accepts, Bool.and_eq_true, decide_eq_true_iff, OperandTest.accepts_iff]

/-- The instruction without the labels on it; a label that it branches to stays. -/
def Instruction.unlabelled {ℓ : Type} (ins : Instruction ℓ) : Instruction ℓ :=
  { ins with labels := [] }

namespace Pattern

/-- The instructions of the code from an index on pass the tests of the pattern, one after the
other. -/
def Stands (pattern : Pattern) (code : Code Label) (index : Nat) : Prop :=
  ∀ (offset : Nat) (test : InstructionTest), pattern[offset]? = some test →
    ∃ ins, code[index + offset]? = some ins ∧
      ins.opcode = test.opcode ∧ test.operand.Allows ins.operand.text?

variable {pattern : Pattern} {code other front tail rest : Code Label} {index : Nat}

theorem Stands.lt_length (stands : pattern.Stands code index) (nonempty : pattern ≠ []) :
    index < code.length := by
  cases pattern with
  | nil => exact absurd rfl nonempty
  | cons first tests =>
    obtain ⟨ins, found, _⟩ := stands 0 first rfl
    exact (List.getElem?_eq_some_iff.mp found).1

theorem matchesAt_iff_stands (nonempty : pattern ≠ []) :
    pattern.matchesAt code index = true ↔ pattern.Stands code index := by
  rw [matchesAt_iff]
  simp only [InstructionTest.accepts_iff]
  constructor
  · exact And.right
  · intro stands
    exact ⟨Nat.le_of_lt (Stands.lt_length stands nonempty), stands⟩

theorem find?_eq_some_iff (nonempty : pattern ≠ []) :
    pattern.find? code = some index ↔
      pattern.Stands code index ∧ ∀ before < index, ¬ pattern.Stands code before := by
  simp only [find?_eq_some, ← matchesAt_iff_stands nonempty, Bool.not_eq_true, ne_eq, nonempty,
    not_false_eq_true, true_and]
  refine and_iff_right_of_imp fun found => ?_
  exact ((matchesAt_iff_stands nonempty).mp found.1).lt_length nonempty

theorem find?_eq_none_iff (nonempty : pattern ≠ []) :
    pattern.find? code = none ↔ ∀ index, ¬ pattern.Stands code index := by
  have search : pattern.find? code =
      (List.range code.length).find? fun index => pattern.matchesAt code index := by
    rw [find?, List.isEmpty_eq_false_iff.mpr nonempty, if_neg Bool.false_ne_true]
  simp only [search, List.find?_eq_none, List.mem_range, matchesAt_iff_stands nonempty]
  refine forall_congr' fun index => ⟨fun absent stands => ?_, fun absent _ => absent⟩
  exact absent (stands.lt_length nonempty) stands

theorem stands_unlabelled :
    pattern.Stands (code.map (·.unlabelled)) index ↔ pattern.Stands code index := by
  unfold Stands
  refine forall_congr' fun offset => forall_congr' fun test => imp_congr_right fun _ => ?_
  rw [List.getElem?_map]
  constructor
  · rintro ⟨_, found, passes⟩
    obtain ⟨ins, fetched, rfl⟩ := Option.map_eq_some_iff.mp found
    exact ⟨ins, fetched, passes⟩
  · rintro ⟨ins, fetched, passes⟩
    exact ⟨ins.unlabelled, by rw [fetched]; rfl, passes⟩

/-- The search gives the same answer wherever the same places are found. -/
theorem find?_congr (nonempty : pattern ≠ [])
    (same : ∀ index, pattern.Stands other index ↔ pattern.Stands code index) :
    pattern.find? other = pattern.find? code := by
  cases found : pattern.find? code with
  | none =>
    rw [find?_eq_none_iff nonempty] at found ⊢
    exact fun index stands => found index ((same index).mp stands)
  | some index =>
    rw [find?_eq_some_iff nonempty] at found ⊢
    exact ⟨(same index).mpr found.1, fun before early stands =>
      found.2 before early ((same before).mp stands)⟩

/-- The operation that the pattern asks for first is asked for nowhere behind it. -/
def LeadsOnce : Pattern → Prop
  | [] => False
  | first :: tests => ∀ test ∈ tests, test.opcode ≠ first.opcode

theorem leadsOnce_subscribeTail (event : Int32) (field method : String) :
    (subscribeTail event field method).LeadsOnce := by
  intro test member
  simp only [List.mem_cons, List.not_mem_nil, or_false] at member
  rcases member with rfl | rfl | rfl | rfl | rfl <;> exact Opcode.noConfusion

theorem LeadsOnce.ne_nil (leads : pattern.LeadsOnce) : pattern ≠ [] := by
  rintro rfl
  exact leads

theorem Stands.behind (stands : pattern.Stands tail 0) (front rest : Code Label) :
    pattern.Stands (front ++ tail ++ rest) front.length := by
  intro offset test tested
  obtain ⟨ins, found, passes⟩ := stands offset test tested
  rw [Nat.zero_add] at found
  refine ⟨ins, ?_, passes⟩
  rw [List.append_assoc, List.getElem?_append_right (Nat.le_add_right _ _),
    Nat.add_sub_cancel_left, List.getElem?_append_left (List.getElem?_eq_some_iff.mp found).1,
    found]

/-- A pattern that begins in front of a place where it stands, and leads once, ends there. -/
theorem Stands.not_reaching (leads : pattern.LeadsOnce) {place : Nat}
    (stands : pattern.Stands code place) (early : index < place)
    (reaches : place < index + pattern.length) : ¬ pattern.Stands code index := by
  intro overlap
  cases pattern with
  | nil => exact leads
  | cons first tests =>
    -- The instruction at the place is the first for one match and a later one for the other.
    obtain ⟨ins, fetched, leading, _⟩ := stands 0 first rfl
    obtain ⟨distance, rfl⟩ := Nat.exists_eq_add_of_lt early
    rw [List.length_cons] at reaches
    have inside : distance < tests.length := by omega
    obtain ⟨again, found, trailing, _⟩ := overlap (distance + 1) tests[distance]
      (List.getElem?_eq_getElem inside)
    cases fetched.symm.trans found
    exact leads _ (List.getElem_mem inside) (trailing.symm.trans leading)

theorem Stands.of_append (stands : pattern.Stands (front ++ rest) index)
    (within : index + pattern.length ≤ front.length) : pattern.Stands front index := by
  intro offset test tested
  obtain ⟨ins, found, passes⟩ := stands offset test tested
  obtain ⟨short, _⟩ := List.getElem?_eq_some_iff.mp tested
  rw [List.getElem?_append_left (by omega)] at found
  exact ⟨ins, found, passes⟩

theorem find?_behind (leads : pattern.LeadsOnce) (absent : pattern.find? front = none)
    (stands : pattern.Stands tail 0) (rest : Code Label) :
    pattern.find? (front ++ tail ++ rest) = some front.length := by
  have there := stands.behind front rest
  refine (find?_eq_some_iff leads.ne_nil).mpr ⟨there, fun before early overlap => ?_⟩
  rcases Nat.lt_or_ge front.length (before + pattern.length) with reaches | within
  · exact there.not_reaching leads early reaches overlap
  · rw [List.append_assoc] at overlap
    exact (find?_eq_none_iff leads.ne_nil).mp absent before (overlap.of_append within)

end Pattern

/-- The search gives the least index at which the pattern stands and fails only where it stands
nowhere, and the labels on instructions play no part in it. Behind code in which the tail of a
spawn method is not found, a tail is found where it begins, whatever comes after it. -/
theorem pattern_search_complete :
    (∀ (pattern : Pattern) (code : Code Label), pattern ≠ [] →
      (∀ index, pattern.find? code = some index ↔
        pattern.Stands code index ∧ ∀ before < index, ¬ pattern.Stands code before) ∧
      (pattern.find? code = none ↔ ∀ index, ¬ pattern.Stands code index) ∧
      ∀ other : Code Label, other.map (·.unlabelled) = code.map (·.unlabelled) →
        pattern.find? other = pattern.find? code) ∧
    ∀ (event : Int32) (field method : String) (front tail rest : Code Label),
      let pattern := Pattern.subscribeTail event field method
      pattern.find? front = none → pattern.Stands tail 0 →
        pattern.find? (front ++ tail ++ rest) = some front.length := by
  constructor
  · intro pattern code nonempty
    refine ⟨fun index => Pattern.find?_eq_some_iff nonempty, Pattern.find?_eq_none_iff nonempty,
      fun other same => Pattern.find?_congr nonempty fun index => ?_⟩
    rw [← Pattern.stands_unlabelled, same, Pattern.stands_unlabelled]
  · intro event field method front tail rest pattern absent stands
    exact Pattern.find?_behind (Pattern.leadsOnce_subscribeTail event field method) absent stands
      rest

/-- The end of the spawn method of the game. -/
def spawnTail : Code Label := spawnBody.code.drop 9

/-- All of the tail but its `ret`, then the whole tail: it is found where the second begins, and
the labels of the method make no difference. -/
theorem spawnTail_found_behind_broken_tail :
    repairTail ≠ [] ∧ repairTail.find? (spawnTail.take 5) = none ∧ repairTail.Stands spawnTail 0 ∧
      repairTail.find? (spawnTail.take 5 ++ spawnTail ++ [⟨.nop, .none, [⟨0⟩]⟩]) = some 5 ∧
      repairTail.find? (spawnBody.code.map (·.unlabelled)) = some 9 := by
  have nonempty : repairTail ≠ [] := List.cons_ne_nil _ _
  have absent : repairTail.find? (spawnTail.take 5) = none := by decide
  have stands : repairTail.Stands spawnTail 0 :=
    (Pattern.matchesAt_iff_stands nonempty).mp (by decide)
  obtain ⟨least, behind⟩ := pattern_search_complete
  refine ⟨nonempty, absent, stands, ?_, ?_⟩
  · exact behind repairEvent "OnBuildingRepairedDelegate" "Int32 Subscribe" (spawnTail.take 5)
      spawnTail [⟨.nop, .none, [⟨0⟩]⟩] absent stands
  · obtain ⟨_, _, unlabelled⟩ := least repairTail spawnBody.code nonempty
    rw [unlabelled _ (by rw [List.map_map]; rfl)]
    decide

end SpawnGuard
