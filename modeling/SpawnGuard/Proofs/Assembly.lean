import Mathlib.Data.List.DropRight
import SpawnGuard.Proofs.FirstAppearance

/-!
Statements put together: which lists of statements assemble, and what the body then is, told
without the lines that the statements stood on.
-/
namespace SpawnGuard.Listing

def Statement.methodName? : Statement → Option String
  | .method name => some name
  | .code _ _ => none

/-- The label names of a listing in reading order, each statement's definitions before its
branch target. -/
def labelNames (statements : List Statement) : List String :=
  statements.flatMap fun statement => statement.defines ++ statement.target?.toList

/-- The labels defined since the last instruction. -/
def openLabels (before : List Statement) : List String :=
  (before.rtakeWhile (·.operation?.isNone)).flatMap (·.defines)

/-- Every definition has an instruction behind it, on its own line or on a later one. -/
def Followed (statements : List Statement) : Prop :=
  ∀ statement after, statement :: after <:+ statements → statement.defines ≠ [] →
    ∃ next ∈ statement :: after, next.operation?.isSome

variable {given : String} {numbered : List Numbered}

theorem mentions_eq_labelNames (numbered : List Numbered) :
    (mentions numbered).map (·.1) = labelNames (numbered.map (·.statement)) := by
  simp [mentions, labelNames, List.map_flatMap, List.flatMap_map, Function.comp_def]

theorem definitions_eq (numbered : List Numbered) :
    definitions numbered = (numbered.map (·.statement)).flatMap Statement.defines := by
  rw [List.flatMap_map]
  rfl

theorem methodName_eq (given : String) (numbered : List Numbered) :
    methodName given numbered =
      ((numbered.map (·.statement)).filterMap Statement.methodName?).getLast?.getD given := by
  induction numbered generalizing given with
  | nil => rfl
  | cons head rest ih =>
    obtain ⟨line, statement⟩ := head
    cases statement with
    | method name =>
      have named : Statement.methodName? (.method name) = some name := rfl
      rw [methodName, ih, List.map_cons, List.filterMap_cons_some named, List.getLast?_cons]
      rfl
    | code defines operation => exact ih given

theorem exhausting_eq_none :
    exhausting numbered = none ↔
      (labelNames (numbered.map (·.statement))).toFinset.card < Label.limit := by
  rw [← mentions_eq_labelNames, ← length_distinct]
  simp only [exhausting]
  split
  · rename_i room
    simp [room]
  · rename_i full
    -- The first name that gets no number was read somewhere.
    simp only [full, iff_false]
    intro missing
    have inside : Label.limit - 1 < (distinct ((mentions numbered).map (·.1))).length := by
      simp only [Label.limit] at full ⊢
      omega
    have member := List.getElem_mem inside
    obtain ⟨mention, written, same⟩ := List.mem_map.mp (mem_distinct.mp member)
    have different := List.find?_eq_none.mp missing mention written
    exact different (by simp [List.getElem?_eq_getElem inside, same])

theorem followed_cons {statement : Statement} {rest : List Statement} :
    Followed (statement :: rest) ↔
      (statement.defines ≠ [] → ∃ next ∈ statement :: rest, next.operation?.isSome) ∧
        Followed rest := by
  constructor
  · intro followed
    refine ⟨followed statement rest List.suffix_rfl, fun other after inside => ?_⟩
    exact followed other after (inside.trans (List.suffix_cons statement rest))
  · rintro ⟨here, later⟩ other after inside
    rcases List.suffix_cons_iff.mp inside with same | inside
    · cases same
      exact here
    · exact later other after inside

theorem dangling_eq_nil (pending : List (String × Nat)) (numbered : List Numbered) :
    dangling pending numbered = [] ↔
      (pending ≠ [] → ∃ next ∈ numbered.map (·.statement), next.operation?.isSome) ∧
        Followed (numbered.map (·.statement)) := by
  induction numbered generalizing pending with
  | nil => simp [dangling, Followed]
  | cons head rest ih =>
    obtain ⟨line, statement⟩ := head
    rw [List.map_cons, followed_cons]
    cases goes : statement.operation? with
    | none =>
      simp only [dangling, goes, ih, List.exists_mem_cons_iff, Option.isSome_none,
        Bool.false_eq_true, false_or, ne_eq, List.append_eq_nil_iff, List.map_eq_nil_iff]
      tauto
    | some operation =>
      simp [dangling, goes, ih]

theorem targets_defined :
    ((targets numbered).find? fun target => target.1 ∉ definitions numbered) = none ↔
      ∀ statement ∈ numbered.map (·.statement), ∀ name ∈ statement.target?,
        name ∈ (numbered.map (·.statement)).flatMap Statement.defines := by
  rw [definitions_eq, List.find?_eq_none]
  simp only [decide_eq_true_iff, not_not]
  constructor
  · intro sound statement member name goes
    obtain ⟨entry, inside, rfl⟩ := List.mem_map.mp member
    refine sound (name, entry.line) (List.mem_filterMap.mpr ⟨entry, inside, ?_⟩)
    exact Option.map_eq_some_iff.mpr ⟨name, goes, rfl⟩
  · intro sound target member
    obtain ⟨entry, inside, written⟩ := List.mem_filterMap.mp member
    obtain ⟨name, goes, rfl⟩ := Option.map_eq_some_iff.mp written
    exact sound entry.statement (List.mem_map_of_mem inside) name goes

/-- Statements assemble exactly when labels suffice, every definition has an instruction behind
it and every branch target is defined. -/
theorem assemble_isOk :
    (∃ body, assemble given numbered = .ok body) ↔
      (labelNames (numbered.map (·.statement))).toFinset.card < Label.limit ∧
        Followed (numbered.map (·.statement)) ∧
          ∀ statement ∈ numbered.map (·.statement), ∀ name ∈ statement.target?,
            name ∈ (numbered.map (·.statement)).flatMap Statement.defines := by
  rw [← exhausting_eq_none, ← targets_defined]
  have quiet := dangling_eq_nil [] numbered
  simp only [ne_eq, not_true_eq_false, false_imp_iff, true_and] at quiet
  rw [← quiet]
  unfold assemble
  constructor
  · rintro ⟨body, done⟩
    split at done
    · cases done
    · cases done
    · cases done
    · rename_i first second third
      exact ⟨first, second, third⟩
  · rintro ⟨first, second, third⟩
    rw [first, second, third]
    exact ⟨_, rfl⟩

theorem length_program (pending : List String) (numbered : List Numbered) :
    (program pending numbered).length =
      (numbered.map (·.statement)).countP (·.operation?.isSome) := by
  induction numbered generalizing pending with
  | nil => rfl
  | cons head rest ih =>
    rw [program]
    split
    · rename_i goes
      simp [ih, goes]
    · rename_i goes
      simp [ih, goes]

theorem program_append (before after : List Numbered) :
    program [] (before ++ after) =
      program [] before ++ program (openLabels (before.map (·.statement))) after := by
  -- What is open behind the first part is read backwards, so the induction takes its last one off.
  induction before using List.reverseRecOn generalizing after with
  | nil => rfl
  | append_singleton before last ih =>
    rw [List.append_assoc, ih, ih, List.append_assoc, List.singleton_append, List.map_append]
    congr 1
    unfold openLabels
    cases goes : last.statement.operation? with
    | none => simp [program, goes]
    | some operation => simp [program, goes]

/-- An instruction of the program is the operation of a line, with the labels defined since the
instruction before. -/
theorem getElem?_program {before after : List Numbered} {line : Nat} {statement : Statement}
    {operation : Operation} (goes : statement.operation? = some operation) :
    (program [] (before ++ ⟨line, statement⟩ :: after))[
        (before.map (·.statement)).countP (·.operation?.isSome)]? =
      some ⟨operation.opcode, operation.operand,
        openLabels (before.map (·.statement)) ++ statement.defines⟩ := by
  rw [program_append, ← length_program [], List.getElem?_append_right le_rfl]
  simp [program, goes]

end SpawnGuard.Listing
