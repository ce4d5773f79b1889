import SpawnGuard.Proofs.ReadTexts
import SpawnGuard.Proofs.RoundTrip

/-!
Bodies that are fit to be printed: each operand is of the kind that its operation takes, every
branch lands, and labels were given out in order and are not too many. Reading builds only such
bodies.
-/
namespace SpawnGuard

structure Body.Fit (body : Body) : Prop where
  typed : body.Typed
  linked : Body.Linked body.code
  numbered : body.Numbered
  room : body.nextLabel < Label.limit

theorem Body.Fit.few {body : Body} (fit : body.Fit) :
    body.mentioned.toFinset.card < Label.limit := by
  refine Listing.few_of_small fun label member => ?_
  obtain ⟨ins, inside, named⟩ := List.mem_flatMap.mp member
  have low := fit.numbered ins inside label named
  have high := fit.room
  omega

namespace Listing

variable {given text : String} {body : Body} {numbered : List Numbered}

theorem Takes.kind_eq {op : Opcode} {operands : List Word} {operand : Operand String}
    (takes : Takes op operands operand) : operand.kind = op.kind := by
  cases takes with
  | none kind | field _ kind | method _ kind | label _ kind => exact kind.symm
  | int kind => exact kind.symm

theorem Means.kind_eq {words : List Word} {statement : Statement} (means : Means words statement)
    {operation : Operation} (goes : statement.operation? = some operation) :
    operation.operand.kind = operation.opcode.kind := by
  cases means with
  | method name => cases goes
  | labels names => cases goes
  | operation names spelt takes =>
    cases goes
    exact takes.kind_eq

/-- Every definition goes on an instruction of the program or is left dangling. -/
theorem labels_program (pending : List (String × Nat)) (numbered : List Numbered) :
    (program (pending.map (·.1)) numbered).flatMap (·.labels) ++
        (dangling pending numbered).map (·.1) =
      pending.map (·.1) ++ definitions numbered := by
  induction numbered generalizing pending with
  | nil => simp [program, dangling, definitions]
  | cons head rest ih =>
    obtain ⟨line, statement⟩ := head
    have known : definitions (⟨line, statement⟩ :: rest) =
        statement.defines ++ definitions rest := rfl
    rw [known]
    cases goes : statement.operation? with
    | none =>
      have names : (pending ++ statement.defines.map (·, line)).map (·.1) =
          pending.map (·.1) ++ statement.defines := by
        simp [Function.comp_def]
      have later := ih (pending ++ statement.defines.map (·, line))
      rw [names] at later
      simp only [program, dangling, goes]
      rw [later, List.append_assoc]
    | some operation =>
      have later := ih []
      simp only [List.map_nil, List.nil_append] at later
      simp only [program, dangling, goes, List.flatMap_cons]
      rw [List.append_assoc, later, List.append_assoc]

theorem attached_of_assemble (assembled : assemble given numbered = .ok body) :
    Body.attached body.code =
      (definitions numbered).map (labelOf (numbered.map (·.statement))) := by
  -- No definition is left over, so all of them went on instructions.
  obtain ⟨_, followed, _⟩ := assemble_isOk.mp ⟨body, assembled⟩
  have settled : dangling [] numbered = [] :=
    (dangling_eq_nil [] numbered).mpr ⟨fun pending => absurd rfl pending, followed⟩
  have labels := labels_program [] numbered
  rw [settled, List.map_nil, List.append_nil, List.nil_append] at labels
  rw [body_of_assemble rfl assembled, ← labels, List.map_flatMap, Body.attached, List.flatMap_map]
  rfl

private theorem definitions_subset (numbered : List Numbered) :
    definitions numbered ⊆ labelNames (numbered.map (·.statement)) := by
  intro name member
  rw [definitions_eq] at member
  obtain ⟨statement, inside, defined⟩ := List.mem_flatMap.mp member
  exact List.mem_flatMap.mpr ⟨statement, inside, List.mem_append_left _ defined⟩

theorem linked_of_assemble (assembled : assemble given numbered = .ok body)
    (once : (definitions numbered).Nodup) : Body.Linked body.code where
  once := by
    rw [attached_of_assemble assembled]
    refine List.Nodup.map_on (fun one here two _ same => ?_) once
    rw [labelOf, labelOf, Label.mk.injEq] at same
    exact (firstNumber_inj (definitions_subset numbered here)).mp same
  landed := by
    intro ins member label target
    rw [attached_of_assemble assembled]
    rw [body_of_assemble rfl assembled] at member
    obtain ⟨source, written, rfl⟩ := List.mem_map.mp member
    rw [Instruction.branchTarget_map] at target
    obtain ⟨name, goes, rfl⟩ := Option.map_eq_some_iff.mp target
    obtain ⟨statement, inside, operation⟩ := program_mem written
    obtain ⟨_, _, defined⟩ := assemble_isOk.mp ⟨body, assembled⟩
    have known := defined statement inside name (target_of_branchTarget operation goes)
    rw [← definitions_eq] at known
    exact List.mem_map_of_mem known

/-- Reading builds only bodies that are fit to be printed. -/
theorem fit_of_read (accepted : read given text = .ok body) : body.Fit := by
  obtain ⟨numbered, done, assembled⟩ := read_eq_ok.mp accepted
  obtain ⟨sentences, fresh⟩ := readStatements_eq_ok.mp ⟨numbered, done, rfl⟩
  obtain ⟨few, _, _⟩ := assemble_isOk.mp ⟨body, assembled⟩
  have built := body_of_assemble rfl assembled
  refine ⟨fun ins member => ?_, linked_of_assemble assembled ?_, numbered_of_read accepted, ?_⟩
  · rw [built] at member
    obtain ⟨source, written, rfl⟩ := List.mem_map.mp member
    obtain ⟨statement, inside, goes⟩ := program_mem written
    obtain ⟨_, _, words, _, means⟩ := sentences.exists_line inside
    exact (Operand.kind_map _ source.operand).trans (means.kind_eq goes)
  · rw [definitions_eq]
    exact fresh_nil.mp fresh
  · rw [built]
    exact few

end Listing

end SpawnGuard
