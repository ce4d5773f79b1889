import Mathlib.Data.List.Basic
import SpawnGuard.Listing.Reader
import SpawnGuard.Proofs.Labels

/-!
Bodies that were read from a listing: their labels are numbered from zero on, so that each lies
below the next one.
-/
namespace SpawnGuard

namespace Instruction

variable {ℓ κ : Type}

theorem branchTarget_map (rename : ℓ → κ) (ins : Instruction ℓ) :
    (ins.map rename).branchTarget? = ins.branchTarget?.map rename := by
  obtain ⟨opcode, operand, labels⟩ := ins
  cases operand with
  | label target => by_cases branch : opcode.isBranch <;>
      simp [map, branchTarget?, Operand.map, branch]
  | _ => rfl

theorem mentions_map (rename : ℓ → κ) (ins : Instruction ℓ) :
    (ins.map rename).mentions = ins.mentions.map rename := by
  unfold mentions
  rw [branchTarget_map, List.map_append]
  cases ins.branchTarget? <;> rfl

end Instruction

namespace Listing

theorem mem_distinct {α : Type} [DecidableEq α] {item : α} {items : List α} :
    item ∈ distinct items ↔ item ∈ items := by
  induction items with
  | nil => simp [distinct]
  | cons head rest ih =>
    by_cases same : item = head
    · simp [distinct, same]
    · simp [distinct, same, ih]

theorem target_of_branchTarget {statement : Statement} {operation : Operation}
    (goes : statement.operation? = some operation) {labels : List String} {name : String}
    (target : Instruction.branchTarget? ⟨operation.opcode, operation.operand, labels⟩ =
      some name) : statement.target? = some name := by
  unfold Statement.target?
  rw [goes, Option.bind_some]
  unfold Instruction.branchTarget? at target
  cases named : operation.operand <;> simp_all

theorem program_mentions {pending : List String} {statements : List Numbered}
    {ins : Instruction String} (member : ins ∈ program pending statements) {name : String}
    (mentioned : name ∈ ins.mentions) :
    name ∈ pending ∨ name ∈ (mentions statements).map (·.1) := by
  induction statements generalizing pending with
  | nil => cases member
  | cons numbered rest ih =>
    obtain ⟨line, statement⟩ := numbered
    have here : (mentions (⟨line, statement⟩ :: rest)).map (·.1) =
        statement.defines ++ statement.target?.toList ++ (mentions rest).map (·.1) := by
      simp [mentions, Function.comp_def]
    rw [here]
    cases goes : statement.operation? with
    | none =>
      simp only [program, goes] at member
      rcases ih member with before | later
      · rcases List.mem_append.mp before with old | defined
        · exact .inl old
        · exact .inr (by simp [defined])
      · exact .inr (List.mem_append_right _ later)
    | some operation =>
      simp only [program, goes, List.mem_cons] at member
      rcases member with rfl | member
      · rcases List.mem_append.mp mentioned with attached | target
        · rcases List.mem_append.mp attached with old | defined
          · exact .inl old
          · exact .inr (by simp [defined])
        · have named := target_of_branchTarget goes (Option.mem_toList.mp target)
          exact .inr (by simp [named])
      · rcases ih member with impossible | later
        · cases impossible
        · exact .inr (List.mem_append_right _ later)

theorem assemble_eq_ok {given : String} {statements : List Numbered} {body : Body}
    (assembled : assemble given statements = .ok body) :
    let names := distinct ((mentions statements).map (·.1))
    body = ⟨methodName given statements,
      (program [] statements).map (Instruction.map fun name => ⟨names.idxOf name⟩),
      names.length⟩ := by
  unfold assemble at assembled
  split at assembled
  · cases assembled
  · cases assembled
  · cases assembled
  · cases assembled
    rfl

/-- Every label of a body that was read was given out before its next one. -/
theorem numbered_of_read {given text : String} {body : Body}
    (accepted : read given text = .ok body) : body.Numbered := by
  unfold read at accepted
  split at accepted
  · cases accepted
  · rename_i statements _
    have built := assemble_eq_ok accepted
    subst built
    intro ins member label mentioned
    obtain ⟨source, inside, rfl⟩ := List.mem_map.mp member
    rw [Instruction.mentions_map] at mentioned
    obtain ⟨name, named, rfl⟩ := List.mem_map.mp mentioned
    rcases program_mentions inside named with impossible | written
    · cases impossible
    · exact List.idxOf_lt_length_iff.mpr (mem_distinct.mpr written)

end Listing

end SpawnGuard
