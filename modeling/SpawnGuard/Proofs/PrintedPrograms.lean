import SpawnGuard.Proofs.ListingGrammar
import SpawnGuard.Proofs.PrintedSentences

/-!
The statements of a body put together: they name the code of the body, with the texts of labels
in place of the labels.
-/
namespace SpawnGuard.Listing

variable {body : Body}

theorem text_injective {label other : Label} (same : label.text = other.text) : label = other := by
  have digits := congrArg String.toList same
  rw [toList_text, toList_text, List.cons.injEq] at digits
  have value := congrArg (Nat.ofDigitChars 10 · 0) digits.2
  simp only [Nat.ofDigitChars_ten_toDigits] at value
  cases label
  cases other
  exact congrArg Label.mk value

theorem target?_instruction {ins : Instruction Label} (typed : ins.Typed) :
    Statement.target? (.code [] (some ⟨ins.opcode, ins.operand.map Label.text⟩)) =
      ins.branchTarget?.map Label.text := by
  obtain ⟨opcode, operand, labels⟩ := ins
  cases operand with
  | label target =>
    rw [typed.branchTarget?]
    rfl
  | _ => rfl

private theorem labelNames_instruction {ins : Instruction Label} (typed : ins.Typed) :
    labelNames (instructionStatements ins) = ins.mentions.map Label.text := by
  have labels : labelNames (ins.labels.map fun label => .code [label.text] none) =
      ins.labels.map Label.text := by
    rw [labelNames, List.flatMap_map]
    exact List.map_eq_flatMap.symm
  have operation : labelNames [.code [] (some ⟨ins.opcode, ins.operand.map Label.text⟩)] =
      ins.branchTarget?.toList.map Label.text := by
    rw [labelNames, List.flatMap_singleton, target?_instruction typed, Option.toList_map]
    rfl
  rw [Instruction.mentions, List.map_append, ← labels, ← operation]
  exact List.flatMap_append

theorem labelNames_bodyStatements (typed : body.Typed) :
    labelNames (bodyStatements body) = body.mentioned.map Label.text := by
  have each : ∀ ins ∈ body.code, labelNames (instructionStatements ins) =
      ins.mentions.map Label.text := fun ins member => labelNames_instruction (typed ins member)
  calc labelNames (bodyStatements body)
      = body.code.flatMap fun ins => labelNames (instructionStatements ins) := List.flatMap_assoc
    _ = body.code.flatMap fun ins => ins.mentions.map Label.text := List.flatMap_congr each
    _ = body.mentioned.map Label.text := List.map_flatMap.symm

theorem defines_bodyStatements (body : Body) :
    (bodyStatements body).flatMap Statement.defines = (Body.attached body.code).map Label.text := by
  have each (ins : Instruction Label) :
      (instructionStatements ins).flatMap Statement.defines = ins.labels.map Label.text := by
    rw [instructionStatements, List.flatMap_append, List.flatMap_map, List.map_eq_flatMap]
    exact List.append_nil _
  calc (bodyStatements body).flatMap Statement.defines
      = body.code.flatMap fun ins => (instructionStatements ins).flatMap Statement.defines :=
        List.flatMap_assoc
    _ = body.code.flatMap fun ins => ins.labels.map Label.text := by simp only [each]
    _ = (Body.attached body.code).map Label.text := List.map_flatMap.symm

theorem targets_bodyStatements (typed : body.Typed) (linked : Body.Linked body.code) :
    ∀ statement ∈ bodyStatements body, ∀ name ∈ statement.target?,
      name ∈ (bodyStatements body).flatMap Statement.defines := by
  intro statement said name target
  rw [defines_bodyStatements]
  rcases List.mem_cons.mp said with rfl | said
  · cases target
  · obtain ⟨ins, member, inside⟩ := List.mem_flatMap.mp said
    rcases List.mem_append.mp inside with labelled | last
    · obtain ⟨label, _, rfl⟩ := List.mem_map.mp labelled
      cases target
    · cases List.mem_singleton.mp last
      rw [target?_instruction (typed ins member)] at target
      obtain ⟨label, goes, rfl⟩ := Option.map_eq_some_iff.mp target
      exact List.mem_map_of_mem (linked.landed ins member label goes)

private theorem followed_instruction {ins : Instruction Label} {later : List Statement}
    (followed : Followed later) : Followed (instructionStatements ins ++ later) := by
  unfold instructionStatements
  induction ins.labels with
  | nil => exact followed_cons.mpr ⟨fun defines => absurd rfl defines, followed⟩
  | cons label labels ih =>
    let last : Statement := .code [] (some ⟨ins.opcode, ins.operand.map Label.text⟩)
    exact followed_cons.mpr ⟨fun _ => ⟨last, by simp [last], rfl⟩, ih⟩

theorem followed_bodyStatements (body : Body) : Followed (bodyStatements body) := by
  refine followed_cons.mpr ⟨fun defines => absurd rfl defines, ?_⟩
  induction body.code with
  | nil => exact fun statement after inside => absurd (List.suffix_nil.mp inside) (by simp)
  | cons ins rest ih => exact followed_instruction ih

theorem program_congr {pending : List String} {numbered others : List Numbered}
    (same : numbered.map (·.statement) = others.map (·.statement)) :
    program pending numbered = program pending others := by
  induction numbered generalizing pending others with
  | nil => rw [List.map_eq_nil_iff.mp same.symm]
  | cons head rest ih =>
    obtain ⟨other, later, rfl, first, others⟩ := List.map_eq_cons_iff.mp same.symm
    simp only [program, ← first, ih others.symm]

private theorem program_labels (pending : List String) (labels : List Label)
    (later : List Numbered) :
    program pending (labels.map (fun label => ⟨0, .code [label.text] none⟩) ++ later) =
      program (pending ++ labels.map Label.text) later := by
  induction labels generalizing pending with
  | nil => simp
  | cons label labels ih =>
    rw [List.map_cons, List.cons_append, program]
    simp only [Statement.operation?, Statement.defines]
    rw [ih, List.append_assoc]
    rfl

private theorem program_instruction (ins : Instruction Label) (later : List Numbered) :
    program [] ((instructionStatements ins).map (Numbered.mk 0) ++ later) =
      ins.map Label.text :: program [] later := by
  have shape : (instructionStatements ins).map (Numbered.mk 0) ++ later =
      ins.labels.map (fun label => ⟨0, .code [label.text] none⟩) ++
        ⟨0, .code [] (some ⟨ins.opcode, ins.operand.map Label.text⟩)⟩ :: later := by
    simp [instructionStatements, Function.comp_def]
  rw [shape, program_labels, program]
  simp only [Statement.operation?, Statement.defines, List.nil_append, List.append_nil]
  rfl

/-- The program of these statements is the code of the body. -/
theorem program_bodyStatements {numbered : List Numbered}
    (said : numbered.map (·.statement) = bodyStatements body) :
    program [] numbered = body.code.map (Instruction.map Label.text) := by
  have same : numbered.map (·.statement) =
      ((bodyStatements body).map (Numbered.mk 0)).map (·.statement) := by
    simp [said, Function.comp_def]
  have code : ∀ code : Code Label,
      program [] ((code.flatMap instructionStatements).map (Numbered.mk 0)) =
        code.map (Instruction.map Label.text) := by
    intro code
    induction code with
    | nil => rfl
    | cons ins rest ih =>
      rw [List.flatMap_cons, List.map_append, program_instruction, ih, List.map_cons]
  rw [program_congr same]
  exact code body.code

theorem methodName_bodyStatements (given : String) (body : Body) :
    ((bodyStatements body).filterMap Statement.methodName?).getLast?.getD given = body.name := by
  have named : Statement.methodName? (.method body.name) = some body.name := rfl
  have quiet : (body.code.flatMap instructionStatements).filterMap Statement.methodName? = [] := by
    refine List.filterMap_eq_nil_iff.mpr fun statement member => ?_
    obtain ⟨ins, _, inside⟩ := List.mem_flatMap.mp member
    rcases List.mem_append.mp inside with labelled | last
    · obtain ⟨label, _, rfl⟩ := List.mem_map.mp labelled
      rfl
    · cases List.mem_singleton.mp last
      rfl
  rw [bodyStatements, List.filterMap_cons_some named, quiet]
  rfl

end SpawnGuard.Listing
