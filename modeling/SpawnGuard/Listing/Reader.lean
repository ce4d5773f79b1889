import SpawnGuard.Code.Body
import SpawnGuard.Listing.Statement

/-!
Reading a listing into a method body. The statements are read first; then the labels before an
instruction, on its line or on earlier ones, are put on it, and label names are numbered in the
order in which they first appear.
-/
namespace SpawnGuard.Listing

def distinct {α : Type} [DecidableEq α] : List α → List α
  | [] => []
  | item :: rest => item :: (distinct rest).filter (· ≠ item)

def methodName (given : String) : List Numbered → String
  | [] => given
  | ⟨_, .method name⟩ :: rest => methodName name rest
  | _ :: rest => methodName given rest

/-- The code of a listing, each instruction with the labels defined since the one before it. -/
def program (pending : List String) : List Numbered → Code String
  | [] => []
  | ⟨_, statement⟩ :: rest =>
    match statement.operation? with
    | none => program (pending ++ statement.defines) rest
    | some operation =>
      ⟨operation.opcode, operation.operand, pending ++ statement.defines⟩ :: program [] rest

def dangling (pending : List (String × Nat)) : List Numbered → List (String × Nat)
  | [] => pending
  | ⟨line, statement⟩ :: rest =>
    match statement.operation? with
    | none => dangling (pending ++ statement.defines.map (·, line)) rest
    | some _ => dangling [] rest

def Statement.target? (statement : Statement) : Option String :=
  statement.operation?.bind fun operation =>
    match operation.operand with
    | .label name => some name
    | _ => none

def mentions (statements : List Numbered) : List (String × Nat) :=
  statements.flatMap fun ⟨line, statement⟩ =>
    (statement.defines ++ statement.target?.toList).map (·, line)

def targets (statements : List Numbered) : List (String × Nat) :=
  statements.filterMap fun ⟨line, statement⟩ => statement.target?.map (·, line)

def definitions (statements : List Numbered) : List String :=
  statements.flatMap (·.statement.defines)

def exhausting (statements : List Numbered) : Option (String × Nat) :=
  let names := distinct ((mentions statements).map (·.1))
  if names.length < Label.limit then none
  else (mentions statements).find? fun mention => some mention.1 = names[Label.limit - 1]?

def assemble (given : String) (statements : List Numbered) : Except Error Body :=
  match exhausting statements, dangling [] statements,
    (targets statements).find? fun target => target.1 ∉ definitions statements with
  | some (_, line), _, _ => .error ⟨line, .labelsExhausted⟩
  | none, (name, line) :: _, _ => .error ⟨line, .danglingLabel name⟩
  | none, [], some (name, line) => .error ⟨line, .undefinedLabel name⟩
  | none, [], none =>
    let names := distinct ((mentions statements).map (·.1))
    .ok
      { name := methodName given statements
        code := (program [] statements).map (Instruction.map fun name => ⟨names.idxOf name⟩)
        nextLabel := names.length }

/-- Reads a listing; `given` names the method unless the listing does. -/
def read (given : String) (text : String) : Except Error Body :=
  match readStatements [] 1 (lines text.toList) with
  | .error error => .error error
  | .ok statements => assemble given statements

end SpawnGuard.Listing
