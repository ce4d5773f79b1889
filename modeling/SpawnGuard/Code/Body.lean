import SpawnGuard.Code.Instruction
import SpawnGuard.Word

/-!
A method body: a name, its code, and the number of the next label to give out. Three views say
where labels are: a table of first places, a search for one label, and a check of the whole.
-/
namespace SpawnGuard

inductive BodyError where
  | unresolvedLabel (index : Nat) (label : Label)
  | duplicateLabel (label : Label)
  deriving DecidableEq, Repr

namespace BodyError

def message : BodyError → String
  | unresolvedLabel index label =>
    s!"instruction {index} branches to {label.text}, which is not attached to any instruction"
  | duplicateLabel label => s!"label {label.text} is attached to more than one instruction"

end BodyError

structure Body where
  name : String
  code : Code Label
  nextLabel : Nat
  deriving DecidableEq, Repr

namespace Body

def empty (name : String) : Body := ⟨name, [], 0⟩

def firstFree (code : Code Label) : Nat :=
  (code.flatMap Instruction.mentions).foldl (fun top label => max top (label.id + 1)) 0

/-- A body whose own labels start past every label its code mentions. -/
def ofCode (name : String) (code : Code Label) : Except Overflow Body :=
  if firstFree code < Label.limit then .ok ⟨name, code, firstFree code⟩ else .error .add

def defineLabel (body : Body) : Except Overflow (Label × Body) :=
  if body.nextLabel + 1 < Label.limit then
    .ok (⟨body.nextLabel⟩, { body with nextLabel := body.nextLabel + 1 })
  else .error .add

def attached (code : Code Label) : List Label := code.flatMap (·.labels)

def noteFirst (table : List (Label × Nat)) (entry : Label × Nat) : List (Label × Nat) :=
  if (table.lookup entry.1).isSome then table else table ++ [entry]

/-- Every attached label with the first position it is on, in reading order. -/
def labelIndex (body : Body) : List (Label × Nat) :=
  (body.code.zipIdx.flatMap fun (ins, index) => ins.labels.map (·, index)).foldl noteFirst []

def resolve (body : Body) (label : Label) : Option Nat :=
  body.code.findIdx? fun ins => label ∈ ins.labels

def firstRepeat (seen : List Label) : List Label → Option Label
  | [] => none
  | label :: rest => if label ∈ seen then some label else firstRepeat (label :: seen) rest

def firstDangling (present : List Label) (index : Nat) : Code Label → Option (Nat × Label)
  | [] => none
  | ins :: rest =>
    match ins.branchTarget? with
    | some label =>
      if label ∈ present then firstDangling present (index + 1) rest else some (index, label)
    | none => firstDangling present (index + 1) rest

/-- Checks that every branch lands on exactly one instruction. -/
def validate (body : Body) : Except BodyError Unit :=
  let present := attached body.code
  match firstRepeat [] present with
  | some label => .error (.duplicateLabel label)
  | none =>
    match firstDangling present 0 body.code with
    | some (index, label) => .error (.unresolvedLabel index label)
    | none => .ok ()

end Body

end SpawnGuard
