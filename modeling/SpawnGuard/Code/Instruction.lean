import SpawnGuard.Code.Opcode

/-!
Instructions, over any type of label names: numbers in a method body, words in a listing.
Labels sit on instructions and never on positions, so code put in front of a labelled
instruction leaves every branch where it was.
-/
namespace SpawnGuard

structure Label where
  id : Nat
  deriving DecidableEq, Repr

namespace Label

def limit : Nat := 4294967296

def text (label : Label) : String := s!"L{label.id}"

end Label

inductive Operand (ℓ : Type) where
  | none
  | int (value : Int32)
  | field (name : String)
  | method (signature : String)
  | label (target : ℓ)
  deriving DecidableEq, Repr

namespace Operand

def map {ℓ κ : Type} (rename : ℓ → κ) : Operand ℓ → Operand κ
  | none => none
  | int value => int value
  | field name => field name
  | method signature => method signature
  | label target => label (rename target)

def text : Operand Label → String
  | none => ""
  | int value => toString value.toInt
  | field name => name
  | method signature => signature
  | label target => target.text

def text? : Operand Label → Option String
  | none => Option.none
  | operand => some operand.text

end Operand

structure Instruction (ℓ : Type) where
  opcode : Opcode
  operand : Operand ℓ := .none
  labels : List ℓ := []
  deriving DecidableEq, Repr

namespace Instruction

variable {ℓ κ : Type}

def map (rename : ℓ → κ) (ins : Instruction ℓ) : Instruction κ where
  opcode := ins.opcode
  operand := ins.operand.map rename
  labels := ins.labels.map rename

def branchTarget? (ins : Instruction ℓ) : Option ℓ :=
  match ins.operand with
  | .label target => if ins.opcode.isBranch then some target else none
  | _ => none

/-- The labels an instruction mentions: its own, then its branch target. -/
def mentions (ins : Instruction ℓ) : List ℓ := ins.labels ++ ins.branchTarget?.toList

def text (ins : Instruction Label) : String :=
  match ins.operand with
  | .none => ins.opcode.mnemonic
  | .field name => s!"{ins.opcode.mnemonic} \"{name}\""
  | .method signature => s!"{ins.opcode.mnemonic} \"{signature}\""
  | operand => s!"{ins.opcode.mnemonic} {operand.text}"

end Instruction

abbrev Code (ℓ : Type) := List (Instruction ℓ)

end SpawnGuard
