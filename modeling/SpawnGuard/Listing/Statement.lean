import SpawnGuard.Code.Instruction
import SpawnGuard.Listing.Error
import SpawnGuard.Listing.Line

/-!
Statements: what a line of a listing says. A line either names the method, or defines any number
of labels, each a word that ends in a colon, and may go on with one instruction. Labels are still
words here.
-/
namespace SpawnGuard.Listing

structure Operation where
  opcode : Opcode
  operand : Operand String
  deriving DecidableEq, Repr

inductive Statement where
  | method (name : String)
  | code (defines : List String) (operation : Option Operation)
  deriving DecidableEq, Repr

namespace Statement

def defines : Statement → List String
  | method _ => []
  | code defines _ => defines

def operation? : Statement → Option Operation
  | method _ => none
  | code _ operation => operation

end Statement

def labelName? (word : Word) : Option String :=
  if word.getLast? = some ':' then some (String.ofList word.dropLast) else none

def splitDefines : List Word → List String × List Word
  | [] => ([], [])
  | word :: rest =>
    match labelName? word with
    | some name => ((name :: (splitDefines rest).1), (splitDefines rest).2)
    | none => ([], word :: rest)

def readOperand (op : Opcode) (operands : List Word) : Except Cause (Operand String) :=
  match op.kind, operands with
  | .none, [] => .ok .none
  | .none, _ => .error (.wrongOperandCount op.mnemonic 0 operands.length)
  | .int, [word] =>
    match readInt word with
    | .ok value => .ok (.int value)
    | .error fault => .error (.parseInt (String.ofList word) fault)
  | .field, [word] => .ok (.field (String.ofList word))
  | .method, [word] => .ok (.method (String.ofList word))
  | .label, [word] => .ok (.label (String.ofList word))
  | _, _ => .error (.wrongOperandCount op.mnemonic 1 operands.length)

def readOperation : List Word → Except Cause (Option Operation)
  | [] => .ok none
  | word :: operands =>
    match Opcode.ofMnemonic? word with
    | none => .error (.unknownOpcode (String.ofList word))
    | some op => (readOperand op operands).map fun operand => some ⟨op, operand⟩

def firstRedefined (defined : List String) : List String → Option String
  | [] => none
  | name :: rest =>
    if name ∈ defined then some name else firstRedefined (name :: defined) rest

def methodWord : Word := ".method".toList

def readStatement (defined : List String) (words : List Word) : Except Cause Statement :=
  if words.head? = some methodWord then
    match words.tail with
    | [name] => .ok (.method (String.ofList name))
    | others => .error (.wrongOperandCount ".method" 1 others.length)
  else
    let (names, rest) := splitDefines words
    match firstRedefined defined names with
    | some name => .error (.duplicateLabel name)
    | none => (readOperation rest).map (.code names)

structure Numbered where
  line : Nat
  statement : Statement
  deriving DecidableEq, Repr

/-- The statements of the lines from a given number on; lines without words have none. -/
def readStatements (defined : List String) (line : Nat) :
    List (List Char) → Except Error (List Numbered)
  | [] => .ok []
  | text :: rest =>
    match readWords? text with
    | none => .error ⟨line, .unterminatedString⟩
    | some [] => readStatements defined (line + 1) rest
    | some words =>
      match readStatement defined words with
      | .error cause => .error ⟨line, cause⟩
      | .ok statement =>
        (readStatements (statement.defines.reverse ++ defined) (line + 1) rest).map
          (⟨line, statement⟩ :: ·)

end SpawnGuard.Listing
