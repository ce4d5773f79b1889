import SpawnGuard.Text.Blank

/-!
Method signatures, such as `Int32 Subscribe(Int32, System.Action[System.Object])`: how many
parameters stand in the last pair of parentheses.
-/
namespace SpawnGuard.Signature
open Text

def afterLast (c : Char) : List Char → Option (List Char)
  | [] => none
  | x :: rest =>
    match afterLast c rest with
    | some tail => some tail
    | none => if x = c then some rest else none

def dropClosing (text : List Char) : List Char :=
  (text.reverse.dropWhile (· = ')')).reverse

/-- How a character changes the depth of nesting; all brackets count alike. -/
def depthStep (c : Char) : Int :=
  if c = '[' ∨ c = '<' ∨ c = '(' then 1
  else if c = ']' ∨ c = '>' ∨ c = ')' then -1
  else 0

/-- The commas outside of all brackets. The depth is any number here; a word holds it as long as
fewer than 2147483648 brackets are open at once. -/
def outerCommas (depth : Int) : List Char → Nat
  | [] => 0
  | c :: rest =>
    (if c = ',' ∧ depth = 0 then 1 else 0) + outerCommas (depth + depthStep c) rest

def parameterCount (signature : String) : Nat :=
  match afterLast '(' signature.toList with
  | none => 0
  | some tail =>
    let inner := trim (dropClosing tail)
    if inner.isEmpty then 0 else 1 + outerCommas 0 inner

end SpawnGuard.Signature
