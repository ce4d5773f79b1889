import SpawnGuard.Code.Body

/-!
Writing a method body as a listing: the name, then each instruction under the labels on it.
-/
namespace SpawnGuard.Listing

def instructionLines (ins : Instruction Label) : List String :=
  ins.labels.map (fun label => label.text ++ ":") ++ ["    " ++ ins.text]

def bodyLines (body : Body) : List String :=
  s!".method \"{body.name}\"" :: body.code.flatMap instructionLines

def print (body : Body) : String := String.join ((bodyLines body).map (· ++ "\n"))

end SpawnGuard.Listing
