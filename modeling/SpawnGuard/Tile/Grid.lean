import SpawnGuard.Tile.Position
import SpawnGuard.Word

/-!
The world as a tile sees it: numbered cells with neighbours, some of them wet, and registrations
that say who wants to hear of changes where.
-/
namespace SpawnGuard

abbrev Cell := Int32

def Cell.invalid : Cell := -1

abbrev Owner := Nat

structure Point where
  x : Int32
  y : Int32
  deriving DecidableEq, Repr

structure Extents where
  x : Int32
  y : Int32
  width : Int32
  height : Int32
  deriving DecidableEq, Repr

namespace Extents

/-- Whether a point lies in the rectangle. The far edges are computed only when the near ones
are passed. -/
def contains (extents : Extents) (point : Point) : Except Overflow Bool :=
  if point.x < extents.x then .ok false
  else do
    let right ← Word.add extents.x extents.width
    if ¬ point.x < right then .ok false
    else if point.y < extents.y then .ok false
    else do
      let top ← Word.add extents.y extents.height
      .ok (point.y < top)

def text (extents : Extents) : String :=
  "Extents \x7b x: " ++ toString extents.x.toInt ++ ", y: " ++ toString extents.y.toInt ++
    ", width: " ++ toString extents.width.toInt ++ ", height: " ++
    toString extents.height.toInt ++ " \x7d"

end Extents

inductive Layer where
  | liquid
  | solid
  deriving DecidableEq, Repr

inductive GridFault where
  | overflow (operation : Overflow)
  | outOfTable (size index : Nat)
  deriving DecidableEq, Repr

namespace GridFault

def message : GridFault → String
  | overflow operation => operation.message
  | outOfTable size index => s!"index out of bounds: the len is {size} but the index is {index}"

def ofWord {α : Type} (answer : Except Overflow α) : Except GridFault α :=
  answer.mapError overflow

end GridFault

/-- The holder's side of a registration: its handle, until it is given back. -/
structure GridEntry where
  handle? : Option Nat
  deriving DecidableEq, Repr

namespace GridEntry

def none : GridEntry := ⟨Option.none⟩

def ofHandle (handle : Nat) : GridEntry := ⟨some handle⟩

def isValid (entry : GridEntry) : Bool := entry.handle?.isSome

end GridEntry

class GridService (γ : Type) where
  cellAt : γ → Position → Except GridFault Cell
  pointOf : γ → Cell → Point
  above : γ → Cell → Except GridFault Cell
  left : γ → Cell → Except GridFault Cell
  right : γ → Cell → Except GridFault Cell
  isValid : γ → Cell → Except GridFault Bool
  isLiquid : γ → Cell → Except GridFault Bool
  add : γ → String → Owner → Extents → Layer → GridEntry × γ
  /-- Gives a registration back, with the entry that its holder is left with. -/
  free : γ → GridEntry → GridEntry × γ

end SpawnGuard
