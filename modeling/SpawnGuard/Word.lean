/-!
Signed 32-bit arithmetic that refuses a result outside the word. Each operation answers exactly
when the mathematical result fits, and then with that result.
-/
namespace SpawnGuard

inductive Overflow where
  | add
  | subtract
  | multiply
  deriving DecidableEq, Repr

namespace Overflow

def message : Overflow → String
  | add => "attempt to add with overflow"
  | subtract => "attempt to subtract with overflow"
  | multiply => "attempt to multiply with overflow"

end Overflow

namespace Word

def Fits (n : Int) : Prop := -2147483648 ≤ n ∧ n ≤ 2147483647

instance (n : Int) : Decidable (Fits n) := inferInstanceAs (Decidable (_ ∧ _))

def checked (operation : Overflow) (n : Int) : Except Overflow Int32 :=
  if Fits n then .ok (Int32.ofInt n) else .error operation

def add (a b : Int32) : Except Overflow Int32 := checked .add (a.toInt + b.toInt)

def sub (a b : Int32) : Except Overflow Int32 := checked .subtract (a.toInt - b.toInt)

def mul (a b : Int32) : Except Overflow Int32 := checked .multiply (a.toInt * b.toInt)

def clamp (n : Int) : Int32 :=
  if n < -2147483648 then -2147483648 else if 2147483647 < n then 2147483647 else Int32.ofInt n

theorem fits_toInt (a : Int32) : Fits a.toInt :=
  ⟨Int32.le_toInt a, Int32.toInt_le a⟩

theorem toInt_ofInt {n : Int} (fits : Fits n) : (Int32.ofInt n).toInt = n :=
  Int32.toInt_ofInt_of_le fits.1 (by have := fits.2; omega)

/-- A checked operation answers with a word exactly when the word denotes the result. -/
theorem checked_eq_ok {operation : Overflow} {n : Int} {a : Int32} :
    checked operation n = .ok a ↔ a.toInt = n := by
  unfold checked
  split
  · rename_i fits
    constructor
    · intro same
      cases same
      exact toInt_ofInt fits
    · rintro rfl
      rw [Int32.ofInt_toInt]
  · rename_i tooBig
    constructor
    · intro same
      cases same
    · rintro rfl
      exact absurd (fits_toInt a) tooBig

end Word

end SpawnGuard
