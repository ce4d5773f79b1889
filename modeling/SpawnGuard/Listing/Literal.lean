/-!
Integer constants of a listing: a signed decimal number, or a pattern of 32 bits in hexadecimal
after `0x`, which a minus sign negates modulo two to the thirty-second.
-/
namespace SpawnGuard.Listing

inductive NumberFault where
  | empty
  | invalidDigit
  | tooLarge
  deriving DecidableEq, Repr

namespace NumberFault

def message : NumberFault → String
  | empty => "cannot parse integer from empty string"
  | invalidDigit => "invalid digit found in string"
  | tooLarge => "number too large to fit in target type"

end NumberFault

def digit? (radix : Nat) (c : Char) : Option Nat :=
  let value :=
    if '0' ≤ c ∧ c ≤ '9' then c.toNat - '0'.toNat
    else if 'a' ≤ c ∧ c ≤ 'z' then c.toNat - 'a'.toNat + 10
    else if 'A' ≤ c ∧ c ≤ 'Z' then c.toNat - 'A'.toNat + 10
    else radix
  if value < radix then some value else none

def appendDigits (radix bound : Nat) (value : Nat) : List Char → Except NumberFault Nat
  | [] => .ok value
  | c :: rest =>
    match digit? radix c with
    | none => .error .invalidDigit
    | some digit =>
      if value * radix + digit ≤ bound then appendDigits radix bound (value * radix + digit) rest
      else .error .tooLarge

def readDigits (radix bound : Nat) (digits : List Char) : Except NumberFault Nat :=
  if digits.isEmpty then .error .empty else appendDigits radix bound 0 digits

def greatestInt : Nat := 2147483647

def greatestPattern : Nat := 4294967295

/-- The least integer has no positive counterpart, so its digits are known by sight. -/
def leastIntDigits : List Char := "2147483648".toList

def hexDigits? : List Char → Option (List Char)
  | '0' :: 'x' :: digits | '0' :: 'X' :: digits =>
    if digits.head? = some '+' then none else some digits
  | _ => none

def readUnsigned (negative : Bool) (digits : List Char) : Except NumberFault Int32 :=
  match hexDigits? digits with
  | some hex => (readDigits 16 greatestPattern hex).map fun value => Int32.ofNat value
  | none =>
    match readDigits 10 greatestInt digits with
    | .ok value => .ok (Int32.ofNat value)
    | .error fault =>
      if negative ∧ digits = leastIntDigits then .ok Int32.minValue else .error fault

/-- The value of an integer constant. A plus sign stands only in front of decimal digits, and no
constant has two signs. -/
def readInt : List Char → Except NumberFault Int32
  | '-' :: rest =>
    match rest with
    | '-' :: _ | '+' :: _ => .error .invalidDigit
    | digits => (readUnsigned true digits).map fun value => -value
  | ['+'] => .error .invalidDigit
  | '+' :: digits => (readDigits 10 greatestInt digits).map fun value => Int32.ofNat value
  | digits => readUnsigned false digits

end SpawnGuard.Listing
