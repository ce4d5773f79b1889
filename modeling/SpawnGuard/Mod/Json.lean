/-!
The syntax of JSON. A value that nobody wants is only checked for being well formed, to any
depth; a string that is wanted has its escapes resolved, and half a surrogate pair is no
character.
-/
namespace SpawnGuard.Json

def isBlank (c : Char) : Bool := c = ' ' || c = '\t' || c = '\n' || c = '\r'

def skipBlanks (text : List Char) : List Char := text.dropWhile isBlank

def expect (c : Char) (text : List Char) : Option (List Char) :=
  match skipBlanks text with
  | [] => none
  | x :: rest => if x = c then some rest else none

def expectWord (word text : List Char) : Option (List Char) :=
  if word.isPrefixOf text then some (text.drop word.length) else none

def readBool (text : List Char) : Option (Bool × List Char) :=
  let text := skipBlanks text
  match expectWord "true".toList text with
  | some rest => some (true, rest)
  | none => (expectWord "false".toList text).map (false, ·)

def hexValue? (c : Char) : Option Nat :=
  if '0' ≤ c ∧ c ≤ '9' then some (c.toNat - 48)
  else if 'a' ≤ c ∧ c ≤ 'f' then some (c.toNat - 87)
  else if 'A' ≤ c ∧ c ≤ 'F' then some (c.toNat - 55)
  else none

def readHex : List Char → Option (Nat × List Char)
  | a :: b :: c :: d :: rest => do
    let a ← hexValue? a
    let b ← hexValue? b
    let c ← hexValue? c
    let d ← hexValue? d
    some (((a * 16 + b) * 16 + c) * 16 + d, rest)
  | _ => none

def letterEscape? (c : Char) : Option Char :=
  match c with
  | '"' => some '"'
  | '\\' => some '\\'
  | '/' => some '/'
  | 'b' => some '\x08'
  | 'f' => some '\x0c'
  | 'n' => some '\n'
  | 'r' => some '\r'
  | 't' => some '\t'
  | _ => none

def readNumberEscape (text : List Char) : Option (Char × List Char) := do
  let (first, rest) ← readHex text
  if 0xD800 ≤ first ∧ first ≤ 0xDBFF then
    match rest with
    | '\\' :: 'u' :: rest => do
      let (second, rest) ← readHex rest
      if 0xDC00 ≤ second ∧ second ≤ 0xDFFF then
        some (Char.ofNat (0x10000 + (first - 0xD800) * 0x400 + (second - 0xDC00)), rest)
      else none
    | _ => none
  else if 0xDC00 ≤ first ∧ first ≤ 0xDFFF then none
  else some (Char.ofNat first, rest)

/-- The characters of a string whose opening quote is read; `fuel` bounds their number. -/
def readChars (fuel : Nat) (read : List Char) (text : List Char) :
    Option (List Char × List Char) :=
  match fuel, text with
  | 0, _ => none
  | _, [] => none
  | fuel + 1, c :: rest =>
    if c = '"' then some (read.reverse, rest)
    else if c = '\\' then
      match rest with
      | [] => none
      | 'u' :: rest => do
        let (c, rest) ← readNumberEscape rest
        readChars fuel (c :: read) rest
      | letter :: rest => do
        let c ← letterEscape? letter
        readChars fuel (c :: read) rest
    else if c.toNat < 0x20 then none
    else readChars fuel (c :: read) rest

def readString (text : List Char) : Option (List Char × List Char) :=
  match text with
  | '"' :: rest => readChars (rest.length + 1) [] rest
  | _ => none

def skipChars : List Char → Option (List Char)
  | [] => none
  | '"' :: rest => some rest
  | '\\' :: 'u' :: a :: b :: c :: d :: rest =>
    if [a, b, c, d].all fun digit => (hexValue? digit).isSome then skipChars rest else none
  | '\\' :: letter :: rest => if (letterEscape? letter).isSome then skipChars rest else none
  | c :: rest => if c = '\\' ∨ c.toNat < 0x20 then none else skipChars rest

def skipDigits (text : List Char) : Option (List Char) :=
  match text with
  | c :: rest => if c.isDigit then some (rest.dropWhile Char.isDigit) else none
  | [] => none

def skipExponent (text : List Char) : Option (List Char) :=
  match text with
  | 'e' :: rest | 'E' :: rest =>
    match rest with
    | '+' :: digits | '-' :: digits => skipDigits digits
    | digits => skipDigits digits
  | _ => some text

def skipFraction (text : List Char) : Option (List Char) :=
  match text with
  | '.' :: digits => skipDigits digits >>= skipExponent
  | _ => skipExponent text

/-- The text after a number without its sign; a zero is not followed by digits. -/
def skipNumber (text : List Char) : Option (List Char) :=
  match text with
  | '0' :: rest =>
    match rest with
    | c :: _ => if c.isDigit then none else skipFraction rest
    | [] => some []
  | _ => skipDigits text >>= skipFraction

def skipScalar (text : List Char) : Option (List Char) :=
  match text with
  | '"' :: rest => skipChars rest
  | 'n' :: _ => expectWord "null".toList text
  | 't' :: _ => expectWord "true".toList text
  | 'f' :: _ => expectWord "false".toList text
  | '-' :: rest => skipNumber rest
  | _ => skipNumber text

def skipKey (text : List Char) : Option (List Char) := do
  let rest ← expect '"' text
  let rest ← skipChars rest
  expect ':' rest

mutual

/-- The text after a value. Each level of `fuel` pays for one value or one item. -/
def skipValueWithin (fuel : Nat) (text : List Char) : Option (List Char) :=
  match fuel with
  | 0 => none
  | fuel + 1 =>
    match skipBlanks text with
    | '[' :: rest =>
      match skipBlanks rest with
      | ']' :: rest => some rest
      | rest => skipItems fuel false rest
    | '\x7b' :: rest =>
      match skipBlanks rest with
      | '\x7d' :: rest => some rest
      | rest => skipItems fuel true rest
    | rest => skipScalar rest

def skipItems (fuel : Nat) (keyed : Bool) (text : List Char) : Option (List Char) :=
  match fuel with
  | 0 => none
  | fuel + 1 => do
    let text ← if keyed then skipKey text else some text
    let rest ← skipValueWithin fuel text
    match skipBlanks rest with
    | ',' :: rest => skipItems fuel keyed rest
    | c :: rest => if c = (if keyed then '\x7d' else ']') then some rest else none
    | [] => none

end

def skipValue (text : List Char) : Option (List Char) :=
  skipValueWithin (2 * text.length + 1) text

end SpawnGuard.Json
