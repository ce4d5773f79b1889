import SpawnGuard.Text.Hidden

/-!
Text between double quotes, as messages show it. Quotes and backslashes take a backslash, the
usual control characters have letters, and characters that cannot be shown are given by number.
-/
namespace SpawnGuard.Text

def byNumber (c : Char) : String :=
  "\\u\x7b" ++ String.ofList (Nat.toDigits 16 c.toNat) ++ "\x7d"

def escape (c : Char) : String :=
  if c = '"' then "\\\""
  else if c = '\\' then "\\\\"
  else if c = '\n' then "\\n"
  else if c = '\r' then "\\r"
  else if c = '\t' then "\\t"
  else if c = '\x00' then "\\0"
  else if isHidden c then byNumber c
  else c.toString

def quote (text : String) : String :=
  "\"" ++ String.join (text.toList.map escape) ++ "\""

end SpawnGuard.Text
