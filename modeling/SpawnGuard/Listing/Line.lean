import SpawnGuard.Text.Blank

/-!
Lines of a listing and the words on them. A line ends at a line feed, with or without a carriage
return in front. Outside double quotes, `#` and `//` start a comment. A word is either the text
between two double quotes, where anything else may stand, or a run of characters without white
space.
-/
namespace SpawnGuard.Listing
open Text

abbrev Word := List Char

/-- The lines of a text; a line feed at the end of the text starts no further line. -/
def lines : List Char → List (List Char)
  | [] => []
  | '\n' :: rest => [] :: lines rest
  | '\r' :: '\n' :: rest => [] :: lines rest
  | c :: rest =>
    match lines rest with
    | [] => [[c]]
    | line :: others => (c :: line) :: others

/-- A line up to its comment; `quoted` says whether a quote is open where it starts. -/
def stripComment (quoted : Bool) : List Char → List Char
  | [] => []
  | '"' :: rest => '"' :: stripComment (!quoted) rest
  | '#' :: rest => if quoted then '#' :: stripComment quoted rest else []
  | '/' :: '/' :: rest => if quoted then '/' :: stripComment quoted ('/' :: rest) else []
  | c :: rest => c :: stripComment quoted rest

theorem length_dropWhile_le (p : Char → Bool) (text : List Char) :
    (text.dropWhile p).length ≤ text.length :=
  (List.dropWhile_sublist p).length_le

def words? (line : List Char) : Option (List Word) :=
  match line with
  | [] => some []
  | c :: rest =>
    if isBlank c then words? rest
    else if c = '"' then
      if '"' ∈ rest then
        (words? ((rest.dropWhile (· ≠ '"')).drop 1)).map (rest.takeWhile (· ≠ '"') :: ·)
      else none
    else
      (words? (rest.dropWhile (!isBlank ·))).map ((c :: rest.takeWhile (!isBlank ·)) :: ·)
termination_by line.length
decreasing_by
  · simp
  · have shorter := length_dropWhile_le (· ≠ '"') rest
    simp only [List.length_drop, List.length_cons]
    omega
  · have shorter := length_dropWhile_le (!isBlank ·) rest
    simp only [List.length_cons]
    omega

def readWords? (line : List Char) : Option (List Word) := words? (stripComment false line)

end SpawnGuard.Listing
