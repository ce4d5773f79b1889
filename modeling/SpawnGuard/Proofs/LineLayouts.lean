import SpawnGuard.Proofs.LineFaults
import SpawnGuard.Proofs.ParameterLists
import SpawnGuard.Proofs.ReadTexts

/-!
The many ways to write words on a line: between quotes or bare, with any white space around them
and with a comment behind. All of them are read as the same words.
-/
namespace SpawnGuard.Listing
open Text

/-- A word that may stand without quotes. -/
structure Unquoted (word : Word) : Prop where
  written : word ≠ []
  visible : ∀ c ∈ word, isBlank c = false
  quote : '"' ∉ word
  hash : '#' ∉ word
  slashes : ¬ ['/', '/'] <:+: word

/-- A line that writes words in their order. What stands behind a word without quotes is white
space or nothing, so that a comment there is set apart from it. -/
inductive Laid : List Word → List Char → Prop where
  | done : Laid [] []
  | hash (text : List Char) : Laid [] ('#' :: text)
  | slashes (text : List Char) : Laid [] ('/' :: '/' :: text)
  | blank {c : Char} {words : List Word} {line : List Char} (white : isBlank c = true)
    (later : Laid words line) : Laid words (c :: line)
  | quoted {text : List Char} {words : List Word} {line : List Char} (plain : '"' ∉ text)
    (later : Laid words line) : Laid (text :: words) ('"' :: text ++ '"' :: line)
  | bare {word : Word} {words : List Word} {line : List Char} (unquoted : Unquoted word)
    (behind : ∀ c ∈ line.head?, isBlank c = true) (later : Laid words line) :
    Laid (word :: words) (word ++ line)

variable {c : Char} {quoted : Bool} {line rest : List Char} {word : Word} {words : List Word}

theorem stripComment_cons (quoted : Bool) (c : Char) (rest : List Char) :
    stripComment quoted (c :: rest) =
      if c = '"' then c :: stripComment (!quoted) rest
      else if quoted = false ∧ (c = '#' ∨ c = '/' ∧ rest.head? = some '/') then []
      else c :: stripComment quoted rest := by
  by_cases quote : c = '"'
  · subst quote
    rw [stripComment, if_pos rfl]
  rw [if_neg quote]
  by_cases hash : c = '#'
  · subst hash
    cases quoted <;> simp [stripComment]
  by_cases slashes : c = '/' ∧ rest.head? = some '/'
  · obtain ⟨rfl, second⟩ := slashes
    obtain ⟨tail, rfl⟩ := List.head?_eq_some_iff.mp second
    cases quoted <;> simp [stripComment]
  · rw [if_neg fun cut => cut.2.elim hash slashes, stripComment]
    · exact quote
    · exact hash
    · rintro tail rfl rfl
      exact slashes ⟨rfl, rfl⟩

/-- White space is kept wherever it stands. -/
theorem stripComment_blank (white : isBlank c = true) (rest : List Char) :
    stripComment false (c :: rest) = c :: stripComment false rest := by
  rw [stripComment_cons, if_neg, if_neg]
  · rintro ⟨_, rfl | ⟨rfl, _⟩⟩ <;> cases white
  · rintro rfl
    cases white

/-- A word that may stand without quotes is kept, and what is behind it is looked at anew. -/
theorem stripComment_unquoted (quote : '"' ∉ word) (hash : '#' ∉ word)
    (slashes : ¬ ['/', '/'] <:+: word) (behind : rest.head? ≠ some '/') :
    stripComment false (word ++ rest) = word ++ stripComment false rest := by
  induction word with
  | nil => rfl
  | cons c word ih =>
    have later : stripComment false (word ++ rest) = word ++ stripComment false rest :=
      ih (fun inside => quote (List.mem_cons_of_mem c inside))
        (fun inside => hash (List.mem_cons_of_mem c inside))
        fun inside => slashes (List.infix_cons inside)
    rw [List.cons_append, stripComment_cons, if_neg, if_neg, later, List.cons_append]
    · rintro ⟨_, rfl | ⟨rfl, second⟩⟩
      · exact hash List.mem_cons_self
      · cases word with
        | nil => exact behind second
        | cons d word =>
          cases second
          exact slashes (List.prefix_append ['/', '/'] word).isInfix
    · rintro rfl
      exact quote List.mem_cons_self

theorem words?_blanks (white : ∀ c ∈ rest, isBlank c = true) (line : List Char) :
    words? (rest ++ line) = words? line := by
  induction rest with
  | nil => rfl
  | cons c rest ih =>
    rw [List.forall_mem_cons] at white
    rw [List.cons_append, words?_blank white.1, ih white.2]

theorem words?_append_blanks (white : ∀ c ∈ rest, isBlank c = true) (line : List Char) :
    words? (line ++ rest) = words? line := by
  induction line using words?.induct with
  | case1 =>
    have none := words?_blanks white []
    rwa [List.append_nil] at none
  | case2 c line blank ih => rw [List.cons_append, words?_blank blank, ih, words?_blank blank]
  | case3 line closed _ ih =>
    obtain ⟨text, behind, rfl, plain⟩ := List.eq_append_cons_of_mem closed
    have inside : ∀ c ∈ text, decide (c ≠ '"') = true := by
      intro c member
      simpa using fun same : c = '"' => plain (same ▸ member)
    rw [List.dropWhile_append_of_pos inside] at ih
    have later : words? (behind ++ rest) = words? behind := by simpa using ih
    calc words? ('"' :: (text ++ '"' :: behind) ++ rest)
        = words? ('"' :: text ++ '"' :: (behind ++ rest)) := by simp
      _ = (words? behind).map (text :: ·) := by rw [words?_quoted plain, later]
      _ = words? ('"' :: text ++ '"' :: behind) := (words?_quoted plain behind).symm
  | case4 line never _ =>
    have still : '"' ∉ line ++ rest := by
      rw [List.mem_append, not_or]
      exact ⟨never, fun inside => absurd (white _ inside) (by decide)⟩
    rw [List.cons_append, words?_eq_none.mpr (.opened still), words?_eq_none.mpr (.opened never)]
  | case5 c line visible quote ih =>
    have split : line = line.takeWhile (!isBlank ·) ++ line.dropWhile (!isBlank ·) :=
      List.takeWhile_append_dropWhile.symm
    have stops := List.head?_dropWhile_not (!isBlank ·) line
    have inside := fun d => List.mem_takeWhile_imp (p := (!isBlank ·)) (l := line) (x := d)
    generalize line.takeWhile (!isBlank ·) = word at *
    generalize line.dropWhile (!isBlank ·) = behind at *
    have run : ∀ d ∈ c :: word, isBlank d = false :=
      List.forall_mem_cons.mpr
        ⟨by simpa using visible, fun d member => by simpa using inside d member⟩
    have ends : ∀ d ∈ behind.head?, isBlank d = true := by
      intro d first
      rw [Option.mem_def.mp first] at stops
      simpa using stops
    have further : ∀ d ∈ (behind ++ rest).head?, isBlank d = true := by
      intro d first
      cases behind with
      | nil => exact white d (List.mem_of_mem_head? first)
      | cons e behind => exact ends d first
    calc words? (c :: line ++ rest)
        = words? (c :: word ++ (behind ++ rest)) := by simp [split]
      _ = (words? behind).map ((c :: word) :: ·) := by rw [words?_run quote run further, ih]
      _ = words? (c :: word ++ behind) := (words?_run quote run ends).symm
      _ = words? (c :: line) := by simp [split]

/-- White space around a line makes no difference to its words, so that it need not be cut off. -/
theorem words?_trim (line : List Char) : words? (trim line) = words? line := by
  obtain ⟨front, behind, whole, before, after⟩ := Signature.trim_surrounded line
  conv_rhs => rw [whole]
  rw [words?_blanks before, words?_append_blanks after]

/-- However words are laid out on a line, they are what is read from it. -/
theorem readWords?_of_laid (laid : Laid words line) : readWords? line = some words := by
  induction laid with
  | done | hash | slashes => simp [readWords?, stripComment, words?]
  | blank white _ ih =>
    rw [readWords?, stripComment_blank white, words?_blank white, ← readWords?, ih]
  | quoted plain _ ih => rw [readWords?_quoted plain, ih, Option.map_some]
  | @bare word words line unquoted behind _ ih =>
    obtain ⟨c, rest, rfl⟩ := List.exists_cons_of_ne_nil unquoted.written
    have apart : line.head? ≠ some '/' := fun slash => absurd (behind _ slash) (by decide)
    have kept : ∀ d ∈ (stripComment false line).head?, isBlank d = true := by
      intro d first
      obtain ⟨comment, whole⟩ := stripComment_isPrefix false line
      refine behind d ?_
      rw [← whole, List.head?_append, Option.mem_def.mp first]
      rfl
    have quote : c ≠ '"' := fun same => unquoted.quote (same ▸ List.mem_cons_self)
    rw [readWords?, stripComment_unquoted unquoted.quote unquoted.hash unquoted.slashes apart,
      words?_run quote unquoted.visible kept, ← readWords?, ih, Option.map_some]

section Bytes

/-- The bytes of a text in UTF-8. -/
def utf8 (text : List Char) : List UInt8 := text.flatMap String.utf8EncodeChar

/-- A line up to its comment, found by a look at its bytes alone. -/
def stripBytes (quoted : Bool) : List UInt8 → List UInt8
  | [] => []
  | byte :: rest =>
    if byte = '"'.toUInt8 then byte :: stripBytes (!quoted) rest
    else if quoted = false ∧
        (byte = '#'.toUInt8 ∨ byte = '/'.toUInt8 ∧ rest.head? = some '/'.toUInt8) then []
    else byte :: stripBytes quoted rest

variable {d : Char}

private theorem utf8_of_ascii (ascii : c.toNat < 128) : String.utf8EncodeChar c = [c.toUInt8] :=
  if_pos (Nat.le_of_lt_succ ascii)

private theorem le_ofNat {n : Nat} (high : 128 ≤ n) (small : n < 256) : 128 ≤ UInt8.ofNat n := by
  rw [UInt8.le_iff_toNat_le, UInt8.toNat_ofNat', Nat.mod_eq_of_lt small]
  exact high

/-- A character that is not of ASCII has no byte of ASCII. -/
private theorem le_of_mem_utf8 (wide : ¬ c.toNat < 128) :
    ∀ byte ∈ String.utf8EncodeChar c, 128 ≤ byte := by
  have long : ¬ c.val.toNat ≤ 127 := fun short => wide (Nat.lt_succ_of_le short)
  rw [String.utf8EncodeChar, if_neg long]
  split_ifs
  all_goals
    simp only [List.forall_mem_cons, List.not_mem_nil, false_imp_iff, implies_true, and_true]
  · exact ⟨le_ofNat (by omega) (by omega), le_ofNat (by omega) (by omega)⟩
  · exact ⟨le_ofNat (by omega) (by omega), le_ofNat (by omega) (by omega),
      le_ofNat (by omega) (by omega)⟩
  · exact ⟨le_ofNat (by omega) (by omega), le_ofNat (by omega) (by omega),
      le_ofNat (by omega) (by omega), le_ofNat (by omega) (by omega)⟩

private theorem toNat_toUInt8 (ascii : c.toNat < 128) : c.toUInt8.toNat = c.toNat :=
  Nat.mod_eq_of_lt (Nat.lt_trans ascii (by decide))

private theorem toUInt8_inj (here : c.toNat < 128) (there : d.toNat < 128) :
    c.toUInt8 = d.toUInt8 ↔ c = d := by
  rw [← UInt8.toNat_inj, toNat_toUInt8 here, toNat_toUInt8 there, Char.toNat_inj]

private theorem ne_of_le {byte : UInt8} (high : 128 ≤ byte) (ascii : d.toNat < 128) :
    byte ≠ d.toUInt8 := by
  rintro rfl
  rw [UInt8.le_iff_toNat_le, toNat_toUInt8 ascii] at high
  exact Nat.not_lt.mpr high ascii

private theorem utf8_cons (c : Char) (text : List Char) :
    utf8 (c :: text) = String.utf8EncodeChar c ++ utf8 text :=
  List.flatMap_cons

private theorem head?_utf8 (text : List Char) (ascii : d.toNat < 128) :
    (utf8 text).head? = some d.toUInt8 ↔ text.head? = some d := by
  cases text with
  | nil => simp [utf8]
  | cons c text =>
    rw [utf8_cons, List.head?_cons, Option.some.injEq]
    by_cases same : c.toNat < 128
    · rw [utf8_of_ascii same, List.singleton_append, List.head?_cons, Option.some.injEq,
        toUInt8_inj same ascii]
    · obtain ⟨byte, others, bytes⟩ :=
        List.exists_cons_of_ne_nil (String.utf8EncodeChar_ne_nil (c := c))
      have high := le_of_mem_utf8 same byte (bytes ▸ List.mem_cons_self)
      rw [bytes, List.cons_append, List.head?_cons, Option.some.injEq]
      exact iff_of_false (ne_of_le high ascii) fun equal => same (equal ▸ ascii)

private theorem stripBytes_high {front : List UInt8} (high : ∀ byte ∈ front, 128 ≤ byte)
    (quoted : Bool) (rest : List UInt8) :
    stripBytes quoted (front ++ rest) = front ++ stripBytes quoted rest := by
  induction front with
  | nil => rfl
  | cons byte front ih =>
    obtain ⟨here, later⟩ := List.forall_mem_cons.mp high
    have other (d : Char) (ascii : d.toNat < 128) : byte ≠ d.toUInt8 := ne_of_le here ascii
    rw [List.cons_append, stripBytes, if_neg (other '"' (by decide)), if_neg, ih later,
      List.cons_append]
    rintro ⟨_, hash | ⟨slash, _⟩⟩
    · exact other '#' (by decide) hash
    · exact other '/' (by decide) slash

/-- The bytes of a line and its characters have the comment start at the same place. -/
theorem stripBytes_utf8 (quoted : Bool) (text : List Char) :
    stripBytes quoted (utf8 text) = utf8 (stripComment quoted text) := by
  induction text generalizing quoted with
  | nil => rfl
  | cons c text ih =>
    rw [utf8_cons, stripComment_cons]
    by_cases ascii : c.toNat < 128
    · have quote : '"'.toNat < 128 := by decide
      have hash : '#'.toNat < 128 := by decide
      have slash : '/'.toNat < 128 := by decide
      rw [utf8_of_ascii ascii, List.singleton_append, stripBytes]
      simp only [toUInt8_inj ascii quote, toUInt8_inj ascii hash, toUInt8_inj ascii slash,
        head?_utf8 text slash]
      split_ifs
      · rw [ih, utf8_cons, utf8_of_ascii ascii, List.singleton_append]
      · rfl
      · rw [ih, utf8_cons, utf8_of_ascii ascii, List.singleton_append]
    · have other (d : Char) (small : d.toNat < 128) : c ≠ d := fun same => ascii (same ▸ small)
      rw [stripBytes_high (le_of_mem_utf8 ascii), ih, if_neg (other '"' (by decide)), if_neg,
        utf8_cons]
      rintro ⟨_, hash | ⟨slash, _⟩⟩
      · exact other '#' (by decide) hash
      · exact other '/' (by decide) slash

end Bytes

/-- However words are laid out on a line, between quotes or bare, with any white space around them
and a comment behind, they are what is read from it, whether white space is cut off the ends or not;
and a look at the bytes of the line finds the comment where a look at its characters does. -/
theorem laid_out_words_read_back (laid : Laid words line) :
    words? (trim (stripComment false line)) = some words ∧ readWords? line = some words ∧
      stripBytes false (utf8 line) = utf8 (stripComment false line) :=
  ⟨(words?_trim _).trans (readWords?_of_laid laid), readWords?_of_laid laid,
    stripBytes_utf8 false line⟩

/-- A line with all of it: wide white space in front, a mark inside quotes, words with nothing
between them, single slashes, and a comment with a quote right behind a closing quote. -/
def denseLine : List Char :=
  ['\u3000', '"', 'a', '#', 'b', '"', '"', '"', 'x', '/', ' ', '/', 'y', ' ', '"', '/', '/', '"',
    '#', '"']

theorem denseLine_reads_back :
    Laid [['a', '#', 'b'], [], ['x', '/'], ['/', 'y'], ['/', '/']] denseLine ∧
      readWords? denseLine = some [['a', '#', 'b'], [], ['x', '/'], ['/', 'y'], ['/', '/']] := by
  have marked : Laid [['/', '/']] [' ', '"', '/', '/', '"', '#', '"'] :=
    .blank rfl (.quoted (by decide) (.hash ['"']))
  have unquoted (word : Word) (one : word ∈ [['x', '/'], ['/', 'y']]) : Unquoted word := by
    obtain rfl | rfl := List.mem_pair.mp one
    all_goals
      refine ⟨by decide, ?_, by decide, by decide, by decide⟩
      simp only [List.forall_mem_cons, List.not_mem_nil, false_imp_iff, implies_true, and_true]
      decide
  have apart (rest : List Char) : ∀ d ∈ (' ' :: rest).head?, isBlank d = true := by
    rintro d ⟨⟩
    rfl
  have bare : Laid [['x', '/'], ['/', 'y'], ['/', '/']] (denseLine.drop 8) :=
    .bare (unquoted ['x', '/'] (by decide)) (apart _)
      (.blank rfl (.bare (unquoted ['/', 'y'] (by decide)) (apart _) marked))
  have laid : Laid [['a', '#', 'b'], [], ['x', '/'], ['/', 'y'], ['/', '/']] denseLine :=
    .blank rfl (.quoted (by decide) (.quoted (by decide) bare))
  exact ⟨laid, (laid_out_words_read_back laid).2.1⟩

end SpawnGuard.Listing
