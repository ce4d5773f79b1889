import Mathlib.Data.List.TakeWhile
import SpawnGuard.Listing.Line

/-!
Lines and words of printed text: a text is cut where its lines were joined, a word without
quotes, slashes or hash signs stands for itself, and a quoted text stands for what is between the
quotes.
-/
namespace SpawnGuard.Listing
open Text

theorem toList_join_lines (texts : List String) :
    (String.join (texts.map (· ++ "\n"))).toList =
      texts.flatMap fun text => text.toList ++ ['\n'] := by
  induction texts with
  | nil => rfl
  | cons text rest ih =>
    rw [List.map_cons, List.flatMap_cons, ← ih]
    simp [String.join_cons]

theorem lines_append {text : List Char} (single : '\n' ∉ text) (last : text.getLast? ≠ some '\r')
    (rest : List Char) : lines (text ++ '\n' :: rest) = text :: lines rest := by
  induction text with
  | nil => rfl
  | cons c text ih =>
    have feed : c ≠ '\n' := fun same => single (same ▸ List.mem_cons_self)
    have inner : '\n' ∉ text := fun inside => single (List.mem_cons_of_mem c inside)
    have shorter : lines (text ++ '\n' :: rest) = text :: lines rest := by
      cases text with
      | nil => rfl
      | cons d text => exact ih inner (by simpa using last)
    rw [List.cons_append, lines, shorter]
    · exact feed
    · rintro tail rfl same
      cases text with
      | nil => exact last rfl
      | cons d text =>
        cases same
        exact inner List.mem_cons_self

/-- Texts joined by line feeds are the lines of the whole. -/
theorem lines_flatMap {texts : List (List Char)}
    (fit : ∀ text ∈ texts, '\n' ∉ text ∧ text.getLast? ≠ some '\r') :
    lines (texts.flatMap (· ++ ['\n'])) = texts := by
  induction texts with
  | nil => rfl
  | cons text rest ih =>
    obtain ⟨⟨single, last⟩, others⟩ := List.forall_mem_cons.mp fit
    rw [List.flatMap_cons, List.append_assoc, List.singleton_append, lines_append single last,
      ih others]

/-- Characters that end no word and start no quote or comment. -/
def isBare (c : Char) : Bool := !isBlank c && c ≠ '"' && c ≠ '#' && c ≠ '/'

theorem isBare_iff {c : Char} :
    isBare c = true ↔ isBlank c = false ∧ c ≠ '"' ∧ c ≠ '#' ∧ c ≠ '/' := by
  simp [isBare, and_assoc]

/-- A word that stands for itself wherever it is written. -/
structure Bare (word : Word) : Prop where
  written : word ≠ []
  plain : ∀ c ∈ word, isBare c = true

theorem stripComment_bare {word : List Char} (plain : ∀ c ∈ word, isBare c = true) (quoted : Bool)
    (rest : List Char) : stripComment quoted (word ++ rest) = word ++ stripComment quoted rest := by
  induction word with
  | nil => rfl
  | cons c word ih =>
    obtain ⟨first, others⟩ := List.forall_mem_cons.mp plain
    obtain ⟨_, quote, hash, slash⟩ := isBare_iff.mp first
    rw [List.cons_append, stripComment, ih others]
    · rfl
    · exact quote
    · exact hash
    · exact fun _ same _ => slash same

private theorem stripComment_inside {c : Char} (quote : c ≠ '"') (rest : List Char) :
    stripComment true (c :: rest) = c :: stripComment true rest := by
  rw [stripComment.eq_def]
  split
  · contradiction
  · rename_i same
    cases same
    exact absurd rfl quote
  · rename_i same
    cases same
    rfl
  · rename_i same
    cases same
    rfl
  · rename_i same
    cases same
    rfl

theorem stripComment_quoted {text : List Char} (plain : '"' ∉ text) (rest : List Char) :
    stripComment true (text ++ '"' :: rest) = text ++ '"' :: stripComment false rest := by
  induction text with
  | nil => rfl
  | cons c text ih =>
    have quote : c ≠ '"' := fun same => plain (same ▸ List.mem_cons_self)
    have shorter := ih fun inside => plain (List.mem_cons_of_mem c inside)
    rw [List.cons_append, stripComment_inside quote, shorter, List.cons_append]

theorem words?_blank {c : Char} (blank : isBlank c = true) (rest : List Char) :
    words? (c :: rest) = words? rest := by
  rw [words?, if_pos blank]

theorem words?_run {c : Char} {word rest : List Char} (quote : c ≠ '"')
    (run : ∀ d ∈ c :: word, isBlank d = false) (behind : ∀ d ∈ rest.head?, isBlank d = true) :
    words? (c :: word ++ rest) = (words? rest).map ((c :: word) :: ·) := by
  obtain ⟨visible, others⟩ := List.forall_mem_cons.mp run
  have inside : ∀ d ∈ word, (!isBlank d) = true := fun d member => by simp [others d member]
  have stop : rest.takeWhile (!isBlank ·) = [] ∧ rest.dropWhile (!isBlank ·) = rest := by
    cases rest with
    | nil => exact ⟨rfl, rfl⟩
    | cons d rest =>
      have blank := behind d rfl
      simp [blank]
  rw [List.cons_append, words?, if_neg (by simp [visible]), if_neg quote,
    List.takeWhile_append_of_pos inside, List.dropWhile_append_of_pos inside, stop.1, stop.2,
    List.append_nil]

theorem words?_bare {word : Word} (bare : Bare word) {rest : List Char}
    (behind : ∀ c ∈ rest.head?, isBlank c = true) :
    words? (word ++ rest) = (words? rest).map (word :: ·) := by
  cases word with
  | nil => exact absurd rfl bare.written
  | cons c word =>
    obtain ⟨_, quote, _⟩ := isBare_iff.mp (bare.plain c List.mem_cons_self)
    exact words?_run quote (fun d member => (isBare_iff.mp (bare.plain d member)).1) behind

theorem words?_quoted {text : List Char} (plain : '"' ∉ text) (rest : List Char) :
    words? ('"' :: text ++ '"' :: rest) = (words? rest).map (text :: ·) := by
  have inside : ∀ c ∈ text, decide (c ≠ '"') = true := by
    intro c member
    simpa using fun same : c = '"' => plain (same ▸ member)
  rw [List.cons_append, words?, if_neg (by decide), if_pos rfl, if_pos (by simp),
    List.takeWhile_append_of_pos inside, List.dropWhile_append_of_pos inside]
  simp

theorem readWords?_indented (line : List Char) : readWords? (' ' :: line) = readWords? line :=
  words?_blank rfl _

theorem readWords?_word {word : Word} (bare : Bare word) : readWords? word = some [word] := by
  have strip : stripComment false word = word := by
    simpa [stripComment] using stripComment_bare bare.plain false []
  have single : words? (word ++ []) = (words? []).map (word :: ·) := words?_bare bare (by simp)
  rw [readWords?, strip]
  rwa [List.append_nil, words?] at single

theorem readWords?_space {word : Word} (bare : Bare word) (rest : List Char) :
    readWords? (word ++ ' ' :: rest) = (readWords? rest).map (word :: ·) := by
  have blank : stripComment false (' ' :: rest) = ' ' :: stripComment false rest := rfl
  rw [readWords?, stripComment_bare bare.plain, blank, words?_bare bare (by simp; rfl),
    words?_blank rfl]
  rfl

theorem readWords?_quoted {text : List Char} (plain : '"' ∉ text) (rest : List Char) :
    readWords? ('"' :: text ++ '"' :: rest) = (readWords? rest).map (text :: ·) := by
  have strip : stripComment false ('"' :: text ++ '"' :: rest) =
      '"' :: text ++ '"' :: stripComment false rest := by
    rw [List.cons_append, stripComment, Bool.not_false, stripComment_quoted plain, List.cons_append]
  rw [readWords?, strip, words?_quoted plain, readWords?]

end SpawnGuard.Listing
