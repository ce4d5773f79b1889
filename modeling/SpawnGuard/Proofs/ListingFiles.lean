import Mathlib.Data.List.TakeDrop
import SpawnGuard.Batch.ListingFile

/-!
What the names of listing files mean: the default names of their methods, and which are gzip files.
-/
namespace SpawnGuard

namespace ListingFile

/-- A name is left when an ending is cut off as often as it is there. -/
def Trims (ending name left : List Char) : Prop :=
  ∃ times, name = left ++ (List.replicate times ending).flatten ∧ ¬ ending <:+ left

private theorem dropReversed_eq {ending : List Char} (some : ending ≠ []) (fuel : Nat)
    {text : List Char} (enough : text.length ≤ fuel) :
    ∃ times, text = (List.replicate times ending).flatten ++ dropReversed ending fuel text ∧
      ¬ ending <+: dropReversed ending fuel text := by
  induction fuel generalizing text with
  | zero =>
    obtain rfl := List.eq_nil_of_length_eq_zero (Nat.le_zero.mp enough)
    exact ⟨0, rfl, fun ahead => some (List.prefix_nil.mp ahead)⟩
  | succ fuel ih =>
    rw [dropReversed]
    by_cases ahead : ending <+: text
    · obtain ⟨rest, rfl⟩ := ahead
      have shorter : rest.length ≤ fuel := by
        have long := List.length_pos_iff.mpr some
        rw [List.length_append] at enough
        omega
      obtain ⟨times, split, stop⟩ := ih shorter
      rw [if_pos (List.isPrefixOf_iff_prefix.mpr (List.prefix_append _ _)), List.drop_left]
      refine ⟨times + 1, ?_, stop⟩
      rw [List.replicate_succ, List.flatten_cons, List.append_assoc, ← split]
    · rw [if_neg (mt List.isPrefixOf_iff_prefix.mp ahead)]
      exact ⟨0, rfl, ahead⟩

theorem trims_dropEnding {ending : List Char} (some : ending ≠ []) (name : List Char) :
    Trims ending name (dropEnding ending name) := by
  obtain ⟨times, split, stop⟩ := dropReversed_eq (mt List.reverse_eq_nil_iff.mp some) name.length
    (Nat.le_of_eq (List.length_reverse : name.reverse.length = name.length))
  refine ⟨times, ?_, fun behind => stop ?_⟩
  · rw [← List.reverse_inj, split, dropEnding, List.reverse_append, List.reverse_reverse,
      List.reverse_flatten, List.map_replicate, List.reverse_replicate]
  · have ahead := List.reverse_prefix.mpr behind
    rwa [dropEnding, List.reverse_reverse] at ahead

private theorem packed_ne_nil : ".gz".toList ≠ [] := by simp

private theorem plain_ne_nil : ".il".toList ≠ [] := by simp

private theorem toList_methodName {path : Path} {name : String}
    (named : path.fileName? = some name) :
    (methodName path).toList = dropEnding ".il".toList (dropEnding ".gz".toList name.toList) := by
  unfold methodName
  rw [named]
  exact String.toList_ofList

/-- The default name of a method is the name of the file without its endings. -/
theorem trims_methodName {path : Path} {name : String} (named : path.fileName? = some name) :
    ∃ unpacked, Trims ".gz".toList name.toList unpacked ∧
      Trims ".il".toList unpacked (methodName path).toList := by
  refine ⟨_, trims_dropEnding packed_ne_nil _, ?_⟩
  rw [toList_methodName named]
  exact trims_dropEnding plain_ne_nil _

private theorem extension?_eq_some {path : Path} {name ending : String}
    (named : path.fileName? = some name) (found : path.extension? = some ending) :
    ending = String.ofList (name.toList.reverse.takeWhile (· ≠ '.')).reverse := by
  unfold Path.extension? at found
  rw [named, Option.bind_some, List.span_eq_takeWhile_dropWhile] at found
  dsimp only at found
  split at found
  · cases found
  · cases found
  · exact (Option.some.inj found).symm

private theorem takeWhile_reverse {front ending : List Char} (bare : '.' ∉ ending) :
    ((front ++ '.' :: ending).reverse.takeWhile (· ≠ '.')).reverse = ending := by
  rw [List.reverse_append, List.reverse_cons, List.append_assoc, List.takeWhile_append_of_pos]
  · simp
  · intro c listed
    rw [List.mem_reverse] at listed
    rw [decide_eq_true_iff]
    rintro rfl
    exact bare listed

private theorem endings_of_isListing {name : String} (listing : isListing name = true) :
    (∃ front, name.toList = front ++ '.' :: "il".toList) ∨
      ∃ front, name.toList = front ++ '.' :: "gz".toList := by
  rcases Bool.or_eq_true_iff.mp listing with plain | packed
  · obtain ⟨front, split⟩ := List.isSuffixOf_iff_suffix.mp plain
    exact .inl ⟨front, split.symm.trans (by simp)⟩
  · obtain ⟨front, split⟩ := List.isSuffixOf_iff_suffix.mp packed
    exact .inr ⟨front ++ ".il".toList, split.symm.trans (by simp)⟩

/-- The gzip files among the listings are those with the extension of gzip files. -/
theorem isGzip_iff_of_isListing {path : Path} {name : String} (named : path.fileName? = some name)
    (listing : isListing name = true) : isGzip path = true ↔ path.extension? = some "gz" := by
  unfold isGzip
  cases found : path.extension? with
  | none => simp
  | some ending =>
    have behind := extension?_eq_some named found
    rcases endings_of_isListing listing with ⟨front, split⟩ | ⟨front, split⟩
    · rw [split, takeWhile_reverse (by simp), String.ofList_toList] at behind
      simp [behind]
    · rw [split, takeWhile_reverse (by simp), String.ofList_toList] at behind
      simp [behind]

variable [Compressor]

theorem encode_of_isListing {path : Path} {name : String} (named : path.fileName? = some name)
    (listing : isListing name = true) (text : String) :
    encode path text =
      if path.extension? = some "gz" then Compressor.pack text.toUTF8 else text.toUTF8 := by
  unfold encode
  simp only [isGzip_iff_of_isListing named listing]

/-- A text is read as it was written, in a gzip file or as it is. -/
theorem decode_encode [LawfulCompressor] (path : Path) (text : String) :
    decode path (encode path text) = .ok text := by
  have utf8 : Utf8.decode text.toUTF8 = .ok text := by
    unfold Utf8.decode String.fromUTF8?
    rw [dif_pos (show text.toUTF8.IsValidUTF8 from text.isValidUTF8)]
    rfl
  unfold decode encode
  by_cases packed : isGzip path
  · rw [if_pos packed, if_pos packed, LawfulCompressor.unpack_pack]
    simp only [utf8]
  · rw [if_neg packed, if_neg packed, utf8]
    rfl

end ListingFile

end SpawnGuard
