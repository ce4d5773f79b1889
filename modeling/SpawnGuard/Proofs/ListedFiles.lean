import Mathlib.Data.List.Lex
import Mathlib.Data.List.Sort
import Mathlib.Data.String.Basic
import SpawnGuard.Batch.Run
import SpawnGuard.Proofs.Walks

/-!
The listings below a directory. A walk that does not fail comes to all of them, each once, in the
order of their names.
-/
namespace SpawnGuard

namespace FileTree

variable {tree : FileTree} {input : Path} {place names : List String} {content : ByteArray}

/-- A file whose name is that of a listing stands below a place. -/
def HasListing (tree : FileTree) (place names : List String) : Prop :=
  (∃ content, tree.file? (place ++ names) = some content) ∧
    names.getLast?.any ListingFile.isListing = true

section Entries

def fileBelow? (place : List String) (entry : List String × FileEntry) : Option (List String) :=
  match entry with
  | (_, .directory) => none
  | (names, .file _) => if place.isPrefixOf names then some (names.drop place.length) else none

theorem fileBelow?_eq_some {entry : List String × FileEntry} :
    fileBelow? place entry = some names ↔
      ∃ content, entry = (place ++ names, .file content) := by
  obtain ⟨key, content | _⟩ := entry
  · show (if place.isPrefixOf key = true then some (key.drop place.length) else none) = _ ↔ _
    constructor
    · intro below
      split at below
      · rename_i ahead
        obtain ⟨rest, rfl⟩ := List.isPrefixOf_iff_prefix.mp ahead
        rw [List.drop_left] at below
        cases below
        exact ⟨content, rfl⟩
      · cases below
    · rintro ⟨_, same⟩
      cases same
      rw [if_pos (List.isPrefixOf_iff_prefix.mpr (List.prefix_append _ _)), List.drop_left]
  · simp [fileBelow?]

theorem Sound.mem_fileBelow? (sound : tree.Sound) :
    names ∈ tree.entries.filterMap (fileBelow? place) ↔
      ∃ content, tree.file? (place ++ names) = some content := by
  rw [List.mem_filterMap]
  constructor
  · rintro ⟨entry, listed, below⟩
    obtain ⟨content, rfl⟩ := fileBelow?_eq_some.mp below
    exact ⟨content, file?_eq_some.mpr (sound.find?_eq_some listed)⟩
  · rintro ⟨content, file⟩
    have found := file?_eq_some.mp file
    have named : place ++ names ≠ [] := by
      intro root
      rw [root] at found
      cases found
    exact ⟨_, mem_of_find? found named, fileBelow?_eq_some.mpr ⟨content, rfl⟩⟩

/-- The listings below a place, in the order of entries. -/
def listings (tree : FileTree) (place : List String) : List (List String) :=
  (tree.entries.filterMap (fileBelow? place)).filter (·.getLast?.any ListingFile.isListing)

theorem Sound.mem_listings (sound : tree.Sound) :
    names ∈ tree.listings place ↔ tree.HasListing place names := by
  unfold listings
  rw [List.mem_filter, sound.mem_fileBelow?]
  rfl

theorem Sound.nodup_listings (sound : tree.Sound) : (tree.listings place).Nodup := by
  have leads (entry : List String × FileEntry) (names : List String)
      (below : fileBelow? place entry = some names) : entry.1 = place ++ names := by
    obtain ⟨content, rfl⟩ := fileBelow?_eq_some.mp below
    rfl
  exact (sound.nodup_filterMap leads).filter _

/-- The listings below a place have one order by their names. -/
theorem Sound.exists_sorted (sound : tree.Sound) (place : List String) :
    ∃ listings : List (List String),
      (∀ names, names ∈ listings ↔ tree.HasListing place names) ∧ listings.Pairwise (· < ·) := by
  refine ⟨(tree.listings place).mergeSort (· ≤ ·), fun names => ?_, ?_⟩
  · exact (List.mergeSort_perm _ _).mem_iff.trans sound.mem_listings
  · exact (List.sortedLE_mergeSort.sortedLT_of_nodup sound.nodup_listings.mergeSort).pairwise

end Entries

end FileTree

namespace FileTree.Walked

variable {tree : FileTree} {input : Path} {place names : List String}
  {told : List (Except String WalkEntry)} {entries : List WalkEntry}

/-- The listings among what is met come in their one order. -/
theorem listings_eq (walked : tree.Walked input place [[]] told) (closed : tree.Closed)
    (all : Walk.collect told = .ok entries) {listings : List (List String)}
    (whole : ∀ names, names ∈ listings ↔ tree.HasListing place names)
    (sorted : listings.Pairwise (· < ·)) :
    (entries.filter Batch.isListing).map WalkEntry.names = listings := by
  have inOrder : ((entries.filter Batch.isListing).map WalkEntry.names).Pairwise (· < ·) :=
    (walked.sorted_entries closed (List.pairwise_singleton _ _) all).sublist
      (List.filter_sublist.map WalkEntry.names)
  refine inOrder.eq_of_mem_iff sorted fun names => ?_
  rw [whole, List.mem_map]
  constructor
  · rintro ⟨⟨_, isFile⟩, listed, rfl⟩
    obtain ⟨met, listing⟩ := List.mem_filter.mp listed
    obtain ⟨rfl, named⟩ := Bool.and_eq_true_iff.mp listing
    exact ⟨((walked.mem_entries_iff closed all _).mp met).2, named⟩
  · rintro ⟨file, named⟩
    have met := (walked.mem_entries_iff closed all ⟨names, true⟩).mpr
      ⟨⟨[], List.mem_cons_self, List.nil_prefix⟩, file⟩
    exact ⟨_, List.mem_filter.mpr ⟨met, named⟩, rfl⟩

end FileTree.Walked

end SpawnGuard
