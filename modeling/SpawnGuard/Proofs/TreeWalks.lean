import Mathlib.Data.List.MinMax
import Mathlib.Data.List.Sort
import Mathlib.Data.String.Basic
import SpawnGuard.Files.Tree
import SpawnGuard.Proofs.Walks

/-!
The walk of a tree held in memory: its recursion meets what is to be met.
-/
namespace SpawnGuard.FileTree

variable {tree : FileTree} {input : Path} {place names : List String}

section Names

theorem nameIn?_eq_some {entry : List String × FileEntry} {name : String} :
    nameIn? place entry = some name ↔ entry.1 = place ++ [name] := by
  unfold nameIn?
  constructor
  · intro held
    split at held
    · rename_i outer
      obtain ⟨front, split⟩ := List.getLast?_eq_some_iff.mp held
      rw [← outer, split, List.dropLast_concat]
    · cases held
  · intro same
    rw [same, List.dropLast_concat, if_pos rfl, List.getLast?_concat]

theorem Sound.mem_namesIn (sound : tree.Sound) (place : List String) (name : String) :
    name ∈ tree.namesIn place ↔ tree.find? (place ++ [name]) ≠ none := by
  unfold namesIn
  rw [(List.mergeSort_perm _ _).mem_iff, List.mem_filterMap]
  constructor
  · rintro ⟨⟨key, content⟩, listed, held⟩
    obtain rfl : key = _ := nameIn?_eq_some.mp held
    rw [sound.find?_eq_some listed]
    exact Option.some_ne_none _
  · intro there
    obtain ⟨entry, found⟩ := Option.ne_none_iff_exists'.mp there
    exact ⟨_, mem_of_find? found (by simp), nameIn?_eq_some.mpr rfl⟩

theorem Sound.sorted_namesIn (sound : tree.Sound) (place : List String) :
    (tree.namesIn place).Pairwise (· < ·) := by
  have once : (tree.entries.filterMap (nameIn? place)).Nodup :=
    sound.nodup_filterMap fun _ _ => nameIn?_eq_some.mp
  exact (List.sortedLE_mergeSort.sortedLT_of_nodup once.mergeSort).pairwise

theorem le_height {entry : List String × FileEntry} (listed : entry ∈ tree.entries) :
    entry.1.length ≤ tree.height :=
  List.le_max_of_le' 0 (List.mem_map_of_mem listed) (le_refl _)

end Names

namespace Walked

variable {pending more : List (List String)} {told others : List (Except String WalkEntry)}

/-- Two rows are gone through one after the other. -/
theorem append (first : tree.Walked input place pending told)
    (second : tree.Walked input place more others) :
    tree.Walked input place (pending ++ more) (told ++ others) := by
  induction first with
  | done => exact second
  | file file _ ih => exact .file file ih
  | opened directory taken sorted whole _ ih =>
    refine .opened directory taken sorted whole ?_
    rwa [List.append_assoc] at ih
  | closed directory refused _ ih => exact .closed directory refused ih

theorem flatMap {inside : List String} {lead : String → List String}
    {tell : String → List (Except String WalkEntry)}
    (each : ∀ name ∈ inside, tree.Walked input place [lead name] (tell name)) :
    tree.Walked input place (inside.map lead) (inside.flatMap tell) := by
  induction inside with
  | nil => exact .done
  | cons name rest ih =>
    exact (each name List.mem_cons_self).append
      (ih fun other listed => each other (List.mem_cons_of_mem _ listed))

end Walked

/-- From what stands in the tree on, everything is met if it is looked far enough down. -/
theorem Sound.walked_meet (sound : tree.Sound) {depth : Nat}
    (there : tree.find? (place ++ names) ≠ none)
    (deep : tree.height < (place ++ names).length + depth) :
    tree.Walked input place [names] (tree.meet input place depth names) := by
  induction depth generalizing names with
  | zero =>
    -- Nothing stands deeper than the tree is high.
    obtain ⟨entry, found⟩ := Option.ne_none_iff_exists'.mp there
    have named : place ++ names ≠ [] := by
      intro root
      rw [root] at deep
      exact Nat.not_lt_zero _ deep
    exact absurd deep (Nat.not_lt.mpr (le_height (mem_of_find? found named)))
  | succ depth ih =>
    rw [meet]
    by_cases directory : tree.isDirectory (place ++ names) = true
    · rw [if_pos directory]
      cases taken : checkPath (input.below names) with
      | error fault => exact .closed directory (by rw [taken]; exact nofun) .done
      | ok =>
        have held (name : String) := sound.mem_namesIn (place ++ names) name
        simp only [List.append_assoc] at held
        refine .opened directory taken (sound.sorted_namesIn _) held ?_
        rw [List.append_nil]
        refine Walked.flatMap fun name listed => ih ((held name).mp listed) ?_
        rw [← List.append_assoc, List.length_append, List.length_singleton]
        omega
    · rw [if_neg directory]
      obtain ⟨entry, found⟩ := Option.ne_none_iff_exists'.mp there
      cases entry with
      | file content => exact .file (file?_eq_some.mpr found) .done
      | directory => exact absurd (isDirectory_iff.mpr found) directory

instance : LawfulWalker where
  walked {tree input place} sound resolved directory := by
    refine ⟨_, rfl, ?_⟩
    have told : tree.meetAll input = tree.meet input place (tree.height + 1) [] := by
      unfold meetAll
      rw [resolved]
    rw [told]
    rw [← List.append_nil place] at directory
    refine sound.walked_meet ?_ (by omega)
    rw [isDirectory_iff.mp directory]
    exact Option.some_ne_none _

end SpawnGuard.FileTree
