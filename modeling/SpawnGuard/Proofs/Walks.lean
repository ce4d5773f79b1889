import SpawnGuard.Files.Walk
import SpawnGuard.Proofs.FilePlaces

/-!
Walks below a directory of a tree of files. What is still to be met is kept in a row; a directory
that can be read puts what it holds in front of the row. Such a walk meets everything below the
names in the row once, in the order of names, if it does not fail on a directory.
-/
namespace SpawnGuard

namespace Walk

variable {entry : WalkEntry} {entries : List WalkEntry} {told : List (Except String WalkEntry)}
  {fault : String}

theorem collect_ok (entry : WalkEntry) (told : List (Except String WalkEntry)) :
    collect (.ok entry :: told) = (collect told).map (entry :: ·) := by
  unfold collect
  rw [List.mapM_cons]
  cases List.mapM id told <;> rfl

theorem collect_ok_eq_ok :
    collect (.ok entry :: told) = .ok entries ↔
      ∃ later, collect told = .ok later ∧ entry :: later = entries := by
  rw [collect_ok]
  cases collect told <;> simp [Except.map]

theorem collect_ok_eq_error :
    collect (.ok entry :: told) = .error fault ↔ collect told = .error fault := by
  rw [collect_ok]
  cases collect told <;> simp [Except.map]

theorem collect_error (fault : String) (told : List (Except String WalkEntry)) :
    collect (.error fault :: told) = .error fault := by
  unfold collect
  rw [List.mapM_cons]
  rfl

theorem collect_fault_ne_ok (entry : WalkEntry) (fault : String)
    (told : List (Except String WalkEntry)) (entries : List WalkEntry) :
    collect (.ok entry :: .error fault :: told) ≠ .ok entries := by
  rw [collect_ok, collect_error]
  exact nofun

end Walk

namespace FileTree

/-- What is told by a walk that has still to come by the names in a row. -/
inductive Walked (tree : FileTree) (input : Path) (place : List String) :
    List (List String) → List (Except String WalkEntry) → Prop where
  | done : Walked tree input place [] []
  | file {names : List String} {pending : List (List String)}
    {later : List (Except String WalkEntry)} {content : ByteArray}
    (file : tree.file? (place ++ names) = some content)
    (onward : Walked tree input place pending later) :
    Walked tree input place (names :: pending) (.ok ⟨names, true⟩ :: later)
  | opened {names inside : List String} {pending : List (List String)}
    {later : List (Except String WalkEntry)}
    (directory : tree.isDirectory (place ++ names) = true)
    (taken : checkPath (input.below names) = .ok ())
    (sorted : inside.Pairwise (· < ·))
    (whole : ∀ name, name ∈ inside ↔ tree.find? (place ++ (names ++ [name])) ≠ none)
    (onward : Walked tree input place (inside.map (names ++ [·]) ++ pending) later) :
    Walked tree input place (names :: pending) (.ok ⟨names, false⟩ :: later)
  | closed {names : List String} {pending : List (List String)}
    {later : List (Except String WalkEntry)} {fault : String}
    (directory : tree.isDirectory (place ++ names) = true)
    (refused : checkPath (input.below names) ≠ .ok ())
    (onward : Walked tree input place pending later) :
    Walked tree input place (names :: pending) (.ok ⟨names, false⟩ :: .error fault :: later)

end FileTree

/-- A walk below a directory starts with no names to come by but those of the directory itself,
and leaves all files as they are. -/
class LawfulWalker [Walker (StateM FileTree)] : Prop where
  walked {tree : FileTree} {input : Path} {place : List String} :
    tree.Sound → tree.resolve input = .ok place → tree.isDirectory place = true →
      ∃ told, (Walker.walk input : StateM FileTree _) tree = (told, tree) ∧
        tree.Walked input place [[]] told

namespace FileTree

variable {tree : FileTree} {input : Path} {place names others : List String}
  {pending : List (List String)} {told : List (Except String WalkEntry)}
  {entries : List WalkEntry}

/-- What is met stands in the tree as what it is told to be. -/
def Meets (tree : FileTree) (place : List String) (entry : WalkEntry) : Prop :=
  if entry.isFile then ∃ content, tree.file? (place ++ entry.names) = some content
  else tree.isDirectory (place ++ entry.names) = true

theorem meets_file :
    tree.Meets place ⟨names, true⟩ ↔ ∃ content, tree.file? (place ++ names) = some content :=
  Iff.rfl

theorem meets_directory :
    tree.Meets place ⟨names, false⟩ ↔ tree.isDirectory (place ++ names) = true := Iff.rfl

theorem Meets.find?_ne_none {entry : WalkEntry} (meets : tree.Meets place entry) :
    tree.find? (place ++ entry.names) ≠ none := by
  obtain ⟨names, isFile⟩ := entry
  cases isFile with
  | true =>
    obtain ⟨content, file⟩ := meets
    rw [file?_eq_some.mp file]
    exact Option.some_ne_none _
  | false =>
    rw [isDirectory_iff.mp meets]
    exact Option.some_ne_none _

/-- What stands at one place is met as one thing only. -/
theorem Meets.unique {entry other : WalkEntry} (meets : tree.Meets place entry)
    (again : tree.Meets place other) (same : entry.names = other.names) : entry = other := by
  obtain ⟨names, isFile⟩ := entry
  obtain ⟨_, otherFile⟩ := other
  obtain rfl : names = _ := same
  cases isFile <;> cases otherFile
  · rfl
  · obtain ⟨content, file⟩ := meets_file.mp again
    rw [file?_of_isDirectory meets] at file
    cases file
  · obtain ⟨content, file⟩ := meets_file.mp meets
    rw [file?_of_isDirectory again] at file
    cases file
  · rfl

/-- Some names lead on from names in a row. -/
def Below (pending : List (List String)) (names : List String) : Prop :=
  ∃ front ∈ pending, front <+: names

theorem below_cons :
    Below (others :: pending) names ↔ others <+: names ∨ Below pending names := by
  unfold Below
  rw [List.exists_mem_cons_iff]

/-- What a directory holds and what stands below that is all there is below the directory. -/
theorem below_opened {inside : List String} (closed : tree.Closed)
    (whole : ∀ name, name ∈ inside ↔ tree.find? (place ++ (others ++ [name])) ≠ none)
    (there : tree.find? (place ++ names) ≠ none) :
    Below (others :: pending) names ↔
      names = others ∨ Below (inside.map (others ++ [·]) ++ pending) names := by
  rw [below_cons]
  constructor
  · rintro (⟨back, rfl⟩ | ⟨front, listed, ahead⟩)
    · cases back with
      | nil => exact .inl (List.append_nil others)
      | cons name rest =>
        have stands : tree.find? (place ++ (others ++ [name])) ≠ none := by
          by_cases last : rest = []
          · rwa [last] at there
          · rw [List.append_cons, ← List.append_assoc] at there
            rw [isDirectory_iff.mp (isDirectory_of_append closed there last)]
            exact Option.some_ne_none _
        refine .inr ⟨others ++ [name], List.mem_append_left _ ?_, rest, List.append_assoc _ _ _⟩
        exact List.mem_map_of_mem ((whole name).mpr stands)
    · exact .inr ⟨front, List.mem_append_right _ listed, ahead⟩
  · rintro (rfl | ⟨front, listed, ahead⟩)
    · exact .inl (List.prefix_refl _)
    · rcases List.mem_append.mp listed with held | other
      · obtain ⟨name, _, rfl⟩ := List.mem_map.mp held
        exact .inl ((List.prefix_append _ _).trans ahead)
      · exact .inr ⟨front, other, ahead⟩

theorem below_file {content : ByteArray} (closed : tree.Closed)
    (file : tree.file? (place ++ others) = some content)
    (there : tree.find? (place ++ names) ≠ none) :
    Below (others :: pending) names ↔ names = others ∨ Below pending names := by
  rw [below_cons]
  refine or_congr_left ⟨?_, fun same => same ▸ List.prefix_refl _⟩
  rintro ⟨back, rfl⟩
  by_contra more
  have named : back ≠ [] := by
    rintro rfl
    exact more (List.append_nil others)
  rw [← List.append_assoc] at there
  exact there (find?_below_file closed file named)

/-- One thing is met, and then what is below the names that are still to come. -/
private theorem mem_cons_iff_meets {entry first : WalkEntry} {later : List WalkEntry}
    {onward : List (List String)} (met : tree.Meets place first)
    (split : tree.find? (place ++ entry.names) ≠ none →
      (Below pending entry.names ↔ entry.names = first.names ∨ Below onward entry.names))
    (rest : entry ∈ later ↔ Below onward entry.names ∧ tree.Meets place entry) :
    entry ∈ first :: later ↔ Below pending entry.names ∧ tree.Meets place entry := by
  rw [List.mem_cons, rest]
  constructor
  · rintro (rfl | ⟨below, meets⟩)
    · exact ⟨(split met.find?_ne_none).mpr (.inl rfl), met⟩
    · exact ⟨(split meets.find?_ne_none).mpr (.inr below), meets⟩
  · rintro ⟨below, meets⟩
    rcases (split meets.find?_ne_none).mp below with same | below
    · exact .inl (meets.unique met same)
    · exact .inr ⟨below, meets⟩

namespace Walked

/-- A walk that does not fail meets what is below the names it had to come by, and nothing else. -/
theorem mem_entries_iff (walked : tree.Walked input place pending told) (closed : tree.Closed)
    (all : Walk.collect told = .ok entries) (entry : WalkEntry) :
    entry ∈ entries ↔ Below pending entry.names ∧ tree.Meets place entry := by
  induction walked generalizing entries with
  | done =>
    cases all
    simp [Below]
  | file file onward ih =>
    obtain ⟨later, rest, rfl⟩ := Walk.collect_ok_eq_ok.mp all
    exact mem_cons_iff_meets (meets_file.mpr ⟨_, file⟩) (below_file closed file) (ih rest)
  | opened directory taken sorted whole onward ih =>
    obtain ⟨later, rest, rfl⟩ := Walk.collect_ok_eq_ok.mp all
    exact mem_cons_iff_meets (meets_directory.mpr directory) (below_opened closed whole) (ih rest)
  | closed => exact absurd all (Walk.collect_fault_ne_ok _ _ _ _)

/-- All that one row leads to comes before all that the other one leads to. -/
def Ahead (names others : List String) : Prop :=
  ∀ back other, names ++ back < others ++ other

theorem ahead_inside {names : List String} {name other : String} (before : name < other) :
    Ahead (names ++ [name]) (names ++ [other]) := by
  intro back otherBack
  rw [List.append_assoc, List.append_assoc]
  exact List.append_left_lt (List.cons_lt_cons_iff.mpr (.inl before))

theorem Ahead.lt {names others : List String} (ahead : Ahead names others) (back : List String) :
    names < others ++ back := by
  have before := ahead [] back
  rwa [List.append_nil] at before

theorem lt_append_cons (names : List String) (name : String) (back : List String) :
    names < names ++ name :: back := by
  have before : names ++ [] < names ++ name :: back :=
    List.append_left_lt (List.nil_lt_cons name back)
  rwa [List.append_nil] at before

/-- What a walk meets comes in the order of names. -/
theorem sorted_entries (walked : tree.Walked input place pending told) (closed : tree.Closed)
    (ordered : pending.Pairwise Ahead) (all : Walk.collect told = .ok entries) :
    (entries.map WalkEntry.names).Pairwise (· < ·) := by
  induction walked generalizing entries with
  | done =>
    cases all
    exact List.Pairwise.nil
  | file file onward ih =>
    obtain ⟨later, rest, rfl⟩ := Walk.collect_ok_eq_ok.mp all
    obtain ⟨first, others⟩ := List.pairwise_cons.mp ordered
    refine List.pairwise_cons.mpr ⟨fun names listed => ?_, ih others rest⟩
    obtain ⟨entry, found, rfl⟩ := List.mem_map.mp listed
    obtain ⟨front, waiting, back, split⟩ := ((onward.mem_entries_iff closed rest entry).mp found).1
    exact split ▸ (first front waiting).lt back
  | opened directory taken sorted whole onward ih =>
    obtain ⟨later, rest, rfl⟩ := Walk.collect_ok_eq_ok.mp all
    obtain ⟨first, others⟩ := List.pairwise_cons.mp ordered
    refine List.pairwise_cons.mpr ⟨fun names listed => ?_, ih ?_ rest⟩
    · obtain ⟨entry, found, rfl⟩ := List.mem_map.mp listed
      obtain ⟨front, waiting, back, split⟩ :=
        ((onward.mem_entries_iff closed rest entry).mp found).1
      rcases List.mem_append.mp waiting with held | other
      · obtain ⟨name, _, rfl⟩ := List.mem_map.mp held
        rw [← split, List.append_assoc]
        exact lt_append_cons _ name back
      · exact split ▸ (first front other).lt back
    · refine List.pairwise_append.mpr ⟨?_, others, fun inner held other waiting => ?_⟩
      · exact List.pairwise_map.mpr (sorted.imp ahead_inside)
      · obtain ⟨name, _, rfl⟩ := List.mem_map.mp held
        intro back otherBack
        rw [List.append_assoc]
        exact first other waiting _ otherBack
  | closed => exact absurd all (Walk.collect_fault_ne_ok _ _ _ _)

/-- A walk that does not fail could read all directories it met. -/
theorem taken_of_collect (walked : tree.Walked input place pending told)
    (all : Walk.collect told = .ok entries) (met : ⟨names, false⟩ ∈ entries) :
    checkPath (input.below names) = .ok () := by
  induction walked generalizing entries with
  | done =>
    cases all
    cases met
  | file file onward ih =>
    obtain ⟨later, rest, rfl⟩ := Walk.collect_ok_eq_ok.mp all
    rcases List.mem_cons.mp met with same | met
    · cases same
    · exact ih rest met
  | opened directory taken sorted whole onward ih =>
    obtain ⟨later, rest, rfl⟩ := Walk.collect_ok_eq_ok.mp all
    rcases List.mem_cons.mp met with same | met
    · cases same
      exact taken
    · exact ih rest met
  | closed => exact absurd all (Walk.collect_fault_ne_ok _ _ _ _)

/-- A walk fails only on a directory below the names it had to come by. -/
theorem refused_of_collect (walked : tree.Walked input place pending told) {fault : String}
    (failed : Walk.collect told = .error fault) :
    ∃ names, tree.isDirectory (place ++ names) = true ∧
      checkPath (input.below names) ≠ .ok () := by
  induction walked with
  | done => cases failed
  | file _ _ ih => exact ih (Walk.collect_ok_eq_error.mp failed)
  | opened _ _ _ _ _ ih => exact ih (Walk.collect_ok_eq_error.mp failed)
  | closed directory refused => exact ⟨_, directory, refused⟩

end Walked

/-- Every directory below a place can be read on its way from the input. -/
def Readable (tree : FileTree) (input : Path) (place : List String) : Prop :=
  ∀ names, tree.isDirectory (place ++ names) = true → checkPath (input.below names) = .ok ()

/-- The directories below a place are the place itself and some of the entries. -/
theorem readable_iff_entries :
    tree.Readable input place ↔ (tree.isDirectory place = true → checkPath input = .ok ()) ∧
      ∀ entry ∈ tree.entries, tree.isDirectory entry.1 = true → place <+: entry.1 →
        checkPath (input.below (entry.1.drop place.length)) = .ok () := by
  constructor
  · intro readable
    refine ⟨fun directory => readable [] (by rwa [List.append_nil]), ?_⟩
    rintro entry listed directory ⟨names, whole⟩
    rw [← whole] at directory ⊢
    rw [List.drop_left]
    exact readable names directory
  · rintro ⟨here, inside⟩ names directory
    by_cases own : names = []
    · rw [own, List.append_nil] at directory
      rw [own]
      exact here directory
    · have named : place ++ names ≠ [] := List.append_ne_nil_of_right_ne_nil place own
      have taken := inside _ (mem_of_find? (isDirectory_iff.mp directory) named) directory
        (List.prefix_append _ _)
      rwa [List.drop_left] at taken

instance (tree : FileTree) (input : Path) (place : List String) :
    Decidable (tree.Readable input place) := decidable_of_iff _ readable_iff_entries.symm

/-- A walk from a directory on does not fail exactly if all directories below it can be read. -/
theorem Walked.readable_iff (walked : tree.Walked input place [[]] told) (closed : tree.Closed) :
    tree.Readable input place ↔ ∃ entries, Walk.collect told = .ok entries := by
  constructor
  · intro readable
    cases all : Walk.collect told with
    | ok entries => exact ⟨entries, rfl⟩
    | error fault =>
      obtain ⟨names, directory, refused⟩ := walked.refused_of_collect all
      exact absurd (readable names directory) refused
  · rintro ⟨entries, all⟩ names directory
    exact walked.taken_of_collect all ((walked.mem_entries_iff closed all ⟨names, false⟩).mpr
      ⟨⟨[], List.mem_cons_self, List.nil_prefix⟩, directory⟩)

end FileTree

end SpawnGuard
