import Mathlib.Algebra.GroupWithZero.Nat
import Mathlib.Algebra.Order.BigOperators.Group.List
import Mathlib.Algebra.Order.Group.Nat
import Mathlib.Data.List.Induction
import Mathlib.Data.List.Nodup
import SpawnGuard.Files.Tree.Basic
import SpawnGuard.Proofs.Answers
import SpawnGuard.Proofs.PathNames

/-!
Places in a tree of files: which ones a path passes, what stands at them, and when a path can be
followed to its end.
-/
namespace SpawnGuard.FileTree

section Trails

/-- Where a name leads from a place, whatever stands there. -/
def step (place : List String) (name : String) : List String :=
  if name = "" ∨ name = "." then place
  else if name = ".." then place.dropLast
  else place ++ [name]

def walk (place names : List String) : List String := names.foldl step place

/-- The places along some names, the first and the last one among them. -/
def trail (place : List String) : List String → List (List String)
  | [] => [place]
  | name :: rest => place :: trail (step place name) rest

variable {place names others : List String} {passed : List String}

theorem mem_trail_start (place names : List String) : place ∈ trail place names := by
  cases names <;> exact List.mem_cons_self

theorem walk_append (place names others : List String) :
    walk place (names ++ others) = walk (walk place names) others := List.foldl_append

theorem mem_trail_append :
    passed ∈ trail place (names ++ others) ↔
      passed ∈ trail place names ∨ passed ∈ trail (walk place names) others := by
  induction names generalizing place with
  | nil =>
    refine ⟨.inr, fun either => either.elim (fun first => ?_) id⟩
    rw [List.mem_singleton.mp first]
    exact mem_trail_start place others
  | cons name rest ih =>
    show passed ∈ place :: trail _ (rest ++ others) ↔ passed ∈ place :: trail _ rest ∨ _
    rw [List.mem_cons, List.mem_cons, ih, or_assoc]
    rfl

theorem walk_mem_trail (place names : List String) : walk place names ∈ trail place names := by
  induction names generalizing place with
  | nil => exact List.mem_singleton_self place
  | cons name rest ih => exact List.mem_cons_of_mem _ (ih _)

private theorem step_of_not_counts {name : String} (idle : ¬ Path.counts name = true) :
    step place name = place := by
  unfold Path.counts at idle
  rw [Bool.and_eq_true, decide_eq_true_iff, decide_eq_true_iff, not_and_or, not_not, not_not]
    at idle
  exact if_pos idle

theorem step_cases (place : List String) (name : String) :
    step place name = place ∨ step place name = place.dropLast ∨
      step place name = place ++ [name] := by
  unfold step
  split
  · exact .inl rfl
  split
  · exact .inr (.inl rfl)
  · exact .inr (.inr rfl)

/-- Names that do not count lead nowhere. -/
theorem walk_filter (place names : List String) :
    walk place (names.filter Path.counts) = walk place names := by
  induction names generalizing place with
  | nil => rfl
  | cons name rest ih =>
    by_cases counted : Path.counts name = true
    · rw [List.filter_cons_of_pos counted]
      exact ih _
    · rw [List.filter_cons_of_neg counted, ih]
      exact congrArg (walk · rest) (step_of_not_counts counted).symm

theorem mem_trail_filter :
    passed ∈ trail place (names.filter Path.counts) ↔ passed ∈ trail place names := by
  induction names generalizing place with
  | nil => rfl
  | cons name rest ih =>
    by_cases counted : Path.counts name = true
    · rw [List.filter_cons_of_pos counted]
      show passed ∈ place :: _ ↔ passed ∈ place :: _
      rw [List.mem_cons, List.mem_cons, ih]
    · rw [List.filter_cons_of_neg counted, ih]
      show _ ↔ passed ∈ place :: trail (step place name) rest
      rw [step_of_not_counts counted, List.mem_cons]
      refine ⟨.inr, fun either => either.elim ?_ id⟩
      rintro rfl
      exact mem_trail_start passed rest

theorem walk_kept (place names : List String) :
    walk place (Path.kept names) = walk place names := by
  unfold Path.kept
  split
  · exact walk_filter place _
  · exact walk_filter place _

theorem mem_trail_kept :
    passed ∈ trail place (Path.kept names) ↔ passed ∈ trail place names := by
  unfold Path.kept
  split
  · show passed ∈ place :: trail place _ ↔ passed ∈ place :: trail place _
    rw [List.mem_cons, List.mem_cons, mem_trail_filter]
  · exact mem_trail_filter

theorem step_of_not_isStep {name : String} (real : ¬ isStep name = true) :
    step place name = place ++ [name] := by
  simp only [isStep, Bool.or_eq_true, decide_eq_true_eq, not_or] at real
  unfold step
  rw [if_neg (not_or.mpr real.1), if_neg real.2]

theorem not_isStep {name : String} (plain : Path.Plain name) : ¬ isStep name = true := by
  unfold isStep
  simp [plain.named, plain.real, plain.inner]

theorem step_plain {name : String} (plain : Path.Plain name) : step place name = place ++ [name] :=
  step_of_not_isStep (not_isStep plain)

theorem walk_plain (plain : ∀ name ∈ names, Path.Plain name) (place : List String) :
    walk place names = place ++ names := by
  induction names generalizing place with
  | nil => exact (List.append_nil place).symm
  | cons name rest ih =>
    show walk (step place name) rest = _
    rw [step_plain (plain name List.mem_cons_self),
      ih (fun later listed => plain later (List.mem_cons_of_mem _ listed)), List.append_assoc]
    rfl

theorem mem_trail_plain (plain : ∀ name ∈ names, Path.Plain name) :
    passed ∈ trail place names ↔ ∃ front, front <+: names ∧ passed = place ++ front := by
  induction names generalizing place with
  | nil =>
    show passed ∈ [place] ↔ _
    rw [List.mem_singleton]
    constructor
    · rintro rfl
      exact ⟨[], List.nil_prefix, (List.append_nil _).symm⟩
    · rintro ⟨front, ahead, rfl⟩
      rw [List.prefix_nil.mp ahead, List.append_nil]
  | cons name rest ih =>
    show passed ∈ place :: trail (step place name) rest ↔ _
    rw [List.mem_cons, step_plain (plain name List.mem_cons_self),
      ih fun later listed => plain later (List.mem_cons_of_mem _ listed)]
    constructor
    · rintro (rfl | ⟨front, ahead, rfl⟩)
      · exact ⟨[], List.nil_prefix, (List.append_nil _).symm⟩
      · refine ⟨name :: front, List.cons_prefix_cons.mpr ⟨rfl, ahead⟩, ?_⟩
        rw [List.append_assoc]
        rfl
    · rintro ⟨front, ahead, rfl⟩
      cases front with
      | nil => exact .inl (List.append_nil _)
      | cons first front =>
        obtain ⟨rfl, shorter⟩ := List.cons_prefix_cons.mp ahead
        refine .inr ⟨front, shorter, ?_⟩
        rw [List.append_assoc]
        rfl

end Trails

/-- What a file holds, if one stands at a place. -/
def file? (tree : FileTree) (place : List String) : Option ByteArray :=
  match tree.find? place with
  | some (.file content) => some content
  | _ => none

/-- Whatever stands at a place stands in a directory. -/
def Closed (tree : FileTree) : Prop :=
  ∀ place, tree.find? place ≠ none → tree.isDirectory place.dropLast = true

/-- A tree as an operating system keeps it: every entry is there once, under a name that an entry
can have, and in a directory. -/
structure Sound (tree : FileTree) : Prop where
  apart : (tree.entries.map Prod.fst).Nodup
  named : ∀ entry ∈ tree.entries, entry.1 ≠ []
  plain : ∀ entry ∈ tree.entries, ∀ name ∈ entry.1,
    Path.Plain name ∧ name.utf8ByteSize ≤ nameLimit
  held : ∀ entry ∈ tree.entries, tree.isDirectory entry.1.dropLast = true
  here : tree.isDirectory tree.here = true

instance (tree : FileTree) : Decidable tree.Sound :=
  decidable_of_iff ((tree.entries.map Prod.fst).Nodup ∧ (∀ entry ∈ tree.entries, entry.1 ≠ []) ∧
      (∀ entry ∈ tree.entries, ∀ name ∈ entry.1,
        Path.Plain name ∧ name.utf8ByteSize ≤ nameLimit) ∧
      (∀ entry ∈ tree.entries, tree.isDirectory entry.1.dropLast = true) ∧
      tree.isDirectory tree.here = true)
    ⟨fun ⟨apart, named, plain, held, here⟩ => ⟨apart, named, plain, held, here⟩,
      fun ⟨apart, named, plain, held, here⟩ => ⟨apart, named, plain, held, here⟩⟩

section Entries

variable {tree : FileTree} {place names : List String} {content : ByteArray}

theorem isDirectory_iff : tree.isDirectory place = true ↔ tree.find? place = some .directory := by
  unfold isDirectory
  cases found : tree.find? place with
  | none => simp
  | some entry => cases entry <;> simp

theorem isDirectory_root (tree : FileTree) : tree.isDirectory [] = true :=
  isDirectory_iff.mpr rfl

theorem file?_eq_some :
    tree.file? place = some content ↔ tree.find? place = some (.file content) := by
  unfold file?
  cases found : tree.find? place with
  | none => simp
  | some entry => cases entry <;> simp

theorem file?_of_isDirectory (directory : tree.isDirectory place = true) :
    tree.file? place = none := by
  rw [file?, isDirectory_iff.mp directory]

/-- At a place where no file is there is a directory or nothing. -/
theorem isDirectory_of_file?_eq_none (clear : tree.file? place = none)
    (found : tree.find? place ≠ none) : tree.isDirectory place = true := by
  rw [isDirectory_iff]
  obtain ⟨entry, there⟩ := Option.ne_none_iff_exists'.mp found
  rw [file?, there] at clear
  cases entry with
  | file content => cases clear
  | directory => exact there

theorem isDirectory_of_append (closed : tree.Closed) (found : tree.find? (place ++ names) ≠ none)
    (named : names ≠ []) : tree.isDirectory place = true := by
  induction names using List.reverseRecOn with
  | nil => exact absurd rfl named
  | append_singleton front last ih =>
    have inner := closed _ found
    rw [← List.append_assoc, List.dropLast_concat] at inner
    by_cases bare : front = []
    · rwa [bare, List.append_nil] at inner
    · refine ih ?_ bare
      rw [isDirectory_iff.mp inner]
      exact Option.some_ne_none _

/-- Nothing lies below a file. -/
theorem find?_below_file (closed : tree.Closed) (file : tree.file? place = some content)
    (named : names ≠ []) : tree.find? (place ++ names) = none := by
  by_contra found
  rw [file?_of_isDirectory (isDirectory_of_append closed found named)] at file
  cases file

theorem find?_put (named : place ≠ []) (entry : FileEntry) (other : List String) :
    (tree.put place entry).find? other =
      if other = place then some entry else tree.find? other := by
  unfold put find?
  by_cases same : other = place
  · rw [if_pos same, if_neg (by rw [same, List.isEmpty_iff]; exact named), same]
    exact List.lookup_cons_self
  · rw [if_neg same]
    split
    · rfl
    · rw [List.lookup_cons, beq_eq_false_iff_ne.mpr same]
      show (tree.entries.filter _).lookup other = _
      induction tree.entries with
      | nil => rfl
      | cons first rest ih =>
        by_cases gone : first.1 = place
        · rw [List.filter_cons_of_neg (by simp [gone]), ih, List.lookup_cons,
            beq_eq_false_iff_ne.mpr (by rwa [gone])]
        · rw [List.filter_cons_of_pos (by simp [gone]), List.lookup_cons, List.lookup_cons, ih]

theorem Closed.put (closed : tree.Closed) (named : place ≠ [])
    (held : tree.isDirectory place.dropLast = true) (free : ¬ tree.isDirectory place = true)
    (entry : FileEntry) : (tree.put place entry).Closed := by
  have apart {inner : List String} (directory : tree.isDirectory inner = true) :
      (tree.put place entry).isDirectory inner = true := by
    rw [isDirectory_iff, find?_put named, if_neg (by rintro rfl; exact free directory)]
    exact isDirectory_iff.mp directory
  intro other found
  rw [find?_put named] at found
  by_cases same : other = place
  · rw [same]
    exact apart held
  · rw [if_neg same] at found
    exact apart (closed other found)

theorem mem_of_find? {entry : FileEntry} (found : tree.find? place = some entry)
    (named : place ≠ []) : (place, entry) ∈ tree.entries := by
  unfold find? at found
  rw [if_neg (mt List.isEmpty_iff.mp named)] at found
  obtain ⟨before, after, same, _⟩ := List.lookup_eq_some_iff.mp found
  rw [same]
  exact List.mem_append_right _ List.mem_cons_self

theorem Sound.find?_eq_some (sound : tree.Sound) {entry : FileEntry}
    (listed : (place, entry) ∈ tree.entries) : tree.find? place = some entry := by
  unfold find?
  rw [if_neg (mt List.isEmpty_iff.mp (sound.named _ listed)), List.lookup_eq_some_iff]
  obtain ⟨before, after, same⟩ := List.append_of_mem listed
  refine ⟨before, after, same, fun earlier found => ?_⟩
  have apart := sound.apart
  rw [same, List.map_append, List.nodup_append] at apart
  rw [bne_iff_ne]
  exact (apart.2.2 earlier.1 (List.mem_map_of_mem found) place List.mem_cons_self).symm

private theorem filterMap_sublist {α : Type} {pick : List String × FileEntry → Option α}
    {lead : α → List String} (leads : ∀ entry item, pick entry = some item → entry.1 = lead item)
    (entries : List (List String × FileEntry)) :
    ((entries.filterMap pick).map lead).Sublist (entries.map Prod.fst) := by
  induction entries with
  | nil => exact List.Sublist.slnil
  | cons entry rest ih =>
    cases picked : pick entry with
    | none =>
      rw [List.filterMap_cons_none picked]
      exact ih.cons _
    | some item =>
      rw [List.filterMap_cons_some picked, List.map_cons, List.map_cons, leads entry item picked]
      exact ih.cons_cons _

/-- What is picked from the entries of a tree comes once if it says where its entry is. -/
theorem Sound.nodup_filterMap (sound : tree.Sound) {α : Type}
    {pick : List String × FileEntry → Option α} {lead : α → List String}
    (leads : ∀ entry item, pick entry = some item → entry.1 = lead item) :
    (tree.entries.filterMap pick).Nodup :=
  List.Nodup.of_map lead (sound.apart.sublist (filterMap_sublist leads tree.entries))

theorem Sound.closed (sound : tree.Sound) : tree.Closed := by
  intro place found
  by_cases root : place = []
  · rw [root]
    exact tree.isDirectory_root
  · obtain ⟨entry, there⟩ := Option.ne_none_iff_exists'.mp found
    exact sound.held _ (mem_of_find? there root)

end Entries

section Following

variable {tree : FileTree} {place names : List String}

theorem follow_append (tree : FileTree) (place front back : List String) :
    tree.follow place (front ++ back) =
      tree.follow place front >>= fun between => tree.follow between back := by
  induction front generalizing place with
  | nil => rfl
  | cons name rest ih =>
    rw [List.cons_append, follow, follow]
    split
    · rfl
    split
    · exact ih place
    split
    · exact ih _
    split
    · rfl
    split
    · rfl
    · exact ih _

/-- From a directory each name leads to the place that it names, or nothing is there. -/
theorem follow_cons (closed : tree.Closed) (start : tree.isDirectory place = true) {name : String}
    (fits : name.utf8ByteSize ≤ nameLimit) (rest : List String) :
    tree.follow place (name :: rest) =
      if tree.find? (step place name) = none then .error .notFound
      else tree.follow (step place name) rest := by
  have here : tree.find? place ≠ none := by
    rw [isDirectory_iff.mp start]
    exact Option.some_ne_none _
  rw [follow, if_neg (not_not.mpr start), if_neg (Nat.not_lt.mpr fits)]
  unfold step
  split
  · rfl
  split
  · have outer : tree.find? place.dropLast ≠ none := by
      rw [isDirectory_iff.mp (closed place here)]
      exact Option.some_ne_none _
    rw [if_neg outer]
  · simp only [Option.isNone_iff_eq_none]

/-- Names are followed to where they lead if all that they pass are directories. -/
theorem follow_eq_ok (closed : tree.Closed)
    (short : ∀ name ∈ names, name.utf8ByteSize ≤ nameLimit)
    (passable : ∀ passed ∈ trail place names, tree.isDirectory passed = true) :
    tree.follow place names = .ok (walk place names) := by
  induction names generalizing place with
  | nil => rfl
  | cons name rest ih =>
    have onward (passed : List String) (listed : passed ∈ trail (step place name) rest) :=
      passable passed (List.mem_cons_of_mem place listed)
    have next := onward _ (mem_trail_start _ _)
    rw [follow_cons closed (passable place List.mem_cons_self) (short name List.mem_cons_self),
      if_neg (by rw [isDirectory_iff.mp next]; exact Option.some_ne_none _)]
    exact ih (fun later listed => short later (List.mem_cons_of_mem _ listed)) onward

/-- Where no file is in the way, names are followed to their end or miss a directory. -/
theorem follow_clear (closed : tree.Closed) (start : tree.isDirectory place = true)
    (short : ∀ name ∈ names, name.utf8ByteSize ≤ nameLimit)
    (clear : ∀ passed ∈ trail place names, tree.file? passed = none) :
    (∀ passed ∈ trail place names, tree.isDirectory passed = true) ∨
      tree.follow place names = .error .notFound := by
  induction names generalizing place with
  | nil =>
    refine .inl fun passed listed => ?_
    rwa [List.mem_singleton.mp listed]
  | cons name rest ih =>
    have onward (passed : List String) (listed : passed ∈ trail (step place name) rest) :=
      clear passed (List.mem_cons_of_mem place listed)
    rw [follow_cons closed start (short name List.mem_cons_self)]
    by_cases missing : tree.find? (step place name) = none
    · exact .inr (if_pos missing)
    · rw [if_neg missing]
      have next := isDirectory_of_file?_eq_none (onward _ (mem_trail_start _ _)) missing
      refine (ih next (fun later listed => short later (List.mem_cons_of_mem _ listed))
        onward).imp_left fun rest passed listed => ?_
      rcases List.mem_cons.mp listed with rfl | later
      · exact start
      · exact rest passed later

/-- What is there is found by its names. -/
theorem follow_plain (closed : tree.Closed) (plain : ∀ name ∈ names, Path.Plain name)
    (short : ∀ name ∈ names, name.utf8ByteSize ≤ nameLimit)
    (found : tree.find? (place ++ names) ≠ none) :
    tree.follow place names = .ok (place ++ names) := by
  induction names generalizing place with
  | nil =>
    rw [List.append_nil]
    rfl
  | cons name rest ih =>
    have start := isDirectory_of_append closed found (List.cons_ne_nil name rest)
    have leads : step place name = place ++ [name] := step_plain (plain name List.mem_cons_self)
    have next : tree.find? (step place name) ≠ none := by
      rw [leads]
      by_cases last : rest = []
      · rwa [last] at found
      · rw [List.append_cons] at found
        rw [isDirectory_iff.mp (isDirectory_of_append closed found last)]
        exact Option.some_ne_none _
    rw [List.append_cons, ← leads] at found ⊢
    rw [follow_cons closed start (short name List.mem_cons_self), if_neg next]
    exact ih (fun later listed => plain later (List.mem_cons_of_mem _ listed))
      (fun later listed => short later (List.mem_cons_of_mem _ listed)) found

/-- What was passed on the way to a directory. -/
theorem passed_of_follow (closed : tree.Closed) {last : List String}
    (followed : tree.follow place names = .ok last) (directory : tree.isDirectory last = true) :
    walk place names = last ∧ (∀ name ∈ names, name.utf8ByteSize ≤ nameLimit) ∧
      ∀ passed ∈ trail place names, tree.isDirectory passed = true := by
  induction names generalizing place with
  | nil =>
    cases followed
    exact ⟨rfl, nofun, fun passed listed => by rwa [List.mem_singleton.mp listed]⟩
  | cons name rest ih =>
    have start : tree.isDirectory place = true := by
      by_contra file
      rw [follow, if_pos file] at followed
      cases followed
    have fits : name.utf8ByteSize ≤ nameLimit := by
      by_contra long
      have real : ¬ (name = "" ∨ name = ".") ∧ name ≠ ".." := by
        refine ⟨fun idle => ?_, fun back => ?_⟩
        · rcases idle with rfl | rfl <;> exact long (by decide)
        · exact long (by rw [back]; decide)
      rw [follow, if_neg (not_not.mpr start), if_neg real.1, if_neg real.2,
        if_pos (Nat.not_le.mp long)] at followed
      cases followed
    rw [follow_cons closed start fits] at followed
    split at followed
    · cases followed
    obtain ⟨leads, short, passable⟩ := ih followed
    refine ⟨leads, fun other listed => ?_, fun passed listed => ?_⟩
    · rcases List.mem_cons.mp listed with rfl | later
      · exact fits
      · exact short other later
    · rcases List.mem_cons.mp listed with rfl | later
      · exact start
      · exact passable passed later

end Following

section Texts

theorem checkPath_eq_ok {path : Path} :
    checkPath path = .ok () ↔ Char.ofNat 0 ∉ path.text.toList ∧ path.text ≠ "" ∧
      path.text.utf8ByteSize ≤ pathLimit := by
  unfold checkPath
  split
  · rename_i zero
    simp [List.contains_iff_mem.mp zero]
  rename_i zero
  have nowhere : Char.ofNat 0 ∉ path.text.toList := mt List.contains_iff_mem.mpr zero
  split
  · rename_i empty
    simp [empty]
  split
  · rename_i long
    simp [Nat.not_le.mpr long]
  · rename_i empty long
    simp [nowhere, empty, Nat.not_lt.mp long]

private theorem size_intercalate {names : List String} (named : names ≠ []) :
    ("/".intercalate names).utf8ByteSize + 1 = (names.map (·.utf8ByteSize + 1)).sum := by
  induction names with
  | nil => exact absurd rfl named
  | cons first rest ih =>
    cases rest with
    | nil =>
      rw [String.intercalate_singleton]
      rfl
    | cons second rest =>
      have later := ih (List.cons_ne_nil _ _)
      rw [String.intercalate_cons_cons, String.utf8ByteSize_append, String.utf8ByteSize_append,
        List.map_cons, List.sum_cons, ← later]
      show first.utf8ByteSize + 1 + _ + 1 = _
      omega

private theorem mem_intercalate {names : List String} {c : Char}
    (listed : c ∈ ("/".intercalate names).toList) : c = '/' ∨ ∃ name ∈ names, c ∈ name.toList := by
  induction names with
  | nil => cases listed
  | cons first rest ih =>
    cases rest with
    | nil =>
      rw [String.intercalate_singleton] at listed
      exact .inr ⟨first, List.mem_cons_self, listed⟩
    | cons second rest =>
      rw [String.intercalate_cons_cons, String.toList_append, String.toList_append] at listed
      rcases List.mem_append.mp listed with front | later
      · rcases List.mem_append.mp front with own | slash
        · exact .inr ⟨first, List.mem_cons_self, own⟩
        · exact .inl (List.mem_singleton.mp slash)
      · exact (ih later).imp_right fun ⟨name, found, own⟩ =>
          ⟨name, List.mem_cons_of_mem _ found, own⟩

private theorem mem_intercalate_of_mem {names : List String} {name : String} {c : Char}
    (listed : name ∈ names) (own : c ∈ name.toList) : c ∈ ("/".intercalate names).toList := by
  induction names with
  | nil => cases listed
  | cons first rest ih =>
    cases rest with
    | nil =>
      rw [String.intercalate_singleton]
      rwa [← List.mem_singleton.mp listed]
    | cons second rest =>
      rw [String.intercalate_cons_cons, String.toList_append, String.toList_append]
      rcases List.mem_cons.mp listed with rfl | later
      · exact List.mem_append_left _ (List.mem_append_left _ own)
      · exact List.mem_append_right _ (ih later)

/-- A path of some of the names of another one is no harder to take. -/
theorem checkPath_sublist {path : Path} (taken : checkPath path = .ok ()) {names : List String}
    (fewer : names.Sublist path.rawNames) (named : "/".intercalate names ≠ "") :
    checkPath ⟨"/".intercalate names⟩ = .ok () := by
  obtain ⟨zero, _, size⟩ := checkPath_eq_ok.mp taken
  rw [← path.intercalate_rawNames] at zero size
  have some : names ≠ [] := by
    rintro rfl
    exact named rfl
  have more : path.rawNames ≠ [] := by
    intro bare
    rw [bare] at fewer
    exact some (List.sublist_nil.mp fewer)
  refine checkPath_eq_ok.mpr ⟨fun listed => ?_, named, ?_⟩
  · rcases mem_intercalate listed with slash | ⟨name, found, own⟩
    · exact absurd slash (by decide)
    · exact zero (mem_intercalate_of_mem (fewer.subset found) own)
  · have least := (fewer.map (·.utf8ByteSize + 1)).sum_le_sum fun _ _ => Nat.zero_le _
    have mine := size_intercalate some
    have whole := size_intercalate more
    show ("/".intercalate names).utf8ByteSize ≤ pathLimit
    omega

end Texts

end SpawnGuard.FileTree
