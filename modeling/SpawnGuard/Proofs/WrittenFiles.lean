import SpawnGuard.Proofs.MadeDirectories

/-!
Files written in directories that are made as far as they are missing, and files read where they
are.
-/
namespace SpawnGuard

namespace FileTree

variable {tree : FileTree} {path : Path}

/-- A file can be put at a path once the directories in front of it are made: no file is in the
way, no directory is where the file comes, and none is made there. -/
structure Writable (tree : FileTree) (path : Path) : Prop where
  taken : checkPath path = .ok ()
  short : ∀ name ∈ path.names, name.utf8ByteSize ≤ nameLimit
  clear : ∀ passed ∈ trail (tree.start path) path.names.dropLast, tree.file? passed = none
  free : ¬ tree.isDirectory (walk (tree.start path) path.names) = true
  apart : walk (tree.start path) path.names ∉ trail (tree.start path) path.names.dropLast

instance (tree : FileTree) (path : Path) : Decidable (tree.Writable path) :=
  decidable_of_iff (checkPath path = .ok () ∧ (∀ name ∈ path.names, name.utf8ByteSize ≤ nameLimit) ∧
      (∀ passed ∈ trail (tree.start path) path.names.dropLast, tree.file? passed = none) ∧
      ¬ tree.isDirectory (walk (tree.start path) path.names) = true ∧
      walk (tree.start path) path.names ∉ trail (tree.start path) path.names.dropLast)
    ⟨fun ⟨taken, short, clear, free, apart⟩ => ⟨taken, short, clear, free, apart⟩,
      fun ⟨taken, short, clear, free, apart⟩ => ⟨taken, short, clear, free, apart⟩⟩

/-- The names that count may be cut off from the end of a path. -/
theorem checkPath_ofNames (taken : checkPath path = .ok ()) {front : List String}
    (ahead : front <+: path.names) (named : (Path.ofNames path.isAbsolute front).text ≠ "") :
    checkPath (Path.ofNames path.isAbsolute front) = .ok () := by
  by_cases bare : front = []
  · rw [bare] at named ⊢
    cases absolute : path.isAbsolute with
    | true => decide
    | false =>
      rw [absolute] at named
      exact absurd rfl named
  have whole : ∀ name ∈ front, '/' ∉ name.toList := fun name listed =>
    path.normal_names.whole name (ahead.subset listed)
  have raw := Path.rawNames_ofNames path.isAbsolute bare whole
  have text := (Path.ofNames path.isAbsolute front).intercalate_rawNames
  have fewer : (Path.ofNames path.isAbsolute front).rawNames.Sublist path.rawNames := by
    rw [raw]
    exact (ahead.sublist.append_left _).trans path.slash_names_sublist
  have cut := checkPath_sublist taken fewer (by rwa [text])
  rwa [text] at cut

section Ends

variable {outer : List String} {last : String}

theorem short_of_kept {names : List String}
    (short : ∀ name ∈ Path.kept names, name.utf8ByteSize ≤ nameLimit) :
    ∀ name ∈ names, name.utf8ByteSize ≤ nameLimit := by
  intro name listed
  by_cases counted : Path.counts name = true
  · exact short name (Path.mem_kept_of_counts listed counted)
  · unfold Path.counts at counted
    rw [Bool.and_eq_true, decide_eq_true_iff, decide_eq_true_iff, not_and_or, not_not, not_not]
      at counted
    rcases counted with rfl | rfl <;> decide

theorem names_concat (raw : path.rawNames = outer ++ [last]) (plain : Path.Plain last) :
    path.names = Path.kept outer ++ [last] := by
  rw [Path.names_eq, raw]
  by_cases bare : outer = []
  · rw [bare]
    exact Path.kept_of_counts fun name listed => List.mem_singleton.mp listed ▸ plain.counts
  · rw [Path.kept_append bare, List.filter_cons_of_pos plain.counts]
    rfl

theorem Writable.endsIn (writable : tree.Writable path) (raw : path.rawNames = outer ++ [last])
    (plain : Path.Plain last) : EndsIn path outer last :=
  ⟨writable.taken, raw, plain.named, short_of_kept writable.short⟩

end Ends

/-- A file was put at a place, with directories at some other places; nothing else is different. -/
structure Put (tree after : FileTree) (places : List (List String)) (place : List String)
    (content : ByteArray) : Prop where
  here : after.here = tree.here
  closed : after.Closed
  file : ∀ other, after.file? other = if other = place then some content else tree.file? other
  kept : ∀ other, tree.isDirectory other = true → after.isDirectory other = true
  made : ∀ other, after.isDirectory other = true → tree.isDirectory other = true ∨ other ∈ places
  opened : ∀ other ∈ places, after.isDirectory other = true

theorem put_of_isDirectory (closed : tree.Closed) {place : List String} (named : place ≠ [])
    (held : tree.isDirectory place.dropLast = true) (free : ¬ tree.isDirectory place = true)
    (content : ByteArray) : tree.Put (tree.put place (.file content)) [] place content := by
  have found := tree.find?_put named (.file content)
  refine ⟨rfl, closed.put named held free _, fun other => ?_, fun other directory => ?_,
    fun other directory => .inl ?_, nofun⟩
  · unfold file?
    rw [found]
    by_cases same : other = place
    · rw [if_pos same, if_pos same]
    · rw [if_neg same, if_neg same]
  · rw [isDirectory_iff, found, if_neg (by rintro rfl; exact free directory)]
    exact isDirectory_iff.mp directory
  · rw [isDirectory_iff, found] at directory
    split at directory
    · cases directory
    · exact isDirectory_iff.mpr directory

theorem Opened.put {between after : FileTree} {places : List (List String)} {place : List String}
    {content : ByteArray} (opened : tree.Opened between places)
    (clear : ∀ passed ∈ places, tree.file? passed = none)
    (put : between.Put after [] place content) : tree.Put after places place content := by
  refine ⟨put.here.trans opened.here, put.closed, fun other => ?_, fun other directory => ?_,
    fun other directory => ?_, fun other listed => ?_⟩
  · rw [put.file, opened.file?]
  · exact put.kept other (opened.isDirectory directory)
  · have before := (put.made other directory).resolve_right List.not_mem_nil
    rw [isDirectory_iff, opened.found] at before
    split at before
    · rename_i new
      exact .inr new.1
    · exact .inl (isDirectory_iff.mpr before)
  · exact put.kept other (opened.isDirectory_of_mem listed (clear other listed))

section Ends

variable {outer : List String} {last : String}

theorem EndsIn.writeFile_names (ends : EndsIn path outer last) (closed : tree.Closed)
    (plain : Path.Plain last) (passable : ∀ passed ∈ trail (tree.start path) path.names.dropLast,
      tree.isDirectory passed = true) (content : ByteArray) :
    tree.writeFile path content =
      if tree.isDirectory (walk (tree.start path) path.names) then .error .isDirectory
      else .ok (tree.put (walk (tree.start path) path.names) (.file content)) := by
  have cut : path.names.dropLast = Path.kept outer := by
    rw [names_concat ends.raw plain, List.dropLast_concat]
  rw [Path.names_eq, walk_kept]
  exact ends.writeFile_eq closed
    (fun passed listed => passable passed (by rwa [cut, mem_trail_kept])) plain content

/-- With the directories on the way a file is written. -/
theorem Writable.write (writable : tree.Writable path) (closed : tree.Closed)
    (raw : path.rawNames = outer ++ [last]) (plain : Path.Plain last)
    (passable : ∀ passed ∈ trail (tree.start path) path.names.dropLast,
      tree.isDirectory passed = true) (content : ByteArray) :
    ∃ after, (FileSystem.write path content : StateM FileTree _) tree = (.ok (), after) ∧
      tree.Put after [] (walk (tree.start path) path.names) content := by
  have names := names_concat raw plain
  have leads : walk (tree.start path) path.names =
      walk (tree.start path) path.names.dropLast ++ [last] := by
    rw [names, walk_append, List.dropLast_concat]
    exact step_plain plain
  have written := (writable.endsIn raw plain).writeFile_names closed plain passable content
  rw [if_neg writable.free] at written
  refine ⟨_, ?_, put_of_isDirectory closed (by rw [leads]; simp) ?_ writable.free content⟩
  · show change (·.writeFile path content) tree = _
    rw [change, written]
  · rw [leads, List.dropLast_concat]
    exact passable _ (walk_mem_trail _ _)

/-- No file is written over a directory. -/
theorem EndsIn.write_refused (ends : EndsIn path outer last) (closed : tree.Closed)
    (plain : Path.Plain last) (passable : ∀ passed ∈ trail (tree.start path) path.names.dropLast,
      tree.isDirectory passed = true)
    (directory : tree.isDirectory (walk (tree.start path) path.names) = true)
    (content : ByteArray) :
    (FileSystem.write path content : StateM FileTree _) tree = (.error .isDirectory, tree) := by
  show change (·.writeFile path content) tree = _
  rw [change, ends.writeFile_names closed plain passable, if_pos directory]

theorem Opened.writable {between : FileTree} (writable : tree.Writable path)
    (opened : tree.Opened between (trail (tree.start path) path.names.dropLast)) :
    between.Writable path := by
  have later : between.start path = tree.start path := opened.start path
  refine ⟨writable.taken, writable.short, ?_, ?_, ?_⟩
  · rw [later]
    exact fun passed listed => (opened.file? passed).trans (writable.clear passed listed)
  · rw [later, isDirectory_iff, opened.found, if_neg fun new => writable.apart new.1,
      ← isDirectory_iff]
    exact writable.free
  · rw [later]
    exact writable.apart

/-- What writing a file changes: the directories on the way come to be there, and the file. -/
theorem Writable.writeInPlace (writable : tree.Writable path) (closed : tree.Closed)
    (start : tree.isDirectory (tree.start path) = true) (raw : path.rawNames = outer ++ [last])
    (plain : Path.Plain last) (content : ByteArray) :
    ∃ after, (ListingFile.writeInPlace path content : StateM FileTree _) tree = (.ok (), after) ∧
      tree.Put after (trail (tree.start path) path.names.dropLast)
        (walk (tree.start path) path.names) content := by
  have inner : path.names.dropLast <+: path.names := List.dropLast_prefix _
  have parent : path.parent? = some (Path.ofNames path.isAbsolute path.names.dropLast) := by
    unfold Path.parent?
    rw [names_concat raw plain, if_neg (by simp)]
  have normal : Path.Normal path.isAbsolute path.names.dropLast := by
    have shorter := path.normal_names.take (path.names.length - 1)
    rwa [← List.dropLast_eq_take] at shorter
  obtain ⟨between, made, opened⟩ := makeNested_ancestors normal
    (fun front ahead => checkPath_ofNames writable.taken (ahead.trans inner))
    (fun name listed => writable.short name (inner.subset listed)) closed start writable.clear
  have later : between.start path = tree.start path := opened.start path
  have passable : ∀ passed ∈ trail (between.start path) path.names.dropLast,
      between.isDirectory passed = true := by
    rw [later]
    exact fun passed listed => opened.isDirectory_of_mem listed (writable.clear passed listed)
  obtain ⟨after, written, put⟩ :=
    (opened.writable writable).write opened.closed raw plain passable content
  rw [later] at put
  refine ⟨after, ?_, opened.put writable.clear put⟩
  unfold ListingFile.writeInPlace
  rw [parent]
  refine (bind_eq made _).trans ?_
  exact bind_eq written _

end Ends

/-- A path leads to a directory through directories. -/
structure Enters (tree : FileTree) (path : Path) (place : List String) : Prop where
  taken : checkPath path = .ok ()
  short : ∀ name ∈ path.names, name.utf8ByteSize ≤ nameLimit
  passable : ∀ passed ∈ trail (tree.start path) path.names, tree.isDirectory passed = true
  leads : walk (tree.start path) path.names = place

theorem enters_of_resolve (closed : tree.Closed) {place : List String}
    (resolved : tree.resolve path = .ok place) (directory : tree.isDirectory place = true) :
    tree.Enters path place := by
  obtain ⟨_, taken, followed⟩ := bind_eq_ok resolved
  obtain ⟨leads, short, passable⟩ := passed_of_follow closed followed directory
  refine ⟨taken, fun name listed => ?_, fun passed listed => ?_, ?_⟩
  · exact short name (path.slash_names_sublist.subset (List.mem_append_right _ listed))
  · rw [Path.names_eq, mem_trail_kept] at listed
    exact passable passed listed
  · rw [Path.names_eq, walk_kept]
    exact leads

namespace Enters

variable {place : List String}

/-- Directories that are there stay there when more is made and written. -/
theorem mono (enters : tree.Enters path place) {after : FileTree} (here : after.here = tree.here)
    (kept : ∀ place, tree.isDirectory place = true → after.isDirectory place = true) :
    after.Enters path place := by
  have start : after.start path = tree.start path := by
    unfold FileTree.start
    rw [here]
  refine ⟨enters.taken, enters.short, fun passed listed => ?_, ?_⟩
  · rw [start] at listed
    exact kept passed (enters.passable passed listed)
  · rw [start]
    exact enters.leads

theorem short_raw (enters : tree.Enters path place) :
    ∀ name ∈ path.rawNames, name.utf8ByteSize ≤ nameLimit := short_of_kept enters.short

theorem passable_raw (enters : tree.Enters path place) :
    ∀ passed ∈ trail (tree.start path) path.rawNames, tree.isDirectory passed = true := by
  intro passed listed
  rw [← mem_trail_kept] at listed
  exact enters.passable passed listed

theorem kindOf_eq (enters : tree.Enters path place) (closed : tree.Closed) :
    tree.kindOf path = some .directory :=
  kindOf_eq_directory closed enters.taken enters.short_raw enters.passable_raw

/-- No directory is made where there is one. -/
theorem makeDirectory_refused (enters : tree.Enters path place) (closed : tree.Closed) :
    tree.makeDirectory path = .error .alreadyExists := by
  have short := enters.short_raw
  have passable := enters.passable_raw
  obtain ⟨slashes, tail, split, whole⟩ : ∃ slashes tail,
      path.rawNames.reverse.span (· = "") = (slashes, tail) ∧
        slashes ++ tail = path.rawNames.reverse :=
    ⟨_, _, List.span_eq_takeWhile_dropWhile _ _, List.takeWhile_append_dropWhile⟩
  unfold makeDirectory resolveParent
  rw [enters.taken, split]
  cases tail with
  | nil => rfl
  | cons last outer =>
    have raw : path.rawNames = outer.reverse ++ last :: slashes.reverse := by
      rw [← path.rawNames.reverse_reverse, ← whole]
      simp
    rw [raw] at short passable
    have ahead : ∀ passed ∈ trail (tree.start path) outer.reverse,
        tree.isDirectory passed = true := fun passed listed =>
      passable passed (mem_trail_append.mpr (.inl listed))
    have there : tree.isDirectory (step (walk (tree.start path) outer.reverse) last) = true :=
      passable _ (mem_trail_append.mpr
        (.inr (List.mem_cons_of_mem _ (mem_trail_start _ slashes.reverse))))
    have fits := short last (List.mem_append_right _ List.mem_cons_self)
    show (tree.follow (tree.start path) outer.reverse >>= _) >>= _ = _
    rw [follow_eq_ok closed (fun name listed => short name (List.mem_append_left _ listed)) ahead]
    show (if tree.isDirectory (walk (tree.start path) outer.reverse) = true then _ else _) >>= _ =
      _
    rw [if_pos (ahead _ (walk_mem_trail _ _))]
    show (if isStep last = true then _ else _) = _
    by_cases still : isStep last = true
    · rw [if_pos still]
    · rw [step_of_not_isStep still] at there
      rw [if_neg still, if_neg (Nat.not_lt.mpr fits), isDirectory_iff.mp there]
      rfl

/-- Directories that are there are not made again. -/
theorem makeDirectories_eq (enters : tree.Enters path place) (closed : tree.Closed) :
    (FileSystem.makeDirectories path : StateM FileTree _) tree = (.ok (), tree) := by
  have refused := enters.makeDirectory_refused closed
  unfold FileSystem.makeDirectories Path.ancestors
  rw [makeNested_of_found (checkPath_eq_ok.mp enters.taken).2.1 (by rw [refused]; nofun)]
  unfold attempt settled
  rw [refused]
  show (if _ then _ else _, tree) = _
  rw [if_pos (enters.kindOf_eq closed)]

section Below

variable {names : List String} {content : ByteArray} (named : names ≠ [])
  (plain : ∀ name ∈ names, Path.Plain name)
  (short : ∀ name ∈ names, name.utf8ByteSize ≤ nameLimit)

include named plain short

/-- What can be read below a directory is what stands there. -/
theorem readFile_join (enters : tree.Enters path place) (closed : tree.Closed)
    (file : tree.file? (place ++ names) = some content) :
    tree.readFile (path.join (Path.ofNames false names)) =
      (checkPath (path.join (Path.ofNames false names))).map fun _ => content := by
  obtain ⟨front, raw, kept⟩ := Path.rawNames_join named plain path
  have found := file?_eq_some.mp file
  have start : tree.start (path.join (Path.ofNames false names)) = tree.start path := by
    unfold FileTree.start
    rw [Path.isAbsolute_join plain]
  have reached : tree.follow (tree.start path) front = .ok place := by
    rw [follow_eq_ok closed, ← walk_kept, kept, enters.leads]
    · exact short_of_kept (kept ▸ enters.short)
    · intro passed listed
      rw [← mem_trail_kept, kept] at listed
      exact enters.passable passed listed
  have below : tree.follow place names = .ok (place ++ names) :=
    follow_plain closed plain short (by rw [found]; nofun)
  unfold readFile resolve
  rw [start, raw, follow_append, reached]
  cases checkPath (path.join (Path.ofNames false names)) with
  | error fault => rfl
  | ok done =>
    show (tree.follow place names >>= _) = _
    simp only [below, bind, Except.bind, found]
    rfl

end Below

end Enters

end FileTree

end SpawnGuard
