import SpawnGuard.Batch.ListingFile
import SpawnGuard.Proofs.FilePlaces

/-!
Directories made on the way to a file. Where no file stands in the way all of them come to be
there, nothing else changes, and then the file can be written.
-/
namespace SpawnGuard

namespace Path

theorem names_of_empty {path : Path} (empty : path.text = "") : path.names = [] := by
  unfold names rawNames
  rw [empty]
  rfl

theorem ancestors_ofNames {absolute : Bool} {names : List String} (normal : Normal absolute names) :
    (ofNames absolute names).ancestors = ofNames absolute names ::
      (List.range names.length).map fun dropped =>
        ofNames absolute (names.take (names.length - 1 - dropped)) := by
  show ofNames absolute names :: (List.range (ofNames absolute names).names.length).map _ = _
  rw [normal.names_ofNames, isAbsolute_ofNames normal.whole normal.named]

theorem ancestors_ofNames_nil (absolute : Bool) :
    (ofNames absolute []).ancestors = [ofNames absolute []] := by
  cases absolute <;> rfl

/-- What a path lies in comes one name after the other. -/
theorem ancestors_ofNames_concat {absolute : Bool} {front : List String} {last : String}
    (normal : Normal absolute (front ++ [last])) :
    (ofNames absolute (front ++ [last])).ancestors =
      ofNames absolute (front ++ [last]) :: (ofNames absolute front).ancestors := by
  have fewer : Normal absolute front := by
    have cut := normal.take front.length
    rwa [List.take_left] at cut
  have length : (front ++ [last]).length = front.length + 1 := List.length_append
  rw [ancestors_ofNames normal, ancestors_ofNames fewer, length, List.range_succ_eq_map,
    List.map_cons, List.map_map]
  refine congrArg _ (congrArg₂ _ ?_ (List.map_congr_left fun dropped _ => ?_))
  · show ofNames absolute ((front ++ [last]).take front.length) = _
    rw [List.take_left]
  · show ofNames absolute ((front ++ [last]).take (front.length - (dropped + 1))) = _
    rw [List.take_append_of_le_length (Nat.sub_le _ _), Nat.sub_add_eq, Nat.sub_right_comm]

end Path

namespace FileTree

variable {tree : FileTree} {path : Path}

/-- Whether a directory is there after it was to be made. -/
def settled (tree : FileTree) (path : Path) (fault : FileFault) : Except FileFault Unit :=
  if tree.kindOf path = some .directory then .ok () else .error fault

/-- What making one directory that may be there before comes to. -/
def attempt (tree : FileTree) (path : Path) : Except FileFault Unit × FileTree :=
  match tree.makeDirectory path with
  | .ok after => (.ok (), after)
  | .error fault => (tree.settled path fault, tree)

/-- A program goes on from where its first part left the tree. -/
theorem bind_eq {α β : Type} {program : StateM FileTree α} {answer : α} {between : FileTree}
    (ran : program tree = (answer, between)) (next : α → StateM FileTree β) :
    (program >>= next) tree = next answer between := by
  show next (program tree).1 (program tree).2 = _
  rw [ran]

section Attempts

open FileSystem (makeNested settleDirectory)

theorem settleDirectory_error (path : Path) (fault : FileFault) (tree : FileTree) :
    (settleDirectory path (.error fault) : StateM FileTree _) tree =
      (tree.settled path fault, tree) := by
  show (if decide (tree.kindOf path = some .directory) = true then
    (pure (Except.ok ()) : StateM FileTree _) else pure (Except.error fault)) tree = _
  unfold settled
  by_cases there : tree.kindOf path = some .directory
  · rw [if_pos there, decide_eq_true there]
    rfl
  · rw [if_neg there, decide_eq_false there]
    rfl

theorem makeDirectory_run_ok {after : FileTree} (made : tree.makeDirectory path = .ok after) :
    (FileSystem.makeDirectory path : StateM FileTree _) tree = (.ok (), after) := by
  show change (·.makeDirectory path) tree = _
  rw [change, made]

theorem makeDirectory_run_error {fault : FileFault}
    (refused : tree.makeDirectory path = .error fault) :
    (FileSystem.makeDirectory path : StateM FileTree _) tree = (.error fault, tree) := by
  show change (·.makeDirectory path) tree = _
  rw [change, refused]

theorem settleDirectory_attempt (tree : FileTree) (path : Path) :
    (FileSystem.makeDirectory path >>= settleDirectory path : StateM FileTree _) tree =
      tree.attempt path := by
  unfold attempt
  cases made : tree.makeDirectory path with
  | ok after => exact bind_eq (makeDirectory_run_ok made) _
  | error fault =>
    exact (bind_eq (makeDirectory_run_error made) _).trans (settleDirectory_error path fault tree)

theorem makeNested_of_found {outer : List Path} (named : path.text ≠ "")
    (found : tree.makeDirectory path ≠ .error .notFound) :
    (makeNested (path :: outer) : StateM FileTree _) tree = tree.attempt path := by
  rw [makeNested, if_neg named]
  unfold attempt
  cases made : tree.makeDirectory path with
  | ok after => exact bind_eq (makeDirectory_run_ok made) _
  | error fault =>
    refine (bind_eq (makeDirectory_run_error made) _).trans ?_
    cases fault with
    | notFound => exact absurd made found
    | _ => exact settleDirectory_error path _ tree

theorem makeNested_of_notFound {outer : List Path} {between : FileTree} (named : path.text ≠ "")
    (missing : tree.makeDirectory path = .error .notFound)
    (made : (makeNested outer : StateM FileTree _) tree = (.ok (), between)) :
    (makeNested (path :: outer) : StateM FileTree _) tree = between.attempt path := by
  rw [makeNested, if_neg named]
  refine (bind_eq (makeDirectory_run_error missing) _).trans ?_
  exact (bind_eq made _).trans (settleDirectory_attempt between path)

end Attempts

/-- A path that can be asked for and ends in a name. -/
structure EndsIn (path : Path) (outer : List String) (last : String) : Prop where
  taken : checkPath path = .ok ()
  raw : path.rawNames = outer ++ [last]
  named : last ≠ ""
  short : ∀ name ∈ path.rawNames, name.utf8ByteSize ≤ nameLimit

section Entries

variable {outer : List String} {last : String}

theorem EndsIn.resolveParent (ends : EndsIn path outer last) :
    tree.resolveParent path = tree.follow (tree.start path) outer >>= fun place =>
      if tree.isDirectory place then .ok (place, last, false) else .error .notDirectory := by
  have reversed : path.rawNames.reverse.span (· = "") = ([], last :: outer.reverse) := by
    rw [ends.raw, List.reverse_concat, List.span_eq_takeWhile_dropWhile, List.takeWhile_cons,
      List.dropWhile_cons, decide_eq_false ends.named]
    rfl
  unfold FileTree.resolveParent
  rw [ends.taken, reversed]
  show (tree.follow (tree.start path) outer.reverse.reverse >>= _) = _
  rw [List.reverse_reverse]
  rfl

theorem EndsIn.makeDirectory_missing (ends : EndsIn path outer last)
    (missing : tree.follow (tree.start path) outer = .error .notFound) :
    tree.makeDirectory path = .error .notFound := by
  unfold makeDirectory
  rw [ends.resolveParent, missing]
  rfl

theorem EndsIn.short_outer (ends : EndsIn path outer last) :
    ∀ name ∈ outer, name.utf8ByteSize ≤ nameLimit := fun name listed =>
  ends.short name (ends.raw ▸ List.mem_append_left _ listed)

theorem EndsIn.fits (ends : EndsIn path outer last) : ¬ nameLimit < last.utf8ByteSize :=
  Nat.not_lt.mpr (ends.short last (ends.raw ▸ List.mem_append_right _ List.mem_cons_self))

theorem EndsIn.walk_eq (ends : EndsIn path outer last) (place : List String) :
    walk place path.rawNames = step (walk place outer) last := by
  rw [ends.raw, walk_append]
  rfl

section Passable

variable (closed : tree.Closed)
  (passable : ∀ passed ∈ trail (tree.start path) outer, tree.isDirectory passed = true)

include closed passable

theorem EndsIn.resolveParent_eq_ok (ends : EndsIn path outer last) :
    tree.resolveParent path = .ok (walk (tree.start path) outer, last, false) := by
  rw [ends.resolveParent, follow_eq_ok closed ends.short_outer passable]
  exact if_pos (passable _ (walk_mem_trail _ outer))

/-- A directory is made where there is nothing. -/
theorem EndsIn.makeDirectory_eq (ends : EndsIn path outer last) :
    tree.makeDirectory path =
      if tree.find? (walk (tree.start path) path.rawNames) = none then
        .ok (tree.put (walk (tree.start path) path.rawNames) .directory)
      else .error .alreadyExists := by
  have here := passable _ (walk_mem_trail _ outer)
  have found {place : List String} (directory : tree.isDirectory place = true) :
      tree.find? place ≠ none := by
    rw [isDirectory_iff.mp directory]
    exact Option.some_ne_none _
  unfold makeDirectory
  rw [ends.resolveParent_eq_ok closed passable, ends.walk_eq]
  show (if isStep last = true then _ else _) = _
  by_cases still : isStep last = true
  · have there : tree.find? (step (walk (tree.start path) outer) last) ≠ none := by
      unfold step
      split
      · exact found here
      split
      · exact found (closed _ (found here))
      · rename_i counted real
        rw [not_or] at counted
        simp [isStep, counted, real] at still
    rw [if_pos still, if_neg there]
  · rw [step_of_not_isStep still, if_neg still, if_neg ends.fits]
    by_cases missing : tree.find? (walk (tree.start path) outer ++ [last]) = none
    · rw [if_pos missing, if_neg (by rw [missing]; exact Bool.false_ne_true)]
    · rw [if_neg missing, if_pos (Option.isSome_iff_ne_none.mpr missing)]

/-- A file is written where there is no directory. -/
theorem EndsIn.writeFile_eq (ends : EndsIn path outer last) (plain : Path.Plain last)
    (content : ByteArray) :
    tree.writeFile path content =
      if tree.isDirectory (walk (tree.start path) path.rawNames) then .error .isDirectory
      else .ok (tree.put (walk (tree.start path) path.rawNames) (.file content)) := by
  have real : ¬ (false = true ∨ isStep last = true) :=
    not_or.mpr ⟨Bool.false_ne_true, not_isStep plain⟩
  unfold writeFile
  rw [ends.resolveParent_eq_ok closed passable, ends.walk_eq, step_plain plain]
  show (if false = true ∨ isStep last = true then _ else _) = _
  rw [if_neg real, if_neg ends.fits]

end Passable

end Entries

/-- Directories were made at some places at which there was nothing, and nothing else was. -/
structure Opened (tree after : FileTree) (places : List (List String)) : Prop where
  here : after.here = tree.here
  closed : after.Closed
  found : ∀ place, after.find? place =
    if place ∈ places ∧ tree.find? place = none then some .directory else tree.find? place

namespace Opened

variable {between after : FileTree} {places others : List (List String)}

theorem refl (closed : tree.Closed) (there : ∀ place ∈ places, tree.find? place ≠ none) :
    tree.Opened tree places := by
  refine ⟨rfl, closed, fun place => ?_⟩
  rw [if_neg]
  rintro ⟨listed, missing⟩
  exact there place listed missing

theorem trans (first : tree.Opened between places) (second : between.Opened after others) :
    tree.Opened after (places ++ others) := by
  refine ⟨second.here.trans first.here, second.closed, fun place => ?_⟩
  rw [second.found, first.found]
  by_cases missing : tree.find? place = none
  · by_cases early : place ∈ places
    · simp [missing, early]
    · simp [missing, early]
  · simp [missing]

theorem congr (opened : tree.Opened after places)
    (same : ∀ place, place ∈ others ↔ place ∈ places) : tree.Opened after others := by
  refine ⟨opened.here, opened.closed, fun place => ?_⟩
  simp only [opened.found, same]

theorem isDirectory (opened : tree.Opened after places) {place : List String}
    (directory : tree.isDirectory place = true) : after.isDirectory place = true := by
  have there := isDirectory_iff.mp directory
  rw [isDirectory_iff, opened.found, there, if_neg (by simp)]

theorem isDirectory_of_mem (opened : tree.Opened after places) {place : List String}
    (listed : place ∈ places) (clear : tree.file? place = none) :
    after.isDirectory place = true := by
  by_cases missing : tree.find? place = none
  · rw [isDirectory_iff, opened.found, if_pos ⟨listed, missing⟩]
  · exact opened.isDirectory (isDirectory_of_file?_eq_none clear missing)

theorem file? (opened : tree.Opened after places) (place : List String) :
    after.file? place = tree.file? place := by
  unfold FileTree.file?
  rw [opened.found]
  by_cases new : place ∈ places ∧ tree.find? place = none
  · rw [if_pos new, new.2]
  · rw [if_neg new]

theorem start (opened : tree.Opened after places) (path : Path) :
    after.start path = tree.start path := by
  unfold FileTree.start
  rw [opened.here]

end Opened

section Making

variable {outer : List String} {last : String}

theorem kindOf_eq_directory (closed : tree.Closed) (taken : checkPath path = .ok ())
    (short : ∀ name ∈ path.rawNames, name.utf8ByteSize ≤ nameLimit)
    (passable : ∀ passed ∈ trail (tree.start path) path.rawNames,
      tree.isDirectory passed = true) : tree.kindOf path = some .directory := by
  have there := passable _ (walk_mem_trail _ path.rawNames)
  unfold kindOf resolve
  rw [taken]
  simp only [bind, Except.bind, follow_eq_ok closed short passable, isDirectory_iff.mp there]

/-- A directory comes to be where nothing is. -/
private theorem EndsIn.opened_put (ends : EndsIn path outer last) (closed : tree.Closed)
    (here : tree.isDirectory (walk (tree.start path) outer) = true)
    (missing : tree.find? (walk (tree.start path) path.rawNames) = none) :
    tree.Opened (tree.put (walk (tree.start path) path.rawNames) .directory)
      [walk (tree.start path) path.rawNames] := by
  have named : walk (tree.start path) path.rawNames ≠ [] := by
    intro root
    rw [root] at missing
    cases missing
  refine ⟨rfl, ?_, fun place => ?_⟩
  · have free : ¬ tree.isDirectory (walk (tree.start path) path.rawNames) = true := by
      rw [isDirectory_iff, missing]
      exact nofun
    refine closed.put named ?_ free .directory
    rw [ends.walk_eq] at free ⊢
    rcases step_cases (walk (tree.start path) outer) last with same | back | inner
    · exact absurd (by rw [same]; exact here) free
    · have outside := closed (walk (tree.start path) outer)
        (by rw [isDirectory_iff.mp here]; nofun)
      exact absurd (by rw [back]; exact outside) free
    · rw [inner, List.dropLast_concat]
      exact here
  · rw [find?_put named]
    by_cases same : place = walk (tree.start path) path.rawNames
    · rw [if_pos same, if_pos ⟨List.mem_singleton.mpr same, same ▸ missing⟩]
    · rw [if_neg same, if_neg fun new => same (List.mem_singleton.mp new.1)]

private theorem EndsIn.kindOf_eq (ends : EndsIn path outer last) (closed : tree.Closed)
    (passable : ∀ passed ∈ trail (tree.start path) outer, tree.isDirectory passed = true)
    (there : tree.isDirectory (walk (tree.start path) path.rawNames) = true) :
    tree.kindOf path = some .directory := by
  refine kindOf_eq_directory closed ends.taken ends.short fun passed listed => ?_
  rw [ends.raw, mem_trail_append] at listed
  rcases listed with early | late
  · exact passable passed early
  · rcases List.mem_cons.mp late with rfl | late
    · exact passable _ (walk_mem_trail _ outer)
    · rw [List.mem_singleton.mp late, ← ends.walk_eq]
      exact there

/-- Behind directories that are there, one more is made if there is nothing. -/
theorem EndsIn.attempt_eq (ends : EndsIn path outer last) (closed : tree.Closed)
    (passable : ∀ passed ∈ trail (tree.start path) outer, tree.isDirectory passed = true)
    (clear : tree.file? (walk (tree.start path) path.rawNames) = none) :
    tree.makeDirectory path ≠ .error .notFound ∧
      ∃ after, tree.attempt path = (.ok (), after) ∧
        tree.Opened after [walk (tree.start path) path.rawNames] := by
  have made := ends.makeDirectory_eq closed passable
  unfold attempt
  by_cases missing : tree.find? (walk (tree.start path) path.rawNames) = none
  · rw [if_pos missing] at made
    rw [made]
    exact ⟨nofun, _, rfl, ends.opened_put closed (passable _ (walk_mem_trail _ outer)) missing⟩
  · rw [if_neg missing] at made
    rw [made]
    have there := isDirectory_of_file?_eq_none clear missing
    refine ⟨nofun, tree, ?_, .refl closed fun place listed => ?_⟩
    · show (tree.settled path .alreadyExists, tree) = _
      rw [settled, if_pos (ends.kindOf_eq closed passable there)]
    · rwa [List.mem_singleton.mp listed]

/-- The directory from which names are followed. -/
def base (tree : FileTree) (absolute : Bool) : List String := if absolute then [] else tree.here

theorem walk_slash (absolute : Bool) (place names : List String) :
    walk place (Path.slash absolute ++ names) = walk place names := by
  cases absolute <;> rfl

theorem mem_trail_slash (absolute : Bool) {place names passed : List String} :
    passed ∈ trail place (Path.slash absolute ++ names) ↔ passed ∈ trail place names := by
  cases absolute with
  | true =>
    show passed ∈ place :: trail place names ↔ _
    rw [List.mem_cons]
    refine ⟨fun either => either.elim ?_ id, .inr⟩
    rintro rfl
    exact mem_trail_start passed names
  | false => rfl

theorem start_ofNames {absolute : Bool} {names : List String}
    (normal : Path.Normal absolute names) :
    tree.start (Path.ofNames absolute names) = tree.base absolute := by
  unfold start
  rw [Path.isAbsolute_ofNames normal.whole normal.named]
  rfl

theorem endsIn_ofNames {absolute : Bool} {front : List String}
    (normal : Path.Normal absolute (front ++ [last]))
    (taken : checkPath (Path.ofNames absolute (front ++ [last])) = .ok ())
    (short : ∀ name ∈ front ++ [last], name.utf8ByteSize ≤ nameLimit) :
    EndsIn (Path.ofNames absolute (front ++ [last])) (Path.slash absolute ++ front) last := by
  have raw : (Path.ofNames absolute (front ++ [last])).rawNames =
      Path.slash absolute ++ (front ++ [last]) :=
    Path.rawNames_ofNames absolute (by simp) normal.whole
  refine ⟨taken, by rw [raw, List.append_assoc],
    normal.named last (List.mem_append_right _ List.mem_cons_self), fun name listed => ?_⟩
  rw [raw] at listed
  rcases List.mem_append.mp listed with empty | counted
  · cases absolute with
    | true =>
      rw [List.mem_singleton.mp empty]
      decide
    | false => exact absurd empty List.not_mem_nil
  · exact short name counted

private theorem makeNested_root (closed : tree.Closed) :
    (FileSystem.makeNested [Path.ofNames true []] : StateM FileTree _) tree = (.ok (), tree) := by
  have refused : tree.makeDirectory (Path.ofNames true []) = .error .alreadyExists := rfl
  have known : tree.kindOf (Path.ofNames true []) = some .directory := by
    refine kindOf_eq_directory closed (by decide) (by decide) fun passed listed => ?_
    have root : passed = [] := by
      have places : trail (tree.start (Path.ofNames true [])) (Path.ofNames true []).rawNames =
          [[], [], []] := rfl
      rw [places] at listed
      simpa using listed
    rw [root]
    exact tree.isDirectory_root
  rw [makeNested_of_found (by decide) (by rw [refused]; nofun)]
  unfold attempt settled
  rw [refused]
  show (if _ then _ else _, tree) = _
  rw [if_pos known]

private theorem mem_trail_concat {place front passed : List String} :
    passed ∈ trail place (front ++ [last]) ↔
      passed ∈ trail place front ++ [walk place (front ++ [last])] := by
  rw [List.mem_append, mem_trail_append, walk_append]
  refine ⟨fun either => either.elim .inl fun late => ?_,
    fun either => either.imp_right fun late => ?_⟩
  · rcases List.mem_cons.mp late with rfl | end'
    · exact .inl (walk_mem_trail place front)
    · exact .inr end'
  · exact List.mem_cons_of_mem _ late

/-- One more directory is made behind those that are there or were made before. -/
private theorem makeNested_concat {absolute : Bool} {front : List String}
    (normal : Path.Normal absolute (front ++ [last]))
    (taken : checkPath (Path.ofNames absolute (front ++ [last])) = .ok ())
    (short : ∀ name ∈ front ++ [last], name.utf8ByteSize ≤ nameLimit) (closed : tree.Closed)
    (start : tree.isDirectory (tree.base absolute) = true)
    (clear : ∀ passed ∈ trail (tree.base absolute) (front ++ [last]), tree.file? passed = none)
    {nested : List Path} {between : FileTree}
    (made : (FileSystem.makeNested nested : StateM FileTree _) tree = (.ok (), between))
    (opened : tree.Opened between (trail (tree.base absolute) front)) :
    ∃ after,
      (FileSystem.makeNested (Path.ofNames absolute (front ++ [last]) :: nested) :
        StateM FileTree _) tree = (.ok (), after) ∧
        tree.Opened after (trail (tree.base absolute) (front ++ [last])) := by
  have ends := endsIn_ofNames normal taken short
  have named := (checkPath_eq_ok.mp taken).2.1
  have based : tree.start (Path.ofNames absolute (front ++ [last])) = tree.base absolute :=
    start_ofNames normal
  have leads : walk (tree.base absolute) (Path.ofNames absolute (front ++ [last])).rawNames =
      walk (tree.base absolute) (front ++ [last]) := by
    rw [ends.raw, List.append_assoc, walk_slash]
  have inner : ∀ passed ∈ trail (tree.base absolute) (Path.slash absolute ++ front),
      passed ∈ trail (tree.base absolute) front ∧ tree.file? passed = none := by
    intro passed listed
    have early := (mem_trail_slash absolute).mp listed
    exact ⟨early, clear passed (mem_trail_append.mpr (.inl early))⟩
  have free : tree.file? (walk (tree.base absolute) (front ++ [last])) = none :=
    clear _ (walk_mem_trail _ _)
  rcases follow_clear closed start ends.short_outer fun passed listed => (inner passed listed).2
    with passable | missing
  · obtain ⟨found, after, attempted, last⟩ :=
      ends.attempt_eq closed (by rwa [based]) (by rwa [based, leads])
    -- All in front was there already, so the nested directories are not asked for.
    have before : tree.Opened tree (trail (tree.base absolute) front) := by
      refine .refl closed fun place listed => ?_
      rw [isDirectory_iff.mp (passable place ((mem_trail_slash absolute).mpr listed))]
      nofun
    rw [based, leads] at last
    exact ⟨after, (makeNested_of_found named found).trans attempted,
      (before.trans last).congr fun _ => mem_trail_concat⟩
  · have later := (opened.start (Path.ofNames absolute (front ++ [last]))).trans based
    obtain ⟨_, after, attempted, last⟩ := ends.attempt_eq opened.closed
      (fun passed listed => by
        rw [later] at listed
        obtain ⟨early, clear⟩ := inner passed listed
        exact opened.isDirectory_of_mem early clear)
      (by rwa [later, leads, opened.file?])
    rw [later, leads] at last
    rw [← based] at missing
    exact ⟨after, (makeNested_of_notFound named (ends.makeDirectory_missing missing)
      made).trans attempted, (opened.trans last).congr fun _ => mem_trail_concat⟩

/-- Where no file is in the way, all directories on the way to some names come to be there. -/
theorem makeNested_ancestors {absolute : Bool} {names : List String}
    (normal : Path.Normal absolute names)
    (taken : ∀ front, front <+: names → (Path.ofNames absolute front).text ≠ "" →
      checkPath (Path.ofNames absolute front) = .ok ())
    (short : ∀ name ∈ names, name.utf8ByteSize ≤ nameLimit) (closed : tree.Closed)
    (start : tree.isDirectory (tree.base absolute) = true)
    (clear : ∀ passed ∈ trail (tree.base absolute) names, tree.file? passed = none) :
    ∃ after,
      (FileSystem.makeNested (Path.ofNames absolute names).ancestors : StateM FileTree _) tree =
        (.ok (), after) ∧ tree.Opened after (trail (tree.base absolute) names) := by
  induction names using List.reverseRecOn with
  | nil =>
    have there : tree.find? (tree.base absolute) ≠ none := by
      rw [isDirectory_iff.mp start]
      nofun
    refine ⟨tree, ?_, .refl closed fun place listed => by rwa [List.mem_singleton.mp listed]⟩
    rw [Path.ancestors_ofNames_nil]
    cases absolute with
    | true => exact makeNested_root closed
    | false => rfl
  | append_singleton front last ih =>
    have fewer : Path.Normal absolute front := by
      have cut := normal.take front.length
      rwa [List.take_left] at cut
    have named : (Path.ofNames absolute (front ++ [last])).text ≠ "" := by
      intro empty
      have names := normal.names_ofNames
      rw [Path.names_of_empty empty] at names
      exact List.append_ne_nil_of_right_ne_nil front (List.cons_ne_nil last []) names.symm
    obtain ⟨between, made, opened⟩ := ih fewer
      (fun names ahead => taken names (ahead.trans (List.prefix_append _ _)))
      (fun name listed => short name (List.mem_append_left _ listed))
      fun passed listed => clear passed (mem_trail_append.mpr (.inl listed))
    rw [Path.ancestors_ofNames_concat normal]
    exact makeNested_concat normal (taken _ (List.prefix_refl _) named) short closed start clear
      made opened

end Making

end FileTree

end SpawnGuard
