import SpawnGuard.Proofs.BatchSteps

/-!
Runs of a batch. It writes what its listings are made into, one after the other, up to the first
one that is refused, and nothing else.
-/
namespace SpawnGuard

namespace Path

variable {names : List String}

theorem fileName?_ofNames (some : names ≠ []) (plain : ∀ name ∈ names, Plain name) :
    (ofNames false names).fileName? = names.getLast? := by
  have listed := plain _ (List.getLast_mem some)
  have normal : Normal false names :=
    ⟨fun name found => (plain name found).named, fun name found => (plain name found).whole,
      fun dotted => (plain "." (List.mem_of_mem_tail dotted)).real rfl⟩
  unfold fileName?
  rw [normal.names_ofNames, List.getLast?_eq_some_getLast some]
  exact if_neg (not_or.mpr ⟨listed.inner, listed.real⟩)

end Path

namespace Batch

open FileTree (trail)

variable {tree now : FileTree} {settings : Settings} {place names : List String}
  {done : List Done}

def source (settings : Settings) (names : List String) : Source :=
  ⟨settings.input.join (Path.ofNames false names), Path.ofNames false names⟩

theorem mirror_report (settings : Settings) :
    mirror settings [reportName.text] = settings.output.join reportName := rfl

private theorem plain_report : ∀ name ∈ [reportName.text], Path.Plain name := by
  intro name listed
  rw [List.mem_singleton.mp listed]
  exact ⟨by decide, by decide, by decide, by decide⟩

theorem checkPath_of_join {base path : Path} (relative : path.isAbsolute = false)
    (taken : FileTree.checkPath (base.join path) = .ok ()) (named : base.text ≠ "") :
    FileTree.checkPath base = .ok () := by
  have longer : ∃ back, (base.join path).text = base.text ++ back := by
    unfold Path.join
    rw [if_neg (by rw [relative]; exact Bool.false_ne_true)]
    split
    · exact ⟨_, rfl⟩
    · exact ⟨_, String.append_assoc⟩
  obtain ⟨back, text⟩ := longer
  obtain ⟨zero, _, size⟩ := FileTree.checkPath_eq_ok.mp taken
  rw [text, String.toList_append] at zero
  rw [text, String.utf8ByteSize_append] at size
  exact FileTree.checkPath_eq_ok.mpr
    ⟨fun listed => zero (List.mem_append_left _ listed), named, by omega⟩

private theorem eq_nil_of_report {front rest : List String}
    (split : [reportName.text] = front ++ rest) (named : rest ≠ []) : front = [] := by
  rcases List.append_eq_singleton_iff.mp split.symm with ⟨bare, _⟩ | ⟨_, none⟩
  · exact bare
  · exact absurd none named

private theorem rawNames_report (settings : Settings) :
    ∃ outer, (mirror settings [reportName.text]).rawNames = outer ++ [reportName.text] := by
  obtain ⟨front, raw, _⟩ := Path.rawNames_join (List.cons_ne_nil _ _) plain_report settings.output
  exact ⟨front, raw⟩

section Listings

variable [Walker (StateM FileTree)]

/-- What a batch finds below its input: every listing once, in the order of names. -/
structure Found (tree : FileTree) (settings : Settings) (place : List String)
    (listings : List (List String)) : Prop where
  whole : ∀ names, names ∈ listings ↔ tree.HasListing place names
  sorted : listings.Pairwise (· < ·)
  run : (sources settings.input : StateM FileTree _) tree =
    (.ok (false, listings.map (source settings)), tree)

variable {listings : List (List String)}

theorem Found.nodup (found : Found tree settings place listings) : listings.Nodup :=
  found.sorted.imp ne_of_lt

theorem Ready.sources_run (ready : Ready tree settings place)
    {told : List (Except String WalkEntry)}
    (walked : (Walker.walk settings.input : StateM FileTree _) tree = (told, tree)) :
    (sources settings.input : StateM FileTree _) tree =
      (((Walk.collect told).mapError .walk).map fun entries =>
        (false, listingsBelow settings.input entries), tree) := by
  have enters := FileTree.enters_of_resolve ready.sound.closed ready.resolved ready.directory
  have kind : (FileSystem.kind settings.input : StateM FileTree _) tree =
      (some .directory, tree) := congrArg (·, tree) (enters.kindOf_eq ready.sound.closed)
  refine (FileTree.bind_eq kind _).trans ((FileTree.bind_eq walked _).trans ?_)
  cases Walk.collect told <;> rfl

variable [LawfulWalker]

theorem Ready.found (ready : Ready tree settings place)
    (readable : tree.Readable settings.input place)
    (whole : ∀ names, names ∈ listings ↔ tree.HasListing place names)
    (sorted : listings.Pairwise (· < ·)) : Found tree settings place listings := by
  obtain ⟨told, ran, walked⟩ :=
    LawfulWalker.walked ready.sound ready.resolved ready.directory
  obtain ⟨entries, all⟩ := (walked.readable_iff ready.sound.closed).mp readable
  refine ⟨whole, sorted, (ready.sources_run ran).trans ?_⟩
  rw [all, ← walked.listings_eq ready.sound.closed all whole sorted, List.map_map]
  rfl

/-- With a directory that cannot be read the walk fails. -/
theorem Ready.sources_refused (ready : Ready tree settings place)
    (unread : ¬ tree.Readable settings.input place) :
    ∃ fault, Walk.collect ((Walker.walk settings.input : StateM FileTree _) tree).1 =
        .error fault ∧
      (sources settings.input : StateM FileTree _) tree = (.error (.walk fault), tree) := by
  obtain ⟨told, ran, walked⟩ :=
    LawfulWalker.walked ready.sound ready.resolved ready.directory
  have source := ready.sources_run ran
  rw [ran]
  cases all : Walk.collect told with
  | ok entries => exact absurd ((walked.readable_iff ready.sound.closed).mpr ⟨entries, all⟩) unread
  | error fault =>
    rw [all] at source
    exact ⟨fault, rfl, source⟩

end Listings

variable [Compressor]

/-- A listing was made into what is said to be written for it. -/
def Done.Made (tree : FileTree) (settings : Settings) (place : List String) (item : Done) : Prop :=
  ∃ content, tree.file? (place ++ item.names) = some content ∧
    Makes settings.hook (source settings item.names).path content item.text item.outcome

def Refused (tree : FileTree) (settings : Settings) (place names : List String)
    (error : BatchError) : Prop :=
  ∃ content, tree.file? (place ++ names) = some content ∧
    Refuses settings.hook (source settings names).path content error

theorem encode_mirror (some : names ≠ []) (plain : ∀ name ∈ names, Path.Plain name)
    (settings : Settings) (text : String) :
    ListingFile.encode (mirror settings names) text =
      ListingFile.encode (Path.ofNames false names) text := by
  have same : (mirror settings names).extension? = (Path.ofNames false names).extension? := by
    unfold Path.extension? mirror
    rw [Path.fileName?_join some plain, Path.fileName?_ofNames some plain]
  unfold ListingFile.encode ListingFile.isGzip
  rw [same]

/-- Reading a listing gives what stood there at first. -/
theorem Progress.readFile (progress : Progress tree settings place done now)
    (ready : Ready tree settings place) (listing : tree.HasListing place names)
    {content : ByteArray} (file : tree.file? (place ++ names) = some content) :
    now.readFile (source settings names).path =
      (FileTree.checkPath (source settings names).path).map fun _ => content := by
  have enters := (FileTree.enters_of_resolve ready.sound.closed ready.resolved
    ready.directory).mono progress.here progress.kept
  exact enters.readFile_join (ne_nil_of_hasListing listing)
    (ready.plain listing) (ready.short listing) progress.closed
    ((progress.input ready names).trans file)

variable {patches : Patches}

/-- A listing that can be made into something is written. -/
theorem patchFile_of_made (ready : Ready tree settings place) (hook : patches.hook = settings.hook)
    (progress : Progress tree settings place done now) {item : Done}
    (listings : ∀ other ∈ done ++ [item], tree.HasListing place other.names)
    (once : ((done ++ [item]).map Done.names).Nodup) (made : item.Made tree settings place) :
    ∃ after log, Progress tree settings place (done ++ [item]) after ∧
      (patchFile patches (source settings item.names).path (mirror settings item.names) :
        StateM FileTree _) now = ((.ok item.outcome, log), after) := by
  have listing := listings item (List.mem_append_right _ List.mem_cons_self)
  have new : ∀ other ∈ done, other.names ≠ item.names := by
    intro other found same
    rw [List.map_append, List.nodup_append] at once
    exact once.2.2 _ (List.mem_map_of_mem found) _ List.mem_cons_self same
  obtain ⟨after, written, onward⟩ := progress.write ready
    (fun other found => listings other (List.mem_append_left _ found)) listing new
  obtain ⟨content, file, makes⟩ := made
  rw [Done.relative, ← encode_mirror (ne_nil_of_hasListing listing) (ready.plain listing)]
    at written
  obtain ⟨log, patched⟩ := patchFile_of_makes (progress.readFile ready listing file)
    (hook ▸ makes) written
  exact ⟨after, log, onward, patched⟩

/-- Listings that can be made into something are written one after the other. -/
theorem patchAll_append (ready : Ready tree settings place) (hook : patches.hook = settings.hook)
    (progress : Progress tree settings place done now) {more : List Done}
    (listings : ∀ item ∈ done ++ more, tree.HasListing place item.names)
    (once : ((done ++ more).map Done.names).Nodup)
    (made : ∀ item ∈ more, item.Made tree settings place) (tail : List Source) :
    ∃ after log, Progress tree settings place (done ++ more) after ∧
      ∀ result later last,
        (patchAll patches settings false tail : StateM FileTree _) after =
          ((result, later), last) →
        (patchAll patches settings false (more.map (source settings ·.names) ++ tail) :
          StateM FileTree _) now =
          ((result.map (more.map Done.report ++ ·), log ++ later), last) := by
  -- What is done grows with each listing, so it is generalized with the tree that holds it.
  induction more generalizing done now with
  | nil =>
    refine ⟨now, [], by rwa [List.append_nil], fun result later last ran => ?_⟩
    cases result <;> exact ran
  | cons item rest ih =>
    rw [List.append_cons] at listings once ⊢
    have fewer : ((done ++ [item]).map Done.names).Nodup := by
      rw [List.map_append] at once
      exact (List.nodup_append.mp once).1
    obtain ⟨between, first, onward, patched⟩ := patchFile_of_made ready hook progress
      (fun other found => listings other (List.mem_append_left _ found)) fewer
      (made item List.mem_cons_self)
    obtain ⟨after, log, last, ran⟩ := ih onward listings once fun other found =>
      made other (List.mem_cons_of_mem _ found)
    refine ⟨after, first ++ item.report.entry :: log, last, fun result later final tailRan => ?_⟩
    refine (FileTree.bind_eq patched _).trans ?_
    refine (FileTree.bind_eq (ran result later final tailRan) _).trans ?_
    show ((_, first ++ item.report.entry :: (log ++ later)), final) = _
    rw [List.append_assoc, List.cons_append]
    cases result <;> rfl

/-- A listing that is refused ends the batch with its error. -/
theorem patchAll_of_refused (ready : Ready tree settings place)
    (hook : patches.hook = settings.hook) (progress : Progress tree settings place done now)
    (listing : tree.HasListing place names) {error : BatchError}
    (refused : Refused tree settings place names error) (rest : List Source) :
    ∃ log, (patchAll patches settings false (source settings names :: rest) : StateM FileTree _)
      now = ((.error error, log), now) := by
  obtain ⟨content, file, refuses⟩ := refused
  have patched : (patchFile patches (source settings names).path
      (destination settings false (source settings names)) : StateM FileTree _) now =
        ((.error error, []), now) :=
    patchFile_of_refuses (progress.readFile ready listing file) (hook ▸ refuses)
  exact ⟨_, FileTree.bind_eq patched _⟩

theorem Progress.start_of_ready (ready : Ready tree settings place) :
    Progress tree settings place [] tree :=
  ⟨rfl, ready.sound.closed, fun _ => id, fun _ => .inl, fun _ => rfl, fun none => absurd rfl none⟩

/-- The output directory is there when something was written in it. -/
theorem Progress.makeDirectories (progress : Progress tree settings place done now)
    (writable : tree.Writable (settings.output.join reportName)) (started : done ≠ []) :
    (FileSystem.makeDirectories settings.output : StateM FileTree _) now = (.ok (), now) := by
  by_cases bare : settings.output.text = ""
  · unfold FileSystem.makeDirectories Path.ancestors
    rw [FileSystem.makeNested, if_pos bare]
    rfl
  · refine FileTree.Enters.makeDirectories_eq
      ⟨checkPath_of_join rfl writable.taken bare, fun name listed => ?_, ?_, rfl⟩ progress.closed
    · refine writable.short name ?_
      rw [← mirror_report, mirror, Path.names_join (List.cons_ne_nil _ _) plain_report]
      exact List.mem_append_left _ listed
    · rw [progress.start]
      exact progress.opened started

private theorem passable_report (progress : Progress tree settings place done now)
    (started : done ≠ []) :
    ∀ passed ∈ way now (mirror settings [reportName.text]), now.isDirectory passed = true := by
  intro passed listed
  rw [mem_way_mirror (List.cons_ne_nil _ _) plain_report, progress.start] at listed
  rcases listed with outer | ⟨front, rest, split, named, rfl⟩
  · exact progress.opened started passed outer
  · rw [eq_nil_of_report split named, List.append_nil, outputPlace, progress.start]
    exact progress.opened started _ (FileTree.walk_mem_trail _ _)

/-- The report is written last, where no directory was made in its place. -/
theorem Progress.writeReport_eq_ok (progress : Progress tree settings place done now)
    (ready : Ready tree settings place) (debug : settings.debug = true) (started : done ≠ [])
    (listings : ∀ item ∈ done, tree.HasListing place item.names)
    (free : ∀ names, tree.HasListing place names → names.head? ≠ some reportName.text)
    (patches : Patches) (reports : List Report) :
    ∃ after, (writeReport patches settings.output reports : StateM FileTree _) now =
        (.ok (), after) ∧
      (∀ passed, after.isDirectory passed = true ↔ now.isDirectory passed = true) ∧
      ∀ passed, after.file? passed =
        if passed = outputPlace tree settings ++ [reportName.text] then
          some (reportText patches reports).toUTF8
        else now.file? passed := by
  have reportable := ready.reportable debug
  have alone : ∀ front rest, [reportName.text] = front ++ rest → rest ≠ [] →
      ¬ tree.HasListing place front := fun front rest split named listing =>
    ne_nil_of_hasListing listing (eq_nil_of_report split named)
  have writable := progress.writable ready listings (List.cons_ne_nil _ _) plain_report reportable
    alone fun rest named listing => free _ listing rfl
  obtain ⟨outer, raw⟩ := rawNames_report settings
  have passable := passable_report progress started
  obtain ⟨after, written, put⟩ := writable.write progress.closed raw
    (plain_report _ List.mem_cons_self) passable (reportText patches reports).toUTF8
  rw [progress.start, walk_mirror (List.cons_ne_nil _ _) plain_report] at put
  refine ⟨after, ?_, fun passed => ⟨fun directory => ?_, put.kept passed⟩, put.file⟩
  · refine (FileTree.bind_eq (progress.makeDirectories reportable started) _).trans ?_
    exact FileTree.bind_eq written _
  · exact (put.made passed directory).elim id fun new => absurd new (List.not_mem_nil)

/-- Where a directory was made in its place, the report cannot be written. -/
theorem Progress.writeReport_refused (progress : Progress tree settings place done now)
    (ready : Ready tree settings place) (debug : settings.debug = true) {item : Done}
    (written : item ∈ done) {rest : List String} (inside : item.names = reportName.text :: rest)
    (named : rest ≠ []) (patches : Patches) (reports : List Report) :
    (writeReport patches settings.output reports : StateM FileTree _) now =
      (.error (.file .isDirectory), now) := by
  have reportable := ready.reportable debug
  have started : done ≠ [] := List.ne_nil_of_mem written
  obtain ⟨outer, raw⟩ := rawNames_report settings
  have ends := reportable.endsIn raw (plain_report _ List.mem_cons_self)
  have there : now.find? (outputPlace tree settings ++ [reportName.text] ++ rest) ≠ none := by
    intro nothing
    have file := progress.files (outputPlace tree settings ++ [reportName.text] ++ rest)
    unfold FileTree.file? at file
    rw [nothing] at file
    have missing := (Option.or_eq_none_iff.mp file.symm).1
    rw [List.lookup_eq_none_iff] at missing
    refine bne_iff_ne.mp (missing _ (List.mem_map_of_mem written)) ?_
    rw [Done.output, inside, List.append_assoc]
    rfl
  have directory := FileTree.isDirectory_of_append progress.closed there named
  rw [← walk_mirror (List.cons_ne_nil _ _) plain_report, ← progress.start] at directory
  refine (FileTree.bind_eq (progress.makeDirectories reportable started) _).trans ?_
  exact FileTree.bind_eq (ends.write_refused progress.closed (plain_report _ List.mem_cons_self)
    (passable_report progress started) directory _) _

end Batch

end SpawnGuard
