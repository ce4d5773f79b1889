import Mathlib.Data.List.Sort
import SpawnGuard.Proofs.BatchRuns
import SpawnGuard.Proofs.ListingFiles
import SpawnGuard.Proofs.StoredGzip
import SpawnGuard.Proofs.TreeWalks

/-!
What a batch answers and what it leaves behind: the outputs of its listings up to the first that
is refused, and a report when there is none.
-/
namespace SpawnGuard

namespace Batch

open FileTree (walk trail)

section Runs

variable [Compressor]

/-- What the names that lead to a listing say: the default name of its method is the name of the
file without its endings, and its output is packed if the name has the extension for that. -/
structure Told (settings : Settings) (names : List String) : Prop where
  method : ∃ name unpacked, names.getLast? = some name ∧
    ListingFile.Trims ".gz".toList name.toList unpacked ∧
      ListingFile.Trims ".il".toList unpacked
        (ListingFile.methodName (source settings names).path).toList
  stored : ∀ text, ListingFile.encode (Path.ofNames false names) text =
    if (Path.ofNames false names).extension? = some "gz" then Compressor.pack text.toUTF8
    else text.toUTF8
  readable : ∀ text, ListingFile.decode (Path.ofNames false names)
    (ListingFile.encode (Path.ofNames false names) text) = .ok text

/-- The listings are made into what is said to be done. -/
structure AllMade (tree : FileTree) (settings : Settings) (place : List String)
    (listings : List (List String)) (done : List Done) : Prop where
  names : done.map Done.names = listings
  made : ∀ item ∈ done, item.Made tree settings place

/-- Some listings are made into what is said to be done, and the next one is refused. -/
structure StopsAt (tree : FileTree) (settings : Settings) (place : List String)
    (listings : List (List String)) (done : List Done) (error : BatchError) : Prop where
  made : ∀ item ∈ done, item.Made tree settings place
  refused : ∃ names rest, listings = done.map Done.names ++ names :: rest ∧
    Refused tree settings place names error

def reportPlace (tree : FileTree) (settings : Settings) : List String :=
  outputPlace tree settings ++ [reportName.text]

/-- The outputs and the report were written, with directories for the outputs; everything else is
as it was. -/
structure Left (tree : FileTree) (settings : Settings) (done : List Done) (report? : Option String)
    (after : FileTree) : Prop where
  outputs : ∀ item ∈ done, after.file? (outputPlace tree settings ++ item.names) =
    some (ListingFile.encode item.relative item.text)
  report : ∀ text ∈ report?, after.file? (reportPlace tree settings) = some text.toUTF8
  files : ∀ passed, (∀ item ∈ done, passed ≠ outputPlace tree settings ++ item.names) →
    (report? = none ∨ passed ≠ reportPlace tree settings) → after.file? passed = tree.file? passed
  kept : ∀ passed, tree.isDirectory passed = true → after.isDirectory passed = true
  made : ∀ passed, after.isDirectory passed = true → tree.isDirectory passed = true ∨
    ∃ item ∈ done, passed ∈ way tree (mirror settings item.names)

variable {tree now : FileTree} {settings : Settings} {place names : List String}
  {done : List Done} {patches : Patches}

theorem Ready.told [LawfulCompressor] (ready : Ready tree settings place)
    (listing : tree.HasListing place names) :
    Told settings names := by
  have some := ne_nil_of_hasListing listing
  have plain := ready.plain listing
  have last := List.getLast?_eq_some_getLast some
  have isListing : ListingFile.isListing (names.getLast some) = true := by
    have listed := listing.2
    rwa [last] at listed
  refine ⟨?_, ?_, fun text => ListingFile.decode_encode _ text⟩
  · obtain ⟨unpacked, packed, left⟩ := ListingFile.trims_methodName
      ((Path.fileName?_join some plain settings.input).trans last)
    exact ⟨_, unpacked, last, packed, left⟩
  · exact ListingFile.encode_of_isListing ((Path.fileName?_ofNames some plain).trans last) isListing

/-- Every list of listings is made into something, or only up to some listing. -/
theorem allMade_or_stopsAt (settings : Settings) {listings : List (List String)}
    (found : ∀ names ∈ listings, tree.HasListing place names) :
    (∃ done, AllMade tree settings place listings done) ∨
      ∃ done error, StopsAt tree settings place listings done error := by
  induction listings with
  | nil => exact .inl ⟨[], rfl, nofun⟩
  | cons names rest ih =>
    obtain ⟨⟨content, file⟩, _⟩ := found names List.mem_cons_self
    rcases makes_or_refuses settings.hook (source settings names).path content with
      ⟨text, outcome, makes⟩ | ⟨error, refuses⟩
    · have first : Done.Made tree settings place ⟨names, text, outcome⟩ := ⟨content, file, makes⟩
      have both {done : List Done} (made : ∀ item ∈ done, item.Made tree settings place) :
          ∀ item ∈ ⟨names, text, outcome⟩ :: done, item.Made tree settings place :=
        List.forall_mem_cons.mpr ⟨first, made⟩
      rcases ih fun other listed => found other (List.mem_cons_of_mem _ listed) with
        ⟨done, rfl, made⟩ | ⟨done, error, made, last, tail, rfl, refused⟩
      · exact .inl ⟨_, rfl, both made⟩
      · exact .inr ⟨_, error, both made, last, tail, rfl, refused⟩
    · exact .inr ⟨[], error, nofun, names, rest, rfl, content, file, refuses⟩

private theorem lookup_output {out : List String} {item : Done} (listed : item ∈ done)
    (once : (done.map Done.names).Nodup) :
    (done.map (Done.output out)).lookup (out ++ item.names) =
      some (ListingFile.encode item.relative item.text) := by
  obtain ⟨before, after, rfl⟩ := List.append_of_mem listed
  rw [List.map_append, List.lookup_append, lookup_output_eq_none, Option.none_or, List.map_cons]
  · exact List.lookup_cons_self
  · intro other found same
    rw [List.map_append, List.map_cons, List.nodup_append] at once
    exact once.2.2 _ (List.mem_map_of_mem found) _ List.mem_cons_self
      (List.append_cancel_left same).symm

theorem Progress.left (progress : Progress tree settings place done now)
    (once : (done.map Done.names).Nodup) : Left tree settings done none now := by
  refine ⟨fun item listed => ?_, nofun, fun passed apart _ => ?_, progress.kept, progress.made⟩
  · rw [progress.files, lookup_output listed once]
    rfl
  · rw [progress.files, lookup_output_eq_none apart, Option.none_or]

theorem Left.report_written {after : FileTree} {text : String}
    (left : Left tree settings done none now)
    (apart : ∀ item ∈ done, item.names ≠ [reportName.text])
    (directories : ∀ passed, after.isDirectory passed = true ↔ now.isDirectory passed = true)
    (files : ∀ passed, after.file? passed =
      if passed = reportPlace tree settings then some text.toUTF8 else now.file? passed) :
    Left tree settings done (some text) after := by
  refine ⟨fun item listed => ?_, ?_, fun passed outside report => ?_, fun passed directory => ?_,
    fun passed directory => left.made passed ((directories passed).mp directory)⟩
  · rw [files, reportPlace, if_neg fun same => apart item listed (List.append_cancel_left same)]
    exact left.outputs item listed
  · rintro _ ⟨⟩
    rw [files, if_pos rfl]
  · rw [files, if_neg (report.resolve_left nofun)]
    exact left.files passed outside (.inl rfl)
  · exact (directories passed).mpr (left.kept passed directory)

theorem AllMade.ne_nil {listings : List (List String)}
    (all : AllMade tree settings place listings done) (named : listings ≠ []) : done ≠ [] := by
  rintro rfl
  exact named all.names.symm

variable [Walker (StateM FileTree)]

def Ends (tree : FileTree) (settings : Settings) (result : Except BatchError (List Report))
    (done : List Done) (report? : Option String) : Prop :=
  ∃ log after, (run settings : StateM FileTree _) tree = ((result, log), after) ∧
    Left tree settings done report? after

/-- The batch answers with an error and has touched nothing. -/
def Declines (tree : FileTree) (settings : Settings) (error : BatchError) : Prop :=
  ∃ log, (run settings : StateM FileTree _) tree = ((.error error, log), tree)

section Answers

variable {listings : List (List String)} {log : Log}

theorem run_of_accepted (accepted : (Patches.ofOptions settings.options).withHook settings.hook =
      .ok patches) {result : Except BatchError (List Report)}
    (ran : (runWith patches settings : StateM FileTree _) tree = ((result, log), now)) :
    ∃ log, (run settings : StateM FileTree _) tree = ((result, log), now) := by
  unfold run
  rw [accepted]
  exact ⟨_, FileTree.bind_eq ran _⟩

theorem run_of_none (found : Found tree settings place [])
    (accepted : (Patches.ofOptions settings.options).withHook settings.hook = .ok patches) :
    Declines tree settings (.config (.noListings settings.input)) :=
  run_of_accepted accepted (FileTree.bind_eq found.run _)

theorem run_of_sources_refused {error : BatchError}
    (refused : (sources settings.input : StateM FileTree _) tree = (.error error, tree))
    (accepted : (Patches.ofOptions settings.options).withHook settings.hook = .ok patches) :
    Declines tree settings error := run_of_accepted accepted (FileTree.bind_eq refused _)

variable (found : Found tree settings place listings) (named : listings ≠ [])

include found named

theorem runWith_of_error {error : BatchError}
    (patched : (patchAll patches settings false (listings.map (source settings)) :
      StateM FileTree _) tree = ((.error error, log), now)) :
    (runWith patches settings : StateM FileTree _) tree = ((.error error, log), now) := by
  obtain ⟨names, rest, rfl⟩ := List.exists_cons_of_ne_nil named
  exact (FileTree.bind_eq found.run _).trans (FileTree.bind_eq patched _)

theorem runWith_of_ok {reports : List Report}
    (patched : (patchAll patches settings false (listings.map (source settings)) :
      StateM FileTree _) tree = ((.ok reports, log), now))
    (debug : settings.debug = false) :
    (runWith patches settings : StateM FileTree _) tree = ((.ok reports, log), now) := by
  obtain ⟨names, rest, rfl⟩ := List.exists_cons_of_ne_nil named
  refine (FileTree.bind_eq found.run _).trans ((FileTree.bind_eq patched _).trans ?_)
  simp only [debug]
  rfl

theorem runWith_of_report {reports : List Report} {answer : Except TextFault Unit}
    {after : FileTree}
    (patched : (patchAll patches settings false (listings.map (source settings)) :
      StateM FileTree _) tree = ((.ok reports, log), now))
    (debug : settings.debug = true)
    (written : (writeReport patches settings.output reports : StateM FileTree _) now =
      (answer, after)) :
    (runWith patches settings : StateM FileTree _) tree =
      (((answer.mapError .text).map fun _ => reports, log), after) := by
  obtain ⟨names, rest, rfl⟩ := List.exists_cons_of_ne_nil named
  refine (FileTree.bind_eq found.run _).trans ((FileTree.bind_eq patched _).trans ?_)
  simp only [debug]
  refine (FileTree.bind_eq written _).trans ?_
  cases answer <;> rfl

end Answers

section Ended

variable {listings : List (List String)}

theorem AllMade.listed (all : AllMade tree settings place listings done)
    (found : Found tree settings place listings) :
    ∀ item ∈ done, tree.HasListing place item.names := fun _ member =>
  (found.whole _).mp (all.names ▸ List.mem_map_of_mem member)

variable (ready : Ready tree settings place) (found : Found tree settings place listings)
  (accepted : (Patches.ofOptions settings.options).withHook settings.hook = .ok patches)

include ready found accepted

/-- What is made is written, and then comes what follows. -/
private theorem patchAll_done {tail : List (List String)}
    (split : listings = done.map Done.names ++ tail)
    (made : ∀ item ∈ done, item.Made tree settings place) :
    ∃ after log, Progress tree settings place done after ∧ (done.map Done.names).Nodup ∧
      ∀ result later last,
        (patchAll patches settings false (tail.map (source settings)) : StateM FileTree _) after =
          ((result, later), last) →
        (patchAll patches settings false (listings.map (source settings)) :
          StateM FileTree _) tree =
            ((result.map (done.map Done.report ++ ·), log ++ later), last) := by
  have listed : ∀ item ∈ [] ++ done, tree.HasListing place item.names := fun item member =>
    (found.whole _).mp (split ▸ List.mem_append_left _ (List.mem_map_of_mem member))
  have once : (done.map Done.names).Nodup := (List.nodup_append.mp (split ▸ found.nodup)).1
  obtain ⟨after, log, progress, ran⟩ := patchAll_append ready (hook_of_withHook accepted).1
    (Progress.start_of_ready ready) listed once made (tail.map (source settings))
  refine ⟨after, log, progress, once, ?_⟩
  rw [split, List.map_append, List.map_map]
  exact ran

theorem ends_of_stopsAt {error : BatchError}
    (stops : StopsAt tree settings place listings done error) :
    Ends tree settings (.error error) done none := by
  obtain ⟨names, rest, split, refused⟩ := stops.refused
  obtain ⟨after, log, progress, once, ran⟩ := patchAll_done ready found accepted split stops.made
  have listed : names ∈ listings := split ▸ List.mem_append_right _ List.mem_cons_self
  obtain ⟨later, refusal⟩ := patchAll_of_refused ready (hook_of_withHook accepted).1 progress
    ((found.whole names).mp listed) refused (rest.map (source settings))
  obtain ⟨whole, answer⟩ := run_of_accepted accepted
    (runWith_of_error found (List.ne_nil_of_mem listed) (ran _ later after refusal))
  exact ⟨whole, after, answer, progress.left once⟩

variable (all : AllMade tree settings place listings done)

include all

private theorem all_written :
    ∃ after log, Progress tree settings place done after ∧
      (patchAll patches settings false (listings.map (source settings)) : StateM FileTree _) tree =
        ((.ok (done.map Done.report), log), after) := by
  obtain ⟨after, log, progress, _, ran⟩ := patchAll_done ready found accepted
    (all.names.symm.trans (List.append_nil _).symm) all.made
  have whole := ran (.ok []) [] after rfl
  rw [Except.map, List.append_nil] at whole
  exact ⟨after, _, progress, whole⟩

variable (named : listings ≠ [])

include named

theorem ends_of_allMade (debug : settings.debug = false) :
    Ends tree settings (.ok (done.map Done.report)) done none := by
  obtain ⟨after, log, progress, ran⟩ := all_written ready found accepted all
  obtain ⟨whole, answer⟩ := run_of_accepted accepted (runWith_of_ok found named ran debug)
  exact ⟨whole, after, answer, progress.left (all.names ▸ found.nodup)⟩

/-- The report is added where its place is not taken by a directory of outputs. -/
theorem ends_of_report (debug : settings.debug = true)
    (free : ∀ names ∈ listings, names.head? ≠ some reportName.text) :
    Ends tree settings (.ok (done.map Done.report)) done
      (reportText patches (done.map Done.report)) := by
  obtain ⟨between, log, progress, ran⟩ := all_written ready found accepted all
  have listed := all.listed found
  obtain ⟨after, written, directories, files⟩ := progress.writeReport_eq_ok ready debug
    (all.ne_nil named) listed
    (fun names listing => free names ((found.whole names).mpr listing)) patches
    (done.map Done.report)
  obtain ⟨whole, answer⟩ := run_of_accepted accepted
    (runWith_of_report found named ran debug written)
  refine ⟨whole, after, answer, (progress.left (all.names ▸ found.nodup)).report_written ?_
    directories files⟩
  intro item member same
  refine free _ ((found.whole _).mpr (listed item member)) ?_
  rw [same]
  rfl

/-- Outputs in a directory in place of the report are written, and the report is not. -/
theorem ends_of_report_refused (debug : settings.debug = true)
    (taken : ∃ names ∈ listings, names.head? = some reportName.text) :
    Ends tree settings (.error (.text (.file .isDirectory))) done none := by
  obtain ⟨between, log, progress, ran⟩ := all_written ready found accepted all
  obtain ⟨names, listed, first⟩ := taken
  obtain ⟨item, member, rfl⟩ := List.mem_map.mp (all.names ▸ listed)
  obtain ⟨rest, inside⟩ := List.head?_eq_some_iff.mp first
  have inner : rest ≠ [] := by
    rintro rfl
    have listing := (all.listed found item member).2
    rw [inside] at listing
    exact absurd listing (by decide)
  obtain ⟨whole, answer⟩ := run_of_accepted accepted (runWith_of_report found named ran debug
    (progress.writeReport_refused ready debug member inside inner patches (done.map Done.report)))
  exact ⟨whole, between, answer, progress.left (all.names ▸ found.nodup)⟩

end Ended

/-- A batch writes the outputs of its listings, in their order, up to the first that is refused,
and nothing else; with none refused it adds the report that debugging asks for, unless there are
outputs in a directory in place of the report. If a directory cannot be read, nothing is written. -/
theorem batch_writes_up_to_refusal [LawfulCompressor] [LawfulWalker]
    (ready : Ready tree settings place) :
    ∃ listings : List (List String),
      (∀ names, names ∈ listings ↔ tree.HasListing place names) ∧ listings.Pairwise (· < ·) ∧
      (∀ names ∈ listings, Told settings names) ∧
      (∀ error, (Patches.ofOptions settings.options).withHook settings.hook = .error error →
        Declines tree settings (.config (.hook error))) ∧
      ∀ patches, (Patches.ofOptions settings.options).withHook settings.hook = .ok patches →
        (¬ tree.Readable settings.input place → ∃ fault,
          Walk.collect ((Walker.walk settings.input : StateM FileTree _) tree).1 = .error fault ∧
            Declines tree settings (.walk fault)) ∧
        (tree.Readable settings.input place →
          (listings = [] → Declines tree settings (.config (.noListings settings.input))) ∧
          ((∃ done, AllMade tree settings place listings done) ∨
            ∃ done error, StopsAt tree settings place listings done error) ∧
          (∀ done, listings ≠ [] → AllMade tree settings place listings done →
            (settings.debug = false → Ends tree settings (.ok (done.map Done.report)) done none) ∧
            (settings.debug = true →
              if ∃ names ∈ listings, names.head? = some reportName.text then
                Ends tree settings (.error (.text (.file .isDirectory))) done none
              else Ends tree settings (.ok (done.map Done.report)) done
                (reportText patches (done.map Done.report)))) ∧
          ∀ done error, StopsAt tree settings place listings done error →
            Ends tree settings (.error error) done none) := by
  obtain ⟨listings, whole, sorted⟩ := ready.sound.exists_sorted place
  refine ⟨listings, whole, sorted, fun names listed => ready.told ((whole names).mp listed), ?_,
    fun patches accepted => ⟨fun unread => ?_, fun readable => ?_⟩⟩
  · intro error refused
    unfold Declines run
    rw [refused]
    exact ⟨_, rfl⟩
  · obtain ⟨fault, failed, refused⟩ := ready.sources_refused unread
    exact ⟨fault, failed, run_of_sources_refused refused accepted⟩
  · have found := ready.found readable whole sorted
    refine ⟨?_, allMade_or_stopsAt settings fun names => (whole names).mp, ?_, ?_⟩
    · rintro rfl
      exact run_of_none found accepted
    · intro done named all
      refine ⟨ends_of_allMade ready found accepted all named, fun debug => ?_⟩
      split
      next taken => exact ends_of_report_refused ready found accepted all named debug taken
      next free =>
        exact ends_of_report ready found accepted all named debug fun names listed first =>
          free ⟨names, listed, first⟩
    · exact fun done error stops => ends_of_stopsAt ready found accepted stops

end Runs

/-- The text `frobnicate` in a gzip file. -/
def packedWord : ByteArray :=
  ⟨#[
    0x1F, 0x8B, 0x08, 0x00, 0x00, 0x00, 0x00, 0x00, 0x00, 0x03, 0x4B, 0x2B, 0xCA, 0x4F,
    0xCA, 0xCB, 0x4C, 0x4E, 0x2C, 0x49, 0xE5, 0x02, 0x00, 0x20, 0x13, 0x93, 0x32, 0x0B,
    0x00, 0x00, 0x00]⟩

/-- A listing, a packed one with an unknown word, and a file that is no listing. -/
def mixedTree : FileTree where
  entries :=
    [(["in"], .directory), (["in", "a.il"], .file "ret\n".toUTF8),
      (["in", "b.il.gz"], .file packedWord), (["in", "notes.txt"], .file .empty)]
  here := []

def gateSettings : Settings := ⟨⟨"in"⟩, ⟨"out"⟩, "Boolean Gate()", {}, true⟩

theorem withHook_gateSettings :
    (Patches.ofOptions gateSettings.options).withHook gateSettings.hook =
      .ok ⟨true, "Boolean Gate()"⟩ := by
  decide

def retBody : Body := ⟨"a", [⟨.ret, .none, []⟩], 0⟩

theorem makes_ret (path : Path) (taken : FileTree.checkPath path = .ok ())
    (named : ListingFile.methodName path = "a") :
    Makes "Boolean Gate()" path (ListingFile.encode path "ret\n") ".method \"a\"\n    ret\n"
      .notFound := by
  refine ⟨taken, "ret\n", retBody, retBody, ListingFile.decode_encode path _, ?_, ?_, ?_⟩
  · rw [named]
    decide +kernel
  · decide
  · decide +kernel

def mixedDone : Done := ⟨["a.il"], ".method \"a\"\n    ret\n", .notFound⟩

private theorem decode_packedWord :
    ListingFile.decode ⟨"in/b.il.gz"⟩ packedWord = .ok "frobnicate\n" := by
  decide +kernel

private theorem stopsAt_mixed :
    StopsAt mixedTree gateSettings ["in"] [["a.il"], ["b.il.gz"]] [mixedDone]
      (.listing ⟨"in/b.il.gz"⟩ ⟨1, .unknownOpcode "frobnicate"⟩) := by
  constructor
  · intro item listed
    rw [List.mem_singleton.mp listed]
    exact ⟨"ret\n".toUTF8, rfl, makes_ret ⟨"in/a.il"⟩ (by decide) (by decide)⟩
  · exact ⟨["b.il.gz"], [], rfl, packedWord, rfl,
      .unparsed (by decide) decode_packedWord (by decide +kernel)⟩

/-- The listing is patched, and then the unknown word in the packed one ends the batch. -/
theorem mixed_batch_stops :
    Ready mixedTree gateSettings ["in"] ∧ mixedTree.Readable gateSettings.input ["in"] ∧
      Ends mixedTree gateSettings
        (.error (.listing ⟨"in/b.il.gz"⟩ ⟨1, .unknownOpcode "frobnicate"⟩)) [mixedDone] none := by
  have ready : Ready mixedTree gateSettings ["in"] := by decide
  have readable : mixedTree.Readable gateSettings.input ["in"] := by decide
  obtain ⟨listings, whole, sorted, _, _, answers⟩ := batch_writes_up_to_refusal ready
  have listed : listings = [["a.il"], ["b.il.gz"]] :=
    sorted.eq_of_mem_iff (by decide) fun names =>
      (whole names).trans ready.sound.mem_listings.symm
  subst listed
  obtain ⟨_, _, _, stopped⟩ := (answers _ withHook_gateSettings).2 readable
  exact ⟨ready, readable, stopped _ _ stopsAt_mixed⟩

/-- A listing below a directory that is named like the report. -/
def shadowingTree : FileTree where
  entries :=
    [(["in"], .directory), (["in", "patch_report.txt"], .directory),
      (["in", "patch_report.txt", "a.il"], .file "ret\n".toUTF8)]
  here := []

def shadowingDone : Done :=
  ⟨["patch_report.txt", "a.il"], ".method \"a\"\n    ret\n", .notFound⟩

/-- The only listing is made into its output, and still the batch ends with an error. -/
theorem shadowed_report_fails :
    Ready shadowingTree gateSettings ["in"] ∧ shadowingTree.Readable gateSettings.input ["in"] ∧
      AllMade shadowingTree gateSettings ["in"] (shadowingTree.listings ["in"]) [shadowingDone] ∧
      Ends shadowingTree gateSettings (.error (.text (.file .isDirectory))) [shadowingDone]
        none := by
  have ready : Ready shadowingTree gateSettings ["in"] := by decide
  have readable : shadowingTree.Readable gateSettings.input ["in"] := by decide
  have all : AllMade shadowingTree gateSettings ["in"] [["patch_report.txt", "a.il"]]
      [shadowingDone] := by
    refine ⟨rfl, fun item listed => ?_⟩
    rw [List.mem_singleton.mp listed]
    exact ⟨"ret\n".toUTF8, rfl,
      makes_ret ⟨"in/patch_report.txt/a.il"⟩ (by decide) (by decide)⟩
  have listed : shadowingTree.listings ["in"] = [["patch_report.txt", "a.il"]] := by decide
  have found : Found shadowingTree gateSettings ["in"] [["patch_report.txt", "a.il"]] :=
    ready.found readable (fun _ => listed ▸ ready.sound.mem_listings) (List.pairwise_singleton _ _)
  rw [listed]
  exact ⟨ready, readable, all, ends_of_report_refused ready found withHook_gateSettings all
    (by decide) rfl ⟨_, List.mem_cons_self, rfl⟩⟩

end Batch

end SpawnGuard
