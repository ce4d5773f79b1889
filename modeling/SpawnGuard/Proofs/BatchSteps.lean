import SpawnGuard.Batch.Run
import SpawnGuard.Proofs.ListedFiles
import SpawnGuard.Proofs.PatchedText
import SpawnGuard.Proofs.WrittenFiles

/-!
Steps of a batch: what one listing comes to, and what has been written when some of them are done.
-/
namespace SpawnGuard

namespace Batch

open FileTree (walk trail)

section Outcomes

variable [Compressor]

/-- A listing is read, parsed under its default name, patched and printed. -/
def Makes (hook : String) (path : Path) (content : ByteArray) (text : String)
    (outcome : Outcome) : Prop :=
  FileTree.checkPath path = .ok () ∧ ∃ source body patched,
    ListingFile.decode path content = .ok source ∧
      Listing.read (ListingFile.methodName path) source = .ok body ∧
        transpile hook body = .ok (patched, outcome) ∧ text = Listing.print patched

/-- A listing cannot be read or parsed, or has no label left for the guard. -/
inductive Refuses (hook : String) (path : Path) (content : ByteArray) : BatchError → Prop where
  | untaken {fault : FileFault} (refused : FileTree.checkPath path = .error fault) :
    Refuses hook path content (.text (.file fault))
  | unread {fault : TextFault} (taken : FileTree.checkPath path = .ok ())
    (refused : ListingFile.decode path content = .error fault) :
    Refuses hook path content (.text fault)
  | unparsed {source : String} {error : Listing.Error} (taken : FileTree.checkPath path = .ok ())
    (read : ListingFile.decode path content = .ok source)
    (refused : Listing.read (ListingFile.methodName path) source = .error error) :
    Refuses hook path content (.listing path error)
  | unlabelled {source : String} {body : Body} {overflow : Overflow}
    (taken : FileTree.checkPath path = .ok ())
    (read : ListingFile.decode path content = .ok source)
    (parsed : Listing.read (ListingFile.methodName path) source = .ok body)
    (refused : transpile hook body = .error overflow) :
    Refuses hook path content (.labels overflow)

/-- Every listing is one or the other. -/
theorem makes_or_refuses (hook : String) (path : Path) (content : ByteArray) :
    (∃ text outcome, Makes hook path content text outcome) ∨
      ∃ error, Refuses hook path content error := by
  cases taken : FileTree.checkPath path with
  | error fault => exact .inr ⟨_, .untaken taken⟩
  | ok done =>
  cases read : ListingFile.decode path content with
  | error fault => exact .inr ⟨_, .unread taken read⟩
  | ok source =>
  cases parsed : Listing.read (ListingFile.methodName path) source with
  | error error => exact .inr ⟨_, .unparsed taken read parsed⟩
  | ok body =>
  cases patched : transpile hook body with
  | error overflow => exact .inr ⟨_, .unlabelled taken read parsed patched⟩
  | ok answer => exact .inl ⟨_, _, taken, source, body, _, read, parsed, patched, rfl⟩

section Files

variable {tree : FileTree} {patches : Patches} {source target : Path} {content : ByteArray}

theorem read_run (path : Path) (tree : FileTree) :
    (ListingFile.read path : StateM FileTree _) tree =
      ((tree.readFile path).mapError .file >>= ListingFile.decode path, tree) := by
  have ran : (FileSystem.read path : StateM FileTree _) tree = (tree.readFile path, tree) := rfl
  refine (FileTree.bind_eq ran _).trans ?_
  cases tree.readFile path <;> rfl

theorem patchFile_of_makes {text : String} {outcome : Outcome}
    (found : tree.readFile source = (FileTree.checkPath source).map fun _ => content)
    (makes : Makes patches.hook source content text outcome) {after : FileTree}
    (written : (ListingFile.writeInPlace target (ListingFile.encode target text) :
      StateM FileTree _) tree = (.ok (), after)) :
    ∃ log, (patchFile patches source target : StateM FileTree _) tree =
      ((.ok outcome, log), after) := by
  obtain ⟨taken, original, body, patched, read, parsed, done, rfl⟩ := makes
  have got : (ListingFile.read source : StateM FileTree _) tree = (.ok original, tree) := by
    rw [read_run, found, taken]
    exact congrArg (·, tree) read
  refine ⟨[outcome.entry body.name], (FileTree.bind_eq got _).trans ?_⟩
  have result := patchText_eq_ok.mpr ⟨body, patched, parsed, done, rfl, rfl⟩
  simp only [result]
  exact FileTree.bind_eq written _

theorem patchFile_of_refuses
    (found : tree.readFile source = (FileTree.checkPath source).map fun _ => content)
    {error : BatchError} (refuses : Refuses patches.hook source content error) :
    (patchFile patches source target : StateM FileTree _) tree = ((.error error, []), tree) := by
  have got (answer : Except TextFault String)
      (same : (tree.readFile source).mapError .file >>= ListingFile.decode source = answer) :
      (ListingFile.read source : StateM FileTree _) tree = (answer, tree) := by
    rw [read_run, same]
  unfold patchFile
  cases refuses with
  | untaken refused =>
    exact FileTree.bind_eq (got (.error (.file _)) (by rw [found, refused]; rfl)) _
  | unread taken refused =>
    exact FileTree.bind_eq (got (.error _) (by rw [found, taken]; exact refused)) _
  | unparsed taken read refused =>
    refine (FileTree.bind_eq (got (.ok _) (by rw [found, taken]; exact read)) _).trans ?_
    simp only [patchText, refused]
    rfl
  | unlabelled taken read parsed refused =>
    refine (FileTree.bind_eq (got (.ok _) (by rw [found, taken]; exact read)) _).trans ?_
    simp only [patchText, parsed, Patches.transpile, refused]
    rfl

end Files

end Outcomes

/-- A listing that is done: the names that lead to it, the text that is written for it, and how
its patch went. -/
structure Done where
  names : List String
  text : String
  outcome : Outcome

namespace Done

def relative (done : Done) : Path := Path.ofNames false done.names

def report (done : Done) : Report := ⟨done.relative, done.outcome⟩

end Done

/-- The place to which the output of a batch is mirrored. -/
def outputPlace (tree : FileTree) (settings : Settings) : List String :=
  walk (tree.start settings.output) settings.output.names

def mirror (settings : Settings) (names : List String) : Path :=
  settings.output.join (Path.ofNames false names)

/-- The input is a directory, the output lies elsewhere, and everything that is to be written can
be. -/
structure Ready (tree : FileTree) (settings : Settings) (place : List String) : Prop where
  sound : tree.Sound
  resolved : tree.resolve settings.input = .ok place
  directory : tree.isDirectory place = true
  outside : ¬ place <+: outputPlace tree settings
  around : ¬ outputPlace tree settings <+: place
  writable : ∀ names, tree.HasListing place names → tree.Writable (mirror settings names)
  reportable : settings.debug = true → tree.Writable (settings.output.join reportName)

instance (tree : FileTree) (settings : Settings) (place : List String) :
    Decidable (Ready tree settings place) :=
  decidable_of_iff (tree.Sound ∧ tree.resolve settings.input = .ok place ∧
      tree.isDirectory place = true ∧ ¬ place <+: outputPlace tree settings ∧
      ¬ outputPlace tree settings <+: place ∧
      (∀ names ∈ tree.listings place, tree.Writable (mirror settings names)) ∧
      (settings.debug = true → tree.Writable (settings.output.join reportName)))
    ⟨fun ⟨sound, resolved, directory, outside, around, writable, reportable⟩ =>
        ⟨sound, resolved, directory, outside, around,
          fun names listing => writable names (sound.mem_listings.mpr listing), reportable⟩,
      fun ready => ⟨ready.sound, ready.resolved, ready.directory, ready.outside, ready.around,
        fun names listed => ready.writable names (ready.sound.mem_listings.mp listed),
        ready.reportable⟩⟩

/-- The directories that lead to a file. -/
def way (tree : FileTree) (path : Path) : List (List String) :=
  trail (tree.start path) path.names.dropLast

section Steps

variable {tree now : FileTree} {settings : Settings} {place names : List String}
  {done : List Done}

section Mirror

variable (some : names ≠ []) (plain : ∀ name ∈ names, Path.Plain name)

include plain

theorem start_mirror (tree : FileTree) (settings : Settings) :
    tree.start (mirror settings names) = tree.start settings.output := by
  unfold FileTree.start mirror
  rw [Path.isAbsolute_join plain]

include some

theorem walk_mirror (tree : FileTree) (settings : Settings) :
    walk (tree.start (mirror settings names)) (mirror settings names).names =
      outputPlace tree settings ++ names := by
  rw [start_mirror plain, mirror, Path.names_join some plain, FileTree.walk_append,
    FileTree.walk_plain plain]
  rfl

/-- What lies on the way to a mirrored file: what leads to the output, and what leads on. -/
theorem mem_way_mirror {passed : List String} :
    passed ∈ way tree (mirror settings names) ↔
      passed ∈ trail (tree.start settings.output) settings.output.names ∨
        ∃ front rest, names = front ++ rest ∧ rest ≠ [] ∧
          passed = outputPlace tree settings ++ front := by
  have fewer : ∀ name ∈ names.dropLast, Path.Plain name := fun name listed =>
    plain name (List.mem_of_mem_dropLast listed)
  rw [way, start_mirror plain, mirror, Path.names_join some plain,
    List.dropLast_append_of_ne_nil some, FileTree.mem_trail_append, FileTree.mem_trail_plain fewer]
  refine or_congr_right ⟨?_, ?_⟩
  · rintro ⟨front, ⟨rest, inner⟩, rfl⟩
    refine ⟨front, rest ++ [names.getLast some], ?_, by simp, rfl⟩
    rw [← List.append_assoc, inner, List.dropLast_concat_getLast]
  · rintro ⟨front, rest, rfl, named, rfl⟩
    refine ⟨front, ?_, rfl⟩
    rw [List.dropLast_append_of_ne_nil named]
    exact List.prefix_append _ _

end Mirror

private theorem Ready.named (ready : Ready tree settings place)
    (listing : tree.HasListing place names) :
    ∀ name ∈ names, Path.Plain name ∧ name.utf8ByteSize ≤ FileTree.nameLimit := by
  obtain ⟨⟨content, file⟩, _⟩ := listing
  have found := FileTree.file?_eq_some.mp file
  have named : place ++ names ≠ [] := by
    intro root
    rw [root] at found
    cases found
  intro name listed
  exact ready.sound.plain _ (FileTree.mem_of_find? found named) name
    (List.mem_append_right _ listed)

theorem Ready.plain (ready : Ready tree settings place) (listing : tree.HasListing place names) :
    ∀ name ∈ names, Path.Plain name := fun name listed => (ready.named listing name listed).1

theorem Ready.short (ready : Ready tree settings place) (listing : tree.HasListing place names) :
    ∀ name ∈ names, name.utf8ByteSize ≤ FileTree.nameLimit := fun name listed =>
  (ready.named listing name listed).2

theorem ne_nil_of_hasListing (listing : tree.HasListing place names) : names ≠ [] := by
  rintro rfl
  exact absurd listing.2 Bool.false_ne_true

/-- Below a listing is nothing. -/
theorem Ready.not_below (ready : Ready tree settings place) (listing : tree.HasListing place names)
    {rest : List String} (named : rest ≠ []) : ¬ tree.HasListing place (names ++ rest) := by
  rintro ⟨⟨content, file⟩, _⟩
  obtain ⟨⟨_, above⟩, _⟩ := listing
  rw [← List.append_assoc] at file
  have nothing := FileTree.find?_below_file ready.sound.closed above named
  rw [FileTree.file?_eq_some, nothing] at file
  cases file

variable [Compressor]

/-- Where its text is put below a place, and as which bytes. -/
def Done.output (place : List String) (done : Done) : List String × ByteArray :=
  (place ++ done.names, ListingFile.encode done.relative done.text)

/-- What was written while some listings were done: their texts, and directories for them. -/
structure Progress (tree : FileTree) (settings : Settings) (place : List String)
    (done : List Done) (now : FileTree) : Prop where
  here : now.here = tree.here
  closed : now.Closed
  kept : ∀ passed, tree.isDirectory passed = true → now.isDirectory passed = true
  made : ∀ passed, now.isDirectory passed = true → tree.isDirectory passed = true ∨
    ∃ item ∈ done, passed ∈ way tree (mirror settings item.names)
  files : ∀ passed, now.file? passed =
    ((done.map (Done.output (outputPlace tree settings))).lookup passed).or (tree.file? passed)
  opened : done ≠ [] → ∀ passed ∈ trail (tree.start settings.output) settings.output.names,
    now.isDirectory passed = true

theorem lookup_output_eq_none {out passed : List String}
    (apart : ∀ item ∈ done, passed ≠ out ++ item.names) :
    (done.map (Done.output out)).lookup passed = none := by
  rw [List.lookup_eq_none_iff]
  intro entry listed
  obtain ⟨item, found, rfl⟩ := List.mem_map.mp listed
  rw [bne_iff_ne]
  exact apart item found

namespace Progress

variable (progress : Progress tree settings place done now) (ready : Ready tree settings place)

include progress

theorem start (path : Path) : now.start path = tree.start path := by
  unfold FileTree.start
  rw [progress.here]

include ready

/-- What is written leaves the input as it is. -/
theorem input (names : List String) :
    now.file? (place ++ names) = tree.file? (place ++ names) := by
  rw [progress.files, lookup_output_eq_none, Option.none_or]
  intro item _ same
  rcases List.append_eq_append_iff.mp same with ⟨between, inner, _⟩ | ⟨between, outer, _⟩
  · exact ready.outside ⟨between, inner.symm⟩
  · exact ready.around ⟨between, outer.symm⟩

/-- What could be written at first can be written still, unless it is a directory by now. -/
theorem writable (listings : ∀ item ∈ done, tree.HasListing place item.names)
    (some : names ≠ []) (plain : ∀ name ∈ names, Path.Plain name)
    (writable : tree.Writable (mirror settings names))
    (notBelow : ∀ front rest, names = front ++ rest → rest ≠ [] → ¬ tree.HasListing place front)
    (notAbove : ∀ rest, rest ≠ [] → ¬ tree.HasListing place (names ++ rest)) :
    now.Writable (mirror settings names) := by
  have start := progress.start (mirror settings names)
  refine ⟨writable.taken, writable.short, fun passed listed => ?_, fun directory => ?_, ?_⟩
  · -- A file on the way would be an output: on the way to its own place, or above this one.
    rw [start] at listed
    rw [progress.files, writable.clear passed listed, Option.or_none]
    refine lookup_output_eq_none fun item member same => ?_
    have listing := listings item member
    have itemPlain := ready.plain listing
    have itemSome := ne_nil_of_hasListing listing
    rcases (mem_way_mirror some plain).mp listed with outer | ⟨front, rest, split, named, inner⟩
    · refine (ready.writable item.names listing).apart ?_
      rw [walk_mirror itemSome itemPlain, ← same]
      exact (mem_way_mirror itemSome itemPlain).mpr (.inl outer)
    · rw [List.append_cancel_left (inner.symm.trans same)] at split
      exact notBelow _ _ split named listing
  · -- A directory in its place was made for an output: in front of both, or in front of that one.
    rw [start, walk_mirror some plain] at directory
    rcases progress.made _ directory with before | ⟨item, member, leads⟩
    · refine writable.free ?_
      rwa [walk_mirror some plain]
    · have listing := listings item member
      have itemPlain := ready.plain listing
      rcases (mem_way_mirror (ne_nil_of_hasListing listing) itemPlain).mp leads with
        outer | ⟨front, rest, split, named, same⟩
      · refine writable.apart ?_
        rw [walk_mirror some plain]
        exact (mem_way_mirror some plain).mpr (.inl outer)
      · rw [split, ← List.append_cancel_left same] at listing
        exact notAbove rest named listing
  · rw [start]
    exact writable.apart

/-- Writing what a listing is made into takes a batch one listing further. -/
theorem write (listings : ∀ item ∈ done, tree.HasListing place item.names) {item : Done}
    (listing : tree.HasListing place item.names) (new : ∀ other ∈ done, other.names ≠ item.names) :
    ∃ after, (ListingFile.writeInPlace (mirror settings item.names)
        (ListingFile.encode item.relative item.text) : StateM FileTree _) now = (.ok (), after) ∧
      Progress tree settings place (done ++ [item]) after := by
  have some := ne_nil_of_hasListing listing
  have plain := ready.plain listing
  have writable := progress.writable ready listings some plain (ready.writable _ listing)
    (fun front rest split named above => ready.not_below above named (split ▸ listing))
    fun rest named => ready.not_below listing named
  have start : now.isDirectory (now.start (mirror settings item.names)) = true := by
    rw [progress.start]
    refine progress.kept _ ?_
    unfold FileTree.start
    split
    · exact tree.isDirectory_root
    · exact ready.sound.here
  obtain ⟨front, split, _⟩ := Path.rawNames_join some plain settings.output
  have raw : (mirror settings item.names).rawNames =
      front ++ item.names.dropLast ++ [item.names.getLast some] := by
    rw [mirror, split, List.append_assoc, List.dropLast_concat_getLast some]
  obtain ⟨after, written, put⟩ := writable.writeInPlace progress.closed start raw
    (plain _ (List.getLast_mem some)) (ListingFile.encode item.relative item.text)
  rw [progress.start, walk_mirror some plain] at put
  refine ⟨after, written, put.here.trans progress.here, put.closed, fun passed directory => ?_,
    fun passed directory => ?_, fun passed => ?_, fun _ passed listed => ?_⟩
  · exact put.kept passed (progress.kept passed directory)
  · rcases put.made passed directory with before | new
    · exact (progress.made passed before).imp_right fun ⟨other, found, leads⟩ =>
        ⟨other, List.mem_append_left _ found, leads⟩
    · exact .inr ⟨item, List.mem_append_right _ List.mem_cons_self, new⟩
  · rw [put.file, List.map_append, List.lookup_append, progress.files]
    by_cases same : passed = outputPlace tree settings ++ item.names
    · rw [if_pos same, same, lookup_output_eq_none fun other found copy =>
        new other found (List.append_cancel_left copy).symm]
      simp [Done.output]
    · rw [if_neg same]
      simp [Done.output, List.lookup_cons, beq_eq_false_iff_ne.mpr same]
  · exact put.opened passed ((mem_way_mirror some plain).mpr (.inl listed))

end Progress

end Steps

end Batch

end SpawnGuard
