import SpawnGuard.Batch.Run
import SpawnGuard.Proofs.GuardedBodies
import SpawnGuard.Proofs.GuardedCode
import SpawnGuard.Proofs.SpawnListing

/-!
The text that is written for a patched listing, read again. The reader lets a quote into a word
that stands without quotes, and the printer puts every field and method between quotes: so the
text comes back as the patched body exactly when no text of the body has a quote in it.
-/
namespace SpawnGuard

variable {base patches : Patches} {hook : String}

/-- A hook that was accepted stays what it is between quotes. -/
theorem hook_of_withHook (accepted : base.withHook hook = .ok patches) :
    patches.hook = hook ∧ '"' ∉ hook.toList ∧ '\n' ∉ hook.toList := by
  obtain ⟨_, checked, rfl⟩ := map_eq_ok accepted
  unfold Patches.checkHook at checked
  split at checked
  · cases checked
  · split at checked
    · cases checked
    · rename_i writable
      simp only [List.any_eq_true, Bool.or_eq_true, decide_eq_true_iff, not_exists, not_and, not_or]
        at writable
      exact ⟨rfl, fun quote => (writable '"' quote).1 rfl, fun feed => (writable '\n' feed).2 rfl⟩

/-- A printed body comes back whole exactly when none of its texts has a quote in it. -/
theorem Body.Fit.reads_back_iff {body : Body} (fit : body.Fit)
    (oneLine : ∀ text ∈ body.texts, '\n' ∉ text.toList) (given : String) :
    Listing.read given (Listing.print body) = .ok body.renumbered ↔
      ∀ text ∈ body.texts, '"' ∉ text.toList := by
  rw [Listing.read_print fit.typed fit.linked fit.few oneLine]
  -- What comes back has its texts cut, so it is the body only if no cut took anything off.
  constructor
  · rintro ⟨_, same⟩
    have texts := congrArg Body.texts same
    rw [Listing.texts_renumbered, Listing.texts_renumbered] at texts
    rw [texts]
    exact Body.plain_cut body
  · intro plain
    exact ⟨Body.closed_of_plain plain, by rw [Body.cut_eq_self.mpr plain]⟩

variable {path : Path} {text written : String} {outcome : Outcome} {log : Log}

theorem guard_call_of_transpile {body patched : Body} {site : Nat} {label : Label}
    (done : transpile hook body = .ok (patched, .patched site label)) :
    patched.renumbered.code[site]? = some ⟨.call, .method hook, []⟩ := by
  rcases transpile_eq_ok done with ⟨_, ⟨⟩⟩ | ⟨place, _, inside, same, inserted⟩
  cases same
  obtain ⟨_, _, rfl, rfl⟩ := PatchSite.insertGuard_eq_some.mp inserted
  have call : (PatchSite.guarded body.code place.index hook ⟨body.nextLabel⟩)[place.index]? =
      some ⟨.call, .method hook, []⟩ := PatchSite.getElem?_guarded_guard inside.le 0 (by decide)
  rw [Body.renumbered, List.getElem?_map, call]
  rfl

theorem patchText_eq_ok :
    Batch.patchText patches path text = .ok (written, outcome, log) ↔
      ∃ body patched, Listing.read (ListingFile.methodName path) text = .ok body ∧
        transpile patches.hook body = .ok (patched, outcome) ∧ written = Listing.print patched ∧
          log = [outcome.entry body.name] := by
  unfold Batch.patchText Patches.transpile
  constructor
  · intro done
    split at done
    · cases done
    · rename_i body read
      split at done
      · cases done
      · rename_i patched _ transpiled
        cases done
        exact ⟨body, patched, read, transpiled, rfl, rfl⟩
  · rintro ⟨body, patched, read, transpiled, rfl, rfl⟩
    simp only [read, transpiled]

/-- The written text is read back as the patched body, up to label numbers and under any name
given, exactly when neither the name of the method nor a field or method of the listing has a
quote in it. -/
theorem patched_text_reads_back_iff (accepted : base.withHook hook = .ok patches)
    (named : '\n' ∉ (ListingFile.methodName path).toList)
    (done : Batch.patchText patches path text = .ok (written, outcome, log)) :
    ∃ body patched, Listing.read (ListingFile.methodName path) text = .ok body ∧
      transpile hook body = .ok (patched, outcome) ∧
        (∀ site label, outcome = .patched site label →
          patched.renumbered.code[site]? = some ⟨.call, .method hook, []⟩) ∧
        (∀ label ∈ patched.mentioned, ∀ other,
          patched.number label = patched.number other ↔ label = other) ∧
        ∀ given, Listing.read given written = .ok patched.renumbered ↔
          ∀ text ∈ body.texts, '"' ∉ text.toList := by
  obtain ⟨same, plain, single⟩ := hook_of_withHook accepted
  obtain ⟨body, patched, read, transpiled, rfl, _⟩ := patchText_eq_ok.mp done
  rw [same] at transpiled
  have fit := (Listing.fit_of_read read).transpile transpiled
  have texts {text : String} : text ∈ patched.texts ↔ _ := mem_texts_transpile transpiled
  have clean : (∀ text ∈ patched.texts, '"' ∉ text.toList) ↔
      ∀ text ∈ body.texts, '"' ∉ text.toList := by
    refine ⟨fun clean text member => clean text (texts.mpr (.inl member)),
      fun clean text member => ?_⟩
    rcases texts.mp member with old | ⟨_, rfl⟩
    · exact clean text old
    · exact plain
  have oneLine : ∀ text ∈ patched.texts, '\n' ∉ text.toList := by
    intro text member
    rcases texts.mp member with old | ⟨_, rfl⟩
    · exact Listing.one_line_of_read read named text old
    · exact single
  refine ⟨body, patched, read, transpiled, ?_, fun label member other => Body.number_inj member,
    fun given => (fit.reads_back_iff oneLine given).trans clean⟩
  rintro site label rfl
  exact guard_call_of_transpile transpiled

def spawnPath : Path := ⟨"SimCellOccupier.OnSpawn.il"⟩

theorem methodName_spawnPath : ListingFile.methodName spawnPath = "SimCellOccupier.OnSpawn" := by
  decide

/-- The spawn method of the game, patched with another hook, comes back whole. -/
theorem patched_spawn_text_reads_back :
    (Patches.ofOptions {}).withHook "Boolean Gate()" = .ok ⟨true, "Boolean Gate()"⟩ ∧
      (∃ log, Batch.patchText ⟨true, "Boolean Gate()"⟩ spawnPath spawnListing =
        .ok (Listing.print (guardedSpawnBody "Boolean Gate()"), .patched 9 ⟨2⟩, log)) ∧
      ∀ given, Listing.read given (Listing.print (guardedSpawnBody "Boolean Gate()")) =
        .ok (guardedSpawnBody "Boolean Gate()").renumbered := by
  have accepted : (Patches.ofOptions {}).withHook "Boolean Gate()" =
      .ok ⟨true, "Boolean Gate()"⟩ := by
    decide
  have named : '\n' ∉ (ListingFile.methodName spawnPath).toList := by
    rw [methodName_spawnPath]
    decide
  have source : Listing.read (ListingFile.methodName spawnPath) spawnListing = .ok spawnBody := by
    rw [methodName_spawnPath]
    exact read_spawnListing
  have guarded := transpile_spawnBody "Boolean Gate()"
  have done : Batch.patchText ⟨true, "Boolean Gate()"⟩ spawnPath spawnListing =
      .ok (Listing.print (guardedSpawnBody "Boolean Gate()"), .patched 9 ⟨2⟩, _) :=
    patchText_eq_ok.mpr ⟨spawnBody, _, source, guarded, rfl, rfl⟩
  obtain ⟨body, patched, read, transpiled, _, _, back⟩ :=
    patched_text_reads_back_iff accepted named done
  cases source.symm.trans read
  cases guarded.symm.trans transpiled
  exact ⟨accepted, ⟨_, done⟩, fun given => (back given).mpr (by decide)⟩

/-- A field whose word has a quote inside but none in front. -/
def quotedListing : String :=
  "ldarg.0\nldc.i4 -1699355994\nldsfld X\"OnBuildingRepairedDelegate\n" ++
    "call \"Int32 Subscribe(Int32, X)\"\npop\nret\n"

def quotedBody : Body where
  name := "m"
  code :=
    [⟨.ldarg0, .none, []⟩, ⟨.ldcI4, .int repairEvent, []⟩,
      ⟨.ldsfld, .field "X\"OnBuildingRepairedDelegate", []⟩,
      ⟨.call, .method "Int32 Subscribe(Int32, X)", []⟩, ⟨.pop, .none, []⟩, ⟨.ret, .none, []⟩]
  nextLabel := 0

theorem read_quotedListing : Listing.read "m" quotedListing = .ok quotedBody := by
  decide +kernel

/-- The listing with the quote is accepted and patched, and what is written for it is refused. -/
theorem quoted_field_not_read_back :
    (Patches.ofOptions {}).withHook defaultHook = .ok (Patches.ofOptions {}) ∧
      ∃ written log, Batch.patchText (Patches.ofOptions {}) ⟨"m.il"⟩ quotedListing =
          .ok (written, .patched 0 ⟨0⟩, log) ∧
        ∀ given again, Listing.read given written ≠ .ok again := by
  have accepted : (Patches.ofOptions {}).withHook defaultHook = .ok (Patches.ofOptions {}) := by
    decide
  have named : ListingFile.methodName ⟨"m.il"⟩ = "m" := by decide
  have read : Listing.read (ListingFile.methodName ⟨"m.il"⟩) quotedListing = .ok quotedBody := by
    rw [named]
    exact read_quotedListing
  have transpiled : transpile defaultHook quotedBody =
      .ok (⟨"m", PatchSite.guarded quotedBody.code 0 defaultHook ⟨0⟩, 1⟩, .patched 0 ⟨0⟩) := by
    decide
  have fit := (Listing.fit_of_read read).transpile transpiled
  have done : Batch.patchText (Patches.ofOptions {}) ⟨"m.il"⟩ quotedListing =
      .ok (_, .patched 0 ⟨0⟩, _) :=
    patchText_eq_ok.mpr ⟨quotedBody, _, read, transpiled, rfl, rfl⟩
  refine ⟨accepted, _, _, done, fun given again back => ?_⟩
  -- Behind the quote inside stands the rest of the field as a word of its own.
  obtain ⟨closed, _⟩ := (Listing.read_print fit.typed fit.linked fit.few (by decide)).mp back
  have spilt := closed "X\"OnBuildingRepairedDelegate" (by decide)
  exact absurd spilt (by decide +kernel)

end SpawnGuard
