import SpawnGuard.Proofs.Answers
import SpawnGuard.Proofs.InsertedGuards
import SpawnGuard.Proofs.SoundRuns

/-!
The labels a body gives out over its life. However it was made and whatever was done to it, also
with sites that no longer fit, each new label is one that nothing in the body mentions and that was
not given out before.
-/
namespace SpawnGuard

/-- What is done to a body: a label is taken for later use, a guard is put in at a site that may
have been found in another body, or the body is patched. -/
inductive Edit where
  | defineLabel
  | insertGuard (site : PatchSite) (hook : String)
  | transpile (hook : String)
  deriving DecidableEq, Repr

def Outcome.label? : Outcome → Option Label
  | patched _ label => some label
  | notFound => none

/-- The label that an edit gave out, if it did, and the body it leaves. -/
def Edit.apply (body : Body) : Edit → Except Overflow (Option Label × Body)
  | defineLabel => body.defineLabel.map fun (label, next) => (some label, next)
  | insertGuard site hook => site.edit hook body
  | transpile hook =>
    (SpawnGuard.transpile hook body).map fun (patched, outcome) => (outcome.label?, patched)

namespace Body

/-- How a body comes into being. -/
inductive Made : Body → Prop where
  | empty (name : String) : Made (empty name)
  | code {name : String} {code : Code Label} {body : Body} (built : ofCode name code = .ok body) :
    Made body
  | listing {given text : String} {body : Body} (accepted : Listing.read given text = .ok body) :
    Made body

/-- The labels that were given out in a row of edits, in their order, and the body at its end. -/
def applyAll (body : Body) : List Edit → Except Overflow (List Label × Body)
  | [] => .ok ([], body)
  | edit :: rest => do
    let (label?, next) ← edit.apply body
    let (labels, last) ← next.applyAll rest
    .ok (label?.toList ++ labels, last)

/-- What an edit comes to. A guard may be put behind the last instruction, where only the empty
pattern matches. -/
inductive Edited (body : Body) : Option Label → Body → Prop where
  | untouched : Edited body none body
  | defined : Edited body (some ⟨body.nextLabel⟩) { body with nextLabel := body.nextLabel + 1 }
  | guarded {site : Nat} (inside : site ≤ body.code.length) (hook : String) :
    Edited body (some ⟨body.nextLabel⟩) (body.guarded site hook)

variable {body next last start : Body} {edit : Edit} {label? : Option Label}
  {labels : List Label}

theorem Made.numbered (made : body.Made) : body.Numbered := by
  cases made with
  | empty name => exact fun _ member => absurd member List.not_mem_nil
  | code built => exact numbered_ofCode built
  | listing accepted => exact Listing.numbered_of_read accepted

/-- Code that does not mention the largest label makes a body. -/
theorem ofCode_isOk (name : String) {code : Code Label}
    (small : ∀ ins ∈ code, ∀ label ∈ ins.mentions, label.id + 1 < Label.limit) :
    ∃ body, ofCode name code = .ok body := by
  have low : firstFree code ≤ Label.limit - 1 :=
    firstFree_le.mpr fun ins member label named =>
      Nat.lt_sub_of_add_lt (small ins member label named)
  have room : 0 < Label.limit := by decide
  exact ⟨_, ofCode_eq_ok.mpr ⟨by omega, rfl⟩⟩

theorem edited_of_insertGuard {site : PatchSite} {hook : String} {label : Label}
    (inserted : site.insertGuard hook body = .ok (some (label, next))) :
    body.Edited (some label) next := by
  obtain ⟨matched, _, rfl, rfl⟩ := PatchSite.insertGuard_eq_some.mp inserted
  exact .guarded (Pattern.matchesAt_iff.mp matched).1 hook

theorem edited_of_apply (done : edit.apply body = .ok (label?, next)) :
    body.Edited label? next := by
  cases edit with
  | defineLabel =>
    obtain ⟨⟨label, after⟩, defined, same⟩ := map_eq_ok done
    unfold Body.defineLabel at defined
    split at defined <;> cases defined
    cases same
    exact .defined
  | insertGuard site hook =>
    obtain ⟨inserted?, inserted, same⟩ := map_eq_ok done
    cases inserted? with
    | none =>
      cases same
      exact .untouched
    | some _ =>
      cases same
      exact edited_of_insertGuard inserted
  | transpile hook =>
    obtain ⟨⟨patched, outcome⟩, transpiled, same⟩ := map_eq_ok done
    cases same
    rcases transpile_eq_ok transpiled with ⟨rfl, rfl⟩ | ⟨site, label, _, rfl, inserted⟩
    · exact .untouched
    · exact edited_of_insertGuard inserted

theorem Edited.nextLabel (edited : body.Edited label? next) :
    next.nextLabel = body.nextLabel + label?.toList.length := by
  cases edited <;> rfl

/-- The one label that an edit gives out is the next one. -/
theorem Edited.label_eq (edited : body.Edited label? next) {label : Label}
    (given : label ∈ label?) : label = ⟨body.nextLabel⟩ := by
  cases edited <;> cases given <;> rfl

theorem Numbered.edited (numbered : body.Numbered) (edited : body.Edited label? next) :
    next.Numbered := by
  cases edited with
  | untouched => exact numbered
  | defined =>
    exact fun ins member label named => Nat.lt_succ_of_lt (numbered ins member label named)
  | @guarded site inside hook =>
    rcases Nat.lt_or_eq_of_le inside with inner | rfl
    · exact numbered.guarded inner hook
    · intro ins member label named
      have split : (body.guarded body.code.length hook).code =
          body.code ++ PatchSite.guard hook ⟨body.nextLabel⟩ := by
        simp [Body.guarded, PatchSite.guarded, PatchSite.labelHead]
      rw [split] at member
      rcases List.mem_append.mp member with old | new
      · exact Nat.lt_succ_of_lt (numbered ins old label named)
      · rw [(guard_instructions new).2 label named]
        exact Nat.lt_succ_self _

theorem defineLabel_of_room (room : body.nextLabel + 1 < Label.limit) :
    body.defineLabel = .ok (⟨body.nextLabel⟩, { body with nextLabel := body.nextLabel + 1 }) :=
  if_pos room

/-- An edit is not refused as long as there is a label left. -/
theorem apply_isOk (edit : Edit) (room : body.nextLabel + 1 < Label.limit) :
    ∃ label? next, edit.apply body = .ok (label?, next) := by
  cases edit with
  | defineLabel =>
    rw [Edit.apply, defineLabel_of_room room]
    exact ⟨_, _, rfl⟩
  | insertGuard site hook =>
    rw [Edit.apply, PatchSite.edit, PatchSite.insertGuard, defineLabel_of_room room]
    split <;> exact ⟨_, _, rfl⟩
  | transpile hook =>
    obtain ⟨patched, outcome, done, _⟩ := transpile_isOk hook room
    rw [Edit.apply, done]
    exact ⟨_, _, rfl⟩

theorem applyAll_isOk {edits : List Edit} (room : body.nextLabel + edits.length < Label.limit) :
    ∃ labels last, body.applyAll edits = .ok (labels, last) := by
  induction edits generalizing body with
  | nil => exact ⟨[], body, rfl⟩
  | cons edit rest ih =>
    rw [List.length_cons] at room
    have first : body.nextLabel + 1 < Label.limit := by omega
    obtain ⟨label?, next, done⟩ := apply_isOk edit first
    have few : label?.toList.length ≤ 1 := by cases label? <;> simp
    have left : next.nextLabel + rest.length < Label.limit := by
      rw [(edited_of_apply done).nextLabel]
      omega
    obtain ⟨labels, last, all⟩ := ih left
    refine ⟨label?.toList ++ labels, last, ?_⟩
    simp only [applyAll, done, bind, Except.bind, all]

/-- The labels of a row of edits were given out one after the other, and the next one is behind
them and all that the body mentions. -/
structure Allotted (start : Body) (labels : List Label) (last : Body) : Prop where
  numbered : last.Numbered
  inOrder : labels = (List.range' start.nextLabel labels.length).map Label.mk
  nextLabel : last.nextLabel = start.nextLabel + labels.length

theorem Edited.allotted (edited : body.Edited label? next) (later : next.Allotted labels last) :
    body.Allotted (label?.toList ++ labels) last := by
  have counted := edited.nextLabel
  refine ⟨later.numbered, ?_, ?_⟩
  · cases given : label? with
    | none =>
      rw [given, Option.toList_none, List.length_nil, Nat.add_zero] at counted
      rw [Option.toList_none, List.nil_append, ← counted]
      exact later.inOrder
    | some label =>
      rw [given, Option.toList_some, List.length_singleton] at counted
      rw [Option.toList_some, List.singleton_append, List.length_cons, List.range'_succ,
        List.map_cons, edited.label_eq given, ← counted, ← later.inOrder]
  · rw [later.nextLabel, counted, List.length_append, Nat.add_assoc]

theorem allotted_applyAll {edits : List Edit} (numbered : body.Numbered)
    (done : body.applyAll edits = .ok (labels, last)) : body.Allotted labels last := by
  induction edits generalizing body labels with
  | nil =>
    cases done
    exact ⟨numbered, rfl, rfl⟩
  | cons edit rest ih =>
    obtain ⟨⟨label?, next⟩, first, done⟩ := bind_eq_ok done
    obtain ⟨⟨later, final⟩, others, done⟩ := bind_eq_ok done
    cases done
    have edited := edited_of_apply first
    exact edited.allotted (ih (numbered.edited edited) others)

theorem Allotted.fresh (allotted : start.Allotted labels body) {label : Label}
    (next : label = ⟨body.nextLabel⟩) :
    label ∉ attached body.code ∧ (∀ ins ∈ body.code, ins.branchTarget? ≠ some label) ∧
      label ∉ labels := by
  subst next
  refine ⟨allotted.numbered.unattached, fun ins => allotted.numbered.untargeted, fun given => ?_⟩
  rw [allotted.inOrder, allotted.nextLabel] at given
  obtain ⟨number, member, same⟩ := List.mem_map.mp given
  cases same
  have low := (List.mem_range'_1.mp member).2
  omega

end Body

/-- Code makes a body unless it mentions the largest label, and edits are not refused as long as
there are labels left. However a body was made and edited, all labels that it mentions lie below the
next one, and the edits gave out one label after the other. An edit that gives out none leaves the
body as it was; one that does gives out a label that is on no instruction, is the target of no
branch, and was not given out before. -/
theorem labels_always_fresh :
    (∀ (name : String) (code : Code Label),
      (∀ ins ∈ code, ∀ label ∈ ins.mentions, label.id + 1 < Label.limit) →
        ∃ body, Body.ofCode name code = .ok body) ∧
    ∀ (start : Body) (edits : List Edit), start.Made →
      (start.nextLabel + edits.length < Label.limit →
        ∃ labels body, start.applyAll edits = .ok (labels, body)) ∧
      ∀ labels body, start.applyAll edits = .ok (labels, body) →
        body.Numbered ∧
        labels = (List.range' start.nextLabel labels.length).map Label.mk ∧
        body.nextLabel = start.nextLabel + labels.length ∧
        ∀ (edit : Edit) label? next, edit.apply body = .ok (label?, next) →
          body.nextLabel ≤ next.nextLabel ∧ (label? = none → next = body) ∧
          ∀ label ∈ label?, label ∉ Body.attached body.code ∧
            (∀ ins ∈ body.code, ins.branchTarget? ≠ some label) ∧ label ∉ labels := by
  refine ⟨fun name code => Body.ofCode_isOk name, fun start edits made => ⟨Body.applyAll_isOk, ?_⟩⟩
  intro labels body done
  have allotted := Body.allotted_applyAll made.numbered done
  refine ⟨allotted.numbered, allotted.inOrder, allotted.nextLabel, ?_⟩
  intro edit label? next applied
  have edited := Body.edited_of_apply applied
  refine ⟨?_, ?_, fun label given => allotted.fresh (edited.label_eq given)⟩
  · rw [edited.nextLabel]
    exact Nat.le_add_right _ _
  · rintro rfl
    cases edited
    rfl

/-- Code with a label twice on one instruction, and with one that is written where no branch is. -/
def skippingCode : Code Label :=
  [⟨.br, .label ⟨4⟩, []⟩, ⟨.nop, .label ⟨9⟩, []⟩, ⟨.ret, .none, [⟨4⟩, ⟨4⟩]⟩]

/-- Of the sites the first does not fit and the second does; the patch finds nothing to do. -/
def skippingEdits : List Edit :=
  [.defineLabel, .insertGuard ⟨2, [⟨.dup, .any⟩]⟩ "hook", .insertGuard ⟨2, [⟨.ret, .any⟩]⟩ "hook",
    .transpile "hook", .defineLabel]

/-- The labels start past the one that a branch mentions and leave none out. -/
theorem skippingCode_labels :
    (∀ ins ∈ skippingCode, ∀ label ∈ ins.mentions, label.id + 1 < Label.limit) ∧
    ∃ start : Body, Body.ofCode "skipping" skippingCode = .ok start ∧ start.Made ∧
      start.nextLabel + skippingEdits.length < Label.limit ∧
      ∃ body, start.applyAll skippingEdits = .ok ([⟨5⟩, ⟨6⟩, ⟨7⟩], body) ∧ body.Numbered ∧
        body.nextLabel = 8 ∧ ∃ next, Edit.apply body .defineLabel = .ok (some ⟨8⟩, next) ∧
          ⟨8⟩ ∉ Body.attached body.code ∧ body.nextLabel ≤ next.nextLabel := by
  have small : ∀ ins ∈ skippingCode, ∀ label ∈ ins.mentions, label.id + 1 < Label.limit := by
    decide
  obtain ⟨start, built⟩ := labels_always_fresh.1 "skipping" skippingCode small
  obtain ⟨_, rfl⟩ := Body.ofCode_eq_ok.mp built
  have made := Body.Made.code built
  obtain ⟨answers, given⟩ := labels_always_fresh.2 _ skippingEdits made
  obtain ⟨labels, body, done⟩ := answers (by decide)
  have known : (Body.applyAll ⟨"skipping", skippingCode, Body.firstFree skippingCode⟩
      skippingEdits).toOption.map (·.1) = some [⟨5⟩, ⟨6⟩, ⟨7⟩] := by
    decide
  rw [done] at known
  cases known
  obtain ⟨numbered, _, next, fresh⟩ := given _ _ done
  have counted : body.nextLabel = 8 := next
  have room : body.nextLabel + 1 < Label.limit := by
    rw [counted]
    decide
  have defined : Edit.apply body .defineLabel =
      .ok (some ⟨8⟩, { body with nextLabel := body.nextLabel + 1 }) := by
    rw [Edit.apply, Body.defineLabel_of_room room, counted]
    rfl
  obtain ⟨grown, _, unused⟩ := fresh _ _ _ defined
  exact ⟨small, _, built, made, by decide, body, done, numbered, counted, _, defined,
    (unused _ rfl).1, grown⟩

end SpawnGuard
