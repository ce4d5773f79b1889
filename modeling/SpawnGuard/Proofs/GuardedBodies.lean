import SpawnGuard.Proofs.FitBodies
import SpawnGuard.Proofs.Sites

/-!
Patched bodies stay fit to be printed: the label of the guard is fresh, every branch still lands,
and the hook is the only new text.
-/
namespace SpawnGuard

namespace PatchSite

variable {code : Code Label} {site : Nat} {hook : String} {fresh : Label}

/-- The code around the site, which a guard leaves as it was but for one label. -/
theorem exists_guarded_eq (inside : site < code.length) (hook : String) (fresh : Label) :
    ∃ before ins after, code = before ++ ins :: after ∧
      guarded code site hook fresh =
        before ++ guard hook fresh ++ { ins with labels := ins.labels ++ [fresh] } :: after := by
  refine ⟨code.take site, code[site], code.drop (site + 1), ?_, ?_⟩
  · rw [← List.drop_eq_getElem_cons inside, List.take_append_drop]
  · rw [guarded, List.drop_eq_getElem_cons inside]
    rfl

theorem attached_guarded (inside : site < code.length) :
    (Body.attached (guarded code site hook fresh)).Perm (fresh :: Body.attached code) := by
  obtain ⟨before, ins, after, rfl, same⟩ := exists_guarded_eq inside hook fresh
  have edited : Body.attached (guarded (before ++ ins :: after) site hook fresh) =
      (Body.attached before ++ ins.labels) ++ fresh :: Body.attached after := by
    rw [same]
    simp [Body.attached, guard]
  have whole : Body.attached (before ++ ins :: after) =
      (Body.attached before ++ ins.labels) ++ Body.attached after := by
    simp [Body.attached]
  rw [edited, whole]
  exact List.perm_middle

theorem mem_quoted_guarded (inside : site < code.length) {text : String} :
    text ∈ (guarded code site hook fresh).filterMap (·.operand.quoted?) ↔
      text = hook ∨ text ∈ code.filterMap (·.operand.quoted?) := by
  obtain ⟨before, ins, after, rfl, same⟩ := exists_guarded_eq inside hook fresh
  have edited : (guarded (before ++ ins :: after) site hook fresh).filterMap
      (·.operand.quoted?) = before.filterMap (·.operand.quoted?) ++
        hook :: (ins :: after).filterMap (·.operand.quoted?) := by
    rw [same, List.filterMap_append, List.filterMap_append]
    simp [guard, Operand.quoted?, List.filterMap_cons]
  rw [edited, List.filterMap_append, List.perm_middle.mem_iff, List.mem_cons]

/-- An instruction of the guarded code is one of the guard, or an old one with perhaps the label
of the guard on it. -/
theorem mem_guarded (inside : site < code.length) {ins : Instruction Label}
    (member : ins ∈ guarded code site hook fresh) :
    ins ∈ guard hook fresh ∨ ∃ source ∈ code, ∃ labels ⊆ source.labels ++ [fresh],
      ins = { source with labels := labels } := by
  obtain ⟨before, old, after, rfl, same⟩ := exists_guarded_eq inside hook fresh
  rw [same] at member
  have kept {source : Instruction Label} : source.labels ⊆ source.labels ++ [fresh] :=
    List.subset_append_left _ _
  rcases List.mem_append.mp member with early | late
  · rcases List.mem_append.mp early with early | new
    · exact .inr ⟨ins, List.mem_append_left _ early, ins.labels, kept, rfl⟩
    · exact .inl new
  · rcases List.mem_cons.mp late with rfl | late
    · exact .inr ⟨old, by simp, _, List.Subset.refl _, rfl⟩
    · exact .inr ⟨ins, by simp [late], ins.labels, kept, rfl⟩

end PatchSite

variable {hook : String} {body patched : Body} {outcome : Outcome}

/-- The instructions of a guard are typed, carry no label and mention only the fresh one. -/
theorem guard_instructions {fresh : Label} {ins : Instruction Label}
    (member : ins ∈ PatchSite.guard hook fresh) :
    ins.Typed ∧ ∀ label ∈ ins.mentions, label = fresh := by
  simp only [PatchSite.guard, List.mem_cons, List.not_mem_nil, or_false] at member
  rcases member with rfl | rfl | rfl
  · exact ⟨rfl, fun _ named => by cases named⟩
  · exact ⟨rfl, fun _ named => List.mem_singleton.mp named⟩
  · exact ⟨rfl, fun _ named => by cases named⟩

/-- The body with a guard in front of a site. -/
def Body.guarded (site : Nat) (hook : String) (body : Body) : Body :=
  ⟨body.name, PatchSite.guarded body.code site hook ⟨body.nextLabel⟩, body.nextLabel + 1⟩

theorem Body.Numbered.guarded (numbered : body.Numbered) {site : Nat}
    (inside : site < body.code.length) (hook : String) : (body.guarded site hook).Numbered := by
  intro ins member label mentioned
  rcases PatchSite.mem_guarded inside member with new | ⟨source, old, labels, kept, rfl⟩
  · rw [(guard_instructions new).2 label mentioned]
    exact Nat.lt_succ_self _
  · rcases List.mem_append.mp mentioned with attached | target
    · rcases List.mem_append.mp (kept attached) with earlier | last
      · exact Nat.lt_succ_of_lt (numbered source old label (List.mem_append_left _ earlier))
      · cases List.mem_singleton.mp last
        exact Nat.lt_succ_self _
    · exact Nat.lt_succ_of_lt (numbered source old label (List.mem_append_right _ target))

theorem Body.Fit.guarded (fit : body.Fit) {site : PatchSite} {label : Label}
    (inside : site.index < body.code.length)
    (inserted : site.insertGuard hook body = .ok (some (label, patched))) : patched.Fit := by
  obtain ⟨_, room, rfl, rfl⟩ := PatchSite.insertGuard_eq_some.mp inserted
  have attached : (Body.attached
      (PatchSite.guarded body.code site.index hook ⟨body.nextLabel⟩)).Perm
        (⟨body.nextLabel⟩ :: Body.attached body.code) := PatchSite.attached_guarded inside
  have fresh : (⟨body.nextLabel⟩ : Label) ∉ Body.attached body.code := by
    intro used
    obtain ⟨ins, member, named⟩ := List.mem_flatMap.mp used
    exact Nat.lt_irrefl _ (fit.numbered ins member _ (List.mem_append_left _ named))
  refine ⟨fun ins member => ?_, ⟨?_, fun ins member target goes => ?_⟩,
    fit.numbered.guarded inside hook, room⟩
  · rcases PatchSite.mem_guarded inside member with new | ⟨source, old, _, _, rfl⟩
    · exact (guard_instructions new).1
    · exact fit.typed source old
  · exact attached.nodup_iff.mpr (List.nodup_cons.mpr ⟨fresh, fit.linked.once⟩)
  · refine attached.mem_iff.mpr ?_
    rcases PatchSite.mem_guarded inside member with new | ⟨source, old, _, _, rfl⟩
    · have named := Instruction.branchTarget_mem_mentions (Option.mem_def.mp goes)
      rw [(guard_instructions new).2 target named]
      exact List.mem_cons_self
    · exact List.mem_cons_of_mem _ (fit.linked.landed source old target goes)

/-- A patch puts a guard in or leaves the body alone. -/
theorem transpile_eq_ok (done : transpile hook body = .ok (patched, outcome)) :
    (patched = body ∧ outcome = .notFound) ∨
      ∃ (site : PatchSite) (label : Label), site.index < body.code.length ∧
        outcome = .patched site.index label ∧
          site.insertGuard hook body = .ok (some (label, patched)) := by
  unfold transpile at done
  split at done
  · cases done
    exact .inl ⟨rfl, rfl⟩
  · rename_i site found
    split at done
    · cases done
    · cases done
      exact .inl ⟨rfl, rfl⟩
    · rename_i label _ inserted
      cases done
      exact .inr ⟨site, label, (PatchSite.locate?_eq_some found).2.1, rfl, inserted⟩

/-- Every patch keeps a body fit. -/
theorem Body.Fit.transpile (fit : body.Fit)
    (done : transpile hook body = .ok (patched, outcome)) : patched.Fit := by
  rcases transpile_eq_ok done with ⟨rfl, _⟩ | ⟨site, label, inside, _, inserted⟩
  · exact fit
  · exact fit.guarded inside inserted

/-- A patched body has the texts it had before, and the hook if a guard was put in. -/
theorem mem_texts_transpile (done : transpile hook body = .ok (patched, outcome)) {text : String} :
    text ∈ patched.texts ↔ text ∈ body.texts ∨ outcome.isPatched = true ∧ text = hook := by
  rcases transpile_eq_ok done with ⟨rfl, rfl⟩ | ⟨site, label, inside, rfl, inserted⟩
  · simp [Outcome.isPatched]
  · obtain ⟨_, _, rfl, rfl⟩ := PatchSite.insertGuard_eq_some.mp inserted
    simp only [Body.texts, List.mem_cons, PatchSite.mem_quoted_guarded inside, Outcome.isPatched,
      true_and]
    tauto

end SpawnGuard
