import Mathlib.Data.Nat.Find
import SpawnGuard.Proofs.LineFaults

/-!
Which error a listing is refused with, and on which line. The first line at fault decides,
whatever stands behind it; the last labels and the branch targets count only when no line is at
fault.
-/
namespace SpawnGuard.Listing

abbrev Page := List (List Char × Nat)

/-- The lines of a text with their numbers; blank lines and comments count. -/
def page (text : String) : Page := (lines text.toList).zipIdx 1

def TellsAt (page : Page) (number : Nat) (statement : Statement) : Prop :=
  ∃ line, (line, number) ∈ page ∧ Tells line statement

/-- A label that was given, or is defined in front of a line. -/
def Known (defined : List String) (page : Page) (number : Nat) (name : String) : Prop :=
  name ∈ defined ∨ ∃ earlier < number, ∃ line, (line, earlier) ∈ page ∧ Defines line name

def FaultyAt (defined : List String) (page : Page) (number : Nat) (cause : Cause) : Prop :=
  ∃ line, (line, number) ∈ page ∧ Faulty (Known defined page number) line cause

structure FirstFault (defined : List String) (page : Page) (error : Error) : Prop where
  faulty : FaultyAt defined page error.line error.cause
  first : ∀ number < error.line, ∀ cause, ¬ FaultyAt defined page number cause

def Sound (page : Page) : Prop := ∀ number cause, ¬ FaultyAt [] page number cause

/-- No instruction stands on a line or behind it. -/
def Ended (page : Page) (number : Nat) : Prop :=
  ∀ later ≥ number, ∀ statement, TellsAt page later statement → statement.operation? = none

/-- A label is defined somewhere, be it behind the branches to it. -/
def Defined (page : Page) (name : String) : Prop :=
  ∃ number line, (line, number) ∈ page ∧ Defines line name

/-- What is to be reported of a text that is not well formed. Both a label that nothing follows
and a branch to nowhere are reported where they stand first. -/
inductive Reported (page : Page) : Error → Prop where
  | fault {error : Error} (first : FirstFault [] page error) : Reported page error
  | dangling {number : Nat} {statement : Statement} {name : String} (sound : Sound page)
    (told : TellsAt page number statement) (label : statement.defines.head? = some name)
    (ended : Ended page number)
    (first : ∀ earlier < number, ∀ other, TellsAt page earlier other → other.defines ≠ [] →
      ¬ Ended page earlier) : Reported page ⟨number, .danglingLabel name⟩
  | undefined {number : Nat} {statement : Statement} {name : String} (sound : Sound page)
    (followed : ∀ number other, TellsAt page number other → other.defines ≠ [] →
      ¬ Ended page number)
    (told : TellsAt page number statement) (target : statement.target? = some name)
    (missing : ¬ Defined page name)
    (first : ∀ earlier < number, ∀ other, TellsAt page earlier other → ∀ name ∈ other.target?,
      Defined page name) : Reported page ⟨number, .undefinedLabel name⟩

variable {given text : String} {defined names : List String} {line : List Char}
  {later : List (List Char)} {number : Nat} {numbered : List Numbered} {error : Error}

theorem tellsAt_cons {page : Page} {place : Nat} {statement : Statement} :
    TellsAt ((line, number) :: page) place statement ↔
      (place = number ∧ Tells line statement) ∨ TellsAt page place statement := by
  simp [TellsAt, or_and_right, exists_or, and_assoc]

theorem known_first : Known defined ((line :: later).zipIdx number) number = (· ∈ defined) := by
  funext name
  refine propext (or_iff_left ?_)
  rintro ⟨earlier, less, other, member, _⟩
  exact absurd (List.le_snd_of_mem_zipIdx member) (not_le.mpr less)

theorem known_cons {place : Nat} (behind : number < place)
    (defines : ∀ name, Defines line name ↔ name ∈ names) :
    Known defined ((line :: later).zipIdx number) place =
      Known (names.reverse ++ defined) (later.zipIdx (number + 1)) place := by
  funext name
  unfold Known
  rw [List.zipIdx_cons, List.mem_append, List.mem_reverse, ← defines name]
  simp only [List.mem_cons, Prod.mk.injEq]
  refine propext ⟨?_, ?_⟩
  · rintro (given | ⟨earlier, less, other, ⟨rfl, rfl⟩ | member, defined⟩)
    · exact .inl (.inr given)
    · exact .inl (.inl defined)
    · exact .inr ⟨earlier, less, other, member, defined⟩
  · rintro ((defined | given) | ⟨earlier, less, other, member, defined⟩)
    · exact .inr ⟨number, behind, line, .inl ⟨rfl, rfl⟩, defined⟩
    · exact .inl given
    · exact .inr ⟨earlier, less, other, .inr member, defined⟩

theorem faultyAt_first {cause : Cause} :
    FaultyAt defined ((line :: later).zipIdx number) number cause ↔
      Faulty (· ∈ defined) line cause := by
  constructor
  · rintro ⟨other, member, faulty⟩
    rw [known_first] at faulty
    rcases List.mem_cons.mp member with same | behind
    · cases same
      exact faulty
    · exact absurd (List.le_snd_of_mem_zipIdx behind) (Nat.not_succ_le_self number)
  · intro faulty
    exact ⟨line, List.mem_cons_self, known_first ▸ faulty⟩

theorem faultyAt_cons {place : Nat} {cause : Cause} (behind : number < place)
    (defines : ∀ name, Defines line name ↔ name ∈ names) :
    FaultyAt defined ((line :: later).zipIdx number) place cause ↔
      FaultyAt (names.reverse ++ defined) (later.zipIdx (number + 1)) place cause := by
  unfold FaultyAt
  rw [known_cons behind defines, List.zipIdx_cons]
  simp [behind.ne']

theorem FaultyAt.number_le {place : Nat} {cause : Cause}
    (faulty : FaultyAt defined (later.zipIdx number) place cause) : number ≤ place := by
  obtain ⟨line, member, _⟩ := faulty
  exact List.le_snd_of_mem_zipIdx member

theorem firstFault_of_faulty {cause : Cause} (faulty : Faulty (· ∈ defined) line cause) :
    FirstFault defined ((line :: later).zipIdx number) error ↔ ⟨number, cause⟩ = error := by
  constructor
  · rintro ⟨wrong, first⟩
    obtain ⟨place, other⟩ := error
    rcases wrong.number_le.eq_or_lt with same | behind
    · cases same
      cases faulty.unique (faultyAt_first.mp wrong)
      rfl
    · exact absurd (faultyAt_first.mpr faulty) (first number behind cause)
  · rintro rfl
    refine ⟨faultyAt_first.mpr faulty, fun place less cause wrong => ?_⟩
    exact absurd less (not_lt.mpr wrong.number_le)

/-- A line that is not at fault hands the labels that it defines on to the lines behind it. -/
theorem firstFault_cons (sound : ∀ cause, ¬ Faulty (· ∈ defined) line cause)
    (defines : ∀ name, Defines line name ↔ name ∈ names) :
    FirstFault defined ((line :: later).zipIdx number) error ↔
      FirstFault (names.reverse ++ defined) (later.zipIdx (number + 1)) error := by
  have moves {place : Nat} {cause : Cause} :
      FaultyAt defined ((line :: later).zipIdx number) place cause ↔
        FaultyAt (names.reverse ++ defined) (later.zipIdx (number + 1)) place cause := by
    by_cases behind : number < place
    · exact faultyAt_cons behind defines
    · constructor
      · intro faulty
        cases (not_lt.mp behind).antisymm faulty.number_le
        exact absurd (faultyAt_first.mp faulty) (sound cause)
      · intro faulty
        exact absurd faulty.number_le behind
  constructor
  · rintro ⟨faulty, first⟩
    exact ⟨moves.mp faulty, fun place less cause wrong => first place less cause (moves.mpr wrong)⟩
  · rintro ⟨faulty, first⟩
    exact ⟨moves.mpr faulty, fun place less cause wrong => first place less cause (moves.mp wrong)⟩

theorem readStatements_eq_error {lines : List (List Char)} :
    readStatements defined number lines = .error error ↔
      FirstFault defined (lines.zipIdx number) error := by
  induction lines generalizing defined number with
  | nil =>
    constructor
    · intro failed
      cases failed
    · rintro ⟨⟨line, member, _⟩, _⟩
      cases member
  | cons line later ih =>
    rcases line_cases defined line with
      ⟨cause, faulty⟩ | ⟨sound, empty | ⟨statement, tells, fresh⟩⟩
    · rw [readStatements_of_faulty faulty, firstFault_of_faulty faulty, Except.error.injEq]
    · rw [readStatements_of_blank empty, ih,
        firstFault_cons sound fun name => defines_of_blank empty]
      rfl
    · rw [readStatements_of_tells tells fresh, map_eq_error, ih,
        firstFault_cons sound fun name => defines_of_tells tells fresh]

theorem mem_numbered {lines : List (List Char)}
    (done : readStatements defined number lines = .ok numbered) {place : Nat}
    {statement : Statement} :
    ⟨place, statement⟩ ∈ numbered ↔ TellsAt (lines.zipIdx number) place statement := by
  induction lines generalizing defined number numbered with
  | nil =>
    cases done
    simp [TellsAt]
  | cons line later ih =>
    rw [List.zipIdx_cons, tellsAt_cons]
    rcases readStatements_cons_eq_ok done with
      ⟨empty, read⟩ | ⟨said, rest, tells, fresh, read, rfl⟩
    · rw [ih read, or_iff_right fun told => not_tells_of_blank empty told.2]
    · rw [List.mem_cons, ih read, Numbered.mk.injEq]
      refine or_congr_left (and_congr_right fun _ => ⟨?_, tells.unique fresh⟩)
      rintro rfl
      exact tells

theorem sorted_numbered {lines : List (List Char)}
    (done : readStatements defined number lines = .ok numbered) :
    numbered.Pairwise (·.line < ·.line) := by
  induction lines generalizing defined number numbered with
  | nil =>
    cases done
    exact .nil
  | cons line later ih =>
    rcases readStatements_cons_eq_ok done with ⟨_, read⟩ | ⟨said, rest, _, _, read, rfl⟩
    · exact ih read
    · refine .cons (fun entry member => ?_) (ih read)
      obtain ⟨_, listed, _⟩ := (mem_numbered read).mp member
      exact List.le_snd_of_mem_zipIdx listed

/-- In a list sorted by rank, what is found first is what has the least rank. -/
theorem findSome?_of_sorted {α β : Type} {list : List α} {rank : α → Nat} {f : α → Option β}
    {b : β} (sorted : list.Pairwise (rank · < rank ·)) :
    list.findSome? f = some b ↔
      ∃ a ∈ list, f a = some b ∧ ∀ other ∈ list, rank other < rank a → f other = none := by
  induction list with
  | nil => simp
  | cons head rest ih =>
    obtain ⟨least, sorted⟩ := List.pairwise_cons.mp sorted
    cases found : f head with
    | none =>
      rw [List.findSome?_cons_of_isNone (by simp [found]), ih sorted]
      simp [found]
    | some c =>
      rw [List.findSome?_cons_of_isSome (by simp [found]), found]
      constructor
      · rintro ⟨⟩
        refine ⟨head, List.mem_cons_self, found, fun other member less => ?_⟩
        rcases List.mem_cons.mp member with rfl | member
        · exact absurd less (lt_irrefl _)
        · exact absurd less (least other member).asymm
      · rintro ⟨a, member, fits, first⟩
        rcases List.mem_cons.mp member with rfl | member
        · exact found.symm.trans fits
        · cases found.symm.trans (first head List.mem_cons_self (least a member))

/-- Labels that wait for an instruction are left over if none comes. -/
theorem dangling_eq (pending : List (String × Nat)) (numbered : List Numbered) :
    dangling pending numbered =
      (if ∀ entry ∈ numbered, entry.statement.operation? = none then pending else []) ++
        dangling [] numbered := by
  induction numbered generalizing pending with
  | nil => simp [dangling]
  | cons head rest ih =>
    obtain ⟨line, statement⟩ := head
    cases goes : statement.operation? with
    | none =>
      simp only [dangling, goes, List.nil_append, List.forall_mem_cons, true_and]
      rw [ih, ih (statement.defines.map (·, line))]
      split <;> simp
    | some operation => simp [dangling, goes]

def Silent (numbered : List Numbered) (number : Nat) : Prop :=
  ∀ entry ∈ numbered, number ≤ entry.line → entry.statement.operation? = none

instance (numbered : List Numbered) (number : Nat) : Decidable (Silent numbered number) :=
  inferInstanceAs (Decidable (∀ entry ∈ numbered, _))

theorem dangling_eq_filter (sorted : numbered.Pairwise (·.line < ·.line)) :
    dangling [] numbered = (numbered.filter (Silent numbered ·.line)).flatMap fun entry =>
      entry.statement.defines.map (·, entry.line) := by
  induction numbered with
  | nil => rfl
  | cons head rest ih =>
    obtain ⟨least, sorted⟩ := List.pairwise_cons.mp sorted
    -- Lines go up, so the head does not bear on whether what is behind it is silent.
    have behind : rest.filter (Silent (head :: rest) ·.line) = rest.filter (Silent rest ·.line) :=
      List.filter_congr fun entry member => decide_eq_decide.mpr <| by
        simp [Silent, (least entry member).not_ge]
    have here : Silent (head :: rest) head.line ↔ head.statement.operation? = none ∧
        ∀ entry ∈ rest, entry.statement.operation? = none := by
      simp only [Silent, List.forall_mem_cons, le_refl, true_imp_iff]
      refine and_congr_right fun _ => forall₂_congr fun entry member => ?_
      exact imp_iff_right (least entry member).le
    rw [List.filter_cons, behind]
    simp only [here, decide_eq_true_iff]
    cases goes : head.statement.operation? with
    | none =>
      simp only [dangling, goes, List.nil_append, true_and]
      rw [dangling_eq, ih sorted]
      split <;> simp
    | some operation => simp [dangling, goes, ih sorted]

theorem head?_dangling (sorted : numbered.Pairwise (·.line < ·.line)) {name : String} :
    (dangling [] numbered).head? = some (name, number) ↔
      ∃ statement, ⟨number, statement⟩ ∈ numbered ∧ statement.defines.head? = some name ∧
        Silent numbered number ∧
          ∀ entry ∈ numbered, entry.line < number → entry.statement.defines ≠ [] →
            ¬ Silent numbered entry.line := by
  rw [dangling_eq_filter sorted, List.head?_flatMap, findSome?_of_sorted (sorted.filter _)]
  simp only [List.mem_filter, decide_eq_true_iff, List.head?_map, Option.map_eq_some_iff,
    Option.map_eq_none_iff, List.head?_eq_none_iff, Prod.mk.injEq]
  constructor
  · rintro ⟨⟨line, statement⟩, ⟨member, silent⟩, ⟨label, first, rfl, rfl⟩, least⟩
    refine ⟨statement, member, first, silent, fun entry inside less labels quiet => ?_⟩
    exact labels (least entry ⟨inside, quiet⟩ less)
  · rintro ⟨statement, member, first, silent, least⟩
    refine ⟨⟨number, statement⟩, ⟨member, silent⟩, ⟨name, first, rfl, rfl⟩, ?_⟩
    rintro entry ⟨inside, quiet⟩ less
    by_contra labels
    exact least entry inside less labels quiet

theorem dangling_eq_nil_iff (sorted : numbered.Pairwise (·.line < ·.line)) :
    dangling [] numbered = [] ↔
      ∀ entry ∈ numbered, entry.statement.defines ≠ [] → ¬ Silent numbered entry.line := by
  rw [dangling_eq_filter sorted, List.flatMap_eq_nil_iff]
  simp only [List.mem_filter, decide_eq_true_iff, List.map_eq_nil_iff, and_imp]
  exact forall₂_congr fun entry _ => not_imp_not.symm

theorem mem_targets {name : String} :
    (name, number) ∈ targets numbered ↔
      ∃ statement, ⟨number, statement⟩ ∈ numbered ∧ statement.target? = some name := by
  unfold targets
  rw [List.mem_filterMap]
  constructor
  · rintro ⟨⟨line, statement⟩, member, goes⟩
    obtain ⟨_, target, same⟩ := Option.map_eq_some_iff.mp goes
    cases same
    exact ⟨statement, member, target⟩
  · rintro ⟨statement, member, target⟩
    exact ⟨⟨number, statement⟩, member, by simp [target]⟩

theorem sorted_targets (sorted : numbered.Pairwise (·.line < ·.line)) :
    (targets numbered).Pairwise (·.2 < ·.2) := by
  refine List.Pairwise.filterMap _ ?_ sorted
  rintro one two less first goes second follows
  obtain ⟨_, _, rfl⟩ := Option.map_eq_some_iff.mp goes
  obtain ⟨_, _, rfl⟩ := Option.map_eq_some_iff.mp follows
  exact less

theorem first_target (sorted : numbered.Pairwise (·.line < ·.line)) {name : String} :
    ((targets numbered).find? fun target => target.1 ∉ definitions numbered) =
        some (name, number) ↔
      ∃ statement, ⟨number, statement⟩ ∈ numbered ∧ statement.target? = some name ∧
        name ∉ definitions numbered ∧
          ∀ entry ∈ numbered, entry.line < number → ∀ name ∈ entry.statement.target?,
            name ∈ definitions numbered := by
  rw [List.find?_eq_findSome?_guard, findSome?_of_sorted (sorted_targets sorted)]
  simp only [Option.guard_eq_some_iff, Option.guard_eq_none_iff, decide_eq_true_iff, not_not,
    decide_eq_false_iff_not]
  constructor
  · rintro ⟨target, member, ⟨rfl, missing⟩, least⟩
    obtain ⟨statement, inside, goes⟩ := mem_targets.mp member
    refine ⟨statement, inside, goes, missing, fun entry early less other target => ?_⟩
    exact least (other, entry.line) (mem_targets.mpr ⟨entry.statement, early, target⟩) less
  · rintro ⟨statement, inside, goes, missing, least⟩
    refine ⟨(name, number), mem_targets.mpr ⟨statement, inside, goes⟩, ⟨rfl, missing⟩, ?_⟩
    rintro ⟨other, line⟩ member less
    obtain ⟨earlier, early, target⟩ := mem_targets.mp member
    exact least ⟨line, earlier⟩ early less other target

theorem assemble_eq_error (room : exhausting numbered = none) :
    assemble given numbered = .error error ↔
      (∃ name, (dangling [] numbered).head? = some (name, error.line) ∧
          error.cause = .danglingLabel name) ∨
        dangling [] numbered = [] ∧ ∃ name,
          ((targets numbered).find? fun target => target.1 ∉ definitions numbered) =
              some (name, error.line) ∧
            error.cause = .undefinedLabel name := by
  obtain ⟨line, cause⟩ := error
  unfold assemble
  rw [room]
  cases dangling [] numbered with
  | nil =>
    cases (targets numbered).find? fun target => target.1 ∉ definitions numbered with
    | none => simp
    | some target => simp [Prod.ext_iff, and_assoc, eq_comm]
  | cons label labels => simp [Prod.ext_iff, and_assoc, eq_comm]

theorem exists_firstFault {page : Page}
    (faulty : ∃ number cause, FaultyAt defined page number cause) :
    ∃ error, FirstFault defined page error := by
  classical
  obtain ⟨cause, first⟩ := Nat.find_spec faulty
  exact ⟨⟨Nat.find faulty, cause⟩, first, fun number less other wrong =>
    Nat.find_min faulty less ⟨other, wrong⟩⟩

theorem sound_of_readStatements
    (done : readStatements [] 1 (lines text.toList) = .ok numbered) : Sound (page text) := by
  intro number cause faulty
  obtain ⟨error, first⟩ := exists_firstFault ⟨number, cause, faulty⟩
  cases done.symm.trans (readStatements_eq_error.mpr first)

theorem tellsAt_page (done : readStatements [] 1 (lines text.toList) = .ok numbered)
    {statement : Statement} :
    TellsAt (page text) number statement ↔ ⟨number, statement⟩ ∈ numbered :=
  (mem_numbered done).symm

theorem ended_page (done : readStatements [] 1 (lines text.toList) = .ok numbered) :
    Ended (page text) number ↔ Silent numbered number := by
  unfold Ended Silent
  simp only [tellsAt_page done]
  constructor
  · intro ended entry member behind
    exact ended entry.line behind entry.statement member
  · intro silent later behind statement member
    exact silent ⟨later, statement⟩ member behind

theorem defined_page (done : readStatements [] 1 (lines text.toList) = .ok numbered)
    {name : String} : Defined (page text) name ↔ name ∈ definitions numbered := by
  unfold definitions
  rw [List.mem_flatMap]
  constructor
  · rintro ⟨number, line, member, statement, tells, label⟩
    exact ⟨⟨number, statement⟩, (tellsAt_page done).mp ⟨line, member, tells⟩, label⟩
  · rintro ⟨entry, listed, label⟩
    obtain ⟨line, member, tells⟩ := (tellsAt_page done).mpr listed
    exact ⟨entry.line, line, member, entry.statement, tells, label⟩

theorem reported_page (done : readStatements [] 1 (lines text.toList) = .ok numbered) :
    Reported (page text) error ↔
      (∃ name, (dangling [] numbered).head? = some (name, error.line) ∧
          error.cause = .danglingLabel name) ∨
        dangling [] numbered = [] ∧ ∃ name,
          ((targets numbered).find? fun target => target.1 ∉ definitions numbered) =
              some (name, error.line) ∧
            error.cause = .undefinedLabel name := by
  have sorted := sorted_numbered done
  have sound := sound_of_readStatements done
  simp only [head?_dangling sorted, first_target sorted, dangling_eq_nil_iff sorted]
  constructor
  · intro reported
    cases reported with
    | fault first => exact absurd first.faulty (sound _ _)
    | dangling _ told label ended first =>
      simp only [tellsAt_page done, ended_page done] at told ended first
      exact .inl ⟨_, ⟨_, told, label, ended, fun entry member less =>
        first entry.line less entry.statement member⟩, rfl⟩
    | undefined _ followed told target missing first =>
      simp only [tellsAt_page done, ended_page done] at followed told
      simp only [tellsAt_page done, defined_page done] at missing first
      exact .inr ⟨fun entry => followed entry.line entry.statement, _, ⟨_, told, target, missing,
        fun entry member less => first entry.line less entry.statement member⟩, rfl⟩
  · obtain ⟨line, cause⟩ := error
    rintro (⟨name, ⟨statement, told, label, ended, first⟩, rfl⟩ |
      ⟨followed, name, ⟨statement, told, target, missing, first⟩, rfl⟩)
    · refine .dangling sound ((tellsAt_page done).mpr told) label ((ended_page done).mpr ended) ?_
      intro earlier less other member labels
      rw [ended_page done]
      exact first _ ((tellsAt_page done).mp member) less labels
    · refine .undefined sound ?_ ((tellsAt_page done).mpr told) target
        (mt (defined_page done).mp missing) ?_
      · intro number other member labels
        rw [ended_page done]
        exact followed _ ((tellsAt_page done).mp member) labels
      · intro earlier less other member label goes
        exact (defined_page done).mpr (first _ ((tellsAt_page done).mp member) less label goes)

theorem read_eq_error (counted : ∀ line, read given text ≠ .error ⟨line, .labelsExhausted⟩) :
    read given text = .error error ↔ Reported (page text) error := by
  unfold read at counted ⊢
  cases done : readStatements [] 1 (lines text.toList) with
  | error fault =>
    have first : FirstFault [] (page text) fault := readStatements_eq_error.mp done
    constructor
    · rintro ⟨⟩
      exact .fault first
    · intro reported
      cases reported with
      | fault other =>
        cases done.symm.trans (readStatements_eq_error.mpr other)
        rfl
      | dangling sound | undefined sound => exact absurd first.faulty (sound _ _)
  | ok numbered =>
    rw [done] at counted
    have room : exhausting numbered = none := by
      by_contra full
      obtain ⟨⟨name, line⟩, full⟩ := Option.ne_none_iff_exists'.mp full
      exact counted line (by simp [assemble, full])
    simp only [assemble_eq_error room, reported_page done]

theorem faultyAt_congr {one two : Page} {bound : Nat} {cause : Cause}
    (same : ∀ number ≤ bound, ∀ line, (line, number) ∈ one ↔ (line, number) ∈ two)
    (inside : number ≤ bound) :
    FaultyAt defined one number cause ↔ FaultyAt defined two number cause := by
  have known : Known defined one number = Known defined two number := by
    funext name
    refine propext (or_congr_right (exists_congr fun earlier => and_congr_right fun less => ?_))
    exact exists_congr fun line => and_congr_left fun _ => same earlier (less.le.trans inside) line
  unfold FaultyAt
  rw [known]
  exact exists_congr fun line => and_congr_left fun _ => same number inside line

theorem FirstFault.of_lines {one two : Page} (fault : FirstFault defined one error)
    (same : ∀ number ≤ error.line, ∀ line, (line, number) ∈ one ↔ (line, number) ∈ two) :
    FirstFault defined two error where
  faulty := (faultyAt_congr same le_rfl).mp fault.faulty
  first number less cause wrong :=
    fault.first number less cause ((faultyAt_congr same less.le).mpr wrong)

theorem mem_page {other : String} {bound : Nat}
    (same : (lines other.toList).take bound = (lines text.toList).take bound)
    (inside : number ≤ bound) : (line, number) ∈ page text ↔ (line, number) ∈ page other := by
  unfold page
  rw [List.mk_mem_zipIdx_iff_le_and_getElem?_sub, List.mk_mem_zipIdx_iff_le_and_getElem?_sub]
  refine and_congr_right fun positive => ?_
  have less : number - 1 < bound := by omega
  rw [← List.getElem?_take_of_lt less, ← same, List.getElem?_take_of_lt less]

/-- A text is refused for its first line at fault, whatever the text behind that line is; if no
line is at fault, for the first of the labels behind the last instruction, or else for the first
branch to a label that is defined nowhere. This is so unless there are more labels than numbers
for them. -/
theorem first_fault_reported (given text : String) (error : Error)
    (counted : ∀ line, read given text ≠ .error ⟨line, .labelsExhausted⟩) :
    (read given text = .error error ↔ Reported (page text) error) ∧
      (FirstFault [] (page text) error → ∀ default other,
        (lines other.toList).take error.line = (lines text.toList).take error.line →
          read default other = .error error) := by
  refine ⟨read_eq_error counted, fun fault default other same => ?_⟩
  have moved : FirstFault [] (page other) error :=
    fault.of_lines fun number inside line => mem_page same inside
  unfold read
  rw [readStatements_eq_error.mpr moved]

/-- Faults on its third line and on its last; the one repeats a label in front of a word that is
no opcode, the other is an open quote. -/
def strayText : String := "nop # one\n\nskip: skip: nope\nskip: call \"there\n"

theorem strayText_refused :
    Reported (page strayText) ⟨3, .duplicateLabel "skip"⟩ ∧ ∀ default,
      read default "nop # one\n\nskip: skip: nope\nbr nowhere\nend:" =
        .error ⟨3, .duplicateLabel "skip"⟩ := by
  have refused : read "m" strayText = .error ⟨3, .duplicateLabel "skip"⟩ := by decide +kernel
  have fault : FirstFault [] (page strayText) ⟨3, .duplicateLabel "skip"⟩ :=
    readStatements_eq_error.mp (by decide +kernel)
  have counted (line : Nat) : read "m" strayText ≠ .error ⟨line, .labelsExhausted⟩ := by
    rw [refused]
    simp
  have reported := first_fault_reported "m" strayText ⟨3, .duplicateLabel "skip"⟩ counted
  exact ⟨reported.1.mp refused, fun default => reported.2 fault default _ (by decide +kernel)⟩

-- A label behind the last instruction goes before a branch to nowhere, whichever is first.
example : read "m" "br there\nnop\nend:" = .error ⟨3, .danglingLabel "end"⟩ := by
  decide +kernel

end SpawnGuard.Listing
