import Mathlib.Data.List.DropRight
import Mathlib.Data.List.TakeWhile
import SpawnGuard.Machine.Signature

/-!
Parameter lists and how many parameters are counted in them. The types may nest square and angle
brackets as deep as the count of open ones goes, which stays below 2147483648 in a word. A type in
parentheses is not counted for one: the parameters are those behind the last opening parenthesis,
wherever that stands.
-/
namespace SpawnGuard.Signature
open Text

def brackets : List (Char × Char) := [('[', ']'), ('<', '>'), ('(', ')')]

def Plain (c : Char) : Prop := ∀ pair ∈ brackets, c ≠ pair.1 ∧ c ≠ pair.2

/-- Text in which brackets are paired and properly nested. A comma stands inside of a pair, and
outside of all of them only with leave. -/
inductive Nested : Bool → List Char → Prop where
  | nil {commas : Bool} : Nested commas []
  | plain {commas : Bool} {c : Char} {rest : List Char} (free : Plain c)
    (comma : c = ',' → commas = true) (later : Nested commas rest) : Nested commas (c :: rest)
  | group {commas : Bool} {opening closing : Char} {body rest : List Char}
    (pair : (opening, closing) ∈ brackets) (inside : Nested true body)
    (later : Nested commas rest) : Nested commas (opening :: (body ++ closing :: rest))

/-- The text of the type of a parameter. -/
structure IsType (text : List Char) : Prop where
  nested : Nested false text
  visible : ∃ c ∈ text, isBlank c = false

def listed (types : List (List Char)) : List Char := ", ".toList.intercalate types

def parenthesized (types : List (List Char)) : List Char := '(' :: (listed types ++ [')'])

variable {commas : Bool} {c opening closing : Char} {text : List Char} {types : List (List Char)}

theorem Nested.plain_append {front : List Char} (free : ∀ c ∈ front, Plain c)
    (comma : ',' ∈ front → commas = true) (later : Nested commas text) :
    Nested commas (front ++ text) := by
  induction front with
  | nil => exact later
  | cons c front ih =>
    rw [List.forall_mem_cons] at free
    exact .plain free.1 (fun same => comma (same ▸ List.mem_cons_self))
      (ih free.2 fun member => comma (List.mem_cons_of_mem c member))

theorem Nested.of_plain (free : ∀ c ∈ text, Plain c) (comma : ',' ∈ text → commas = true) :
    Nested commas text := by
  have nested := Nested.plain_append free comma Nested.nil
  rwa [List.append_nil] at nested

theorem depthStep_of_plain (free : Plain c) : depthStep c = 0 := by
  simp only [Plain, brackets, List.forall_mem_cons, List.not_mem_nil, false_imp_iff,
    implies_true, and_true] at free
  obtain ⟨⟨_, _⟩, ⟨_, _⟩, _, _⟩ := free
  unfold depthStep
  rw [if_neg (by simp_all), if_neg (by simp_all)]

theorem depthStep_of_pair (pair : (opening, closing) ∈ brackets) :
    depthStep opening = 1 ∧ depthStep closing = -1 := by
  have all : ∀ pair ∈ brackets, depthStep pair.1 = 1 ∧ depthStep pair.2 = -1 := by decide
  exact all _ pair

theorem ne_comma_of_pair (pair : (opening, closing) ∈ brackets) :
    opening ≠ ',' ∧ closing ≠ ',' := by
  have all : ∀ pair ∈ brackets, pair.1 ≠ ',' ∧ pair.2 ≠ ',' := by decide
  exact all _ pair

/-- Nested text leaves the depth as it was, and has no comma that is counted there. -/
theorem Nested.outerCommas_append (nested : Nested commas text) {depth : Int}
    (outside : 0 ≤ depth) (inside : commas = true → 1 ≤ depth) (rest : List Char) :
    outerCommas depth (text ++ rest) = outerCommas depth rest := by
  induction nested generalizing depth rest with
  | nil => rfl
  | plain free comma later ih =>
    rw [List.cons_append, outerCommas, depthStep_of_plain free, Int.add_zero, if_neg, Nat.zero_add]
    · exact ih outside inside rest
    · rintro ⟨same, zero⟩
      have deep := inside (comma same)
      omega
  | @group commas opening closing body later pair _ _ ihBody ihLater =>
    obtain ⟨up, down⟩ := depthStep_of_pair pair
    obtain ⟨notOpening, notClosing⟩ := ne_comma_of_pair pair
    have outer : depth + 1 + -1 = depth := by omega
    calc outerCommas depth (opening :: (body ++ closing :: later) ++ rest)
        = outerCommas (depth + 1) (body ++ closing :: (later ++ rest)) := by
          simp [outerCommas, notOpening, up]
      _ = outerCommas (depth + 1) (closing :: (later ++ rest)) :=
          ihBody (by omega) (fun _ => by omega) _
      _ = outerCommas depth (later ++ rest) := by
          rw [outerCommas, down, outer, if_neg fun both => notClosing both.1, Nat.zero_add]
      _ = outerCommas depth rest := ihLater outside inside rest

/-- Nothing is closed that was not opened. -/
theorem Nested.not_mem_of_pair (nested : Nested commas text) (absent : '(' ∉ text) :
    ')' ∉ text := by
  have round : ('(', ')') ∈ brackets := by decide
  have alone : ∀ pair ∈ brackets, pair.1 ≠ ')' ∧ (pair.2 = ')' → pair.1 = '(') := by decide
  induction nested with
  | nil => exact List.not_mem_nil
  | plain free _ _ ih =>
    rw [List.mem_cons, not_or] at absent ⊢
    exact ⟨(free _ round).2.symm, ih absent.2⟩
  | group pair _ _ ihBody ihLater =>
    simp only [List.mem_cons, List.mem_append, not_or] at absent ⊢
    obtain ⟨notOpening, notBody, _, notLater⟩ := absent
    obtain ⟨first, second⟩ := alone _ pair
    exact ⟨first.symm, ihBody notBody, fun same => notOpening (second same.symm).symm,
      ihLater notLater⟩

theorem plain_of_blank (blank : isBlank c = true) : Plain c ∧ c ≠ ',' := by
  have visible : ∀ pair ∈ brackets, isBlank pair.1 = false ∧ isBlank pair.2 = false := by decide
  refine ⟨fun pair member => ⟨?_, ?_⟩, ?_⟩
  · rintro rfl
    simp [(visible pair member).1] at blank
  · rintro rfl
    simp [(visible pair member).2] at blank
  · rintro rfl
    exact absurd blank (by decide)

theorem trim_surrounded (text : List Char) :
    ∃ front behind, text = front ++ (trim text ++ behind) ∧
      (∀ c ∈ front, isBlank c = true) ∧ ∀ c ∈ behind, isBlank c = true := by
  refine ⟨text.takeWhile isBlank, (text.dropWhile isBlank).rtakeWhile isBlank, ?_,
    fun c => List.mem_takeWhile_imp, fun c => List.mem_rtakeWhile_imp⟩
  have trimmed : trim text = (text.dropWhile isBlank).rdropWhile isBlank := rfl
  rw [trimmed, List.rdropWhile_append_rtakeWhile, List.takeWhile_append_dropWhile]

theorem outerCommas_of_not_mem (absent : ',' ∉ text) (depth : Int) : outerCommas depth text = 0 := by
  induction text generalizing depth with
  | nil => rfl
  | cons c text ih =>
    rw [List.mem_cons, not_or] at absent
    rw [outerCommas, ih absent.2, if_neg fun both => absent.1 both.1.symm]

theorem outerCommas_append_of_not_mem {behind : List Char} (absent : ',' ∉ behind)
    (text : List Char) (depth : Int) :
    outerCommas depth (text ++ behind) = outerCommas depth text := by
  induction text generalizing depth with
  | nil => exact outerCommas_of_not_mem absent depth
  | cons c text ih => rw [List.cons_append, outerCommas, ih, outerCommas]

theorem outerCommas_trim (text : List Char) : outerCommas 0 (trim text) = outerCommas 0 text := by
  obtain ⟨front, behind, whole, before, after⟩ := trim_surrounded text
  have front : Nested false front :=
    .of_plain (fun c member => (plain_of_blank (before c member)).1)
      (fun comma => absurd rfl (plain_of_blank (before _ comma)).2)
  have behind : ',' ∉ behind := fun comma => absurd rfl (plain_of_blank (after _ comma)).2
  conv_rhs => rw [whole]
  rw [front.outerCommas_append (Int.le_refl 0) (by simp), outerCommas_append_of_not_mem behind]

theorem mem_trim (member : c ∈ text) (visible : isBlank c = false) : c ∈ trim text := by
  obtain ⟨front, behind, whole, before, after⟩ := trim_surrounded text
  rw [whole, List.mem_append, List.mem_append] at member
  rcases member with blank | inside | blank
  · simp [before c blank] at visible
  · exact inside
  · simp [after c blank] at visible

theorem afterLast_of_not_mem (absent : c ∉ text) : afterLast c text = none := by
  induction text with
  | nil => rfl
  | cons x text ih =>
    rw [List.mem_cons, not_or] at absent
    rw [afterLast, ih absent.2]
    exact if_neg fun same => absent.1 same.symm

theorem afterLast_append (front back : List Char) :
    afterLast c (front ++ c :: back) = some ((afterLast c back).getD back) := by
  induction front with
  | nil =>
    rw [List.nil_append, afterLast]
    cases afterLast c back <;> simp
  | cons x front ih => rw [List.cons_append, afterLast, ih]

theorem dropClosing_append (absent : ')' ∉ text) (closings : Nat) :
    dropClosing (text ++ List.replicate closings ')') = text := by
  have drops (text : List Char) : dropClosing text = text.rdropWhile (· = ')') := rfl
  rw [drops]
  induction closings with
  | zero =>
    rw [List.replicate_zero, List.append_nil, List.rdropWhile_eq_self_iff]
    intro written closing
    exact absent (of_decide_eq_true closing ▸ List.getLast_mem written)
  | succ closings ih =>
    rw [List.replicate_succ', ← List.append_assoc, List.rdropWhile_concat_pos _ _ _ (by simp), ih]

/-- What stands before an opening parenthesis is not looked at. -/
theorem parameterCount_append (front back : List Char) :
    parameterCount (String.ofList (front ++ '(' :: back)) =
      parameterCount (String.ofList ('(' :: back)) := by
  have alone : afterLast '(' ('(' :: back) = some ((afterLast '(' back).getD back) :=
    afterLast_append [] back
  simp only [parameterCount, String.toList_ofList, afterLast_append, alone]

theorem listed_cons (type : List Char) (written : types ≠ []) :
    listed (type :: types) = type ++ ',' :: ' ' :: listed types := by
  obtain ⟨next, rest, rfl⟩ := List.exists_cons_of_ne_nil written
  rfl

theorem mem_listed (member : c ∈ text) (types : List (List Char)) : c ∈ listed (text :: types) := by
  by_cases alone : types = []
  · subst alone
    simpa [listed] using member
  · rw [listed_cons text alone]
    exact List.mem_append_left _ member

/-- The text of a list of types ends in the texts of its tails. -/
theorem listed_append (before : List (List Char)) (type : List Char) (after : List (List Char)) :
    ∃ front, listed (before ++ type :: after) = front ++ listed (type :: after) := by
  induction before with
  | nil => exact ⟨[], rfl⟩
  | cons first before ih =>
    obtain ⟨front, rest⟩ := ih
    exact ⟨first ++ ',' :: ' ' :: front, by simp [listed_cons, rest]⟩

theorem not_mem_listed (between : c ∉ ", ".toList) (absent : ∀ type ∈ types, c ∉ type) :
    c ∉ listed types := by
  induction types with
  | nil => exact List.not_mem_nil
  | cons type types ih =>
    rw [List.forall_mem_cons] at absent
    by_cases last : types = []
    · subst last
      simpa [listed] using absent.1
    · rw [listed_cons type last]
      have rest := ih absent.2
      have apart : c ≠ ',' ∧ c ≠ ' ' := by simpa using between
      simp [absent.1, apart, rest]

theorem outerCommas_listed (texts : ∀ type ∈ types, Nested false type) (written : types ≠ []) :
    1 + outerCommas 0 (listed types) = types.length := by
  induction types with
  | nil => exact absurd rfl written
  | cons type types ih =>
    rw [List.forall_mem_cons] at texts
    have skipped := texts.1.outerCommas_append (Int.le_refl 0) (by simp)
    by_cases last : types = []
    · subst last
      have alone := skipped []
      rw [List.append_nil] at alone
      simpa [listed, outerCommas] using alone
    · have separated : outerCommas 0 (',' :: ' ' :: listed types) =
          1 + outerCommas 0 (listed types) := by
        simp [outerCommas, depthStep]
      rw [listed_cons type last, skipped, separated, ih texts.2 last, List.length_cons,
        Nat.add_comm]

/-- As many parameters as types are counted, however many parentheses close the list. -/
theorem parameterCount_listed (texts : ∀ type ∈ types, IsType type)
    (flat : ∀ type ∈ types, '(' ∉ type) (front : List Char) (closings : Nat) :
    parameterCount (String.ofList
      (front ++ '(' :: (listed types ++ List.replicate closings ')'))) = types.length := by
  have opened : '(' ∉ listed types := not_mem_listed (by decide) flat
  have closed : ')' ∉ listed types :=
    not_mem_listed (by decide) fun type member =>
      (texts type member).nested.not_mem_of_pair (flat type member)
  have last : afterLast '(' (listed types ++ List.replicate closings ')') = none := by
    apply afterLast_of_not_mem
    simp [opened]
  simp only [parameterCount, String.toList_ofList, afterLast_append, last, Option.getD_none,
    dropClosing_append closed]
  by_cases empty : types = []
  · subst empty
    rfl
  · have seen : trim (listed types) ≠ [] := by
      obtain ⟨type, rest, rfl⟩ := List.exists_cons_of_ne_nil empty
      obtain ⟨c, member, visible⟩ := (texts type List.mem_cons_self).visible
      exact List.ne_nil_of_mem (mem_trim (mem_listed member rest) visible)
    rw [if_neg (by simpa using seen), outerCommas_trim]
    exact outerCommas_listed (fun type member => (texts type member).nested) empty

/-- A tuple that is the last parameter is counted for its components, and it alone. -/
theorem parameterCount_tuple (texts : ∀ type ∈ types, IsType type)
    (flat : ∀ type ∈ types, '(' ∉ type) (front : List Char) (before : List (List Char)) :
    parameterCount (String.ofList (front ++ parenthesized (before ++ [parenthesized types]))) =
      types.length := by
  obtain ⟨skipped, last⟩ := listed_append before (parenthesized types) []
  have tail : front ++ parenthesized (before ++ [parenthesized types]) =
      (front ++ '(' :: skipped) ++ '(' :: (listed types ++ List.replicate 2 ')') := by
    rw [parenthesized, last]
    simp [parenthesized, listed, List.replicate_succ]
  rw [tail]
  exact parameterCount_listed texts flat _ 2

/-- Nested types are counted one by one where none of them has a parenthesis. As the components of a
tuple they are counted as well, in the place of the parameters; types before one that has a
parenthesis are not counted, however many they are. -/
theorem parameterCount_types (front : List Char) (types : List (List Char))
    (texts : ∀ type ∈ types, IsType type) :
    ((∀ type ∈ types, '(' ∉ type) →
      parameterCount (String.ofList (front ++ parenthesized types)) = types.length ∧
      ∀ before, parameterCount
        (String.ofList (front ++ parenthesized (before ++ [parenthesized types]))) =
          types.length) ∧
    ∀ before type after, types = before ++ type :: after → '(' ∈ type →
      parameterCount (String.ofList (front ++ parenthesized types)) =
        parameterCount (String.ofList (parenthesized (type :: after))) := by
  constructor
  · intro flat
    exact ⟨parameterCount_listed texts flat front 1, parameterCount_tuple texts flat front⟩
  · rintro before type after rfl opened
    obtain ⟨skipped, whole⟩ := listed_append before type after
    obtain ⟨inside, back, split⟩ := List.append_of_mem (mem_listed opened after)
    have long : front ++ parenthesized (before ++ type :: after) =
        (front ++ '(' :: (skipped ++ inside)) ++ '(' :: (back ++ [')']) := by
      simp [parenthesized, whole, split]
    have short : parenthesized (type :: after) = ('(' :: inside) ++ '(' :: (back ++ [')']) := by
      simp [parenthesized, split]
    rw [long, short, parameterCount_append, parameterCount_append ('(' :: inside)]

theorem isType_int32 : IsType "Int32".toList where
  nested := .of_plain (by simp [Plain, brackets]) (by decide)
  visible := ⟨'I', by decide, by decide⟩

/-- A type in brackets has its commas to itself. -/
theorem isType_dictionary : IsType "Dictionary[Int32, Action<String>]".toList where
  nested := by
    have argument : Nested true "String".toList :=
      .of_plain (by simp [Plain, brackets]) (by decide)
    have arguments : Nested true
        ("Int32, Action".toList ++ '<' :: ("String".toList ++ '>' :: [])) :=
      .plain_append (by simp [Plain, brackets]) (by decide) (.group (by decide) argument .nil)
    have type : Nested false ("Dictionary".toList ++
        '[' :: ("Int32, Action".toList ++ '<' :: ("String".toList ++ '>' :: []) ++ ']' :: [])) :=
      .plain_append (by simp [Plain, brackets]) (by decide) (.group (by decide) arguments .nil)
    exact type
  visible := ⟨'D', by decide, by decide⟩

theorem isType_tuple : IsType "(Int32, String)".toList where
  nested := by
    have components : Nested true "Int32, String".toList :=
      .of_plain (by simp [Plain, brackets]) (by decide)
    have type : Nested false ('(' :: ("Int32, String".toList ++ ')' :: [])) :=
      .group (by decide) components .nil
    exact type
  visible := ⟨'I', by decide, by decide⟩

/-- The two types are counted as the parameters of a method, and again if they are the components of
its third parameter. -/
theorem dictionary_counted_once :
    (∀ type ∈ ["Int32".toList, "Dictionary[Int32, Action<String>]".toList],
      IsType type ∧ '(' ∉ type) ∧
    parameterCount "Int32 Subscribe(Int32, Dictionary[Int32, Action<String>])" = 2 ∧
    parameterCount "Void Set(Int32, Int32, (Int32, Dictionary[Int32, Action<String>]))" = 2 := by
  have texts : ∀ type ∈ ["Int32".toList, "Dictionary[Int32, Action<String>]".toList],
      IsType type := by
    intro type member
    rcases List.mem_pair.mp member with rfl | rfl
    · exact isType_int32
    · exact isType_dictionary
  have flat : ∀ type ∈ ["Int32".toList, "Dictionary[Int32, Action<String>]".toList],
      '(' ∉ type := by decide
  have method := (parameterCount_types "Int32 Subscribe".toList _ texts).1 flat
  have setter := (parameterCount_types "Void Set".toList _ texts).1 flat
  exact ⟨fun type member => ⟨texts type member, flat type member⟩, method.1,
    setter.2 ["Int32".toList, "Int32".toList]⟩

/-- A tuple is one type, and two parameters are counted. -/
theorem tuple_counted_twice :
    IsType "(Int32, String)".toList ∧
      "Void Set((Int32, String))" =
        String.ofList ("Void Set".toList ++ parenthesized ["(Int32, String)".toList]) ∧
      parameterCount "Void Set((Int32, String))" = 2 :=
  ⟨isType_tuple, rfl, by decide⟩

end SpawnGuard.Signature
