import CodeSurvey.IgnoreRules
import CodeSurvey.Proofs.Text.Split

/-
Rules without wildcards.  Such a rule is a path with up to three marks around it, and reading it
takes the marks off again (`parse_written`): an exclamation mark in front, a slash in front of the
names, a slash behind them.  What is left is compared with a whole path or with its last name, so
the rule applies where `LiteralRule.Matches` says.
-/

namespace CodeSurvey

open Text

/-- What can stand between the slashes of a rule without wildcards. -/
def IsLiteralName (name : String) : Prop :=
  name ≠ "" ∧ '/' ∉ name.toList ∧ '*' ∉ name.toList ∧ '?' ∉ name.toList ∧ '[' ∉ name.toList

instance (name : String) : Decidable (IsLiteralName name) := inferInstanceAs (Decidable (_ ∧ _))

/-- A relative path that a rule can be written for as it stands: reading a line that holds it takes
nothing off, and takes it neither for a comment nor for a negation. -/
structure LiteralPath where
  names : List String
  names_ne : names ≠ []
  isName : ∀ name ∈ names, IsLiteralName name
  starts : (String.intercalate "/" names).toList.head?.any (fun c => isBlank c || c == '#' ||
    c == '!') = false
  ends : (String.intercalate "/" names).toList.getLast?.any isBlank = false

/-- A path and the marks that a rule for it has. -/
structure LiteralRule where
  path : LiteralPath
  negated : Bool := false
  anchored : Bool := false
  dirOnly : Bool := false

namespace LiteralPath

def text (path : LiteralPath) : String := String.intercalate "/" path.names

/-- Whether the path speaks of another one when it is not tied to the root: a single name speaks of
every path that ends with it. -/
def Denotes (path : LiteralPath) (other : String) : Prop :=
  (∃ name, path.names = [name] ∧ (other = name ∨ ∃ above, other = above ++ "/" ++ name)) ∨
    2 ≤ path.names.length ∧ other = path.text

variable (path : LiteralPath)

theorem toList_text : path.text.toList = List.intercalate ['/'] (path.names.map String.toList) := by
  rw [text, String.toList_intercalate]
  rfl

theorem isWildcard_of_mem_text : ∀ c ∈ path.text.toList, IgnoreRule.isWildcard c = false := by
  intro c hc
  rw [toList_text] at hc
  rcases mem_intercalate hc with hslash | ⟨part, hpart, hmem⟩
  · rw [List.mem_singleton.mp hslash]
    decide
  · obtain ⟨name, hname, rfl⟩ := List.mem_map.mp hpart
    obtain ⟨-, -, hstar, hquestion, hbracket⟩ := path.isName name hname
    simp only [IgnoreRule.isWildcard, Bool.or_eq_false_iff, beq_eq_false_iff_ne]
    exact ⟨⟨ne_of_mem_of_not_mem hmem hstar, ne_of_mem_of_not_mem hmem hquestion⟩,
      ne_of_mem_of_not_mem hmem hbracket⟩

theorem toList_ne_nil {name : String} (h : IsLiteralName name) : name.toList ≠ [] :=
  mt String.toList_eq_nil_iff.mp h.1

theorem of_head?_text {c : Char} (h : path.text.toList.head? = some c) :
    isBlank c = false ∧ c ≠ '#' ∧ c ≠ '!' := by
  have hstarts := path.starts
  rw [← text, h] at hstarts
  simpa [and_assoc] using hstarts

theorem of_getLast?_text {c : Char} (h : path.text.toList.getLast? = some c) :
    isBlank c = false := by
  have hends := path.ends
  rwa [← text, h] at hends

theorem head?_text : path.text.toList.head?.all (· != '/') = true := by
  obtain ⟨first, rest, hnames⟩ := List.exists_cons_of_ne_nil path.names_ne
  have hfirst : IsLiteralName first := path.isName first (by simp [hnames])
  rw [toList_text, hnames, List.map_cons, head?_intercalate (toList_ne_nil hfirst),
    Option.all_eq_true]
  intro c hc
  exact bne_iff_ne.mpr (ne_of_mem_of_not_mem (List.mem_of_head? hc) hfirst.2.1)

theorem getLast?_text : path.text.toList.getLast?.all (· != '/') = true := by
  obtain ⟨last, hlast⟩ := Option.isSome_iff_exists.mp (List.getLast?_isSome.mpr path.names_ne)
  have hname : IsLiteralName last := path.isName last (List.mem_of_getLast? hlast)
  have hparts : ∀ part ∈ path.names.map String.toList, part ≠ [] := by
    intro part hpart
    obtain ⟨name, hmem, rfl⟩ := List.mem_map.mp hpart
    exact toList_ne_nil (path.isName name hmem)
  rw [toList_text, getLast?_intercalate hparts, List.getLast?_map, hlast, Option.map_some,
    Option.bind_some, Option.all_eq_true]
  intro c hc
  exact bne_iff_ne.mpr (ne_of_mem_of_not_mem (List.mem_of_getLast? hc) hname.2.1)

theorem text_ne_nil : path.text.toList ≠ [] := by
  obtain ⟨first, rest, hnames⟩ := List.exists_cons_of_ne_nil path.names_ne
  have hfirst : first.toList ≠ [] := toList_ne_nil (path.isName first (by simp [hnames]))
  rw [Ne, ← List.head?_eq_none_iff, toList_text, hnames, List.map_cons, head?_intercalate hfirst,
    List.head?_eq_none_iff]
  exact hfirst

theorem contains_text : path.text.toList.contains '/' = decide (2 ≤ path.names.length) := by
  rw [toList_text]
  rcases hnames : path.names with _ | ⟨first, _ | ⟨second, rest⟩⟩
  · exact absurd hnames path.names_ne
  · have hslash : '/' ∉ first.toList := (path.isName first (by simp [hnames])).2.1
    simpa using hslash
  · simp [List.intercalate_cons_cons]

theorem lastSegment_eq_iff {name : String} (h : IsLiteralName name) (other : String) :
    IgnoreRule.lastSegment other = name ↔ other = name ∨ ∃ above, other = above ++ "/" ++ name := by
  rw [IgnoreRule.lastSegment, ← String.toList_inj, String.toList_ofList,
    getLastD_splitWhere_eq_iff h.2.1, String.toList_inj]
  refine or_congr_right ⟨?_, ?_⟩
  · rintro ⟨before, hbefore⟩
    refine ⟨String.ofList before, String.toList_inj.mp ?_⟩
    simp [hbefore]
  · rintro ⟨above, rfl⟩
    exact ⟨above.toList, by simp⟩

/-- A path with several names is compared with the whole of another, a single name
with its last segment. -/
theorem denotes_iff (other : String) :
    path.Denotes other ↔ (if 2 ≤ path.names.length then other else IgnoreRule.lastSegment other) =
      path.text := by
  unfold Denotes text
  rcases hnames : path.names with _ | ⟨first, _ | ⟨second, rest⟩⟩
  · exact absurd hnames path.names_ne
  · have hfirst : IsLiteralName first := path.isName first (by simp [hnames])
    simp [lastSegment_eq_iff hfirst]
  · simp

instance (other : String) : Decidable (path.Denotes other) :=
  decidable_of_iff' _ (path.denotes_iff other)

end LiteralPath

namespace LiteralRule

/-- A mark that may be there or not. -/
def mark (present : Bool) (sign : Char) : List Char := if present then [sign] else []

/-- The line that holds the rule. -/
def written (rule : LiteralRule) : String :=
  String.ofList
    (mark rule.negated '!' ++
      (mark rule.anchored '/' ++ (rule.path.text.toList ++ mark rule.dirOnly '/')))

/-- Where the rule applies. -/
def Matches (rule : LiteralRule) (path : String) (isDir : Bool) : Prop :=
  rule.negated = false ∧ (rule.dirOnly = true → isDir = true) ∧
    if rule.anchored then path = rule.path.text else rule.path.Denotes path

instance (rule : LiteralRule) (path : String) (isDir : Bool) :
    Decidable (rule.Matches path isDir) :=
  inferInstanceAs (Decidable (rule.negated = false ∧ (rule.dirOnly = true → isDir = true) ∧
    if rule.anchored then path = rule.path.text else rule.path.Denotes path))

theorem eq_of_mem_mark {present : Bool} {sign c : Char} (h : c ∈ mark present sign) : c = sign := by
  unfold mark at h
  split at h
  · exact List.mem_singleton.mp h
  · contradiction

theorem head?_mark_append (present : Bool) (sign : Char) (rest : List Char) :
    (mark present sign ++ rest).head? = if present then some sign else rest.head? := by
  cases present <;> rfl

theorem getLast?_append_mark (present : Bool) (sign : Char) (rest : List Char) :
    (rest ++ mark present sign).getLast? = if present then some sign else rest.getLast? := by
  cases present <;> simp [mark]

variable (rule : LiteralRule)

/-- Nothing is trimmed off the line of a rule. -/
theorem trim_written : trim rule.written.toList = rule.written.toList := by
  rw [written, String.toList_ofList]
  apply trim_eq_self
  · rw [head?_mark_append, head?_mark_append, List.head?_append_of_ne_nil _ rule.path.text_ne_nil]
    split
    · decide
    · split
      · decide
      · rw [Option.all_eq_true]
        intro c hc
        rw [(rule.path.of_head?_text hc).1]
        rfl
  · rw [← List.append_assoc, ← List.append_assoc, getLast?_append_mark,
      List.getLast?_append_of_ne_nil _ rule.path.text_ne_nil]
    split
    · decide
    · rw [Option.all_eq_true]
      intro c hc
      rw [rule.path.of_getLast?_text hc]
      rfl

/-- The line without the exclamation mark. -/
theorem plain_written : rule.written.toList.dropWhile (· == '!') =
    mark rule.anchored '/' ++ (rule.path.text.toList ++ mark rule.dirOnly '/') := by
  rw [written, String.toList_ofList]
  apply dropWhile_append_of_head
  · intro c hc
    exact beq_iff_eq.mpr (eq_of_mem_mark hc)
  · rw [head?_mark_append, List.head?_append_of_ne_nil _ rule.path.text_ne_nil]
    split
    · decide
    · rw [Option.all_eq_true]
      intro c hc
      simpa using (rule.path.of_head?_text hc).2.2

/-- The line without the marks at both ends. -/
theorem unclosed_written : dropEndWhile (· == '/') (rule.written.toList.dropWhile (· == '!')) =
    mark rule.anchored '/' ++ rule.path.text.toList := by
  rw [plain_written, ← List.append_assoc]
  apply dropEndWhile_append
  · rw [List.getLast?_append_of_ne_nil _ rule.path.text_ne_nil]
    exact rule.path.getLast?_text
  · intro c hc
    exact beq_iff_eq.mpr (eq_of_mem_mark hc)

theorem head?_written : rule.written.toList.head? =
    if rule.negated then some '!' else if rule.anchored then some '/'
    else rule.path.text.toList.head? := by
  rw [written, String.toList_ofList, head?_mark_append, head?_mark_append,
    List.head?_append_of_ne_nil _ rule.path.text_ne_nil]

theorem dirOnly_written :
    (decide (1 < (rule.written.toList.dropWhile (· == '!')).length) &&
      (rule.written.toList.dropWhile (· == '!')).getLast? == some '/') = rule.dirOnly := by
  have hlast := rule.path.getLast?_text
  have hlength := List.length_pos_iff.mpr rule.path.text_ne_nil
  rw [plain_written, ← List.append_assoc, getLast?_append_mark,
    List.getLast?_append_of_ne_nil _ rule.path.text_ne_nil]
  cases hdir : rule.dirOnly with
  | true =>
      have hlong : 1 <
          (mark rule.anchored '/' ++ rule.path.text.toList ++ mark true '/').length := by
        simp only [List.length_append, mark, if_true, List.length_singleton]
        omega
      rw [decide_eq_true hlong]
      rfl
  | false =>
      have hnot : rule.path.text.toList.getLast? ≠ some '/' := by
        intro hslash
        rw [hslash] at hlast
        contradiction
      rw [Bool.and_eq_false_iff]
      exact .inr (beq_eq_false_iff_ne.mpr hnot)

/-- Reading the line of a rule finds its path and its marks. -/
theorem parse_written : IgnoreRule.parse rule.written =
    some { raw := rule.written, body := rule.path.text, dirOnly := rule.dirOnly,
           anchored := rule.anchored, negated := rule.negated, glob := none } := by
  obtain ⟨first, hfirst⟩ :=
    Option.isSome_iff_exists.mp (List.isSome_head?.mpr rule.path.text_ne_nil)
  obtain ⟨-, hhash, hmark⟩ := rule.path.of_head?_text hfirst
  have hslash : first ≠ '/' := by
    have hhead := rule.path.head?_text
    rw [hfirst] at hhead
    simpa using hhead
  have hhead := rule.head?_written
  rw [hfirst] at hhead
  have hkept : (rule.written.toList.isEmpty || rule.written.toList.head? == some '#') = false := by
    have hne : rule.written.toList ≠ [] := by
      rw [← List.isSome_head?, hhead]
      cases rule.negated <;> cases rule.anchored <;> rfl
    rw [List.isEmpty_eq_false_iff.mpr hne, hhead]
    cases rule.negated <;> cases rule.anchored <;> simp [hhash]
  have hbody : (mark rule.anchored '/' ++ rule.path.text.toList).dropWhile (· == '/') =
      rule.path.text.toList :=
    dropWhile_append_of_head (fun c hc => beq_iff_eq.mpr (eq_of_mem_mark hc)) rule.path.head?_text
  have hanchored : ((mark rule.anchored '/' ++ rule.path.text.toList).head? == some '/') =
      rule.anchored := by
    rw [head?_mark_append, hfirst]
    cases rule.anchored with
    | true => rfl
    | false => simpa using hslash
  have hnegated : (rule.written.toList.head? == some '!') = rule.negated := by
    rw [hhead]
    cases rule.negated with
    | true => rfl
    | false => cases rule.anchored <;> simp [hmark]
  have hglob : IgnoreRule.compile rule.path.text.toList = none := by
    rw [IgnoreRule.compile, if_neg]
    simpa using rule.path.isWildcard_of_mem_text
  have hnonempty : rule.path.text.toList.isEmpty = false :=
    List.isEmpty_eq_false_iff.mpr rule.path.text_ne_nil
  rw [IgnoreRule.parse]
  simp only [trim_written, hkept, unclosed_written, hbody, hanchored, hnegated, hglob,
    dirOnly_written, hnonempty, String.ofList_toList, Bool.false_eq_true, if_false]

/-- What the rule is compared with: a slash in front or between the names ties
it to the whole path. -/
theorem target_eq_iff (path : String) :
    (if (rule.anchored || rule.path.text.toList.contains '/') = true then path
      else IgnoreRule.lastSegment path) =
        rule.path.text ↔
      if rule.anchored then path = rule.path.text else rule.path.Denotes path := by
  rw [rule.path.contains_text, rule.path.denotes_iff]
  cases rule.anchored with
  | true => simp
  | false => simp

theorem appliesTo_iff {parsed : IgnoreRule} (h : IgnoreRule.parse rule.written = some parsed)
    (path : String) (isDir : Bool) :
    parsed.appliesTo path isDir = true ↔ rule.Matches path isDir := by
  rw [parse_written, Option.some.injEq] at h
  rw [← h, IgnoreRule.appliesTo, Matches, ← rule.target_eq_iff]
  by_cases hoff : (rule.negated || (rule.dirOnly && ! isDir)) = true
  · rw [if_pos hoff]
    refine ⟨fun hfalse => absurd hfalse Bool.false_ne_true, ?_⟩
    rintro ⟨hnegated, hdir, -⟩
    rw [hnegated, Bool.false_or, Bool.and_eq_true, Bool.not_eq_true'] at hoff
    exact absurd (hdir hoff.1) (Bool.eq_false_iff.mp hoff.2)
  · rw [if_neg hoff]
    obtain ⟨hnegated, hdir⟩ : rule.negated = false ∧ (rule.dirOnly = true → isDir = true) := by
      simpa using hoff
    rw [and_iff_right hnegated, and_iff_right hdir]
    exact beq_iff_eq

end LiteralRule

/-- A rule without wildcards is read, whatever marks it has, and applies where it says; of several
rules, one is enough. -/
theorem IgnoreRules.literal_rules_exact :
    (∀ rule : LiteralRule, ∃ parsed, IgnoreRule.parse rule.written = some parsed ∧
      ∀ path isDir, parsed.appliesTo path isDir = true ↔ rule.Matches path isDir) ∧
    ∀ (rules : List LiteralRule) (path : String) (isDir : Bool),
      (IgnoreRules.parse (rules.map LiteralRule.written)).applyTo path isDir = true ↔
        ∃ rule ∈ rules, rule.Matches path isDir := by
  refine ⟨?_, ?_⟩
  · intro rule
    exact ⟨_, rule.parse_written, rule.appliesTo_iff rule.parse_written⟩
  · intro rules path isDir
    rw [applyTo, parse, List.any_eq_true]
    constructor
    · rintro ⟨parsed, hparsed, happlies⟩
      obtain ⟨line, hline, hread⟩ := List.mem_filterMap.mp hparsed
      obtain ⟨rule, hrule, rfl⟩ := List.mem_map.mp hline
      exact ⟨rule, hrule, (rule.appliesTo_iff hread path isDir).mp happlies⟩
    · rintro ⟨rule, hrule, hmatches⟩
      refine ⟨_, List.mem_filterMap.mpr ⟨rule.written, List.mem_map_of_mem hrule,
        rule.parse_written⟩, ?_⟩
      exact (rule.appliesTo_iff rule.parse_written path isDir).mpr hmatches

def LiteralPath.build : LiteralPath :=
  ⟨["build"], by decide, by decide, by decide +kernel, by decide +kernel⟩

def LiteralPath.generated : LiteralPath :=
  ⟨["src", "gen"], by decide, by decide, by decide +kernel, by decide +kernel⟩

/-- Rules for the directories of one name, for one path at the root, and one that is negated. -/
def LiteralRule.ofProject : List LiteralRule :=
  [{ path := .build, dirOnly := true }, { path := .generated, anchored := true },
    { path := .build, negated := true }]

theorem IgnoreRules.literal_rules_exact_ofProject :
    LiteralRule.ofProject.map LiteralRule.written = ["build/", "/src/gen", "!build"] ∧
    (IgnoreRules.parse (LiteralRule.ofProject.map LiteralRule.written)).applyTo "sub/build" true =
      true ∧
    (IgnoreRules.parse (LiteralRule.ofProject.map LiteralRule.written)).applyTo "sub/build" false =
      false ∧
    (IgnoreRules.parse (LiteralRule.ofProject.map LiteralRule.written)).applyTo "sub/src/gen" true =
      false := by
  obtain ⟨_, hrules⟩ := IgnoreRules.literal_rules_exact
  refine ⟨by decide +kernel, ?_, ?_, ?_⟩
  · exact (hrules _ _ _).mpr (by decide +kernel)
  · exact Bool.eq_false_iff.mpr (mt (hrules _ _ _).mp (by decide +kernel))
  · exact Bool.eq_false_iff.mpr (mt (hrules _ _ _).mp (by decide +kernel))

end CodeSurvey
