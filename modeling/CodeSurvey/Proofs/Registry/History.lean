import Mathlib.Data.List.Basic
import Mathlib.Data.List.Induction
import CodeSurvey.Registry

/-
A registry as the outcome of its history.  Languages are offered to it one after another; some are
turned down, and a later one takes over the extensions that it shares with earlier ones.  `Owns`
says who has an extension in terms of the offers alone, and the theorem this file exists for is
`last_registration_wins`: every question that can be put to the registry is answered by `Owns`.
-/

namespace CodeSurvey

/-- One of the extensions of the language has the given normal form. -/
def Language.Declares (language : Language) (extension : String) : Prop :=
  ∃ written ∈ language.extensions, Registry.normalize written = some extension

namespace Registry

variable {registry : Registry} {language : Language} {history : List Language} {extension : String}

/-- What is left of a registry after a language was offered to it, accepted or not. -/
def offer (registry : Registry) (language : Language) : Registry :=
  match registry.register language with
  | .ok after => after
  | .error _ => registry

/-- The registry after the given languages were offered in turn. -/
def ofHistory (history : List Language) : Registry := history.foldl offer empty

/-- The last language that was offered for an extension. -/
def Owns (history : List Language) (extension : String) (language : Language) : Prop :=
  ∃ before later, history = before ++ language :: later ∧ language.Declares extension ∧
    ∀ other ∈ later, ¬ other.Declares extension

theorem mem_extensionsOf : extension ∈ extensionsOf language ↔ language.Declares extension := by
  rw [extensionsOf, List.mem_filterMap]
  rfl

theorem extensionsOf_eq_nil_iff :
    extensionsOf language = [] ↔ ∀ extension, ¬ language.Declares extension := by
  rw [List.eq_nil_iff_forall_not_mem]
  exact forall_congr' fun extension => not_congr mem_extensionsOf

/-! ## One offer -/

theorem register_of_nil (h : extensionsOf language = []) :
    registry.register language =
      .error (.invalidLanguage language.name "parser declares no file extensions") := by
  rw [register, h]

theorem register_of_ne_nil (h : extensionsOf language ≠ []) :
    registry.register language =
      .ok ⟨(extensionsOf language).foldl
        (fun map e => map.insert e language) registry.languages⟩ := by
  rw [register]
  cases hextensions : extensionsOf language with
  | nil => exact absurd hextensions h
  | cons first rest => rfl

theorem register_eq_error_iff {fault : Fault} :
    registry.register language = .error fault ↔
      fault = .invalidLanguage language.name "parser declares no file extensions" ∧
        ∀ extension, ¬ language.Declares extension := by
  rw [← extensionsOf_eq_nil_iff]
  by_cases hnil : extensionsOf language = []
  · rw [register_of_nil hnil, Except.error.injEq]
    constructor
    · exact fun heq => ⟨heq.symm, hnil⟩
    · exact fun h => h.1.symm
  · rw [register_of_ne_nil hnil]
    constructor
    · exact nofun
    · exact fun h => absurd h.2 hnil

theorem offer_of_error {fault : Fault} (h : registry.register language = .error fault) :
    registry.offer language = registry := by
  rw [offer, h]

theorem getElem?_foldl_insert (extensions : List String) (languages : Std.TreeMap String Language) :
    (extensions.foldl (fun map e => map.insert e language) languages)[extension]? =
      if extension ∈ extensions then some language else languages[extension]? := by
  induction extensions generalizing languages with
  | nil => rfl
  | cons first rest ih =>
      rw [List.foldl_cons, ih, Std.TreeMap.getElem?_insert]
      by_cases hrest : extension ∈ rest
      · rw [if_pos hrest, if_pos (List.mem_cons_of_mem first hrest)]
      · rw [if_neg hrest]
        by_cases hfirst : first = extension
        · have hmem : extension ∈ first :: rest := hfirst ▸ List.mem_cons_self
          rw [if_pos hmem, hfirst, if_pos Std.ReflCmp.compare_self]
        · have hne : compare first extension ≠ .eq :=
            fun heq => hfirst (Std.LawfulEqCmp.eq_of_compare heq)
          have hnot : extension ∉ first :: rest := by
            rw [List.mem_cons]
            rintro (heq | hmem)
            · exact hfirst heq.symm
            · exact hrest hmem
          rw [if_neg hnot, if_neg hne]

/-- An accepted language takes the extensions it declares, and leaves all others where they were. -/
theorem getElem?_offer :
    (registry.offer language).languages[extension]? =
      if extension ∈ extensionsOf language then some language
      else registry.languages[extension]? := by
  by_cases hnil : extensionsOf language = []
  · rw [offer_of_error (register_of_nil hnil), hnil, if_neg List.not_mem_nil]
  · rw [offer, register_of_ne_nil hnil]
    exact getElem?_foldl_insert (extensionsOf language) registry.languages

/-! ## A history of offers -/

theorem ofHistory_concat (history : List Language) (language : Language) :
    ofHistory (history ++ [language]) = (ofHistory history).offer language := by
  rw [ofHistory, List.foldl_append]
  rfl

theorem not_owns_nil : ¬ Owns [] extension language := by
  rintro ⟨before, later, hhistory, _⟩
  exact List.append_ne_nil_of_right_ne_nil before (List.cons_ne_nil language later) hhistory.symm

theorem Owns.declares (h : Owns history extension language) : language.Declares extension := by
  obtain ⟨_, _, _, hdeclares, _⟩ := h
  exact hdeclares

theorem Owns.mem (h : Owns history extension language) : language ∈ history := by
  obtain ⟨before, later, rfl, _⟩ := h
  exact List.mem_append_right before List.mem_cons_self

theorem owns_concat_of_declares {last : Language} (h : last.Declares extension) :
    Owns (history ++ [last]) extension language ↔ language = last := by
  constructor
  · rintro ⟨before, later, hhistory, _, hlater⟩
    -- the last offer declares the extension, so it cannot be one of the later ones
    rcases List.eq_nil_or_concat' later with rfl | ⟨between, final, rfl⟩
    · exact (List.singleton_inj.mp (List.append_inj_right' hhistory rfl)).symm
    · rw [← List.cons_append, ← List.append_assoc] at hhistory
      have hfinal : last = final := List.singleton_inj.mp (List.append_inj_right' hhistory rfl)
      exact absurd (hfinal ▸ h) (hlater final (List.mem_append_right between List.mem_cons_self))
  · rintro rfl
    exact ⟨history, [], rfl, h, fun _ => nofun⟩

theorem owns_concat_of_not_declares {last : Language} (h : ¬ last.Declares extension) :
    Owns (history ++ [last]) extension language ↔ Owns history extension language := by
  constructor
  · rintro ⟨before, later, hhistory, hdeclares, hlater⟩
    rcases List.eq_nil_or_concat' later with rfl | ⟨between, final, rfl⟩
    · have hlast : last = language := List.singleton_inj.mp (List.append_inj_right' hhistory rfl)
      exact absurd (hlast ▸ hdeclares) h
    · rw [← List.cons_append, ← List.append_assoc] at hhistory
      refine ⟨before, between, List.append_inj_left' hhistory rfl, hdeclares, ?_⟩
      exact fun other hother => hlater other (List.mem_append_left [final] hother)
  · rintro ⟨before, later, rfl, hdeclares, hlater⟩
    refine ⟨before, later ++ [last], List.append_assoc .., hdeclares, ?_⟩
    intro other hother
    rcases List.mem_append.mp hother with hother | hother
    · exact hlater other hother
    · exact List.mem_singleton.mp hother ▸ h

/-- What the registry holds for an extension is the language that owns it. -/
theorem getElem?_ofHistory_eq_some_iff :
    (ofHistory history).languages[extension]? = some language ↔
      Owns history extension language := by
  induction history using List.reverseRecOn with
  | nil =>
      constructor
      · intro h
        simp [ofHistory, empty] at h
      · exact fun h => absurd h not_owns_nil
  | append_singleton history last ih =>
      rw [ofHistory_concat, getElem?_offer]
      by_cases hdeclares : last.Declares extension
      · rw [if_pos (mem_extensionsOf.mpr hdeclares), owns_concat_of_declares hdeclares,
          Option.some.injEq]
        exact eq_comm
      · rw [if_neg (mt mem_extensionsOf.mp hdeclares), ih, owns_concat_of_not_declares hdeclares]

theorem exists_owns_iff :
    (∃ language, Owns history extension language) ↔
      ∃ other ∈ history, other.Declares extension := by
  constructor
  · rintro ⟨language, howns⟩
    exact ⟨language, howns.mem, howns.declares⟩
  · induction history using List.reverseRecOn with
    | nil => exact fun ⟨_, hmem, _⟩ => absurd hmem List.not_mem_nil
    | append_singleton history last ih =>
        rintro ⟨other, hmem, hother⟩
        by_cases hdeclares : last.Declares extension
        · exact ⟨last, (owns_concat_of_declares hdeclares).mpr rfl⟩
        · rcases List.mem_append.mp hmem with hmem | hmem
          · obtain ⟨language, howns⟩ := ih ⟨other, hmem, hother⟩
            exact ⟨language, (owns_concat_of_not_declares hdeclares).mpr howns⟩
          · exact absurd (List.mem_singleton.mp hmem ▸ hother) hdeclares

theorem mem_ofHistory_iff :
    extension ∈ (ofHistory history).languages ↔ ∃ other ∈ history, other.Declares extension := by
  rw [Std.TreeMap.mem_iff_isSome_getElem?, Option.isSome_iff_exists, ← exists_owns_iff]
  exact exists_congr fun _ => getElem?_ofHistory_eq_some_iff

/-! ## Questions to a registry -/

theorem ne_empty_of_normalize {written : String} (h : normalize written = some extension) :
    extension ≠ "" := by
  unfold normalize at h
  split at h
  · contradiction
  · rw [Option.some.injEq] at h
    rintro rfl
    have htoList := congrArg String.toList h
    simp at htoList

theorem not_mem_empty_text : "" ∉ (ofHistory history).languages := by
  rw [mem_ofHistory_iff]
  rintro ⟨other, _, written, _, hnormal⟩
  exact ne_empty_of_normalize hnormal rfl

/-- A path without an extension is looked up under the empty text, which no language has. -/
theorem getElem?_extensionOf (path : Path) :
    (ofHistory history).languages[(extensionOf path).getD ""]? =
      (extensionOf path).bind fun extension => (ofHistory history).languages[extension]? := by
  cases extensionOf path with
  | some extension => rfl
  | none => exact Std.TreeMap.getElem?_eq_none not_mem_empty_text

theorem resolve_eq_ok_iff {path : Path} :
    (ofHistory history).resolve path = .ok language ↔
      ∃ extension, extensionOf path = some extension ∧ Owns history extension language := by
  have hfound : (ofHistory history).resolve path = .ok language ↔
      (ofHistory history).languages[(extensionOf path).getD ""]? = some language := by
    unfold resolve
    dsimp only
    cases (ofHistory history).languages[(extensionOf path).getD ""]? with
    | none => exact ⟨nofun, nofun⟩
    | some found => rw [Except.ok.injEq, Option.some.injEq]
  rw [hfound, getElem?_extensionOf, Option.bind_eq_some_iff]
  exact exists_congr fun _ => and_congr_right fun _ => getElem?_ofHistory_eq_some_iff

theorem resolve_eq_error_iff {path : Path} {fault : Fault} :
    (ofHistory history).resolve path = .error fault ↔
      fault = .unsupportedExtension ((extensionOf path).getD "") path ∧
        ∀ extension, extensionOf path = some extension →
        ∀ other ∈ history, ¬ other.Declares extension := by
  have hmissing : (ofHistory history).resolve path = .error fault ↔
      fault = .unsupportedExtension ((extensionOf path).getD "") path ∧
        (ofHistory history).languages[(extensionOf path).getD ""]? = none := by
    unfold resolve
    dsimp only
    cases (ofHistory history).languages[(extensionOf path).getD ""]? with
    | none => rw [Except.error.injEq, eq_comm, and_iff_left rfl]
    | some found => exact ⟨nofun, nofun⟩
  rw [hmissing, getElem?_extensionOf, Option.bind_eq_none_iff]
  refine and_congr_right fun _ => forall_congr' fun extension => forall_congr' fun _ => ?_
  rw [← Option.not_isSome_iff_eq_none, ← Std.TreeMap.mem_iff_isSome_getElem?, mem_ofHistory_iff]
  exact ⟨fun h other hmem hother => h ⟨other, hmem, hother⟩,
    fun h ⟨other, hmem, hother⟩ => h other hmem hother⟩

theorem supports_iff {path : Path} :
    (ofHistory history).supports path = true ↔
      ∃ language, (ofHistory history).resolve path = .ok language := by
  simp only [resolve_eq_ok_iff]
  unfold supports
  cases extensionOf path with
  | none => simp
  | some extension =>
      rw [Std.TreeMap.contains_iff_mem, mem_ofHistory_iff, ← exists_owns_iff]
      constructor
      · exact fun ⟨language, howns⟩ => ⟨language, extension, rfl, howns⟩
      · rintro ⟨language, other, heq, howns⟩
        exact ⟨language, Option.some.inj heq ▸ howns⟩

theorem pairwise_lt_keys {β : Type} (map : Std.TreeMap String β) : map.keys.Pairwise (· < ·) :=
  map.ordered_keys.imp compareOfLessAndEq_eq_lt.mp

theorem mem_languageNames_iff {name : String} :
    name ∈ (ofHistory history).languageNames ↔
      ∃ language extension, Owns history extension language ∧ language.name = name := by
  have hfold : ∀ (entries : List (String × Language)) (names : Std.TreeMap String Unit),
      name ∈ entries.foldl (fun names entry => names.insert entry.2.name ()) names ↔
        name ∈ names ∨ ∃ entry ∈ entries, entry.2.name = name := by
    intro entries
    induction entries with
    | nil => simp
    | cons entry rest ih =>
        intro names
        rw [List.foldl_cons, ih, Std.TreeMap.mem_insert, Std.LawfulEqCmp.compare_eq_iff_eq]
        simp only [List.mem_cons, or_and_right, exists_or, exists_eq_left, or_assoc, or_left_comm]
  rw [languageNames, Std.TreeMap.mem_keys, Std.TreeMap.foldl_eq_foldl_toList, hfold]
  constructor
  · rintro (hempty | ⟨entry, hentry, hname⟩)
    · exact absurd hempty Std.TreeMap.not_mem_emptyc
    · have hheld := Std.TreeMap.mem_toList_iff_getElem?_eq_some.mp hentry
      exact ⟨entry.2, entry.1, getElem?_ofHistory_eq_some_iff.mp hheld, hname⟩
  · rintro ⟨language, extension, howns, hname⟩
    have hheld := getElem?_ofHistory_eq_some_iff.mpr howns
    exact .inr ⟨(extension, language), Std.TreeMap.mem_toList_iff_getElem?_eq_some.mpr hheld, hname⟩

/-- The registry is a map from normal forms to the languages that were registered for them last,
whatever was offered to it before, in whatever order. -/
theorem last_registration_wins (history : List Language) :
    (∀ language,
      (∀ fault, (ofHistory history).register language = .error fault ↔
        fault = .invalidLanguage language.name "parser declares no file extensions" ∧
          ∀ extension, ¬ language.Declares extension) ∧
      ((∀ extension, ¬ language.Declares extension) →
        ofHistory (history ++ [language]) = ofHistory history)) ∧
    (∀ path language, (ofHistory history).resolve path = .ok language ↔
      ∃ extension, extensionOf path = some extension ∧ Owns history extension language) ∧
    (∀ path fault, (ofHistory history).resolve path = .error fault ↔
      fault = .unsupportedExtension ((extensionOf path).getD "") path ∧
        ∀ extension, extensionOf path = some extension →
        ∀ other ∈ history, ¬ other.Declares extension) ∧
    (∀ path, (ofHistory history).supports path = true ↔
      ∃ language, (ofHistory history).resolve path = .ok language) ∧
    ((ofHistory history).extensions.Pairwise (· < ·) ∧
      ∀ extension, extension ∈ (ofHistory history).extensions ↔
        ∃ other ∈ history, other.Declares extension) ∧
    ((ofHistory history).languageNames.Pairwise (· < ·) ∧
      ∀ name, name ∈ (ofHistory history).languageNames ↔
        ∃ language extension, Owns history extension language ∧ language.name = name) := by
  refine ⟨?_, ?_, ?_, ?_, ?_, ?_⟩
  · intro language
    refine ⟨fun fault => register_eq_error_iff, ?_⟩
    intro hnone
    rw [ofHistory_concat]
    exact offer_of_error (register_eq_error_iff.mpr ⟨rfl, hnone⟩)
  · exact fun path language => resolve_eq_ok_iff
  · exact fun path fault => resolve_eq_error_iff
  · exact fun path => supports_iff
  · refine ⟨pairwise_lt_keys _, ?_⟩
    intro extension
    rw [extensions, Std.TreeMap.mem_keys, mem_ofHistory_iff]
  · exact ⟨pairwise_lt_keys _, fun name => mem_languageNames_iff⟩

/-- A language with the given extensions that reads nothing. -/
def named (name : String) (extensions : List String) : Language :=
  { name, extensions, outline := fun _ _ => .crashed none }

/-- One language is turned down, and another loses both of its extensions, to different ones. -/
def takenOver : List Language :=
  [named "Python" ["py", ".PYI"],
    named "Blank" [" ", ".."]] ++ [named "Stub" [" .PyI"]] ++ [named "Cython" ["Py"]]

theorem last_registration_wins_takenOver :
    (ofHistory takenOver).resolve ⟨"a.b/m.PYI"⟩ = .ok (named "Stub" [" .PyI"]) ∧
    (ofHistory takenOver).resolve ⟨".pyi"⟩ = .error (.unsupportedExtension "" ⟨".pyi"⟩) ∧
    ofHistory (takenOver ++ [named "Blank" [" ", ".."]]) = ofHistory takenOver ∧
    "Cython" ∈ (ofHistory takenOver).languageNames ∧
    "Python" ∉ (ofHistory takenOver).languageNames := by
  obtain ⟨hregister, hresolve, hunsupported, _, _, _, hnames⟩ := last_registration_wins takenOver
  have hcython : (named "Cython" ["Py"]).Declares ".py" := mem_extensionsOf.mp (by decide +kernel)
  have hstub : (named "Stub" [" .PyI"]).Declares ".pyi" := mem_extensionsOf.mp (by decide +kernel)
  have hother : ¬ (named "Cython" ["Py"]).Declares ".pyi" :=
    mt mem_extensionsOf.mpr (by decide +kernel)
  have hblank : ∀ extension, ¬ (named "Blank" [" ", ".."]).Declares extension :=
    extensionsOf_eq_nil_iff.mp (by decide +kernel)
  have hpyi : ∀ language, Owns takenOver ".pyi" language ↔ language = named "Stub" [" .PyI"] :=
    fun language => (owns_concat_of_not_declares hother).trans (owns_concat_of_declares hstub)
  have hpy : ∀ language, Owns takenOver ".py" language ↔ language = named "Cython" ["Py"] :=
    fun language => owns_concat_of_declares hcython
  refine ⟨?_, ?_, (hregister _).2 hblank, ?_, ?_⟩
  · exact (hresolve _ _).mpr ⟨".pyi", by decide +kernel, (hpyi _).mpr rfl⟩
  · have hnone : extensionOf ⟨".pyi"⟩ = none := by decide +kernel
    rw [hunsupported, hnone]
    exact ⟨rfl, fun _ => nofun⟩
  · exact (hnames _).mpr ⟨_, ".py", (hpy _).mpr rfl, rfl⟩
  · rw [hnames]
    rintro ⟨language, extension, howns, hname⟩
    have hpython : language = named "Python" ["py", ".PYI"] := by
      have hmem := howns.mem
      simp only [takenOver, List.mem_append, List.mem_cons, List.not_mem_nil, or_false] at hmem
      rcases hmem with ((rfl | rfl) | rfl) | rfl
      · rfl
      all_goals exact absurd hname (by decide)
    -- each of its two extensions has gone to a language of another name
    have hextension : extension ∈ [".py", ".pyi"] := by
      have hmem := mem_extensionsOf.mpr howns.declares
      rw [hpython] at hmem
      exact (show extensionsOf (named "Python" ["py", ".PYI"]) = [".py", ".pyi"] by
        decide +kernel) ▸ hmem
    simp only [List.mem_cons, List.not_mem_nil, or_false] at hextension
    rcases hextension with rfl | rfl
    · rw [(hpy language).mp howns] at hname
      exact absurd hname (by decide)
    · rw [(hpyi language).mp howns] at hname
      exact absurd hname (by decide)

end Registry
end CodeSurvey
