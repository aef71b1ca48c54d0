import Mathlib.Data.List.TakeWhile
import CodeSurvey.Proofs.Registry.History
import CodeSurvey.Proofs.Text.Lowercase
import CodeSurvey.Proofs.Walk.DistinctPaths

/-
Which of the extensions that a registry lists can be used.  An extension is kept as its language
declares it, in lower case; a file's extension is what follows the last dot of its name.  So an
extension with a second dot, with a slash, or with a blank after its dot is listed, and no file has
it (`exists_extensionOf_iff`).
-/

namespace CodeSurvey

/-! ## Extensions of paths -/

namespace Path

open Text

theorem toList_of_innerComponent {text : List Char} {name : String}
    (h : innerComponent text = some (.name name)) : name.toList = text := by
  unfold innerComponent at h
  split at h
  · contradiction
  · split at h
    · simp at h
    · rw [Option.some.injEq, Component.name.injEq] at h
      rw [← h, String.toList_ofList]

theorem toList_of_openingComponent {text : List Char} {name : String}
    (h : openingComponent text = some (.name name)) : name.toList = text := by
  unfold openingComponent at h
  split at h
  · simp at h
  · split at h
    · simp at h
    · exact toList_of_innerComponent h

theorem components_of_empty {path : Path} (h : path.text.toList = []) : path.components = [] := by
  rw [components, segments, h]
  rfl

theorem slash_not_mem_of_component {path : Path} {name : String}
    (h : .name name ∈ path.components) : '/' ∉ name.toList := by
  obtain ⟨first, more, hsplit⟩ :=
    List.exists_cons_of_ne_nil (splitWhere_ne_nil (p := (· == '/')) path.text.toList)
  have hpiece : name.toList ∈ splitWhere (· == '/') path.text.toList := by
    by_cases hempty : path.text.toList = []
    · rw [components_of_empty hempty] at h
      exact absurd h List.not_mem_nil
    · rw [components_of_split hempty hsplit, List.mem_append, Option.mem_toList,
        List.mem_filterMap] at h
      rw [hsplit]
      rcases h with hfirst | ⟨text, htext, hname⟩
      · exact toList_of_openingComponent hfirst ▸ List.mem_cons_self
      · exact List.mem_cons_of_mem first (toList_of_innerComponent hname ▸ htext)
  intro hslash
  simpa using not_of_mem_splitWhere hpiece '/' hslash

/-- An extension ends a file name, after a dot that is not the first character. -/
theorem extension?_eq_some_iff {path : Path} {extension : String} :
    path.extension? = some extension ↔
      ∃ name stem, path.fileName? = some name ∧ stem ≠ [] ∧
        name.toList = stem ++ '.' :: extension.toList ∧ '.' ∉ extension.toList := by
  unfold extension?
  rw [Option.bind_eq_bind, Option.bind_eq_some_iff]
  refine exists_congr fun name => ?_
  dsimp only
  constructor
  · rintro ⟨hname, h⟩
    have hsplit := List.takeWhile_append_dropWhile (p := (· != '.')) (l := name.toList.reverse)
    generalize hlast : name.toList.reverse.takeWhile (· != '.') = last at h hsplit
    have hdot : '.' ∉ last := by
      intro hdot
      exact absurd (List.all_eq_true.mp List.all_takeWhile '.' (hlast ▸ hdot)) (by decide)
    rw [← hsplit, List.drop_left] at h
    split at h
    · next dot first rest hrest =>
        have hhead := List.head?_dropWhile_not (· != '.') name.toList.reverse
        rw [hrest] at hhead hsplit
        rw [Option.some.injEq] at h
        have hdot' : dot = '.' := by simpa using hhead
        refine ⟨(first :: rest).reverse, hname, by simp, ?_, ?_⟩
        · rw [← h, String.toList_ofList, ← List.reverse_reverse name.toList, ← hsplit, hdot']
          simp
        · rw [← h, String.toList_ofList, List.mem_reverse]
          exact hdot
    · contradiction
  · rintro ⟨stem, hname, hstem, heq, hdot⟩
    refine ⟨hname, ?_⟩
    have hfromEnd : name.toList.reverse = extension.toList.reverse ++ '.' :: stem.reverse := by
      rw [heq]
      simp
    have hlast : name.toList.reverse.takeWhile (· != '.') = extension.toList.reverse := by
      rw [hfromEnd]
      refine takeWhile_append_of_head ?_ rfl
      intro c hc
      rw [bne_iff_ne]
      rintro rfl
      exact hdot (List.mem_reverse.mp hc)
    obtain ⟨first, rest, hcons⟩ := List.exists_cons_of_ne_nil (mt List.reverse_eq_nil_iff.mp hstem)
    rw [hlast, hfromEnd, List.drop_left, hcons]
    simp

theorem not_mem_of_extension? {path : Path} {extension : String}
    (h : path.extension? = some extension) : '.' ∉ extension.toList ∧ '/' ∉ extension.toList := by
  obtain ⟨name, stem, hname, -, heq, hdot⟩ := extension?_eq_some_iff.mp h
  refine ⟨hdot, ?_⟩
  intro hslash
  have hcomponent : .name name ∈ path.components := by
    unfold fileName? at hname
    split at hname
    · next text hlast =>
        rw [Option.some.injEq] at hname
        exact hname ▸ List.mem_of_getLast? hlast
    · contradiction
  refine slash_not_mem_of_component hcomponent ?_
  rw [heq]
  exact List.mem_append_right stem (List.mem_cons_of_mem '.' hslash)

theorem extension?_of_stem {text : String} {extension : List Char}
    (htext : text.toList = 'x' :: '.' :: extension) (h : ∀ c ∈ extension, c ≠ '.' ∧ c ≠ '/') :
    Path.extension? ⟨text⟩ = some (String.ofList extension) := by
  have hslash : ∀ c ∈ text.toList, (c == '/') = false := by
    rw [htext, List.forall_mem_cons, List.forall_mem_cons]
    exact ⟨rfl, rfl, fun c hc => beq_eq_false_iff_ne.mpr (h c hc).2⟩
  have hname : fileName? ⟨text⟩ = some text := by
    have hne : text.toList ≠ [] := htext ▸ List.cons_ne_nil 'x' ('.' :: extension)
    have hcomponents : components ⟨text⟩ = (openingComponent text.toList).toList ++ [] :=
      components_of_split hne (splitWhere_eq_singleton hslash)
    rw [fileName?, hcomponents]
    simp [openingComponent, innerComponent, htext, ← String.toList_inj]
  refine extension?_eq_some_iff.mpr ⟨text, ['x'], hname, List.cons_ne_nil 'x' [], ?_, ?_⟩
  · rw [htext, String.toList_ofList]
    rfl
  · rw [String.toList_ofList]
    exact fun hdot => (h '.' hdot).1 rfl

end Path

/-! ## Extensions of registries -/

namespace Registry

open Text

variable {history : List Language} {extension : String}

/-- Its dot aside, the extension has no dot and no slash, and it does not start with a blank. -/
def IsPlain (extension : String) : Prop :=
  (∀ c ∈ extension.toList.tail, c ≠ '.' ∧ c ≠ '/') ∧
    extension.toList.tail.head?.all (! isBlank ·) = true

instance (extension : String) : Decidable (IsPlain extension) :=
  decidable_of_iff ((extension.toList.tail.all fun c => c != '.' && c != '/') = true ∧
    extension.toList.tail.head?.all (! isBlank ·) = true) (by simp [IsPlain])

theorem normalize_eq_some_iff {written : String} :
    normalize written = some extension ↔
      (trim written.toList).dropWhile (· == '.') ≠ [] ∧
        extension.toList = '.' :: lower ((trim written.toList).dropWhile (· == '.')) := by
  unfold normalize
  split
  · next hnil => simp [hnil]
  · next hne =>
      rw [Option.some.injEq, ← String.toList_inj, String.toList_ofList, eq_comm]
      exact (and_iff_right hne).symm

theorem dropWhile_dots {text : List Char} (h : '.' ∉ text) : text.dropWhile (· == '.') = text := by
  rw [List.dropWhile_eq_self_iff]
  intro hpos
  rw [beq_iff_eq]
  intro heq
  exact h (heq ▸ List.getElem_mem hpos)

/-- A file's extension is plain, whatever the file is called. -/
theorem isPlain_of_extensionOf {path : Path} (h : extensionOf path = some extension) :
    IsPlain extension := by
  obtain ⟨written, hwritten, hnormal⟩ := Option.bind_eq_some_iff.mp h
  obtain ⟨hdot, hslash⟩ := Path.not_mem_of_extension? hwritten
  obtain ⟨leading, trailing, htrim, -, -⟩ := exists_eq_trim written.toList
  have hmem : ∀ c ∈ trim written.toList, c ∈ written.toList := by
    intro c hc
    rw [htrim]
    exact List.mem_append_left trailing (List.mem_append_right leading hc)
  obtain ⟨-, hextension⟩ := normalize_eq_some_iff.mp hnormal
  rw [dropWhile_dots (mt (hmem '.') hdot)] at hextension
  rw [IsPlain, hextension, List.tail_cons]
  constructor
  · intro c hc
    constructor
    · rintro rfl
      exact hdot (hmem '.' (mem_of_mem_lowerFrom (by decide) hc))
    · rintro rfl
      exact hslash (hmem '/' (mem_of_mem_lowerFrom (by decide) hc))
  · exact head?_lower_all (head?_trim written.toList)

theorem getLast?_dropWhile_trim (p : Char → Bool) (text : List Char) :
    ((trim text).dropWhile p).getLast?.all (! isBlank ·) = true := by
  have hlast := getLast?_trim text
  by_cases hempty : (trim text).dropWhile p = []
  · rw [hempty]
    rfl
  · rw [← List.takeWhile_append_dropWhile (p := p) (l := trim text),
      List.getLast?_append_of_ne_nil _ hempty] at hlast
    exact hlast

/-- Lower case and trimming leave a plain extension as it is, so the file called
`x` with it has it. -/
theorem extensionOf_of_isPlain {written : String} (hnormal : normalize written = some extension)
    (hplain : IsPlain extension) : extensionOf ⟨"x" ++ extension⟩ = some extension := by
  obtain ⟨hne, hextension⟩ := normalize_eq_some_iff.mp hnormal
  obtain ⟨hmarks, hfirst⟩ := hplain
  have hlast := getLast?_lower_all (getLast?_dropWhile_trim (· == '.') written.toList)
  generalize (trim written.toList).dropWhile (· == '.') = name at hne hextension hlast
  rw [hextension, List.tail_cons] at hmarks hfirst
  have hdots : '.' ∉ lower name := fun hdot => (hmarks '.' hdot).1 rfl
  have hpath : ("x" ++ extension).toList = 'x' :: '.' :: lower name := by
    rw [String.toList_append, hextension]
    rfl
  rw [extensionOf, Path.extension?_of_stem hpath hmarks, Option.bind_some, normalize_eq_some_iff,
    String.toList_ofList, trim_eq_self hfirst hlast, dropWhile_dots hdots, lower_lower]
  exact ⟨mt lowerFrom_eq_nil_iff.mp hne, hextension⟩

theorem mem_extensions_iff :
    extension ∈ (ofHistory history).extensions ↔ ∃ language, Owns history extension language := by
  rw [extensions, Std.TreeMap.mem_keys, mem_ofHistory_iff, exists_owns_iff]

/-- A listed extension is some file's extension exactly if it is plain. -/
theorem exists_extensionOf_iff (h : extension ∈ (ofHistory history).extensions) :
    (∃ path, extensionOf path = some extension) ↔ IsPlain extension := by
  obtain ⟨language, howns⟩ := mem_extensions_iff.mp h
  obtain ⟨written, -, hnormal⟩ := howns.declares
  constructor
  · rintro ⟨path, hpath⟩
    exact isPlain_of_extensionOf hpath
  · exact fun hplain => ⟨_, extensionOf_of_isPlain hnormal hplain⟩

/-- Of the extensions that a registry lists, whatever was registered before, the plain ones can be
used: the file `x` with such an extension is supported, and it goes to the language that was last
registered for the extension.  Any other extension is no file's extension.  If the file `x` goes to
the right language all the same, then because that language owns what follows the last dot, too. -/
theorem advertised_usable_iff (history : List Language) (extension : String)
    (h : extension ∈ (ofHistory history).extensions) :
    ((∃ path, extensionOf path = some extension) ↔ IsPlain extension) ∧
    (extensionOf ⟨"x" ++ extension⟩ = some extension ↔ IsPlain extension) ∧
    ((ofHistory history).supports ⟨"x" ++ extension⟩ = true ∧
        (∃ language, Owns history extension language ∧
          (ofHistory history).resolve ⟨"x" ++ extension⟩ = .ok language) ↔
      IsPlain extension ∨
        ∃ other language, other ≠ extension ∧ extensionOf ⟨"x" ++ extension⟩ = some other ∧
          Owns history other language ∧ Owns history extension language) := by
  obtain ⟨owner, howner⟩ := mem_extensions_iff.mp h
  obtain ⟨written, -, hnormal⟩ := howner.declares
  have hkey : extensionOf ⟨"x" ++ extension⟩ = some extension ↔ IsPlain extension :=
    ⟨isPlain_of_extensionOf, extensionOf_of_isPlain hnormal⟩
  refine ⟨exists_extensionOf_iff h, hkey, ?_⟩
  constructor
  · rintro ⟨-, language, howns, hresolve⟩
    obtain ⟨other, hother, hothers⟩ := resolve_eq_ok_iff.mp hresolve
    by_cases heq : other = extension
    · exact .inl (hkey.mp (heq ▸ hother))
    · exact .inr ⟨other, language, heq, hother, hothers, howns⟩
  · intro husable
    obtain ⟨language, howns, hresolve⟩ : ∃ language, Owns history extension language ∧
        (ofHistory history).resolve ⟨"x" ++ extension⟩ = .ok language := by
      rcases husable with hplain | ⟨other, language, -, hother, hothers, howns⟩
      · exact ⟨owner, howner, resolve_eq_ok_iff.mpr ⟨extension, hkey.mpr hplain, howner⟩⟩
      · exact ⟨language, howns, resolve_eq_ok_iff.mpr ⟨other, hother, hothers⟩⟩
    exact ⟨supports_iff.mpr ⟨language, hresolve⟩, language, howns, hresolve⟩

/-- Two languages, one with an extension of two parts and, apart from it, with
the second of them. -/
def archives : List Language := [named "Archive" ["tar.gz", "GZ"], named "Stub" [" .PYI"]]

theorem advertised_usable_iff_archives :
    (".pyi" ∈ (ofHistory archives).extensions ∧ (ofHistory archives).supports ⟨"x.pyi"⟩ = true ∧
      ∃ language, Owns archives ".pyi" language ∧
      (ofHistory archives).resolve ⟨"x.pyi"⟩ = .ok language) ∧
    (".tar.gz" ∈ (ofHistory archives).extensions ∧ (∀ path, extensionOf path ≠ some ".tar.gz") ∧
      (ofHistory archives).supports ⟨"x.tar.gz"⟩ = true) := by
  have hpyi : ".pyi" ∈ (ofHistory archives).extensions := by decide +kernel
  have htar : ".tar.gz" ∈ (ofHistory archives).extensions := by decide +kernel
  obtain ⟨-, -, hplain⟩ := advertised_usable_iff archives ".pyi" hpyi
  obtain ⟨hnone, -, hshared⟩ := advertised_usable_iff archives ".tar.gz" htar
  refine ⟨⟨hpyi, hplain.mpr (.inl (by decide +kernel))⟩, htar, ?_, ?_⟩
  · intro path hpath
    exact absurd (hnone.mp ⟨path, hpath⟩) (by decide +kernel)
  · have harchive : ∀ extension, (named "Archive" ["tar.gz", "GZ"]).Declares extension →
        ¬ (named "Stub" [" .PYI"]).Declares extension →
        Owns archives extension (named "Archive" ["tar.gz", "GZ"]) := by
      intro extension hdeclares hstub
      exact ⟨[], [named "Stub" [" .PYI"]], rfl, hdeclares,
        fun other hother => List.mem_singleton.mp hother ▸ hstub⟩
    refine (hshared.mpr (.inr ⟨".gz", named "Archive" ["tar.gz", "GZ"], by decide,
      by decide +kernel, ?_, ?_⟩)).1
    · exact harchive ".gz" (mem_extensionsOf.mp (by decide +kernel))
        (mt mem_extensionsOf.mpr (by decide +kernel))
    · exact harchive ".tar.gz" (mem_extensionsOf.mp (by decide +kernel))
        (mt mem_extensionsOf.mpr (by decide +kernel))

/-- Registered for an extension of two parts, and for one with a blank after its dot, a
language has no file. -/
theorem listed_extensions_unsupported :
    (ofHistory [named "Archive" ["tar.gz", ". py"]]).extensions = [". py", ".tar.gz"] ∧
    (ofHistory [named "Archive" ["tar.gz", ". py"]]).supports ⟨"x.tar.gz"⟩ = false ∧
    (ofHistory [named "Archive" ["tar.gz", ". py"]]).supports ⟨"x. py"⟩ = false ∧
    (ofHistory [named "Archive" ["tar.gz", ". py"]]).resolve ⟨"x.tar.gz"⟩ =
      .error (.unsupportedExtension ".gz" ⟨"x.tar.gz"⟩) := by
  refine ⟨by decide +kernel, by decide +kernel, by decide +kernel, ?_⟩
  rfl

end Registry
end CodeSurvey
