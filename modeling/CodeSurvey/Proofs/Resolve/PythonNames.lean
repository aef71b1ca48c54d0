import CodeSurvey.Proofs.Text.Split
import CodeSurvey.Resolve

/-
How Python imports find files.  A name is looked up by its segments below a directory: the root, or
for a name with leading dots the directory that they stand for (`python_relativeName`).  So a
relative name means what the absolute name means that spells out the directory, and the name of a
module leads to its file.
-/

namespace CodeSurvey
namespace Resolve

open Text

variable {keys : Keys} {current : String} {segments base : List String}

/-! ## Keys -/

/-- A key is its directories and a file name, with a separator between them and none inside. -/
theorem exists_eq_joined (key : String) : ∃ file, key = joined (directories key ++ [file]) ∧
    ∀ segment ∈ directories key ++ [file], '/' ∉ segment.toList := by
  have hne : splitSegments key.toList '/' ≠ [] := by simp [splitSegments, splitWhere_ne_nil]
  have hsplit : directories key ++ [(splitSegments key.toList '/').getLast hne] =
      splitSegments key.toList '/' :=
    List.dropLast_concat_getLast hne
  refine ⟨(splitSegments key.toList '/').getLast hne, ?_, ?_⟩
  · rw [hsplit]
    apply String.toList_inj.mp
    rw [joined, String.toList_intercalate, splitSegments, List.map_map]
    have hid : String.toList ∘ String.ofList = id := funext fun text => String.toList_ofList
    rw [hid, List.map_id]
    exact (intercalate_splitWhere '/' key.toList).symm
  · rw [hsplit]
    intro segment hsegment hslash
    obtain ⟨piece, hpiece, rfl⟩ := List.mem_map.mp hsegment
    rw [String.toList_ofList] at hslash
    have hfree := not_of_mem_splitWhere hpiece '/' hslash
    contradiction

/-! ## Dotted names -/

/-- What can stand between the dots of a name. -/
def IsNameSegment (segment : String) : Prop := segment ≠ "" ∧ '.' ∉ segment.toList

instance (segment : String) : Decidable (IsNameSegment segment) :=
  inferInstanceAs (Decidable (_ ∧ _))

def dotted (segments : List String) : String := String.intercalate "." segments

/-- The name of `rest` in the package with the given directories. -/
def absoluteName (base : List String) (rest : String) : String :=
  dotted (base ++ if rest = "" then [] else [rest])

def relativeName (dots : Nat) (rest : String) : String :=
  String.ofList (List.replicate dots '.') ++ rest

theorem IsNameSegment.head?_ne {segment : String} (h : IsNameSegment segment) :
    segment.toList.head? ≠ some '.' :=
  fun hdot => h.2 (List.mem_of_head? hdot)

/-- The segments of a dotted name, without empty ones. -/
def nameSegments (name : String) : List String :=
  (splitSegments name.toList '.').filter (! ·.isEmpty)

theorem nameSegments_of_isNameSegment {segment : String} (h : IsNameSegment segment) :
    nameSegments segment = [segment] := by
  have hsplit : splitWhere (· == '.') segment.toList = [segment.toList] :=
    splitWhere_eq_singleton fun c hc => beq_eq_false_iff_ne.mpr fun hdot => h.2 (hdot ▸ hc)
  rw [nameSegments, splitSegments, hsplit, List.map_singleton, String.ofList_toList]
  exact List.filter_eq_self.mpr (List.forall_mem_singleton.mpr (by simp [h.1]))

theorem nameSegments_dotted (parts : List String) :
    nameSegments (dotted parts) = parts.flatMap nameSegments := by
  cases parts with
  | nil => rfl
  | cons first rest =>
      have hparts : splitWhere (· == '.') (dotted (first :: rest)).toList =
          ((first :: rest).map String.toList).flatMap (splitWhere (· == '.')) := by
        rw [dotted, String.toList_intercalate]
        exact splitWhere_intercalate (p := (· == '.')) (beq_self_eq_true '.')
          (mt List.map_eq_nil_iff.mp (List.cons_ne_nil first rest))
      rw [nameSegments, splitSegments, hparts, List.map_flatMap, List.filter_flatMap,
        List.flatMap_map]
      rfl

theorem flatMap_nameSegments (h : ∀ segment ∈ segments, IsNameSegment segment) :
    segments.flatMap nameSegments = segments := by
  induction segments with
  | nil => rfl
  | cons first rest ih =>
      obtain ⟨hfirst, hrest⟩ := List.forall_mem_cons.mp h
      rw [List.flatMap_cons, nameSegments_of_isNameSegment hfirst, ih hrest, List.singleton_append]

theorem nameSegments_absoluteName (h : ∀ segment ∈ base, IsNameSegment segment) (rest : String) :
    nameSegments (absoluteName base rest) = base ++ nameSegments rest := by
  have hrest : (if rest = "" then [] else [rest]).flatMap nameSegments = nameSegments rest := by
    split
    · next hempty =>
        rw [hempty]
        rfl
    · exact List.flatMap_singleton nameSegments rest
  rw [absoluteName, nameSegments_dotted, List.flatMap_append, flatMap_nameSegments h, hrest]

theorem head?_dotted {parts : List String}
    (h : ∀ part ∈ parts, part ≠ "" ∧ part.toList.head? ≠ some '.') :
    (dotted parts).toList.head? ≠ some '.' := by
  cases parts with
  | nil => simp [dotted]
  | cons first rest =>
      obtain ⟨hne, hhead⟩ := h first List.mem_cons_self
      obtain ⟨further, hfurther⟩ : ∃ further,
          (dotted (first :: rest)).toList = first.toList ++ further := by
        cases rest with
        | nil => exact ⟨[], by simp [dotted]⟩
        | cons second rest => exact ⟨'.' :: (dotted (second :: rest)).toList, by simp [dotted]⟩
      rw [hfurther]
      cases hchars : first.toList with
      | nil => exact absurd (String.toList_eq_nil_iff.mp hchars) hne
      | cons c more =>
          rw [hchars] at hhead
          exact hhead

theorem head?_absoluteName (h : ∀ segment ∈ base, IsNameSegment segment) {rest : String}
    (hrest : rest.toList.head? ≠ some '.') : (absoluteName base rest).toList.head? ≠ some '.' := by
  refine head?_dotted (List.forall_mem_append.mpr ⟨?_, ?_⟩)
  · exact fun segment hsegment => ⟨(h segment hsegment).1, (h segment hsegment).head?_ne⟩
  · split
    · simp
    · next hne => exact List.forall_mem_singleton.mpr ⟨hne, hrest⟩

/-! ## Resolution -/

/-- The file of the module with the given segments. -/
def moduleFile (keys : Keys) (current : String) (segments : List String) : Option String :=
  if segments = [] then none else firstFile keys current (pythonFiles (joined segments))

theorem toList_relativeName (dots : Nat) (rest : String) :
    (relativeName dots rest).toList = List.replicate dots '.' ++ rest.toList := by
  rw [relativeName, String.toList_append, String.toList_ofList]

theorem takeWhile_relativeName (dots : Nat) {rest : String} (hrest : rest.toList.head? ≠ some '.') :
    (relativeName dots rest).toList.takeWhile (· == '.') = List.replicate dots '.' := by
  have hnone : rest.toList.takeWhile (· == '.') = [] := by
    cases hchars : rest.toList with
    | nil => rfl
    | cons c more =>
        rw [hchars] at hrest
        have hc : ¬ (c == '.') = true := fun hdot => hrest (congrArg some (eq_of_beq hdot))
        rw [List.takeWhile_cons, if_neg hc]
  rw [toList_relativeName, List.takeWhile_append_of_pos, hnone, List.append_nil]
  exact fun c hc => beq_iff_eq.mpr (List.eq_of_mem_replicate hc)

theorem python_relativeName (dots : Nat) {rest : String} (hrest : rest.toList.head? ≠ some '.') :
    python keys current (relativeName dots rest) =
      (pythonBase current dots).bind fun base =>
        moduleFile keys current (base ++ nameSegments rest) := by
  have hdrop : (relativeName dots rest).toList.drop dots = rest.toList := by
    rw [toList_relativeName]
    exact List.drop_left' List.length_replicate
  rw [python, takeWhile_relativeName dots hrest, List.length_replicate, hdrop, ← nameSegments]
  cases pythonBase current dots with
  | none => rfl
  | some base =>
      rw [Option.bind_some, moduleFile]
      dsimp only
      cases base ++ nameSegments rest with
      | nil => rfl
      | cons first more => rfl

/-- A name that does not start with a dot is looked up from the root. -/
theorem python_of_head? {name : String} (h : name.toList.head? ≠ some '.') :
    python keys current name = moduleFile keys current (nameSegments name) := by
  have hzero : relativeName 0 name = name := by
    apply String.toList_inj.mp
    rw [toList_relativeName]
    rfl
  have hname : python keys current (relativeName 0 name) =
      moduleFile keys current (nameSegments name) :=
    python_relativeName 0 h
  rwa [hzero] at hname

theorem python_dotted (h : ∀ segment ∈ segments, IsNameSegment segment) :
    python keys current (dotted segments) = moduleFile keys current segments := by
  have hhead : (dotted segments).toList.head? ≠ some '.' :=
    head?_dotted fun segment hsegment => ⟨(h segment hsegment).1, (h segment hsegment).head?_ne⟩
  rw [python_of_head? hhead, nameSegments_dotted, flatMap_nameSegments h]

theorem moduleFile_eq_module (hne : segments ≠ []) (hkey : joined segments ++ ".py" ∈ keys)
    (hother : joined segments ++ ".py" ≠ current) :
    moduleFile keys current segments = some (joined segments ++ ".py") := by
  rw [moduleFile, if_neg hne, firstFile, pythonFiles, List.find?_cons_of_pos]
  rw [Bool.and_eq_true, bne_iff_ne]
  exact ⟨Std.TreeSet.contains_iff_mem.mpr hkey, hother⟩

theorem moduleFile_eq_package (hne : segments ≠ [])
    (hkey : joined segments ++ "/__init__.py" ∈ keys)
    (hother : joined segments ++ "/__init__.py" ≠ current)
    (hmodule : joined segments ++ ".py" ∉ keys ∨ joined segments ++ ".py" = current) :
    moduleFile keys current segments = some (joined segments ++ "/__init__.py") := by
  rw [moduleFile, if_neg hne, firstFile, pythonFiles, List.find?_cons_of_neg,
    List.find?_cons_of_pos]
  · rw [Bool.and_eq_true, bne_iff_ne]
    exact ⟨Std.TreeSet.contains_iff_mem.mpr hkey, hother⟩
  · rw [Bool.and_eq_true, bne_iff_ne, Std.TreeSet.contains_iff_mem]
    rintro ⟨hmem, hne⟩
    rcases hmodule with hfree | hself
    · exact hfree hmem
    · exact hne hself

/-- A relative name leads where the absolute name does that begins with the directory its dots stand
for, and nowhere if they are too many.  The name of a module leads to its file from every other
file, and that of a package to the file that opens it unless a module has the same name. -/
theorem python_names_agree (keys : Keys) (current : String) :
    (∃ file, current = joined (directories current ++ [file]) ∧
      ∀ segment ∈ directories current ++ [file], '/' ∉ segment.toList) ∧
    (∀ (dots : Nat) (rest : String), 1 ≤ dots → rest.toList.head? ≠ some '.' →
      ((directories current).length < dots - 1 →
        resolve keys "Python" current (relativeName dots rest) = none) ∧
      (dots - 1 ≤ (directories current).length → ∀ base,
        base = (directories current).take ((directories current).length - (dots - 1)) →
        (∀ segment ∈ base, IsNameSegment segment) →
        resolve keys "Python" current (relativeName dots rest) =
          resolve keys "Python" current (absoluteName base rest))) ∧
    (∀ segments, segments ≠ [] → (∀ segment ∈ segments, IsNameSegment segment) →
      (joined segments ++ ".py" ∈ keys → joined segments ++ ".py" ≠ current →
        resolve keys "Python" current (dotted segments) = some (joined segments ++ ".py")) ∧
      (joined segments ++ "/__init__.py" ∈ keys → joined segments ++ "/__init__.py" ≠ current →
        joined segments ++ ".py" ∉ keys ∨ joined segments ++ ".py" = current →
        resolve keys "Python" current (dotted segments) =
          some (joined segments ++ "/__init__.py"))) := by
  have hresolve : ∀ name, resolve keys "Python" current name = python keys current name :=
    fun name => rfl
  refine ⟨exists_eq_joined current, ?_, ?_⟩
  · intro dots rest hdots hrest
    have hbase : pythonBase current dots = ascend (directories current) (dots - 1) :=
      if_neg (by omega)
    refine ⟨fun hfar => ?_, fun hnear base hsegments hbasePlain => ?_⟩
    · rw [hresolve, python_relativeName dots hrest, hbase, ascend, if_pos hfar, Option.bind_none]
    · rw [hresolve, hresolve, python_relativeName dots hrest, hbase, ascend, if_neg (by omega),
        Option.bind_some, ← hsegments, python_of_head? (head?_absoluteName hbasePlain hrest),
        nameSegments_absoluteName hbasePlain]
  · intro segments hne hsegments
    rw [hresolve, python_dotted hsegments]
    exact ⟨moduleFile_eq_module hne, moduleFile_eq_package hne⟩

/-- A package in a package, with a module in each, and a module beside them. -/
def packageKeys : Keys :=
  .ofList ["app/main.py", "app/sub/__init__.py", "app/sub/deep.py", "util.py"]

theorem python_names_agree_packageKeys :
    resolve packageKeys "Python" "app/sub/deep.py" (relativeName 4 "util") = none ∧
    resolve packageKeys "Python" "app/sub/deep.py" (relativeName 2 "main") =
      resolve packageKeys "Python" "app/sub/deep.py" (absoluteName ["app"] "main") ∧
    resolve packageKeys "Python" "app/sub/deep.py" (dotted ["app", "main"]) = some "app/main.py" ∧
    resolve packageKeys "Python" "app/sub/deep.py" (dotted ["app", "sub"]) =
      some "app/sub/__init__.py" := by
  obtain ⟨_, hrelative, habsolute⟩ := python_names_agree packageKeys "app/sub/deep.py"
  refine ⟨?_, ?_, ?_, ?_⟩
  · exact (hrelative 4 "util" (by decide) (by decide +kernel)).1 (by decide +kernel)
  · exact (hrelative 2 "main" (by decide) (by decide +kernel)).2 (by decide +kernel) ["app"]
      (by decide +kernel) (by decide +kernel)
  · exact (habsolute ["app", "main"] (by decide) (by decide +kernel)).1 (by decide +kernel)
      (by decide +kernel)
  · exact (habsolute ["app", "sub"] (by decide) (by decide +kernel)).2 (by decide +kernel)
      (by decide +kernel) (.inl (by decide +kernel))

end Resolve
end CodeSurvey
