import Mathlib.Data.List.Nodup
import Mathlib.Data.List.Pairwise
import CodeSurvey.Proofs.Outline.Branches
import CodeSurvey.Proofs.Outline.GoRanges
import CodeSurvey.Proofs.Text.Utf8

/-
Where the methods of a Go file go.  A method with a receiver goes to the types that are declared
under the receiver's name, or to a type made for it if there are none: the two cases exclude each
other, so nothing is lost and nothing comes twice.  `Groups` says what the types made so far hold,
and is carried along the methods one by one.  That a method is no method of an interface too is seen
from its lines.
-/

namespace CodeSurvey
namespace GoOutline

open Text

/-- The methods with the given receiver, in their order. -/
def receivedBy (methods : List (String × FunctionOutline)) (receiver : String) :
    List FunctionOutline :=
  (methods.filter (·.1 == receiver)).map (·.2)

section Grouping

variable {made : List TypeOutline} {receiver name : String} {method : FunctionOutline}
  {seen : List (String × FunctionOutline)} {t : TypeOutline}

theorem mem_receivedBy : method ∈ receivedBy seen receiver ↔ (receiver, method) ∈ seen := by
  simp [receivedBy]

theorem receivedBy_concat_self :
    receivedBy (seen ++ [(receiver, method)]) receiver = receivedBy seen receiver ++ [method] := by
  simp [receivedBy]

theorem receivedBy_concat_of_ne (h : name ≠ receiver) :
    receivedBy (seen ++ [(receiver, method)]) name = receivedBy seen name := by
  simp [receivedBy, h.symm]

theorem receivedBy_eq_nil (h : receiver ∉ seen.map Prod.fst) : receivedBy seen receiver = [] := by
  rw [receivedBy, List.map_eq_nil_iff, List.filter_eq_nil_iff]
  intro pair hpair heq
  exact h (List.mem_map.mpr ⟨pair, hpair, eq_of_beq heq⟩)

theorem names_addOrphan : (addOrphan made receiver method).map TypeOutline.name =
    if receiver ∈ made.map TypeOutline.name then made.map TypeOutline.name
    else made.map TypeOutline.name ++ [receiver] := by
  induction made with
  | nil => rfl
  | cons first rest ih =>
      rw [addOrphan]
      by_cases hfirst : first.name = receiver
      · simp [hfirst]
      · rw [if_neg (mt eq_of_beq hfirst), List.map_cons, ih]
        by_cases hrest : receiver ∈ rest.map TypeOutline.name
        · simp [hrest]
        · have hnone : receiver ∉ (first :: rest).map TypeOutline.name := by
            simpa [Ne.symm hfirst] using hrest
          rw [if_neg hrest, if_neg hnone]
          rfl

/-- One more method changes the type of its receiver, or makes it, and leaves the others alone. -/
theorem of_mem_addOrphan (hnodup : (made.map TypeOutline.name).Nodup)
    (h : t ∈ addOrphan made receiver method) :
    (t ∈ made ∧ t.name ≠ receiver) ∨
    (t.name = receiver ∧ receiver ∉ made.map TypeOutline.name ∧ t.methods = [method]) ∨
    (t.name = receiver ∧ ∃ earlier ∈ made, earlier.name = receiver ∧
      t.methods = earlier.methods ++ [method]) := by
  induction made with
  | nil =>
      obtain rfl := List.mem_singleton.mp h
      exact .inr (.inl ⟨rfl, by simp, rfl⟩)
  | cons first rest ih =>
      rw [List.map_cons, List.nodup_cons] at hnodup
      obtain ⟨hfresh, hrest⟩ := hnodup
      rw [addOrphan] at h
      by_cases hfirst : first.name = receiver
      · rw [if_pos (beq_iff_eq.mpr hfirst)] at h
        rcases List.mem_cons.mp h with rfl | hmem
        · exact .inr (.inr ⟨hfirst, first, List.mem_cons_self, hfirst, rfl⟩)
        · refine .inl ⟨List.mem_cons_of_mem first hmem, fun hname => hfresh ?_⟩
          rw [hfirst, ← hname]
          exact List.mem_map_of_mem hmem
      · rw [if_neg (mt eq_of_beq hfirst)] at h
        rcases List.mem_cons.mp h with rfl | hmem
        · exact .inl ⟨List.mem_cons_self, hfirst⟩
        · rcases ih hrest hmem with
            ⟨hold, hname⟩ | ⟨hname, hnone, hone⟩ | ⟨hname, earlier, hearlier, hsame⟩
          · exact .inl ⟨List.mem_cons_of_mem first hold, hname⟩
          · refine .inr (.inl ⟨hname, ?_, hone⟩)
            rw [List.map_cons, List.mem_cons]
            rintro (heq | hthere)
            · exact hfirst heq.symm
            · exact hnone hthere
          · exact .inr (.inr ⟨hname, earlier, List.mem_cons_of_mem first hearlier, hsame⟩)

/-- One type was made for each receiver seen so far, and holds its methods. -/
structure Groups (seen : List (String × FunctionOutline)) (made : List TypeOutline) : Prop where
  nodup : (made.map TypeOutline.name).Nodup
  names : ∀ name, name ∈ made.map TypeOutline.name ↔ name ∈ seen.map Prod.fst
  methods : ∀ t ∈ made, t.methods = receivedBy seen t.name

theorem Groups.addOrphan (h : Groups seen made) (receiver : String) (method : FunctionOutline) :
    Groups (seen ++ [(receiver, method)]) (addOrphan made receiver method) := by
  refine ⟨?_, ?_, ?_⟩
  · rw [names_addOrphan]
    split
    · exact h.nodup
    · next hnew =>
        rw [List.nodup_append_comm]
        exact List.nodup_cons.mpr ⟨hnew, h.nodup⟩
  · intro name
    rw [names_addOrphan, List.map_append, List.mem_append, ← h.names]
    split
    · next hold =>
        constructor
        · exact .inl
        · rintro (hname | hname)
          · exact hname
          · exact List.mem_singleton.mp hname ▸ hold
    · rw [List.mem_append]
      rfl
  · intro t ht
    rcases of_mem_addOrphan h.nodup ht with
      ⟨hold, hne⟩ | ⟨hname, hnone, hone⟩ | ⟨hname, earlier, hearlier, hsame, hmore⟩
    · rw [receivedBy_concat_of_ne hne, h.methods t hold]
    · rw [hname, receivedBy_concat_self, receivedBy_eq_nil (mt (h.names receiver).mpr hnone), hone]
      rfl
    · rw [hname, receivedBy_concat_self, hmore, h.methods earlier hearlier, hsame]

theorem groups_orphans (types : List TypeOutline) (methods : List (String × FunctionOutline)) :
    Groups (methods.filter (! isReceived types ·)) (orphans types methods) := by
  have hrun : ∀ (more seen : List (String × FunctionOutline)) (made : List TypeOutline),
      Groups seen made →
      Groups (seen ++ more)
        (more.foldl (fun made pair => GoOutline.addOrphan made pair.1 pair.2) made) := by
    intro more
    induction more with
    | nil =>
        intro seen made h
        rw [List.append_nil]
        exact h
    | cons pair rest ih =>
        intro seen made h
        rw [List.append_cons, List.foldl_cons]
        exact ih _ _ (h.addOrphan pair.1 pair.2)
  exact hrun _ [] [] ⟨List.nodup_nil, by simp, by simp⟩

end Grouping

/-! ## Lines -/

section Lines

variable {source : List Char} {t : TypeOutline} {f : FunctionOutline} {receiver : Option String}

theorem pairwise_range (source : List Char) : (findings source).Pairwise fun a b =>
    ∀ first, a.range = some first → ∀ second, b.range = some second → first.2 < second.1 :=
  List.pairwise_filterMap.mp (ranges_scan 0 0 0 none (stripLines source)).2

def Finding.Apart (a b : Finding) : Prop :=
  ∀ first, a.range = some first → ∀ second, b.range = some second → first.2 < second.1 ∨
    second.2 < first.1

instance : Std.Symm Finding.Apart where
  symm _ _ h second hsecond first hfirst := (h first hfirst second hsecond).symm

/-- Two declarations share no line. -/
theorem apart_of_ne {a b : Finding} (ha : a ∈ findings source) (hb : b ∈ findings source)
    (hne : a ≠ b) : a.Apart b := by
  have hpairwise : (findings source).Pairwise Finding.Apart :=
    (pairwise_range source).imp fun h first hfirst second hsecond =>
      .inl (h first hfirst second hsecond)
  exact hpairwise.forall ha hb hne

/-- A function that is found on its own is no method of an interface. -/
theorem not_mem_methods_of_found (hf : .function receiver f ∈ findings source)
    (ht : .type t ∈ findings source) : f ∉ t.methods := by
  intro hmem
  have hinside := (within_findings source (.type t) ht).2 f hmem
  have hapart : f.endLine < t.startLine ∨ t.endLine < f.startLine :=
    apart_of_ne hf ht (by simp) _ rfl _ rfl
  omega

/-- A function has one receiver or none. -/
theorem receiver_unique {other : Option String} (hf : .function receiver f ∈ findings source)
    (hother : .function other f ∈ findings source) : receiver = other := by
  by_contra hne
  have hlines : f.startLine ≤ f.endLine := (within_findings source (.function receiver f) hf).2.1
  have hapart : f.endLine < f.startLine ∨ f.endLine < f.startLine :=
    apart_of_ne hf hother (by simp [hne]) _ rfl _ rfl
  omega

/-- Functions are found in the order of their lines. -/
theorem pairwise_startLine {α : Type} {select : Finding → Option α} (outline : α → FunctionOutline)
    (hselect : ∀ finding a, select finding = some a →
      ∃ receiver, finding = .function receiver (outline a))
    (source : List Char) :
    ((findings source).filterMap select).Pairwise fun a b => (outline a).startLine <
      (outline b).startLine := by
  refine List.pairwise_filterMap.mpr ((pairwise_range source).imp_of_mem ?_)
  intro first second hfirst _ hrange a ha b hb
  obtain ⟨receiver, rfl⟩ := hselect first a ha
  obtain ⟨other, rfl⟩ := hselect second b hb
  have hlines : (outline a).startLine ≤ (outline a).endLine :=
    (within_findings source (.function receiver (outline a)) hfirst).2.1
  have hbefore : (outline a).endLine < (outline b).startLine := hrange _ rfl _ rfl
  omega

theorem pairwise_functions (source : List Char) :
    (functions (findings source)).Pairwise fun a b => a.startLine < b.startLine := by
  refine pairwise_startLine (fun f => f) ?_ source
  intro finding f hf
  split at hf
  · exact ⟨none, by rw [Option.some.inj hf]⟩
  · contradiction

theorem pairwise_methods (source : List Char) :
    (methods (findings source)).Pairwise fun a b => a.2.startLine < b.2.startLine := by
  refine pairwise_startLine Prod.snd ?_ source
  intro finding method hmethod
  split at hmethod
  · next receiver f => exact ⟨some receiver, by rw [← Option.some.inj hmethod]⟩
  · contradiction

end Lines

/-! ## The report -/

/-- How a report distributes the functions and methods that were found.  Each declared type has its
own methods, which are those of an interface, and then those it receives; a type is made for each
receiver that is not declared. -/
structure Distributed (found : List Finding) (report : FileReport) : Prop where
  functions : report.functions = functions found
  functionsInOrder : (GoOutline.functions found).Pairwise fun a b => a.startLine < b.startLine
  methodsInOrder : (methods found).Pairwise fun a b => a.2.startLine < b.2.startLine
  interfaces : ∀ t ∈ types found, t.kind ≠ .interface → t.methods = []
  types : ∃ made,
    report.types = (GoOutline.types found).map (fun t =>
      { t with methods := t.methods ++ receivedBy (methods found) t.name }) ++ made ∧
    ∀ t ∈ made, t.name ∈ (methods found).map Prod.fst ∧
      t.name ∉ (GoOutline.types found).map TypeOutline.name ∧
      t.methods = receivedBy (methods found) t.name
  received : ∀ method ∈ methods found, ∃ t ∈ report.types, t.name = method.1 ∧ method.2 ∈ t.methods

/-- No two types have one name, and each method with a receiver belongs to one type. -/
structure DistributedOnce (found : List Finding) (report : FileReport) : Prop where
  names : (report.types.map TypeOutline.name).Nodup
  once : ∀ method ∈ methods found, ∃! t, t ∈ report.types ∧ method.2 ∈ t.methods
  count : report.methods.length = ((types found).flatMap TypeOutline.methods).length +
    (methods found).length

theorem functions_assemble (found : List Finding) (path : Path) (faults : List SyntaxFault) :
    (FileReport.assemble path "Go" (declarations found) faults).functions = functions found := by
  rw [FileReport.functions_assemble]
  simp [declarations, Declaration.function?, Function.comp_def]

theorem types_assemble (found : List Finding) (path : Path) (faults : List SyntaxFault) :
    (FileReport.assemble path "Go" (declarations found) faults).types = outlinedTypes found := by
  rw [FileReport.types_assemble]
  simp [declarations, Declaration.type?, Function.comp_def, outlinedTypes]

theorem isReceived_iff {types : List TypeOutline} {method : String × FunctionOutline} :
    isReceived types method = true ↔ method.1 ∈ types.map TypeOutline.name := by
  simp [isReceived]

/-- A type is made for a receiver only if none is declared, and then it gets all methods
with that receiver. -/
theorem of_mem_orphans {types : List TypeOutline} {methods : List (String × FunctionOutline)}
    {t : TypeOutline} (h : t ∈ orphans types methods) :
    t.name ∈ methods.map Prod.fst ∧ t.name ∉ types.map TypeOutline.name ∧
    t.methods = receivedBy methods t.name := by
  have hgroups := groups_orphans types methods
  obtain ⟨method, hmethod, hname⟩ :=
    List.mem_map.mp ((hgroups.names t.name).mp (List.mem_map_of_mem h))
  obtain ⟨hmem, hfree⟩ := List.mem_filter.mp hmethod
  have hundeclared : t.name ∉ types.map TypeOutline.name := by
    rw [Bool.not_eq_true', Bool.eq_false_iff, Ne, isReceived_iff, hname] at hfree
    exact hfree
  refine ⟨List.mem_map.mpr ⟨method, hmem, hname⟩, hundeclared, ?_⟩
  rw [hgroups.methods t h, receivedBy, receivedBy, List.filter_filter]
  congr 1
  refine List.filter_congr fun method _ => ?_
  by_cases hname : method.1 = t.name
  · have hfree : isReceived types method = false := by
      rw [Bool.eq_false_iff, Ne, isReceived_iff, hname]
      exact hundeclared
    simp [hname, hfree]
  · simp [hname]

theorem exists_mem_outlinedTypes {found : List Finding} {method : String × FunctionOutline}
    (h : method ∈ methods found) :
    ∃ t ∈ outlinedTypes found, t.name = method.1 ∧ method.2 ∈ t.methods := by
  have hreceived : method.2 ∈ receivedBy (methods found) method.1 := mem_receivedBy.mpr h
  by_cases hdeclared : isReceived (types found) method = true
  · obtain ⟨declared, hmem, hname⟩ := List.mem_map.mp (isReceived_iff.mp hdeclared)
    refine ⟨withMethods (methods found) declared, ?_, hname, ?_⟩
    · exact List.mem_append_left _ (List.mem_map_of_mem hmem)
    · exact List.mem_append_right _ (hname ▸ hreceived)
  · have hseen :
        method.1 ∈ ((methods found).filter (! isReceived (types found) ·)).map Prod.fst := by
      refine List.mem_map_of_mem (List.mem_filter.mpr ⟨h, ?_⟩)
      rw [Bool.not_eq_true', ← Bool.not_eq_true]
      exact hdeclared
    obtain ⟨t, ht, hname⟩ :=
      List.mem_map.mp (((groups_orphans (types found) (methods found)).names _).mpr hseen)
    refine ⟨t, List.mem_append_right _ ht, hname, ?_⟩
    rw [(of_mem_orphans ht).2.2, hname]
    exact hreceived

theorem nodup_names_outlinedTypes {found : List Finding}
    (hdistinct : ((types found).map TypeOutline.name).Nodup) :
    ((outlinedTypes found).map TypeOutline.name).Nodup := by
  have hdeclared : ((types found).map (withMethods (methods found))).map TypeOutline.name =
      (types found).map TypeOutline.name := by
    rw [List.map_map]
    rfl
  rw [outlinedTypes, List.map_append, hdeclared, List.nodup_append]
  refine ⟨hdistinct, (groups_orphans (types found) (methods found)).nodup, ?_⟩
  intro name hname other hother heq
  obtain ⟨t, ht, rfl⟩ := List.mem_map.mp hother
  exact (of_mem_orphans ht).2.1 (heq ▸ hname)

/-- The type of a method that has a receiver bears the receiver's name. -/
theorem name_of_mem_methods {source : List Char} {t : TypeOutline}
    {method : String × FunctionOutline} (hmethod : method ∈ methods (findings source))
    (ht : t ∈ outlinedTypes (findings source)) (hmem : method.2 ∈ t.methods) :
    t.name = method.1 := by
  have hfound := mem_findings_of_mem_methods hmethod
  have hreceived : (t.name, method.2) ∈ methods (findings source) := by
    rcases List.mem_append.mp ht with hmap | horphan
    · obtain ⟨declared, hdeclared, rfl⟩ := List.mem_map.mp hmap
      rcases List.mem_append.mp hmem with hown | hreceived
      · exact absurd hown (not_mem_methods_of_found hfound (mem_findings_of_mem_types hdeclared))
      · exact mem_receivedBy.mp hreceived
    · rw [(of_mem_orphans horphan).2.2] at hmem
      exact mem_receivedBy.mp hmem
  exact Option.some.inj (receiver_unique (mem_findings_of_mem_methods hreceived) hfound)

theorem distributed_assemble (source : List Char) (path : Path) (faults : List SyntaxFault) :
    Distributed (findings source)
      (.assemble path "Go" (declarations (findings source)) faults) := by
  refine ⟨functions_assemble _ path faults, pairwise_functions source,
    pairwise_methods source, ?_, ?_, ?_⟩
  · exact fun t ht => (plainType_of_mem_types ht).methods_eq_nil
  · rw [types_assemble]
    exact ⟨orphans (types (findings source)) (methods (findings source)), rfl,
      fun t ht => of_mem_orphans ht⟩
  · rw [types_assemble]
    exact fun method hmethod => exists_mem_outlinedTypes hmethod

theorem distributedOnce_assemble {source : List Char} (path : Path) (faults : List SyntaxFault)
    (hdistinct : ((types (findings source)).map TypeOutline.name).Nodup) :
    DistributedOnce (findings source)
      (.assemble path "Go" (declarations (findings source)) faults) := by
  have hnames := nodup_names_outlinedTypes hdistinct
  refine ⟨?_, ?_, ?_⟩
  · rw [types_assemble]
    exact hnames
  · rw [types_assemble]
    intro method hmethod
    obtain ⟨t, ht, hname, hmem⟩ := exists_mem_outlinedTypes hmethod
    refine ⟨t, ⟨ht, hmem⟩, ?_⟩
    rintro other ⟨hother, hthere⟩
    have hsame : other.name = t.name := (name_of_mem_methods hmethod hother hthere).trans hname.symm
    exact List.inj_on_of_nodup_map hnames hother ht hsame
  · rw [FileReport.methods, types_assemble, (perm_methods_outlinedTypes hdistinct).length_eq,
      List.length_append, List.length_map]

/-- Whatever the text, functions and methods are reported where they belong, none is lost and none
invented.  Where no two types of the file have one name, no method comes twice either. -/
theorem methods_distributed (path : Path) (text : List Char) :
    ∃ report, language.outline path (Utf8.encode text) = .outlined report ∧
      Distributed (findings (Language.withoutMark text)) report ∧
      (((types (findings (Language.withoutMark text))).map TypeOutline.name).Nodup →
        DistributedOnce (findings (Language.withoutMark text)) report) := by
  have hdecode : Language.decode path (Utf8.encode text) = .ok (Language.withoutMark text) := by
    rw [Language.decode, Utf8.decode_eq_ok_iff.mpr rfl]
  have houtlined : language.outline path (Utf8.encode text) = .outlined (.assemble path "Go"
      (declarations (findings (Language.withoutMark text)))
        (read (Language.withoutMark text)).2) := by
    rw [language, Language.outline_ofText_eq_outlined_iff]
    exact ⟨_, hdecode, rfl⟩
  exact ⟨_, houtlined, distributed_assemble _ path _, distributedOnce_assemble path _⟩

/-- An interface with a method of its own and one that it receives, and a generic type that
is not declared here. -/
def mixedReceivers : List Char :=
  ("type T interface \x7b\n M()\n\x7d\nfunc (t T) N() \x7b\n\x7d\n" ++
    "func (s *S[K]) P() \x7b\n\x7d\nfunc f() \x7b\n\x7d\nfunc (s S[K]) Q() \x7b\n\x7d\n").toList

theorem methods_distributed_mixedReceivers :
    ((types (findings mixedReceivers)).map TypeOutline.name).Nodup ∧
    ∃ report, language.outline ⟨"m.go"⟩ (Utf8.encode mixedReceivers) = .outlined report ∧
      report.functions.map FunctionOutline.name = ["f"] ∧
      (∃ t ∈ report.types, t.name = "S" ∧ t.methods.map FunctionOutline.name = ["P", "Q"]) ∧
      (report.types.map TypeOutline.name).Nodup ∧ report.methods.length = 4 := by
  -- The text is read once for all that is evaluated.
  obtain ⟨hdistinct, hfunctions, hundeclared, ⟨method, hmethod, hreceiver⟩, hreceived, hcount⟩ :
      ((types (findings mixedReceivers)).map TypeOutline.name).Nodup ∧
      (functions (findings mixedReceivers)).map FunctionOutline.name = ["f"] ∧
      "S" ∉ (types (findings mixedReceivers)).map TypeOutline.name ∧
      (∃ method ∈ methods (findings mixedReceivers), method.1 = "S") ∧
      (receivedBy (methods (findings mixedReceivers)) "S").map FunctionOutline.name = ["P", "Q"] ∧
      ((types (findings mixedReceivers)).flatMap TypeOutline.methods).length +
        (methods (findings mixedReceivers)).length = 4 := by
    decide +kernel
  have hmark : Language.withoutMark mixedReceivers = mixedReceivers := by decide +kernel
  obtain ⟨report, houtlined, hall, honce⟩ := methods_distributed ⟨"m.go"⟩ mixedReceivers
  rw [hmark] at hall honce
  refine ⟨hdistinct, report, houtlined, ?_, ?_, (honce hdistinct).names, ?_⟩
  · rw [hall.functions, hfunctions]
  · obtain ⟨t, ht, hname, -⟩ := hall.received method hmethod
    obtain ⟨made, htypes, hmade⟩ := hall.types
    rw [hreceiver] at hname
    refine ⟨t, ht, hname, ?_⟩
    rw [htypes] at ht
    rcases List.mem_append.mp ht with hmap | hmem
    · obtain ⟨declared, hdeclared, rfl⟩ := List.mem_map.mp hmap
      exact absurd (List.mem_map.mpr ⟨declared, hdeclared, hname⟩) hundeclared
    · rw [(hmade t hmem).2.2, hname, hreceived]
  · rw [(honce hdistinct).count, hcount]

end GoOutline
end CodeSurvey
