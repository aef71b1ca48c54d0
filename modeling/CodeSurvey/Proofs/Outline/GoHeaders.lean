import CodeSurvey.Proofs.Outline.GoBlocks
import CodeSurvey.Proofs.Outline.GoImports
import CodeSurvey.Proofs.Text.Letter
import CodeSurvey.Proofs.Text.Split

/-
Which lines of a Go file are taken for headers.  That of a type has blanks behind `type`, and a text
is the header of one type at most (`DeclaresType.unique`).  That of a function may have no blank
behind `func`, where a receiver follows at once, and the name is read in the same way: so the call
of something whose name is longer than `func` has a header's form too (`header_cases`).  Such a call
is reported as a function that bears the rest of the name, and it takes the lines on which its
brackets stay open.
-/

namespace CodeSurvey
namespace GoOutline

open Text Matcher Checked

/-! ## Headers of functions -/

/-- Arguments in square brackets, or none. -/
def IsArguments (text : List Char) : Prop :=
  text = [] ∨ ∃ inner, text = '[' :: (inner ++ [']']) ∧ ']' ∉ inner

/-- A name, arguments in square brackets or none, and the parenthesis before `rest`. -/
def OpensList (name text rest : List Char) : Prop :=
  ∃ gap arguments gap', text = name ++ (gap ++ (arguments ++ (gap' ++ '(' :: rest))) ∧
    (name ≠ [] ∧ ∀ c ∈ name, isWordChar c = true) ∧ IsArguments arguments ∧
    (∀ c ∈ gap, isBlank c = true) ∧ ∀ c ∈ gap', isBlank c = true

section Headers

variable {text rest name : List Char} {receiver : Option (List Char)}

theorem forall_bne_bracket {inner : List Char} :
    (∀ c ∈ inner, (c != ']') = true) ↔ ']' ∉ inner := by
  simp only [bne_iff_ne]
  exact List.forall_mem_ne'

theorem exists_mem_typeArguments : (∃ found, (found, rest) ∈ Matcher.optional typeArguments text) ↔
    ∃ arguments, text = arguments ++ rest ∧ IsArguments arguments := by
  unfold typeArguments
  simp only [mem_optional, mem_bind, mem_literal, mem_many, forall_bne_bracket]
  constructor
  · intro h
    obtain ⟨found, ⟨_, hrest⟩ | ⟨_, _, _, after, hopening, inner, left, ⟨hinner, hnone⟩,
      hclosing⟩⟩ := h
    · exact ⟨[], hrest.symm, .inl rfl⟩
    · refine ⟨'[' :: (inner ++ [']']), ?_, .inr ⟨inner, rfl, hnone⟩⟩
      rw [hopening, hinner, hclosing]
      simp
  · intro h
    obtain ⟨arguments, htext, rfl | ⟨inner, rfl, hnone⟩⟩ := h
    · exact ⟨none, .inl ⟨rfl, htext.symm⟩⟩
    · refine ⟨some (), .inr ⟨(), rfl, (), inner ++ ']' :: rest, ?_, inner, ']' :: rest,
        ⟨rfl, hnone⟩, rfl⟩⟩
      rw [htext]
      simp

/-- The ways to read a header, part by part. -/
theorem mem_functionHeader : ((receiver, name), rest) ∈ functionHeader text ↔
    ∃ gap after middle gap' named, text = "func".toList ++ (gap ++ after) ∧
    (∀ c ∈ gap, isBlank c = true) ∧
      (receiver, middle) ∈ Matcher.optional GoOutline.receiver after ∧ middle = gap' ++ named ∧
      (∀ c ∈ gap', isBlank c = true) ∧ OpensList name named rest := by
  unfold functionHeader
  simp only [mem_bind, mem_literal, mem_blanks, word, mem_many1]
  constructor
  · intro h
    obtain ⟨_, after, hfunc, _, start, ⟨gap, hgap, hblank⟩, other, middle, hreceiver, _, named,
      ⟨gap', hgap', hblank'⟩, word, behind, ⟨hword, hchars⟩, _, arguments, ⟨space, hspace, hspaces⟩,
      found, last, hfound, _, list, ⟨space', hspace', hspaces'⟩, _, left, hlist, hpure⟩ := h
    obtain ⟨hheader, rfl⟩ := mem_pure.mp hpure
    obtain ⟨rfl, rfl⟩ := Prod.mk.inj hheader
    obtain ⟨brackets, hbrackets, harguments⟩ := exists_mem_typeArguments.mp ⟨found, hfound⟩
    refine ⟨gap, start, middle, gap', named, by rw [hfunc, hgap], hblank, hreceiver, hgap',
      hblank', ?_⟩
    refine ⟨space, brackets, space', ?_, hchars, harguments, hspaces, hspaces'⟩
    rw [hword, hspace, hbrackets, hspace', hlist]
    rfl
  · intro h
    obtain ⟨gap, after, middle, gap', named, htext, hblank, hreceiver, hmiddle, hblank', space,
      brackets, space', hnamed, hchars, harguments, hspaces, hspaces'⟩ := h
    obtain ⟨found, hfound⟩ := exists_mem_typeArguments.mpr ⟨brackets, rfl, harguments⟩
    exact ⟨(), _, htext, (), after, ⟨gap, rfl, hblank⟩, receiver, middle, hreceiver, (), named,
      ⟨gap', hmiddle, hblank'⟩, name, _, ⟨hnamed, hchars⟩, (), _, ⟨space, rfl, hspaces⟩, found, _,
      hfound, (), _, ⟨space', rfl, hspaces'⟩, (), rest, rfl, mem_pure.mpr ⟨rfl, rfl⟩⟩

/-- Neither a blank nor a bracket is part of a word. -/
theorem head?_all_blanks {gap after : List Char} (hgap : ∀ c ∈ gap, isBlank c = true)
    (hafter : after.head?.all (! isWordChar ·) = true) :
    (gap ++ after).head?.all (! isWordChar ·) = true := by
  cases gap with
  | nil => exact hafter
  | cons c gap =>
      have hc := isWordChar_of_isBlank (hgap c List.mem_cons_self)
      simp [hc]

theorem IsArguments.head?_all {arguments after : List Char} (h : IsArguments arguments)
    (hafter : after.head?.all (! isWordChar ·) = true) :
    (arguments ++ after).head?.all (! isWordChar ·) = true := by
  rcases h with rfl | ⟨inner, rfl, _⟩
  · exact hafter
  · show (! isWordChar '[') = true
    decide +kernel

/-- The character behind the name is none of a word, so the name is all there is of one. -/
theorem OpensList.name_eq (h : OpensList name text rest) : name = text.takeWhile isWordChar := by
  obtain ⟨gap, arguments, gap', htext, ⟨_, hchars⟩, harguments, hgap, hgap'⟩ := h
  have hlist : ('(' :: rest).head?.all (! isWordChar ·) = true := by
    show (! isWordChar '(') = true
    decide +kernel
  have hbehind := head?_all_blanks hgap (harguments.head?_all (head?_all_blanks hgap' hlist))
  rw [htext, takeWhile_append_of_head hchars hbehind]

theorem OpensList.exists_cons (h : OpensList name text rest) :
    ∃ c after, text = c :: after ∧ isWordChar c = true := by
  obtain ⟨gap, arguments, gap', htext, ⟨hne, hchars⟩, _⟩ := h
  obtain ⟨c, more, rfl⟩ := List.exists_cons_of_ne_nil hne
  exact ⟨c, _, htext, hchars c List.mem_cons_self⟩

end Headers

/-! ## Headers of types -/

/-- The header of a structure or of an interface, up to `rest`. -/
def DeclaresType (isStruct : Bool) (name text rest : List Char) : Prop :=
  ∃ gap arguments gap', text = "type".toList ++
      (gap ++ (name ++
        (arguments ++ (gap' ++ ((if isStruct then "struct" else "interface").toList ++ rest))))) ∧
    (name ≠ [] ∧ ∀ c ∈ name, isWordChar c = true) ∧ IsArguments arguments ∧
    (gap ≠ [] ∧ ∀ c ∈ gap, isBlank c = true) ∧ (gap' ≠ [] ∧ ∀ c ∈ gap', isBlank c = true) ∧
    rest.head?.all (! isWordChar ·) = true

section TypeHeaders

variable {text rest name : List Char} {kind : TypeKind} {isStruct : Bool}

theorem mem_typeHeader : ((name, kind), rest) ∈ typeHeader text ↔
    ∃ isStruct : Bool, kind = (if isStruct then .struct else .interface) ∧
    DeclaresType isStruct name text rest := by
  unfold typeHeader
  simp only [mem_bind, mem_literal, mem_blanks1, word, mem_many1, mem_wordEnd]
  constructor
  · intro h
    obtain ⟨_, after, htype, _, start, ⟨gap, hgap, hblank⟩, word, behind, ⟨hword, hchars⟩, found,
      last, hfound, _, keyword, ⟨gap', hgap', hblank'⟩, isStruct, tail, hkeyword, _, left,
      ⟨hleft, hend⟩, hpure⟩ := h
    obtain ⟨hheader, rfl⟩ := mem_pure.mp hpure
    obtain ⟨rfl, rfl⟩ := Prod.mk.inj hheader
    obtain ⟨arguments, hbrackets, harguments⟩ := exists_mem_typeArguments.mp ⟨found, hfound⟩
    have hsaid : keyword = (if isStruct then "struct" else "interface").toList ++ tail := by
      rcases List.mem_append.mp hkeyword with h | h
      all_goals
        obtain ⟨⟨_, left⟩, hliteral, heq⟩ := List.mem_map.mp h
        obtain ⟨rfl, rfl⟩ := Prod.mk.inj heq
        exact (mem_literal ()).mp hliteral
    refine ⟨isStruct, rfl, gap, arguments, gap', ?_, hchars, harguments, hblank, hblank', ?_⟩
    · rw [htype, hgap, hword, hbrackets, hgap', hsaid, hleft]
    · rw [hleft]
      exact hend
  · intro h
    obtain ⟨isStruct, hkind, gap, arguments, gap', htext, hchars, harguments, hblank,
      hblank', hend⟩ := h
    obtain ⟨found, hfound⟩ := exists_mem_typeArguments.mpr ⟨arguments, rfl, harguments⟩
    refine ⟨(), _, htext, (), _, ⟨gap, rfl, hblank⟩, name, _, ⟨rfl, hchars⟩, found, _,
      hfound, (), _, ⟨gap', rfl, hblank'⟩, isStruct, rest, ?_, (), rest, ⟨rfl, hend⟩, ?_⟩
    · rw [List.mem_append, List.mem_map, List.mem_map]
      cases isStruct with
      | true => exact .inl ⟨((), rest), (mem_literal ()).mpr rfl, rfl⟩
      | false => exact .inr ⟨((), rest), (mem_literal ()).mpr rfl, rfl⟩
    · rw [hkind]
      exact mem_pure.mpr ⟨rfl, rfl⟩

theorem dropWhile_inner {inner : List Char} (h : ']' ∉ inner) (after : List Char) :
    (inner ++ ']' :: after).dropWhile (· != ']') = ']' :: after := by
  apply dropWhile_append_of_head
  · exact forall_bne_bracket.mpr h
  · rfl

/-- What comes behind arguments is told by what they are, if a blank comes first. -/
theorem IsArguments.cancel {a b x y : List Char} (ha : IsArguments a) (hb : IsArguments b)
    (hx : x.head?.any isBlank = true) (hy : y.head?.any isBlank = true) (h : a ++ x = b ++ y) :
    x = y := by
  have hbracket : isBlank '[' = false := by decide
  rcases ha with rfl | ⟨inner, rfl, hinner⟩
  · rcases hb with rfl | ⟨inner, rfl, _⟩
    · exact h
    · rw [List.nil_append] at h
      simp [h, hbracket] at hx
  · rcases hb with rfl | ⟨other, rfl, hother⟩
    · rw [List.nil_append] at h
      simp [← h, hbracket] at hy
    · have hrest : inner ++ ']' :: x = other ++ ']' :: y := by simpa using h
      have hdrop := congrArg (List.dropWhile (· != ']')) hrest
      rw [dropWhile_inner hinner, dropWhile_inner hother] at hdrop
      exact (List.cons.inj hdrop).2

theorem head?_any_append {gap : List Char} (hgap : gap ≠ [] ∧ ∀ c ∈ gap, isBlank c = true)
    (after : List Char) : (gap ++ after).head?.any isBlank = true := by
  obtain ⟨c, blanks, rfl⟩ := List.exists_cons_of_ne_nil hgap.1
  exact hgap.2 c List.mem_cons_self

theorem head?_all_of_any {after : List Char} (h : after.head?.any isBlank = true) :
    after.head?.all (! isWordChar ·) = true := by
  cases after with
  | nil => rfl
  | cons c after =>
      have hc := isWordChar_of_isBlank h
      simp [hc]

theorem head?_all_word {word after : List Char}
    (hword : word ≠ [] ∧ ∀ c ∈ word, isWordChar c = true) :
    (word ++ after).head?.all (! isBlank ·) = true := by
  obtain ⟨c, more, rfl⟩ := List.exists_cons_of_ne_nil hword.1
  have hc := isBlank_of_isWordChar (hword.2 c List.mem_cons_self)
  simp [hc]

/-- A text is the header of one type at most. -/
theorem DeclaresType.unique {isStruct' : Bool} {name' rest' : List Char}
    (h : DeclaresType isStruct name text rest) (h' : DeclaresType isStruct' name' text rest') :
    isStruct = isStruct' ∧ name = name' := by
  obtain ⟨gap, arguments, middle, htext, hname, harguments, hgap, hmiddle, hend⟩ := h
  obtain ⟨gap', arguments', middle', htext', hname', harguments', hgap', hmiddle', hend'⟩ := h'
  have hall := List.append_cancel_left (htext.symm.trans htext')
  -- each part ends at the first character that cannot belong to it
  have hnamed := congrArg (List.dropWhile isBlank) hall
  rw [dropWhile_append_of_head hgap.2 (head?_all_word hname),
    dropWhile_append_of_head hgap'.2 (head?_all_word hname')] at hnamed
  have hnames := congrArg (List.takeWhile isWordChar) hnamed
  have hblank :=
    head?_any_append hmiddle ((if isStruct then "struct" else "interface").toList ++ rest)
  have hblank' :=
    head?_any_append hmiddle' ((if isStruct' then "struct" else "interface").toList ++ rest')
  rw [takeWhile_append_of_head hname.2 (harguments.head?_all (head?_all_of_any hblank)),
    takeWhile_append_of_head hname'.2 (harguments'.head?_all (head?_all_of_any hblank'))] at hnames
  rw [hnames] at hnamed
  have hgaps := harguments.cancel harguments' hblank hblank' (List.append_cancel_left hnamed)
  have hkeywords := congrArg (List.dropWhile isBlank) hgaps
  have hvisible : ∀ (isStruct : Bool) rest,
      ((if isStruct then "struct" else "interface").toList ++ rest).head?.all
        (! isBlank ·) = true := by
    intro isStruct rest
    cases isStruct <;> rfl
  rw [dropWhile_append_of_head hmiddle.2 (hvisible isStruct rest),
    dropWhile_append_of_head hmiddle'.2 (hvisible isStruct' rest')] at hkeywords
  refine ⟨?_, hnames⟩
  cases isStruct <;> cases isStruct' <;> simp at hkeywords ⊢

theorem DeclaresType.run_typeHeader (h : DeclaresType isStruct name text rest) :
    ∃ tail, typeHeader.run text =
      some ((name, if isStruct then .struct else .interface), tail) := by
  have hsome : (typeHeader.run text).isSome = true :=
    isSome_run_iff.mpr ⟨_, rest, mem_typeHeader.mpr ⟨isStruct, rfl, h⟩⟩
  obtain ⟨⟨⟨other, kind⟩, tail⟩, hrun⟩ := Option.isSome_iff_exists.mp hsome
  obtain ⟨isStruct', hkind, h'⟩ := mem_typeHeader.mp (List.mem_of_head? hrun)
  obtain ⟨rfl, rfl⟩ := h.unique h'
  exact ⟨tail, by rw [hrun, hkind]⟩

end TypeHeaders

/-! ## Lines -/

/-- The word `func`, behind which a blank or a parenthesis stands. -/
def Line.SaysFunc (line : Line) : Prop :=
  "func".toList <+: trim line.code ∧
    ((trim line.code).drop 4).head?.any (fun c => isBlank c || c == '(') = true

/-- A call of something whose name is `func` with more behind it. -/
def Line.CallsFunc (line : Line) (more : List Char) : Prop :=
  ∃ after rest, trim line.code = "func".toList ++ after ∧ OpensList more after rest

instance : DecidablePred Line.SaysFunc := fun _ => inferInstanceAs (Decidable (_ <+: _ ∧ _ = _))

section Lines

variable {line : Line} {name tail after : List Char} {receiver : Option (List Char)}

theorem saysFunc_iff (hcode : trim line.code = "func".toList ++ after) :
    line.SaysFunc ↔ after.head?.any (fun c => isBlank c || c == '(') = true := by
  unfold Line.SaysFunc
  rw [hcode]
  exact and_iff_right (List.prefix_append _ _)

theorem Line.CallsFunc.not_saysFunc (h : line.CallsFunc name) : ¬ line.SaysFunc := by
  obtain ⟨after, rest, hcode, hopens⟩ := h
  obtain ⟨c, more, rfl, hword⟩ := hopens.exists_cons
  rw [saysFunc_iff hcode, List.head?_cons, Option.any_some, Bool.or_eq_true, beq_iff_eq]
  intro hc
  rcases hc with hblank | rfl
  · rw [isBlank_of_isWordChar hword] at hblank
    contradiction
  · revert hword
    decide +kernel

/-- A header says `func`, or it is a call and has no receiver. -/
theorem header_cases (h : functionHeader.run (trim line.code) = some ((receiver, name), tail)) :
    line.SaysFunc ∨ receiver = none ∧ line.CallsFunc name := by
  obtain ⟨gap, after, middle, gap', named, hcode, hblank, hreceiver, hmiddle, hblank', hopens⟩ :=
    mem_functionHeader.mp (List.mem_of_head? h)
  rw [saysFunc_iff hcode]
  cases gap with
  | cons c gap =>
      have hc := hblank c List.mem_cons_self
      simp [hc]
  | nil =>
      rcases mem_optional.mp hreceiver with ⟨hnone, rfl⟩ | ⟨name, _, hname⟩
      · cases gap' with
        | cons c gap' =>
            have hc := hblank' c List.mem_cons_self
            simp [hmiddle, hc]
        | nil =>
            rw [hmiddle] at hcode
            exact .inr ⟨hnone, named, tail, hcode, hopens⟩
      · obtain ⟨_, left, hopening, _⟩ := mem_bind.mp hname
        rw [(mem_literal ()).mp hopening]
        exact .inl rfl

theorem Line.CallsFunc.exists_header (h : line.CallsFunc name) :
    ∃ tail, functionHeader.run (trim line.code) = some ((none, name), tail) := by
  obtain ⟨after, rest, hcode, hopens⟩ := h
  have hsome : (functionHeader.run (trim line.code)).isSome = true := by
    refine isSome_run_iff.mpr ⟨(none, name), rest, mem_functionHeader.mpr ?_⟩
    exact ⟨[], after, after, [], after, hcode, by simp, mem_optional.mpr (.inl ⟨rfl, rfl⟩), rfl,
      by simp, hopens⟩
  obtain ⟨⟨⟨receiver, other⟩, tail⟩, hrun⟩ := Option.isSome_iff_exists.mp hsome
  obtain ⟨hnone, after', rest', hcode', hopens'⟩ :=
    (header_cases hrun).resolve_left (Line.CallsFunc.not_saysFunc ⟨after, rest, hcode, hopens⟩)
  have hafter : after' = after := List.append_cancel_left (hcode'.symm.trans hcode)
  have hname : other = name := by
    rw [hopens'.name_eq, hopens.name_eq, hafter]
  exact ⟨tail, by rw [hrun, hnone, hname]⟩

theorem exists_callsFunc_iff : (∃ more, line.CallsFunc more) ↔
    (functionHeader.run (trim line.code)).isSome = true ∧ ¬ line.SaysFunc := by
  constructor
  · intro h
    obtain ⟨more, hcalls⟩ := h
    obtain ⟨tail, hheader⟩ := hcalls.exists_header
    exact ⟨Option.isSome_iff_exists.mpr ⟨_, hheader⟩, hcalls.not_saysFunc⟩
  · intro h
    obtain ⟨⟨⟨receiver, name⟩, tail⟩, hheader⟩ := Option.isSome_iff_exists.mp h.1
    exact ⟨name, ((header_cases hheader).resolve_left h.2).2⟩

instance (line : Line) : Decidable (∃ more, line.CallsFunc more) :=
  decidable_of_iff _ exists_callsFunc_iff.symm

end Lines

/-! ## The lines that a header takes -/

theorem signatureLength_eq_zero_iff (depth : Int) (after : List Line) :
    signatureLength depth after = 0 ↔ after = [] ∨ depth ≤ 0 := by
  cases after with
  | nil => exact iff_of_true rfl (.inl rfl)
  | cons line rest =>
      rw [signatureLength]
      by_cases hopen : 0 < depth
      · rw [if_pos hopen]
        exact iff_of_false (Nat.succ_ne_zero _) (by simp [hopen])
      · rw [if_neg hopen]
        exact iff_of_true rfl (.inr (by omega))

theorem further_blockExtent_eq_zero_iff (line : Line) (after : List Line) :
    (blockExtent line after).further = 0 ↔ after = [] ∨ braceBalance line ≤ 0 := by
  by_cases hshut : braceBalance line ≤ 0
  · rw [blockExtent, if_pos hshut]
    exact iff_of_true rfl (.inr hshut)
  · rw [or_iff_left hshut, blockExtent, if_neg hshut]
    cases hcount : linesToClose braceBalance (braceBalance line) after with
    | some count =>
        have hle := linesToClose_le hcount
        show count = 0 ↔ after = []
        refine iff_of_false (by omega) ?_
        intro hnil
        rw [hnil, List.length_nil] at hle
        omega
    | none => exact List.length_eq_zero_iff

/-- A function takes no line but its own exactly if that leaves no parenthesis and no
brace open, or is the last. -/
theorem further_functionAt_eq_zero_iff (position : Position) (receiver : Option String)
    (name tail : List Char) :
    (functionAt position receiver name tail).further = 0 ↔
      position.after = [] ∨ parenBalance position.line ≤ 0 ∧ braceBalance position.line ≤ 0 := by
  show position.signatureLines + position.body.further = 0 ↔ _
  rw [Nat.add_eq_zero_iff, Position.signatureLines, signatureLength_eq_zero_iff, or_and_left]
  refine and_congr_right ?_
  intro hsignature
  have hzero : position.signatureLines = 0 := (signatureLength_eq_zero_iff _ _).mpr hsignature
  rw [Position.body, hzero, List.take_zero, List.drop_zero, further_blockExtent_eq_zero_iff]
  rfl

/-! ## The report -/

section Report

variable {source : List Char} {lines : List Line} {receiver : Option String} {f : FunctionOutline}
  {start : Nat} {line : Line} {more : List Char}

theorem mem_outlines {found : List Finding} :
    f ∈ outlines found ↔ ∃ receiver, .function receiver f ∈ found := by
  rw [outlines, List.mem_filterMap]
  constructor
  · intro h
    obtain ⟨finding, hmem, hselect⟩ := h
    cases finding with
    | function receiver g =>
        obtain rfl := Option.some.inj hselect
        exact ⟨receiver, hmem⟩
    | «import» path => contradiction
    | type t => contradiction
    | fault place => contradiction
  · intro h
    obtain ⟨receiver, hmem⟩ := h
    exact ⟨_, hmem, rfl⟩

theorem header_of_function {position : Position} {found : Found}
    (h : declarationAt position = some found) (hf : .function receiver f ∈ found.findings) :
    ∃ given name tail, functionHeader.run (trim position.line.code) = some ((given, name), tail) ∧
      receiver = given.map String.ofList ∧ f.name = String.ofList name := by
  rcases declarationAt_cases h with ⟨_, rfl⟩ | ⟨hbegins, _⟩ | ⟨_, name, kind, rfl⟩
  · have houtline : f ∈ outlines (importAt position).findings := List.mem_filterMap.mpr ⟨_, hf, rfl⟩
    rw [outlines_importAt] at houtline
    contradiction
  · obtain ⟨⟨⟨given, name⟩, tail⟩, hheader⟩ := Option.isSome_iff_exists.mp hbegins.2
    have hthere := declarationAt_of_function hheader
    rw [h, Option.some.injEq] at hthere
    rw [hthere] at hf
    have hone := List.mem_singleton.mp ((List.mem_append.mp hf).resolve_left (not_mem_faults _ _))
    obtain ⟨hreceiver, rfl⟩ := Finding.function.inj hone
    exact ⟨given, name, tail, hheader, hreceiver, rfl⟩
  · have hone := (List.mem_append.mp hf).resolve_left (not_mem_faults _ _)
    simp at hone

theorem exists_line_of_function (h : .function receiver f ∈ scan 0 0 0 none lines) :
    ∃ start ∈ stops lines, ∃ line, lines[start]? = some line ∧ f.startLine = start + 1 ∧
      (line.SaysFunc ∨ receiver = none ∧ ∃ more, line.CallsFunc more ∧
        f.name = String.ofList more) := by
  obtain ⟨start, hstart, line, found, hline, hfound, hf⟩ := exists_stop_of_function h
  obtain ⟨given, name, tail, hheader, hreceiver, hname⟩ := header_of_function hfound hf
  have houtline : f ∈ outlines found.findings := List.mem_filterMap.mpr ⟨_, hf, rfl⟩
  refine ⟨start, hstart, line, hline, (chargedAt_declarationAt hfound).startLine f houtline, ?_⟩
  rcases header_cases hheader with hsays | ⟨hnone, hcalls⟩
  · exact .inl hsays
  · refine .inr ⟨?_, name, hcalls, hname⟩
    rw [hreceiver, hnone]
    rfl

/-- Reading goes on behind a call as behind any other function. -/
theorem exists_next_of_callsFunc (hstart : start ∈ stops lines) (hline : lines[start]? = some line)
    (hcalls : line.CallsFunc more) : ∃ next, ResumesAt lines start next ∧
      (next = start + 1 ↔ start + 1 = lines.length ∨ parenBalance line ≤ 0 ∧
        braceBalance line ≤ 0) := by
  obtain ⟨tail, hheader⟩ := hcalls.exists_header
  have hfound : declarationAt (positionAt lines start line) =
      some (functionAt (positionAt lines start line) (none.map String.ofList) more tail) :=
    declarationAt_of_function hheader
  have hzero :=
    further_functionAt_eq_zero_iff (positionAt lines start line) (none.map String.ofList) more tail
  have hlt := (List.getElem?_eq_some_iff.mp hline).1
  have hlast : (positionAt lines start line).after = [] ↔ start + 1 = lines.length := by
    show lines.drop (start + 1) = [] ↔ _
    rw [List.drop_eq_nil_iff]
    omega
  refine ⟨_, resumesAt_next hstart hline, ?_⟩
  rw [hlast] at hzero
  show start + 1 + (positionAt lines start line).further = start + 1 ↔ _
  rw [further_of_some hfound, Nat.add_eq_left]
  exact hzero

end Report

/-- Every function and every method begins on a line that says `func`, or it has no receiver and
begins on a line with a call, under the rest of its name.  All such calls are reported, so only
functions begin with `func` exactly if no declaration is looked for on a line with one.  A call
takes the lines after it unless it is closed on its own line. -/
theorem functions_say_func_iff (path : Path) (text : List Char) :
    ∃ report, language.outline path (Utf8.encode text) = .outlined report ∧
      Distributed (findings (Language.withoutMark text)) report ∧
      (∀ receiver f, .function receiver f ∈ findings (Language.withoutMark text) →
        ∃ start ∈ stops (fileLines text), ∃ line, (fileLines text)[start]? = some line ∧
        f.startLine = start + 1 ∧
          (line.SaysFunc ∨ receiver = none ∧ ∃ more, line.CallsFunc more ∧
            f.name = String.ofList more)) ∧
      (∀ start ∈ stops (fileLines text), ∀ line, (fileLines text)[start]? = some line →
        ∀ more, line.CallsFunc more →
          (∃ f ∈ report.functions, f.name = String.ofList more ∧ f.startLine = start + 1) ∧
          ∃ next, ResumesAt (fileLines text) start next ∧
            (next = start + 1 ↔
              start + 1 = (fileLines text).length ∨ parenBalance line ≤ 0 ∧
              braceBalance line ≤ 0)) ∧
      ((∀ f ∈ outlines (findings (Language.withoutMark text)),
          ∃ line, (fileLines text)[f.startLine - 1]? = some line ∧ line.SaysFunc) ↔
        ∀ start ∈ stops (fileLines text), ∀ line, (fileLines text)[start]? = some line →
          ∀ more, ¬ line.CallsFunc more) := by
  refine ⟨_, outline_encode path text, distributed_assemble _ path _, ?_, ?_, ?_, ?_⟩
  · intro receiver f hf
    exact exists_line_of_function hf
  · intro start hstart line hline more hcalls
    obtain ⟨tail, hheader⟩ := hcalls.exists_header
    refine ⟨?_, exists_next_of_callsFunc hstart hline hcalls⟩
    exact (reported_of_mem_stops (distributed_assemble _ path _) hstart hline).function
      more tail hheader
  · intro hall start hstart line hline more hcalls
    obtain ⟨tail, hheader⟩ := hcalls.exists_header
    obtain ⟨f, hf, _, hbegin⟩ := exists_function_of_header hstart hline hheader
    obtain ⟨other, hother, hsays⟩ := hall f (mem_outlines.mpr ⟨_, hf⟩)
    rw [hbegin, Nat.add_sub_cancel] at hother
    have hsame : other = line := Option.some.inj (hother.symm.trans hline)
    rw [hsame] at hsays
    exact hcalls.not_saysFunc hsays
  · intro hnone f hf
    obtain ⟨receiver, hf⟩ := mem_outlines.mp hf
    obtain ⟨start, hstart, line, hline, hbegin, hsays | ⟨_, more, hcalls, _⟩⟩ :=
      exists_line_of_function hf
    · exact ⟨line, by rw [hbegin]; exact hline, hsays⟩
    · exact absurd hcalls (hnone start hstart line hline more)

/-- A function, a method, and a call that stands behind something else. -/
def plainFunctions : List Char :=
  "func f() \x7b\n\tfuncs(a)\n\x7d\nfunc(t T) g() \x7b\n\x7d\nvar x = funcs(a)\n".toList

theorem functions_say_func_iff_plain :
    ∃ report, language.outline ⟨"f.go"⟩ (Utf8.encode plainFunctions) = .outlined report ∧
      report.functions.map FunctionOutline.name = ["f"] ∧
      ∀ f ∈ outlines (findings (Language.withoutMark plainFunctions)),
        ∃ line, (fileLines plainFunctions)[f.startLine - 1]? = some line ∧ line.SaysFunc := by
  obtain ⟨hnames, hnone⟩ :
      (functions (findings (Language.withoutMark plainFunctions))).map FunctionOutline.name =
        ["f"] ∧
      ∀ start ∈ stops (fileLines plainFunctions), ∀ line ∈ (fileLines plainFunctions)[start]?,
        ¬ ∃ more, line.CallsFunc more := by decide +kernel
  obtain ⟨report, houtline, hdistributed, _, _, hiff⟩ :=
    functions_say_func_iff ⟨"f.go"⟩ plainFunctions
  refine ⟨report, houtline, by rw [hdistributed.functions, hnames], hiff.mpr ?_⟩
  intro start hstart line hline more hcalls
  exact hnone start hstart line hline ⟨more, hcalls⟩

/-- A call over three lines, in a composite literal. -/
def funcsCall : List Char := "var x = T\x7b\n\tfuncs(\n\t\ta,\n\t),\n\x7d\n".toList

/-- It is reported as a function that bears the rest of the name, and takes its lines. -/
theorem call_becomes_function :
    (∃ line, (stripLines funcsCall)[1]? = some line ∧ ¬ line.SaysFunc) ∧
    stops (stripLines funcsCall) = [0, 1, 4] ∧
    (functions (findings funcsCall)).map (fun f => (f.name, f.startLine, f.endLine)) =
      [("s", 2, 4)] := by
  refine ⟨⟨⟨"\tfuncs(".toList, "\tfuncs(".toList⟩, ?_⟩, ?_⟩
  all_goals decide +kernel

end GoOutline
end CodeSurvey
