import CodeSurvey.Proofs.Outline.GoBraces
import CodeSurvey.Proofs.Outline.GoHeaders

/-
Which fields of a Go structure are read.  Each line is cut at all its commas, and each piece gives
its first word if that begins like a name (`fieldsOn_eq`).  A star before a name is meant to be
dropped, but a word with one does not begin like a name, so an embedded pointer is lost.  A comma
inside the type of a field is cut at as well, and what follows it is taken for a field if it begins
like a name (`Line.Declares.fieldsOn_eq`).
-/

namespace CodeSurvey
namespace GoOutline

open Text Checked

/-! ## Names -/

def beginsName (text : List Char) : Bool := text.head?.any fun c => isAlphabetic c || c == '_'

def IsIdentifier (name : List Char) : Prop :=
  beginsName name = true ∧ ∀ c ∈ name, isWordChar c = true

instance : DecidablePred IsIdentifier := fun name =>
  decidable_of_iff (beginsName name = true ∧ name.all isWordChar = true)
    (and_congr_right fun _ => List.all_eq_true)

/-- The field that is read off a piece of a line. -/
def pieceField (piece : List Char) : Option String :=
  if beginsName (trimStart piece) then some (String.ofList (upTo isBlank (trimStart piece)))
  else none

section Names

variable {c : Char} {lead name after piece rest : List Char}

theorem isBlank_of_trimStart (h : trimStart piece = c :: rest) : isBlank c = false := by
  have hhead := List.head?_dropWhile_not isBlank piece
  rw [← trimStart, h] at hhead
  exact hhead

/-- Dropping stars changes nothing: a word that begins like a name has none before it. -/
theorem fieldsOn_eq (line : Line) :
    fieldsOn line = (splitWhere (· == ',') (trim line.code)).filterMap pieceField := by
  unfold fieldsOn
  congr 1
  funext piece
  rw [head?_words]
  cases hpiece : trimStart piece with
  | nil => simp [pieceField, hpiece, beginsName]
  | cons c rest =>
      have hword : upTo isBlank (c :: rest) = c :: upTo isBlank rest := by
        simp [upTo, isBlank_of_trimStart hpiece]
      rw [if_neg (List.cons_ne_nil c rest), hword, pieceField, hpiece, hword]
      by_cases hname : (isAlphabetic c || c == '_') = true
      · have hstar : (c == '*') = false := by
          rw [Bool.eq_false_iff]
          intro hc
          rw [beq_iff_eq.mp hc] at hname
          revert hname
          decide +kernel
        simp [beginsName, hname, hstar]
      · simp [beginsName, hname]

theorem IsIdentifier.not_isBlank (h : IsIdentifier name) : ∀ c ∈ name, isBlank c = false := by
  intro c hc
  exact isBlank_of_isWordChar (h.2 c hc)

theorem pieceField_of_identifier (hlead : ∀ c ∈ lead, isBlank c = true) (hname : IsIdentifier name)
    (hafter : after.head?.all isBlank = true) :
    pieceField (lead ++ (name ++ after)) = some (String.ofList name) := by
  have hstart : trimStart (lead ++ (name ++ after)) = name ++ after := by
    apply dropWhile_append_of_head hlead
    cases name with
    | nil => exact absurd hname.1 (by decide)
    | cons c name => simp [hname.not_isBlank c List.mem_cons_self]
  have hword : upTo isBlank (name ++ after) = name := by
    apply takeWhile_append_of_head
    · intro c hc
      rw [hname.not_isBlank c hc]
      rfl
    · simpa using hafter
  have hbegins : beginsName (name ++ after) = true := by
    cases name with
    | nil => exact absurd hname.1 (by decide)
    | cons c name => exact hname.1
  rw [pieceField, hstart, hbegins, if_pos rfl, hword]

end Names

/-! ## Members -/

/-- What a line of a structure declares. -/
inductive Member where
  | fields (names : List (List Char)) (type : List Char)
  | embedded (isPointer : Bool) (name : List Char)
  /-- a line without code -/
  | nothing

namespace Member

def names : Member → List String
  | fields names _ => names.map String.ofList
  | embedded _ name => [String.ofList name]
  | nothing => []

end Member

/-- As many closing brackets as opening ones, of each sort. -/
structure BracketsEven (text : List Char) : Prop where
  parentheses : text.count '(' = text.count ')'
  brackets : text.count '[' = text.count ']'
  braces : text.count '\x7b' = text.count '\x7d'

/-- A name with blanks around it. -/
def NamedBy (name piece : List Char) : Prop :=
  ∃ lead gap, piece = lead ++ (name ++ gap) ∧ IsIdentifier name ∧ (∀ c ∈ lead, isBlank c = true) ∧
    ∀ c ∈ gap, isBlank c = true

/-- The code of a line that declares a member, up to blanks at its ends.  Names of one type are
separated by commas, and at least one blank comes before the type. -/
inductive Written : Member → List Char → Prop where
  | fields {earlier pieces : List (List Char)} {name lead gap type code : List Char}
      (hearlier : List.Forall₂ NamedBy earlier pieces) (hname : IsIdentifier name)
      (hlead : ∀ c ∈ lead, isBlank c = true) (hgap : gap ≠ [] ∧ ∀ c ∈ gap, isBlank c = true)
      (htype : BracketsEven type)
      (hcode : code = pieces.flatMap (· ++ [',']) ++ (lead ++ (name ++ (gap ++ type)))) :
      Written (.fields (earlier ++ [name]) type) code
  | name {name : List Char} (hname : IsIdentifier name) : Written (.embedded false name) name
  | pointer {name : List Char} (hname : IsIdentifier name) :
      Written (.embedded true name) ('*' :: name)
  | nothing : Written .nothing []

/-- A line of a structure, with blanks around what it declares. -/
def Line.Declares (line : Line) (member : Member) : Prop := Written member (trim line.code)

/-- What is taken for fields behind the commas of a type. -/
def strays (type : List Char) : List String :=
  (splitWhere (· == ',') type).tail.filterMap pieceField

namespace Member

/-- The fields that are read where a member is declared. -/
def fieldsRead : Member → List String
  | fields names type => names.map String.ofList ++ strays type
  | embedded isPointer name => if isPointer then [] else [String.ofList name]
  | nothing => []

/-- No comma of the type has the beginning of a name behind it, and an embedded
type is no pointer. -/
def IsPlain : Member → Prop
  | fields _ type => ∀ back, ',' :: back <:+ type → beginsName (trimStart back) = false
  | embedded isPointer _ => isPointer = false
  | nothing => True

end Member

section Strays

variable {c : Char} {type rest : List Char}

theorem strays_cons_comma (rest : List Char) :
    strays (',' :: rest) = (splitWhere (· == ',') rest).filterMap pieceField := by
  rfl

theorem strays_cons_of_ne (hc : c ≠ ',') (rest : List Char) : strays (c :: rest) = strays rest := by
  obtain ⟨piece, pieces, hpieces⟩ :=
    List.exists_cons_of_ne_nil (splitWhere_ne_nil (p := (· == ',')) rest)
  unfold strays
  rw [splitWhere, if_neg (mt beq_iff_eq.mp hc), hpieces]
  rfl

theorem filterMap_splitWhere (rest : List Char) :
    (splitWhere (· == ',') rest).filterMap pieceField =
      (pieceField (upTo (· == ',') rest)).toList ++ strays rest := by
  have hfirst := head?_splitWhere (p := (· == ',')) rest
  obtain ⟨piece, pieces, hpieces⟩ :=
    List.exists_cons_of_ne_nil (splitWhere_ne_nil (p := (· == ',')) rest)
  rw [hpieces, List.head?_cons, Option.some.injEq] at hfirst
  rw [strays, hpieces, ← hfirst, List.filterMap_cons]
  cases pieceField piece <;> rfl

/-- The beginning of a piece is the beginning of all that follows, unless it is blank: a
comma begins no name. -/
theorem beginsName_upTo (rest : List Char) :
    beginsName (trimStart (upTo (· == ',') rest)) = beginsName (trimStart rest) := by
  induction rest with
  | nil => rfl
  | cons c rest ih =>
      by_cases hcomma : c = ','
      · subst hcomma
        have hend : upTo (· == ',') (',' :: rest) = [] := List.takeWhile_cons_of_neg (by decide)
        have hstart : trimStart (',' :: rest) = ',' :: rest :=
          List.dropWhile_cons_of_neg (by decide)
        rw [hend, hstart]
        show false = (isAlphabetic ',' || ',' == '_')
        decide +kernel
      · have hupTo : upTo (· == ',') (c :: rest) = c :: upTo (· == ',') rest := by
          simp [upTo, hcomma]
        rw [hupTo]
        by_cases hblank : isBlank c = true
        · rw [trimStart, trimStart, List.dropWhile_cons_of_pos hblank,
            List.dropWhile_cons_of_pos hblank]
          exact ih
        · rw [trimStart, trimStart, List.dropWhile_cons_of_neg hblank,
            List.dropWhile_cons_of_neg hblank]
          rfl

theorem pieceField_eq_none_iff (piece : List Char) :
    pieceField piece = none ↔ beginsName (trimStart piece) = false := by
  unfold pieceField
  cases beginsName (trimStart piece) <;> simp

theorem strays_eq_nil_iff (type : List Char) :
    strays type = [] ↔ ∀ back, ',' :: back <:+ type → beginsName (trimStart back) = false := by
  induction type with
  | nil => exact iff_of_true rfl (by simp)
  | cons c rest ih =>
      by_cases hcomma : c = ','
      · subst hcomma
        rw [strays_cons_comma, filterMap_splitWhere, List.append_eq_nil_iff,
          Option.toList_eq_nil_iff, pieceField_eq_none_iff, beginsName_upTo, ih]
        constructor
        · intro h back hback
          rcases List.suffix_cons_iff.mp hback with heq | hlater
          · rw [(List.cons.inj heq).2]
            exact h.1
          · exact h.2 back hlater
        · intro h
          exact ⟨h rest List.suffix_rfl,
            fun back hback => h back (hback.trans (List.suffix_cons _ _))⟩
      · rw [strays_cons_of_ne hcomma, ih]
        constructor
        · intro h back hback
          rcases List.suffix_cons_iff.mp hback with heq | hlater
          · exact absurd (List.cons.inj heq).1.symm hcomma
          · exact h back hlater
        · intro h back hback
          exact h back (hback.trans (List.suffix_cons _ _))

end Strays

/-- What is read is what is declared exactly if the member is plain. -/
theorem Member.fieldsRead_eq_names_iff (member : Member) :
    member.fieldsRead = member.names ↔ member.IsPlain := by
  cases member with
  | fields names type =>
      show names.map String.ofList ++ strays type = names.map String.ofList ↔ _
      rw [List.append_right_eq_self, strays_eq_nil_iff]
      rfl
  | embedded isPointer name => cases isPointer <;> simp [fieldsRead, Member.names, IsPlain]
  | nothing => exact iff_of_true rfl trivial

instance : DecidablePred Member.IsPlain :=
  fun member => decidable_of_iff _ member.fieldsRead_eq_names_iff

/-! ## Lines -/

section Lines

variable {member : Member} {code name lead gap : List Char} {earlier pieces : List (List Char)}
  {line : Line} {c : Char}

theorem IsIdentifier.not_mem (h : IsIdentifier name) (hc : isWordChar c = false) : c ∉ name := by
  intro hmem
  have hword := h.2 c hmem
  rw [hc] at hword
  contradiction

/-- Commas and braces are neither blank nor part of a word, so none is in a name or in
the blanks around it. -/
theorem not_mem_named (hc : isWordChar c = false ∧ isBlank c = false) (hname : IsIdentifier name)
    (hlead : ∀ d ∈ lead, isBlank d = true) (hgap : ∀ d ∈ gap, isBlank d = true) :
    c ∉ lead ++ (name ++ gap) := by
  rw [List.mem_append, List.mem_append]
  intro h
  rcases h with h | h | h
  · exact not_mem_of_blanks hc.2 hlead h
  · exact hname.not_mem hc.1 h
  · exact not_mem_of_blanks hc.2 hgap h

theorem comma_outside : isWordChar ',' = false ∧ isBlank ',' = false := by decide +kernel

theorem beq_comma_of_not_mem (h : ',' ∉ code) : ∀ c ∈ code, (c == ',') = false := by
  simp only [beq_eq_false_iff_ne]
  exact List.forall_mem_ne'.mpr h

theorem head?_all_of_blanks (hgap : ∀ d ∈ gap, isBlank d = true) :
    gap.head?.all isBlank = true := by
  cases gap with
  | nil => rfl
  | cons d gap => exact hgap d List.mem_cons_self

/-- Each name that a comma follows is read, whatever comes behind the last of these commas. -/
theorem filterMap_earlier (h : List.Forall₂ NamedBy earlier pieces) (last : List Char) :
    (splitWhere (· == ',') (pieces.flatMap (· ++ [',']) ++ last)).filterMap pieceField =
      earlier.map String.ofList ++ (splitWhere (· == ',') last).filterMap pieceField := by
  induction h with
  | nil => rfl
  | @cons name piece earlier pieces hpiece _ ih =>
      obtain ⟨lead, gap, hparts, hname, hlead, hgap⟩ := hpiece
      have hsingle : splitWhere (· == ',') piece = [piece] := by
        rw [hparts]
        exact splitWhere_eq_singleton
          (beq_comma_of_not_mem (not_mem_named comma_outside hname hlead hgap))
      have hfield : pieceField piece = some (String.ofList name) := by
        rw [hparts]
        exact pieceField_of_identifier hlead hname (head?_all_of_blanks hgap)
      rw [List.flatMap_cons, List.append_assoc, List.append_assoc, List.singleton_append,
        splitWhere_append (p := (· == ',')) (beq_self_eq_true ','), hsingle,
        List.filterMap_append, ih, List.filterMap_cons_some hfield]
      rfl

/-- Of a line that declares a member, the names are read and what stands behind
the commas of a type. -/
theorem Line.Declares.fieldsOn_eq (h : line.Declares member) :
    fieldsOn line = member.fieldsRead := by
  unfold Line.Declares at h
  rw [GoOutline.fieldsOn_eq]
  generalize trim line.code = code at h
  cases h with
  | @fields earlier pieces name lead gap type _ hearlier hname hlead hgap _ hcode =>
      obtain ⟨first, others, htype⟩ :=
        List.exists_cons_of_ne_nil (splitWhere_ne_nil (p := (· == ',')) type)
      have hlast : splitWhere (· == ',') (lead ++ (name ++ (gap ++ type))) =
          (lead ++ (name ++ (gap ++ first))) :: others := by
        have hcomma := not_mem_named comma_outside hname hlead hgap.2
        have hsplit := splitWhere_append_left (beq_comma_of_not_mem hcomma) htype
        simpa only [List.append_assoc] using hsplit
      have hfield : pieceField (lead ++ (name ++ (gap ++ first))) = some (String.ofList name) := by
        apply pieceField_of_identifier hlead hname
        obtain ⟨d, blanks, rfl⟩ := List.exists_cons_of_ne_nil hgap.1
        exact hgap.2 d List.mem_cons_self
      rw [hcode, filterMap_earlier hearlier, hlast, List.filterMap_cons_some hfield,
        Member.fieldsRead, strays, htype]
      simp
  | name hname =>
      have hcomma := beq_comma_of_not_mem (hname.not_mem comma_outside.1)
      have hfield : pieceField ([] ++ (code ++ [])) = some (String.ofList code) :=
        pieceField_of_identifier (by simp) hname rfl
      rw [List.nil_append, List.append_nil] at hfield
      rw [splitWhere_eq_singleton hcomma, List.filterMap_cons_some hfield]
      rfl
  | @pointer name hname =>
      have hcomma := beq_comma_of_not_mem (hname.not_mem comma_outside.1)
      have hsingle : splitWhere (· == ',') ('*' :: name) = ['*' :: name] :=
        splitWhere_eq_singleton (List.forall_mem_cons.mpr ⟨by decide, hcomma⟩)
      have hfield : pieceField ('*' :: name) = none := by
        rw [pieceField_eq_none_iff, trimStart, List.dropWhile_cons_of_neg (by decide)]
        show (isAlphabetic '*' || '*' == '_') = false
        decide +kernel
      rw [hsingle, List.filterMap_cons_none hfield]
      rfl
  | nothing => rfl

theorem not_mem_earlier (hc : isWordChar c = false ∧ isBlank c = false) (hcomma : c ≠ ',')
    (h : List.Forall₂ NamedBy earlier pieces) : c ∉ pieces.flatMap (· ++ [',']) := by
  induction h with
  | nil => simp
  | cons hpiece _ ih =>
      obtain ⟨lead, gap, hparts, hname, hlead, hgap⟩ := hpiece
      rw [List.flatMap_cons, List.mem_append, List.mem_append, hparts]
      intro h
      rcases h with (h | h) | h
      · exact not_mem_named hc hname hlead hgap h
      · exact hcomma (List.mem_singleton.mp h)
      · exact ih h

/-- Braces are only in the type of a member, and something comes before it. -/
theorem Written.exists_front (h : Written member code) :
    ∃ front type, code = front ++ type ∧ (front = [] → type = []) ∧
    (∀ brace ∈ ['\x7b', '\x7d'], brace ∉ front) ∧ type.count '\x7b' = type.count '\x7d' := by
  have hbraces : ∀ brace ∈ ['\x7b', '\x7d'],
      (isWordChar brace = false ∧ isBlank brace = false) ∧ brace ≠ ',' ∧ brace ≠ '*' := by
    intro brace hbrace
    rcases List.mem_pair.mp hbrace with rfl | rfl <;> decide +kernel
  cases h with
  | @fields earlier pieces name lead gap type _ hearlier hname hlead hgap htype hcode =>
      refine ⟨pieces.flatMap (· ++ [',']) ++ (lead ++ (name ++ gap)), type, ?_, ?_, ?_, ?_⟩
      · rw [hcode]
        simp only [List.append_assoc]
      · intro hnil
        simp [hgap.1] at hnil
      · intro brace hbrace hmem
        obtain ⟨hc, hcomma, _⟩ := hbraces brace hbrace
        rcases List.mem_append.mp hmem with h | h
        · exact not_mem_earlier hc hcomma hearlier h
        · exact not_mem_named hc hname hlead hgap.2 h
      · exact htype.braces
  | name hname =>
      refine ⟨code, [], (List.append_nil _).symm, fun _ => rfl, ?_, rfl⟩
      intro brace hbrace hmem
      exact hname.not_mem (hbraces brace hbrace).1.1 hmem
  | @pointer name hname =>
      refine ⟨'*' :: name, [], (List.append_nil _).symm, fun _ => rfl, ?_, rfl⟩
      intro brace hbrace hmem
      obtain ⟨hc, _, hstar⟩ := hbraces brace hbrace
      exact hname.not_mem hc.1 ((List.mem_cons.mp hmem).resolve_left hstar)
  | nothing => exact ⟨[], [], rfl, fun _ => rfl, by simp, rfl⟩

theorem Line.Declares.braceBalance_eq (h : line.Declares member) : braceBalance line = 0 := by
  obtain ⟨front, type, hcode, _, hfront, htype⟩ := Written.exists_front h
  obtain ⟨leading, trailing, hline, hleading, htrailing⟩ := exists_eq_trim line.code
  have hcount : ∀ brace ∈ ['\x7b', '\x7d'], line.code.count brace = type.count brace := by
    intro brace hbrace
    have hblank : isBlank brace = false := by
      rcases List.mem_pair.mp hbrace with rfl | rfl <;> decide
    rw [hline, hcode, List.count_append, List.count_append, List.count_append,
      List.count_eq_zero.mpr (not_mem_of_blanks hblank hleading),
      List.count_eq_zero.mpr (not_mem_of_blanks hblank htrailing),
      List.count_eq_zero.mpr (hfront brace hbrace)]
    omega
  rw [GoOutline.braceBalance_eq, hcount _ (by simp), hcount _ (by simp), htype]
  omega

/-- A line is left out only if it declares nothing. -/
theorem Line.Declares.fieldsRead_of_isBare (h : line.Declares member) (hbare : isBare line = true) :
    member.fieldsRead = [] := by
  rw [← h.fieldsOn_eq, GoOutline.fieldsOn_eq]
  obtain ⟨front, type, hcode, hfirst, hfront, _⟩ := Written.exists_front h
  cases front with
  | nil =>
      rw [hcode, hfirst rfl]
      rfl
  | cons c front =>
      rw [isBare, hcode] at hbare
      rw [← beq_iff_eq.mp hbare] at hfront
      exact absurd List.mem_cons_self (hfront c (by simp))

/-- The fields of a structure are read member by member. -/
theorem flatMap_fieldsOn {body : List Line} {members : List Member}
    (h : List.Forall₂ Line.Declares body members) :
    (body.filter (! isBare ·)).flatMap fieldsOn = members.flatMap Member.fieldsRead := by
  induction h with
  | nil => rfl
  | @cons line member body members hline _ ih =>
      cases hbare : isBare line with
      | true =>
          rw [List.filter_cons_of_neg (by simp [hbare]), ih, List.flatMap_cons,
            hline.fieldsRead_of_isBare hbare]
          rfl
      | false =>
          rw [List.filter_cons_of_pos (by simp [hbare]), List.flatMap_cons, List.flatMap_cons,
            hline.fieldsOn_eq, ih]

end Lines

/-! ## Structures -/

/-- A structure that is declared from line `start` on.  Each line between the one that opens it and
the one that closes it declares a member. -/
def StructOver (lines : List Line) (start : Nat) (name : List Char) (members : List Member) :
    Prop :=
  ∃ header body closing after rest, lines.drop start = header :: (body ++ closing :: after) ∧
    DeclaresType true name (trim header.code) rest ∧
    List.Forall₂ Line.Declares body members ∧
    0 < braceBalance header ∧ braceBalance header + braceBalance closing ≤ 0

theorem linesToClose_of_even {delta : Line → Int} {depth : Int} {body : List Line} {closing : Line}
    (after : List Line) (hbody : ∀ line ∈ body, delta line = 0) (hopen : 0 < depth)
    (hcloses : depth + delta closing ≤ 0) :
    linesToClose delta depth (body ++ closing :: after) = some (body.length + 1) := by
  induction body with
  | nil => exact if_pos hcloses
  | cons line body ih =>
      obtain ⟨hline, hrest⟩ := List.forall_mem_cons.mp hbody
      rw [List.cons_append, linesToClose, hline, Int.add_zero, if_neg (by omega), ih hrest]
      rfl

theorem forall_braceBalance_eq {body : List Line} {members : List Member}
    (h : List.Forall₂ Line.Declares body members) : ∀ line ∈ body, braceBalance line = 0 := by
  induction h with
  | nil => simp
  | cons hline _ ih => exact List.forall_mem_cons.mpr ⟨hline.braceBalance_eq, ih⟩

/-- The block of a structure ends where it is closed, as no line of a member leaves a brace open. -/
theorem exists_found_struct {position : Position} {body after : List Line} {closing : Line}
    {members : List Member} (hafter : position.after = body ++ closing :: after)
    (hmembers : List.Forall₂ Line.Declares body members) (hopens : 0 < braceBalance position.line)
    (hcloses : braceBalance position.line + braceBalance closing ≤ 0) (name : List Char) :
    ∃ t, (typeAt position name .struct).findings = [.type t] ∧
    (t.name = String.ofList name ∧ t.kind = .struct) ∧
      (t.startLine = position.lineNumber ∧ t.endLine = position.lineNumber + (members.length + 1)) ∧
      t.fields = members.flatMap Member.fieldsRead := by
  have hblock : blockExtent position.line position.after = ⟨body.length + 1, true⟩ := by
    rw [blockExtent, if_neg (by omega), hafter,
      linesToClose_of_even after (forall_braceBalance_eq hmembers) hopens hcloses]
  have hbody : position.after.take (body.length + 1 - 1) = body := by
    rw [Nat.add_sub_cancel, hafter, List.take_left]
  unfold typeAt
  rw [hblock]
  refine ⟨_, rfl, ⟨rfl, rfl⟩, ⟨rfl, ?_⟩, ?_⟩
  · rw [← hmembers.length_eq]
    exact Nat.max_eq_left (Nat.le_add_right _ _)
  · rw [← flatMap_fieldsOn hmembers]
    exact congrArg (fun lines => (lines.filter (! isBare ·)).flatMap fieldsOn) hbody

/-- Every structure is reported with the fields that are read member by member.  They are
those that the member declares exactly if it is plain, so the fields are the declared names
if all members are. -/
theorem struct_fields_by_member (path : Path) (text : List Char) :
    ∃ report, language.outline path (Utf8.encode text) = .outlined report ∧
    ∀ start ∈ stops (fileLines text), ∀ name members,
      StructOver (fileLines text) start name members →
      ∃ t ∈ report.types, (t.name = String.ofList name ∧ t.kind = .struct) ∧
        (t.startLine = start + 1 ∧ t.endLine = start + members.length + 2) ∧
        t.fields = members.flatMap Member.fieldsRead ∧
        (∀ member ∈ members, (member.fieldsRead = member.names ↔ member.IsPlain)) ∧
        ((∀ member ∈ members, member.IsPlain) → t.fields = members.flatMap Member.names) := by
  refine ⟨_, outline_encode path text, ?_⟩
  intro start hstart name members hstruct
  obtain ⟨header, body, closing, after, rest, hlines, hdeclares, hmembers, hopens, hcloses⟩ :=
    hstruct
  obtain ⟨_, hline, hnext⟩ := of_drop_eq_cons hlines
  obtain ⟨tail, hheader⟩ := hdeclares.run_typeHeader
  have hfound : declarationAt (positionAt (fileLines text) start header) =
      some (typeAt (positionAt (fileLines text) start header) name .struct) :=
        declarationAt_of_type hheader
  have hafter : (positionAt (fileLines text) start header).after = body ++ closing :: after := hnext
  obtain ⟨t, hfindings, hnamed, ⟨hfirst, hlast⟩, hfields⟩ :=
    exists_found_struct hafter hmembers hopens hcloses name
  have ht : .type t ∈ findings (Language.withoutMark text) := by
    apply mem_scan_of_found hstart hline hfound
    rw [hfindings]
    exact List.mem_cons_self
  refine ⟨_, mem_types_of_found (distributed_assemble _ path _) ht, hnamed, ⟨hfirst, ?_⟩,
    hfields, ?_, ?_⟩
  · show t.endLine = start + members.length + 2
    rw [hlast]
    show start + 1 + (members.length + 1) = start + members.length + 2
    omega
  · intro member _
    exact member.fieldsRead_eq_names_iff
  · intro hplain
    show t.fields = members.flatMap Member.names
    rw [hfields]
    exact List.flatMap_congr fun member hmember =>
      member.fieldsRead_eq_names_iff.mpr (hplain member hmember)

/-- A line of code alone. -/
def lineOf (code : String) : Line := ⟨code.toList, code.toList⟩

theorem forall_isBlank_space : ∀ c ∈ [' '], isBlank c = true :=
  List.forall_mem_singleton.mpr (by decide)

theorem declaresType_plain :
    DeclaresType true "T".toList (trim (lineOf "type T struct \x7b").code) " \x7b".toList := by
  refine ⟨[' '], [], [' '], ?_, ⟨?_, List.all_eq_true.mp ?_⟩, .inl rfl, ⟨?_, forall_isBlank_space⟩,
    ⟨?_, forall_isBlank_space⟩, ?_⟩
  all_goals decide +kernel

/-- Names with nothing but commas between them and one blank before their type. -/
theorem written_fields {earlier : List (List Char)} {name type : List Char}
    (hearlier : ∀ other ∈ earlier, IsIdentifier other) (hname : IsIdentifier name)
    (htype : BracketsEven type) :
    Written (.fields (earlier ++ [name]) type)
      (earlier.flatMap (· ++ [',']) ++ (name ++ ' ' :: type)) := by
  have hnone : ∀ c ∈ ([] : List Char), isBlank c = true := by simp
  have hpieces : List.Forall₂ NamedBy earlier earlier := by
    rw [List.forall₂_same]
    intro other hother
    exact ⟨[], [], (List.append_nil other).symm, hearlier other hother, hnone, hnone⟩
  exact .fields hpieces hname hnone ⟨List.cons_ne_nil _ _, forall_isBlank_space⟩ htype rfl

/-- Two names of one type, a type with a comma before a star, an empty line and an embedded type. -/
def plainStruct : List Char :=
  "type T struct \x7b\n\ta,b []int\n\tf func(int, *T)\n\n\tBase\n\x7d\n".toList

def plainMembers : List Member :=
  [.fields ["a".toList, "b".toList] "[]int".toList, .fields ["f".toList] "func(int, *T)".toList,
    .nothing, .embedded false "Base".toList]

theorem structOver_plainStruct : StructOver (fileLines plainStruct) 0 "T".toList plainMembers := by
  have hlines : (fileLines plainStruct).drop 0 = lineOf "type T struct \x7b" ::
      ([lineOf "\ta,b []int", lineOf "\tf func(int, *T)", lineOf "",
        lineOf "\tBase"] ++ [lineOf "\x7d"]) := by
    decide +kernel
  have hfirst : trim (lineOf "\ta,b []int").code =
      ["a".toList].flatMap (· ++ [',']) ++ ("b".toList ++ ' ' :: "[]int".toList) := by
        decide +kernel
  have hsecond : trim (lineOf "\tf func(int, *T)").code =
      [].flatMap (· ++ [',']) ++ ("f".toList ++ ' ' :: "func(int, *T)".toList) := by decide +kernel
  have hfourth : trim (lineOf "\tBase").code = "Base".toList := by decide +kernel
  refine ⟨_, _, _, _, _, hlines, declaresType_plain,
    .cons ?_ (.cons ?_ (.cons .nothing (.cons ?_ .nil))), by decide, by decide⟩
  · show Written (.fields (["a".toList] ++ ["b".toList]) _) (trim _)
    rw [hfirst]
    exact written_fields (by decide +kernel) (by decide +kernel) ⟨by decide, by decide, by decide⟩
  · show Written (.fields ([] ++ ["f".toList]) _) (trim _)
    rw [hsecond]
    exact written_fields (by simp) (by decide +kernel) ⟨by decide, by decide, by decide⟩
  · show Written _ (trim _)
    rw [hfourth]
    exact .name (by decide +kernel)

theorem struct_fields_by_member_plainStruct :
    StructOver (fileLines plainStruct) 0 "T".toList plainMembers ∧
    (∀ member ∈ plainMembers, member.IsPlain) ∧
    ∃ report, language.outline ⟨"f.go"⟩ (Utf8.encode plainStruct) = .outlined report ∧
      ∃ t ∈ report.types, t.name = "T" ∧ t.endLine = 6 ∧ t.fields = ["a", "b", "f", "Base"] := by
  obtain ⟨hstart, hplain, hnames⟩ : 0 ∈ stops (fileLines plainStruct) ∧
    (∀ member ∈ plainMembers, member.IsPlain) ∧
      plainMembers.flatMap Member.names = ["a", "b", "f", "Base"] := by decide +kernel
  obtain ⟨report, houtline, hall⟩ := struct_fields_by_member ⟨"f.go"⟩ plainStruct
  obtain ⟨t, ht, ⟨hname, _⟩, ⟨_, hend⟩, _, _, hfields⟩ := hall 0 hstart _ _ structOver_plainStruct
  exact ⟨structOver_plainStruct, hplain, report, houtline, t, ht, hname, hend,
    (hfields hplain).trans hnames⟩

/-- An embedded pointer, and a parameter with a name behind a comma. -/
def pointerStruct : List Char :=
  "type T struct \x7b\n\t*Base\n\tf func(a int, b string)\n\x7d\n".toList

def pointerMembers : List Member :=
  [.embedded true "Base".toList, .fields ["f".toList] "func(a int, b string)".toList]

/-- The pointer is lost, and the parameter is taken for a field. -/
theorem pointer_lost_parameter_read :
    StructOver (stripLines pointerStruct) 0 "T".toList pointerMembers ∧
    pointerMembers.flatMap Member.names = ["Base", "f"] ∧
    (types (findings pointerStruct)).map TypeOutline.fields = [["f", "b"]] := by
  have hlines : (stripLines pointerStruct).drop 0 = lineOf "type T struct \x7b" ::
      ([lineOf "\t*Base", lineOf "\tf func(a int, b string)"] ++ [lineOf "\x7d"]) := by
        decide +kernel
  have hfirst : trim (lineOf "\t*Base").code = '*' :: "Base".toList := by decide +kernel
  have hsecond : trim (lineOf "\tf func(a int, b string)").code =
      [].flatMap (· ++ [',']) ++ ("f".toList ++ ' ' :: "func(a int, b string)".toList) := by
        decide +kernel
  refine ⟨⟨_, _, _, _, _, hlines, declaresType_plain, .cons ?_ (.cons ?_ .nil), by decide,
    by decide⟩, ?_⟩
  · show Written _ (trim _)
    rw [hfirst]
    exact .pointer (by decide +kernel)
  · show Written (.fields ([] ++ ["f".toList]) _) (trim _)
    rw [hsecond]
    exact written_fields (by simp) (by decide +kernel) ⟨by decide, by decide, by decide⟩
  · decide +kernel

end GoOutline
end CodeSurvey
