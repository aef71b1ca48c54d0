import CodeSurvey.Proofs.Lines.Counts

/-
Triple quotes inside the literals of a line.  Where a triple quote is the delimiter of a block, it
is searched for in the whole line, and the first one that is found opens a block unless the line
holds a second one or a comment mark before it.  A line whose triple quotes all stand inside
literals of the other quote should open none.  It does exactly if its literals hold one triple quote
of a kind alone, with no comment mark before it (`LoneTriple`).
-/

namespace CodeSurvey
namespace LineClass

open Text

def triple (quote : Char) : List Char := [quote, quote, quote]

/-- A quote or backslash in the body of a literal stands behind a backslash. -/
def isBody (quote : Char) : List Char → Bool
  | [] => true
  | '\\' :: _ :: rest => isBody quote rest
  | c :: rest => c != '\\' && c != quote && isBody quote rest

/-- A part of a line: a character outside of literals, or a literal. -/
inductive Piece where
  | plain (c : Char)
  | literal (quote : Char) (body : List Char)
  deriving Repr, DecidableEq

namespace Piece

def text : Piece → List Char
  | plain c => [c]
  | literal quote body => quote :: (body ++ [quote])

def WellFormed : Piece → Prop
  | plain c => c ≠ '"' ∧ c ≠ '\'' ∧ c ≠ '#'
  | literal quote body => (quote = '"' ∨ quote = '\'') ∧ isBody quote body = true

/-- A literal with a triple quote in it. -/
def Hides (quote : Char) : Piece → Prop
  | plain _ => False
  | literal _ body => triple quote <:+: body

end Piece

def textOf (pieces : List Piece) : List Char := pieces.flatMap Piece.text

/-- What can be left of a line: nothing, a comment, or a literal that does not end on it. -/
def IsRest : List Char → Prop
  | [] => True
  | c :: more =>
    c = '#' ∨ (c = '"' ∨ c = '\'') ∧ ¬ ∃ body after, isBody c body = true ∧
    more = body ++ c :: after

/-- A line cut into literals and what stands around them. -/
structure PiecedLine where
  pieces : List Piece
  rest : List Char
  wellFormed : ∀ piece ∈ pieces, piece.WellFormed
  isRest : IsRest rest

namespace PiecedLine

def text (line : PiecedLine) : List Char := textOf line.pieces ++ line.rest

/-- Every triple quote stands inside a literal. -/
def HidesTriples (line : PiecedLine) : Prop :=
  ∀ quote, quote = '"' ∨ quote = '\'' →
    ∀ before after, line.text = before ++ triple quote ++ after →
    ∃ front other inner further back,
      line.pieces = front ++ .literal other (inner ++ triple quote ++ further) :: back ∧
        before = textOf front ++ other :: inner

/-- The literals of the line hold one triple quote, and no comment mark stands before it. -/
def LoneTriple (line : PiecedLine) (quote : Char) : Prop :=
  ∃ front other body back inner further, line.pieces = front ++ .literal other body :: back ∧
    breakOn (triple quote) body = some (inner, further) ∧ ¬ triple quote <:+: further ∧
    (∀ piece ∈ front ++ back, ¬ piece.Hides quote) ∧ '#' ∉ textOf front ++ inner

/-! ## Every line has its pieces -/

theorem exists_text_eq (text : List Char) : ∃ line : PiecedLine, line.text = text := by
  -- on the length, since a literal takes many characters at once
  induction hlength : text.length using Nat.strong_induction_on generalizing text with
  | _ length ih =>
    cases text with
    | nil => exact ⟨⟨[], [], by simp, trivial⟩, rfl⟩
    | cons c more =>
        by_cases hquote : c = '"' ∨ c = '\''
        · by_cases hcloses : ∃ body after, isBody c body = true ∧ more = body ++ c :: after
          · obtain ⟨body, after, hbody, rfl⟩ := hcloses
            obtain ⟨line, hline⟩ := ih after.length (by simp at hlength; omega) after rfl
            refine ⟨⟨.literal c body :: line.pieces, line.rest, ?_, line.isRest⟩, ?_⟩
            · exact List.forall_mem_cons.mpr ⟨⟨hquote, hbody⟩, line.wellFormed⟩
            · rw [← hline]
              simp [PiecedLine.text, textOf, Piece.text]
          · exact ⟨⟨[], c :: more, by simp, .inr ⟨hquote, hcloses⟩⟩, rfl⟩
        · by_cases hmark : c = '#'
          · exact ⟨⟨[], c :: more, by simp, .inl hmark⟩, rfl⟩
          · obtain ⟨line, hline⟩ := ih more.length (by simp at hlength; omega) more rfl
            rw [not_or] at hquote
            refine ⟨⟨.plain c :: line.pieces, line.rest, ?_, line.isRest⟩, ?_⟩
            · exact List.forall_mem_cons.mpr ⟨⟨hquote.1, hquote.2, hmark⟩, line.wellFormed⟩
            · rw [← hline]
              rfl

/-! ## Where a triple quote is found -/

variable {line : PiecedLine} {quote other : Char} {front back : List Piece}
  {body inner further before after : List Char}

theorem textOf_append (front back : List Piece) :
    textOf (front ++ back) = textOf front ++ textOf back :=
  List.flatMap_append

theorem text_around {part : List Char}
    (h : line.pieces = front ++ .literal other (inner ++ part ++ further) :: back) :
    line.text = (textOf front ++ other :: inner) ++ part ++
      (further ++ other :: (textOf back ++ line.rest)) := by
  rw [text, h, textOf_append]
  simp [textOf, Piece.text]

/-- Only one piece can hide what no other piece hides. -/
theorem eq_of_hides {front' back' : List Piece} {piece piece' : Piece}
    (h : front ++ piece :: back = front' ++ piece' :: back') (hhides : piece'.Hides quote)
    (hnone : ∀ piece ∈ front ++ back, ¬ piece.Hides quote) : front = front' ∧ piece = piece' := by
  rcases List.append_eq_append_iff.mp h with ⟨between, hfront, hback⟩ | ⟨between, hfront, hback⟩
  · cases between with
    | nil =>
        rw [List.append_nil] at hfront
        exact ⟨hfront.symm, (List.cons.inj hback).1⟩
    | cons _ between =>
        have hmem : piece' ∈ back := by
          rw [(List.cons.inj hback).2]
          simp
        exact absurd hhides (hnone piece' (List.mem_append_right front hmem))
  · cases between with
    | nil =>
        rw [List.append_nil] at hfront
        exact ⟨hfront, (List.cons.inj hback).1.symm⟩
    | cons first between =>
        have hmem : piece' ∈ front := by
          rw [hfront, (List.cons.inj hback).1]
          simp
        exact absurd hhides (hnone piece' (List.mem_append_left back hmem))

theorem quote_ne_mark (h : .literal other body ∈ line.pieces) : other ≠ '#' := by
  obtain ⟨hquote, _⟩ := line.wellFormed _ h
  rcases hquote with rfl | rfl <;> decide

/-- If only one literal hides a triple quote, every triple quote of the line stands in it. -/
theorem occurs_in_literal (hhidden : line.HidesTriples) (hquote : quote = '"' ∨ quote = '\'')
    (hpieces : line.pieces = front ++ .literal other body :: back)
    (hothers : ∀ piece ∈ front ++ back, ¬ piece.Hides quote)
    (hoccurs : line.text = before ++ triple quote ++ after) :
    ∃ inner further, body = inner ++ triple quote ++ further ∧
    before = textOf front ++ other :: inner := by
  obtain ⟨front', other', inner, further, back', hpieces', hbefore⟩ :=
    hhidden quote hquote before after hoccurs
  have hhides : (Piece.literal other' (inner ++ triple quote ++ further)).Hides quote :=
    ⟨inner, further, rfl⟩
  rw [hpieces] at hpieces'
  obtain ⟨rfl, hsame⟩ := eq_of_hides hpieces' hhides hothers
  obtain ⟨rfl, rfl⟩ := Piece.literal.inj hsame
  exact ⟨inner, further, rfl, hbefore⟩

/-- The search finds a triple quote that is alone, and no other after it. -/
theorem breakOn_of_lone (hhidden : line.HidesTriples) (hquote : quote = '"' ∨ quote = '\'')
    (hpieces : line.pieces = front ++ .literal other body :: back)
    (hbody : breakOn (triple quote) body = some (inner, further))
    (honce : ¬ triple quote <:+: further) (hothers : ∀ piece ∈ front ++ back, ¬ piece.Hides quote) :
    breakOn (triple quote) line.text =
        some (textOf front ++ other :: inner, further ++ other :: (textOf back ++ line.rest)) ∧
      ¬ triple quote <:+: further ++ other :: (textOf back ++ line.rest) := by
  have htext : line.text =
      (textOf front ++ other :: inner) ++ triple quote ++
        (further ++ other :: (textOf back ++ line.rest)) := by
    rw [eq_of_breakOn hbody] at hpieces
    exact text_around hpieces
  refine ⟨breakOn_eq_some_iff.mpr ⟨htext, ?_⟩, ?_⟩
  · intro before after hoccurs
    obtain ⟨inner', further', hbody', rfl⟩ :=
      occurs_in_literal hhidden hquote hpieces hothers hoccurs
    have hfirst := length_le_of_breakOn hbody hbody'
    simp only [List.length_append, List.length_cons]
    omega
  · rintro ⟨between, after, hagain⟩
    have hoccurs : line.text =
        (textOf front ++ other :: inner ++ triple quote ++ between) ++ triple quote ++ after := by
      rw [htext, ← hagain]
      simp
    -- a second one would stand further on in the same literal
    obtain ⟨inner', further', hbody', hbefore⟩ :=
      occurs_in_literal hhidden hquote hpieces hothers hoccurs
    have hinner : inner' = inner ++ triple quote ++ between := by
      have hcancel : textOf front ++ [other] ++ (inner ++ triple quote ++ between) =
          textOf front ++ [other] ++ inner' := by simpa using hbefore
      exact (List.append_cancel_left hcancel).symm
    have hfurther : further = between ++ triple quote ++ further' := by
      have hsame : inner ++ triple quote ++ further =
          inner ++ triple quote ++ (between ++ triple quote ++ further') := by
        rw [← eq_of_breakOn hbody, hbody', hinner]
        simp
      exact List.append_cancel_left hsame
    exact honce ⟨between, further', hfurther.symm⟩

theorem infix_textOf {pieces : List Piece} {piece : Piece} (hpiece : piece ∈ pieces)
    (hhides : piece.Hides quote) : triple quote <:+: textOf pieces := by
  have hpieceText : triple quote <:+: piece.text := by
    cases piece with
    | plain c => exact absurd hhides id
    | literal other body => exact hhides.trans ⟨[other], [other], by simp [Piece.text]⟩
  obtain ⟨front, back, rfl⟩ := List.append_of_mem hpiece
  exact hpieceText.trans ⟨textOf front, textOf back, by simp [textOf]⟩

/-- What stands before and after the first triple quote, if it is the only one,
shows that it is alone. -/
theorem lone_of_breakOn (hhidden : line.HidesTriples) (hquote : quote = '"' ∨ quote = '\'')
    (hfound : breakOn (triple quote) line.text = some (before, after)) (hmark : '#' ∉ before)
    (honce : ¬ triple quote <:+: after) : line.LoneTriple quote := by
  have htext := eq_of_breakOn hfound
  obtain ⟨front, other, inner, further, back, hpieces, rfl⟩ :=
    hhidden quote hquote before after htext
  have hafter : after = further ++ other :: (textOf back ++ line.rest) := by
    have hsame := htext.symm.trans (text_around hpieces)
    exact List.append_cancel_left hsame
  subst hafter
  refine ⟨front, other, inner ++ triple quote ++ further, back, inner, further, hpieces,
    ?_, ?_, ?_, ?_⟩
  · refine breakOn_eq_some_iff.mpr ⟨rfl, fun inner' further' hother => ?_⟩
    have hoccurs : line.text =
        (textOf front ++ other :: inner') ++ triple quote ++
          (further' ++ other :: (textOf back ++ line.rest)) := by
      rw [hother] at hpieces
      exact text_around hpieces
    have hfirst := length_le_of_breakOn hfound hoccurs
    simp only [List.length_append, List.length_cons] at hfirst
    omega
  · exact fun hagain => honce (hagain.trans (List.prefix_append _ _).isInfix)
  · intro piece hpiece hhides
    rcases List.mem_append.mp hpiece with hfront | hback
    · obtain ⟨start, more, hwhere⟩ := infix_textOf hfront hhides
      have hoccurs : line.text = start ++ triple quote ++
          (more ++ other :: inner ++ triple quote ++
            (further ++ other :: (textOf back ++ line.rest))) := by
        rw [htext, ← hwhere]
        simp
      have hfirst := length_le_of_breakOn hfound hoccurs
      have hlength := congrArg List.length hwhere
      simp only [List.length_append, List.length_cons] at hfirst hlength
      omega
    · refine honce ((infix_textOf hback hhides).trans ⟨further ++ [other], line.rest, ?_⟩)
      simp
  · intro hmem
    refine hmark ?_
    rcases List.mem_append.mp hmem with hfront | hinner
    · exact List.mem_append_left _ hfront
    · exact List.mem_append_right _ (List.mem_cons_of_mem other hinner)

end PiecedLine

/-! ## The search -/

theorem staysOpen_hash_iff (opening : String) (code : List Char) :
    staysOpen ["#"] opening opening code = true ↔
      ∃ before after, breakOn opening.toList code = some (before, after) ∧ '#' ∉ before ∧
        ¬ opening.toList <:+: after := by
  unfold staysOpen
  cases hfound : breakOn opening.toList code with
  | none => simp
  | some found =>
      obtain ⟨before, after⟩ := found
      have hcode : code = before ++ (opening.toList ++ after) := by
        rw [eq_of_breakOn hfound, List.append_assoc]
      have hmark := find_lt_iff '#' before (opening.toList ++ after)
      rw [← hcode] at hmark
      have hagain : contains opening.toList after = false ↔ ¬ opening.toList <:+: after := by
        rw [Bool.eq_false_iff, ne_eq, contains_iff]
      cases hfind : find ['#'] code with
      | none =>
          have hfree : '#' ∉ before := by simpa [hfind] using hmark
          simp [hfind, hagain, hfree]
      | some position =>
          have hplace : position < before.length ↔ '#' ∈ before := by simpa [hfind] using hmark
          simp [hfind, hagain, hplace]

theorem openedBlock_hash_eq_none_iff (text : List Char) :
    openedBlock .hash text = none ↔
      ¬ staysOpen ["#"] "\"\"\"" "\"\"\"" text = true ∧
      ¬ staysOpen ["#"] "'''" "'''" text = true := by
  simp [openedBlock, CommentSyntax.hash, isQuoteLike, Option.map_eq_none_iff, List.find?_eq_none]

/-- Blanks around a line neither hold a triple quote nor hide one. -/
theorem staysOpen_hash_trim {quote : Char} (hquote : quote = '"' ∨ quote = '\'') {opening : String}
    (hopening : opening.toList = triple quote) (line : List Char) :
    staysOpen ["#"] opening opening (trim line) = true ↔
      staysOpen ["#"] opening opening line = true := by
  have hblank : isBlank quote = false := by
    rcases hquote with rfl | rfl <;> decide
  have hvisible : ∀ c ∈ triple quote, isBlank c = false := by simp [triple, hblank]
  have hne : triple quote ≠ [] := List.cons_ne_nil _ _
  obtain ⟨leading, trailing, hleading, htrailing, hsearch⟩ := exists_breakOn_trim line
  have hmark : '#' ∉ leading := not_mem_of_blanks (by decide) hleading
  have hend : ∀ after, triple quote <:+: after ++ trailing ↔ triple quote <:+: after := by
    intro after
    have hafter :=
      breakOn_append_right hne (fun c hc => not_mem_of_blanks (hvisible c hc) htrailing) after
    rw [← not_iff_not, ← breakOn_eq_none_iff, ← breakOn_eq_none_iff, hafter, Option.map_eq_none_iff]
  rw [staysOpen_hash_iff, staysOpen_hash_iff, hopening, hsearch (triple quote) hne hvisible]
  cases breakOn (triple quote) (trim line) with
  | none => simp
  | some found =>
      obtain ⟨before, after⟩ := found
      simp [hmark, hend]

theorem staysOpen_iff_loneTriple {line : PiecedLine} (hhidden : line.HidesTriples) {quote : Char}
    (hquote : quote = '"' ∨ quote = '\'') {opening : String}
    (hopening : opening.toList = triple quote) :
    staysOpen ["#"] opening opening line.text = true ↔ line.LoneTriple quote := by
  rw [staysOpen_hash_iff, hopening]
  constructor
  · rintro ⟨before, after, hfound, hmark, honce⟩
    exact PiecedLine.lone_of_breakOn hhidden hquote hfound hmark honce
  · rintro ⟨front, other, body, back, inner, further, hpieces, hbody, honce, hothers, hmark⟩
    obtain ⟨hfound, hagain⟩ := PiecedLine.breakOn_of_lone hhidden hquote hpieces hbody honce hothers
    refine ⟨_, _, hfound, ?_, hagain⟩
    have hmem : Piece.literal other body ∈ line.pieces := by
      rw [hpieces]
      simp
    have hother := PiecedLine.quote_ne_mark hmem
    rw [List.mem_append, not_or] at hmark
    simp [hmark, hother.symm]

/-- Every line has its pieces.  If all its triple quotes stand inside literals, it leaves a
block open exactly if one of them is alone, and only then are the lines after it counted otherwise
than they would be without it. -/
theorem hidden_triples_open_iff (text : List Char) :
    (∃ line : PiecedLine, line.text = text) ∧
    ∀ line : PiecedLine, line.text = text → (ofLine .hash none text).1 = .code → line.HidesTriples →
      ((ofLine .hash none text).2 = none ↔ ¬ line.LoneTriple '"' ∧ ¬ line.LoneTriple '\'') ∧
      ((∀ rest, ofLines .hash none (text :: rest) = .code :: ofLines .hash none rest) ↔
        ¬ line.LoneTriple '"' ∧ ¬ line.LoneTriple '\'') := by
  refine ⟨PiecedLine.exists_text_eq text, ?_⟩
  intro line htext hcode hhidden
  have hblock : (ofLine .hash none text).2 = none ↔
      ¬ line.LoneTriple '"' ∧ ¬ line.LoneTriple '\'' := by
    rw [ofLine_of_code hcode, openedBlock_hash_eq_none_iff, staysOpen_hash_trim (.inl rfl) rfl,
      staysOpen_hash_trim (.inr rfl) rfl, ← htext, staysOpen_iff_loneTriple hhidden (.inl rfl) rfl,
      staysOpen_iff_loneTriple hhidden (.inr rfl) rfl]
  refine ⟨hblock, ?_⟩
  rw [← hblock]
  constructor
  · intro hrest
    cases hopen : (ofLine .hash none text).2 with
    | none => rfl
    | some closing =>
        -- an empty line would be counted as a comment
        have hblank : ofLines .hash none [[]] = [.blank] := by decide
        have hempty := hrest [[]]
        rw [ofLines_cons, hcode, hopen, hblank] at hempty
        have hclass := (List.cons.inj (List.cons.inj hempty).2).1
        simp at hclass
  · intro hnone rest
    rw [ofLines_cons, hnone, hcode]

/-- A triple quote is looked for at each place of the line. -/
theorem hidesTriples_of_places {line : PiecedLine}
    (h : ∀ quote, quote = '"' ∨ quote = '\'' →
      ∀ place ≤ line.text.length, triple quote <+: line.text.drop place →
      ∃ front other inner further back,
        line.pieces = front ++ .literal other (inner ++ triple quote ++ further) :: back ∧
          line.text.take place = textOf front ++ other :: inner) : line.HidesTriples := by
  intro quote hquote before after htext
  have hle : before.length ≤ line.text.length := by
    rw [htext, List.length_append, List.length_append]
    omega
  have hhere : line.text.drop before.length = triple quote ++ after := by
    rw [htext, List.append_assoc, List.drop_left]
  have hbefore : line.text.take before.length = before := by
    rw [htext, List.append_assoc, List.take_left]
  have hplace := h quote hquote before.length hle ⟨after, hhere.symm⟩
  rwa [hbefore] at hplace

/-- Two triple quotes, each in a literal. -/
def pairedTriples : PiecedLine where
  pieces := [.plain 'x', .plain '=', .literal '\'' (triple '"'), .plain '+',
    .literal '\'' (triple '"')]
  rest := []
  wellFormed := by simp [Piece.WellFormed, isBody, triple]
  isRest := trivial

theorem hidden_triples_open_iff_pairedTriples :
    pairedTriples.text = "x='\"\"\"'+'\"\"\"'".toList ∧
    (ofLine .hash none pairedTriples.text).1 = .code ∧
      pairedTriples.HidesTriples ∧
      (¬ pairedTriples.LoneTriple '"' ∧ ¬ pairedTriples.LoneTriple '\'') ∧
      ∀ rest, ofLines .hash none (pairedTriples.text :: rest) =
        .code :: ofLines .hash none rest := by
  have htext : pairedTriples.text = "x='\"\"\"'+'\"\"\"'".toList := by decide
  have hline : ofLine .hash none pairedTriples.text = (.code, none) := by decide +kernel
  have hhidden : pairedTriples.HidesTriples := by
    apply hidesTriples_of_places
    intro quote hquote place hle hhere
    rcases hquote with rfl | rfl
    · have hplace : ∀ place ≤ pairedTriples.text.length,
          triple '"' <+: pairedTriples.text.drop place →
          place = 3 ∨ place = 9 := by decide +kernel
      rcases hplace place hle hhere with rfl | rfl
      · exact ⟨[.plain 'x', .plain '='], '\'', [], [], [.plain '+', .literal '\'' (triple '"')],
          rfl, by decide⟩
      · exact ⟨[.plain 'x', .plain '=', .literal '\'' (triple '"'), .plain '+'], '\'', [], [], [],
          rfl, by decide⟩
    · have hplace : ∀ place ≤ pairedTriples.text.length,
          ¬ triple '\'' <+: pairedTriples.text.drop place := by
        decide +kernel
      exact absurd hhere (hplace place hle)
  have hcode : (ofLine .hash none pairedTriples.text).1 = .code := by rw [hline]
  have hnone : (ofLine .hash none pairedTriples.text).2 = none := by rw [hline]
  obtain ⟨hblock, hrest⟩ :=
    (hidden_triples_open_iff pairedTriples.text).2 pairedTriples rfl hcode hhidden
  have hpaired := hblock.mp hnone
  exact ⟨htext, hcode, hhidden, hpaired, hrest.mpr hpaired⟩

/-- One triple quote in a literal. -/
def singleTriple : PiecedLine where
  pieces := [.plain 'x', .plain '=', .literal '\'' (triple '"')]
  rest := []
  wellFormed := by simp [Piece.WellFormed, isBody, triple]
  isRest := trivial

/-- The delimiter inside the literal opens a block, and the next line counts as a comment. -/
theorem hidden_triple_opens_block :
    singleTriple.text = "x='\"\"\"'".toList ∧ singleTriple.HidesTriples ∧
      ofLine .hash none singleTriple.text = (.code, some "\"\"\"") ∧
      ofLines .hash none [singleTriple.text, "y=1".toList] = [.code, .comment] := by
  refine ⟨by decide, ?_, by decide +kernel, by decide +kernel⟩
  apply hidesTriples_of_places
  intro quote hquote place hle hhere
  rcases hquote with rfl | rfl
  · have hplace : ∀ place ≤ singleTriple.text.length, triple '"' <+: singleTriple.text.drop place →
        place = 3 := by
      decide +kernel
    obtain rfl := hplace place hle hhere
    exact ⟨[.plain 'x', .plain '='], '\'', [], [], [], rfl, by decide⟩
  · have hplace : ∀ place ≤ singleTriple.text.length,
        ¬ triple '\'' <+: singleTriple.text.drop place := by
      decide +kernel
    exact absurd hhere (hplace place hle)

end LineClass
end CodeSurvey
