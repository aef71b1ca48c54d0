import CodeSurvey.Proofs.Lines.BlockComments
import CodeSurvey.Proofs.Lines.TripleQuotes

/-
What stands inside the literals of a line does not matter.  A line is cut into tokens here:
characters that quote nothing, and literals of three sorts, each with its own rule for what its body
may hold.  Blanking goes from token to token and never loses its place (`blankLiterals_token`), so
that it leaves of a line what its tokens leave without their bodies.  The search for an open block
sees nothing else.
-/

namespace CodeSurvey
namespace LineClass

open Text BlockScan

namespace Piece

/-- The body of a character literal: one character, or a backslash and one more. -/
def isCharacter : List Char → Bool
  | [c] => c != '\\'
  | ['\\', _] => true
  | _ => false

def IsToken : Piece → Prop
  | plain c => c ≠ '"' ∧ c ≠ '\'' ∧ c ≠ rawQuote
  | literal quote body =>
    (quote = '"' ∧ isBody '"' body = true) ∨ (quote = rawQuote ∧ rawQuote ∉ body) ∨
      (quote = '\'' ∧ isCharacter body = true)

instance : DecidablePred IsToken
  | plain _ => inferInstanceAs (Decidable (_ ∧ _))
  | literal _ _ => inferInstanceAs (Decidable (_ ∨ _))

def emptied : Piece → Piece
  | plain c => plain c
  | literal quote _ => literal quote []

def isBlankPlain : Piece → Bool
  | plain c => isBlank c
  | literal _ _ => false

end Piece

/-- A line that is made of tokens. -/
structure TokenLine where
  pieces : List Piece
  isToken : ∀ piece ∈ pieces, piece.IsToken

namespace TokenLine

def text (line : TokenLine) : List Char := textOf line.pieces

def emptied (line : TokenLine) : List Piece := line.pieces.map Piece.emptied

end TokenLine

/-! ## One token -/

theorem blankLiterals_string {body : List Char} (h : isBody '"' body = true) (rest : List Char) :
    blankLiterals (some '"') (body ++ '"' :: rest) = '"' :: blankLiterals none rest := by
  fun_induction isBody '"' body with
  | case1 => rfl
  | case2 c more ih => exact ih h
  | case3 c more hescape ih =>
      simp only [Bool.and_eq_true, bne_iff_ne] at h
      obtain ⟨⟨hslash, hquote⟩, hmore⟩ := h
      rw [List.cons_append, blankLiterals, if_neg (mt eq_of_beq hquote), ih hmore]
      · exact fun _ hc => absurd hc hslash
      · exact fun _ _ _ hc => absurd hc hslash

theorem blankLiterals_raw {body : List Char} (h : rawQuote ∉ body) (rest : List Char) :
    blankLiterals (some rawQuote) (body ++ rawQuote :: rest) =
      rawQuote :: blankLiterals none rest := by
  induction body with
  | nil => rfl
  | cons c more ih =>
      rw [List.mem_cons, not_or] at h
      have hstep : blankLiterals (some rawQuote) (c :: (more ++ rawQuote :: rest)) =
          blankLiterals (some rawQuote) (more ++ rawQuote :: rest) := by
        rw [blankLiterals, if_neg (mt eq_of_beq (Ne.symm h.1))]
        · exact fun hquote => absurd hquote (by decide)
        · exact fun _ _ hquote => absurd hquote (by decide)
      rw [List.cons_append, hstep, ih h.2]

theorem blankLiterals_character {body : List Char} (h : Piece.isCharacter body = true)
    (rest : List Char) :
    blankLiterals none ('\'' :: (body ++ '\'' :: rest)) =
      '\'' :: '\'' :: blankLiterals none rest := by
  unfold Piece.isCharacter at h
  split at h
  · next c =>
      have hslash : c ≠ '\\' := bne_iff_ne.mp h
      show blankLiterals none ('\'' :: c :: '\'' :: rest) = _
      rw [blankLiterals, if_neg (mt eq_of_beq hslash)]
      exact fun _ hc _ => absurd hc hslash
  · rfl
  · contradiction

/-- Blanking a token leaves it without its body, and goes on outside of literals behind it. -/
theorem blankLiterals_token {piece : Piece} (h : piece.IsToken) (rest : List Char) :
    blankLiterals none (piece.text ++ rest) = piece.emptied.text ++ blankLiterals none rest := by
  cases piece with
  | plain c => exact blankLiterals_append (List.forall_mem_singleton.mpr h) rest
  | literal quote body =>
      have htext : (Piece.literal quote body).text ++ rest = quote :: (body ++ quote :: rest) := by
        simp [Piece.text]
      rw [htext]
      show _ = quote :: quote :: blankLiterals none rest
      rcases h with ⟨rfl, hbody⟩ | ⟨rfl, hbody⟩ | ⟨rfl, hbody⟩
      · have hopen : blankLiterals none ('"' :: (body ++ '"' :: rest)) =
            '"' :: blankLiterals (some '"') (body ++ '"' :: rest) := rfl
        rw [hopen, blankLiterals_string hbody]
      · have hopen : blankLiterals none (rawQuote :: (body ++ rawQuote :: rest)) =
            rawQuote :: blankLiterals (some rawQuote) (body ++ rawQuote :: rest) := rfl
        rw [hopen, blankLiterals_raw hbody]
      · exact blankLiterals_character hbody rest

/-! ## Whole lines -/

variable {pieces : List Piece}

theorem blankLiterals_textOf (h : ∀ piece ∈ pieces, piece.IsToken) :
    blankLiterals none (textOf pieces) = textOf (pieces.map Piece.emptied) := by
  induction pieces with
  | nil => rfl
  | cons piece rest ih =>
      obtain ⟨hpiece, hrest⟩ := List.forall_mem_cons.mp h
      show blankLiterals none (piece.text ++ textOf rest) = piece.emptied.text ++
        textOf (rest.map Piece.emptied)
      rw [blankLiterals_token hpiece, ih hrest]

theorem openedBlock_cLike_congr {a b : List Char}
    (h : blankLiterals none a = blankLiterals none b) :
    openedBlock .cLike a = openedBlock .cLike b := by
  simp [openedBlock, CommentSyntax.cLike, isQuoteLike, h]

theorem head?_textOf_emptied (pieces : List Piece) :
    (textOf (pieces.map Piece.emptied)).head? = (textOf pieces).head? := by
  cases pieces with
  | nil => rfl
  | cons piece rest => cases piece <;> rfl

/-- Two characters that quote nothing begin a line or they do not, whatever its literals hold. -/
theorem pair_prefix_textOf_emptied {first : Char} (second : Char)
    (hfirst : (Piece.plain first).IsToken) (h : ∀ piece ∈ pieces, piece.IsToken) :
    [first, second] <+: textOf (pieces.map Piece.emptied) ↔ [first, second] <+: textOf pieces := by
  cases pieces with
  | nil => exact Iff.rfl
  | cons piece rest =>
      cases piece with
      | plain c =>
          show [first, second] <+: c :: textOf (rest.map Piece.emptied) ↔
            [first, second] <+: c :: textOf rest
          rw [pair_prefix_iff, pair_prefix_iff, ← List.head?_eq_some_iff, ← List.head?_eq_some_iff,
            head?_textOf_emptied]
      | literal quote body =>
          have hquote : quote ≠ first := by
            rintro rfl
            rcases (List.forall_mem_cons.mp h).1 with ⟨hq, _⟩ | ⟨hq, _⟩ | ⟨hq, _⟩
            · exact hfirst.1 hq
            · exact hfirst.2.2 hq
            · exact hfirst.2.1 hq
          have hnone : ∀ more, ¬ [first, second] <+: quote :: more :=
            fun more hpair => hquote (pair_prefix_iff.mp hpair).1
          exact iff_of_false (hnone _) (hnone _)

/-! ## Blanks around a line -/

/-- The pieces of a trimmed line. -/
def trimPieces (pieces : List Piece) : List Piece :=
  ((pieces.dropWhile Piece.isBlankPlain).reverse.dropWhile Piece.isBlankPlain).reverse

/-- Blanks are dropped piece by piece, from the left if `read` gives the text of a piece and from
the right if it gives the reversed text. -/
theorem dropWhile_flatMap {read : Piece → List Char} (hblank : ∀ c, read (.plain c) = [c])
    (hquote : ∀ quote body, ∃ more, read (.literal quote body) = quote :: more)
    (h : ∀ piece ∈ pieces, piece.IsToken) :
    (pieces.flatMap read).dropWhile isBlank =
      (pieces.dropWhile Piece.isBlankPlain).flatMap read := by
  induction pieces with
  | nil => rfl
  | cons piece rest ih =>
      obtain ⟨hpiece, hrest⟩ := List.forall_mem_cons.mp h
      cases piece with
      | plain c =>
          by_cases hc : isBlank c = true
          · rw [List.flatMap_cons, hblank, List.singleton_append,
              List.dropWhile_cons_of_pos hc, ih hrest,
              List.dropWhile_cons_of_pos (show Piece.isBlankPlain (.plain c) = true from hc)]
          · rw [List.flatMap_cons, hblank, List.singleton_append, List.dropWhile_cons_of_neg hc,
              List.dropWhile_cons_of_neg (show ¬ Piece.isBlankPlain (.plain c) = true from hc),
              List.flatMap_cons, hblank, List.singleton_append]
      | literal quote body =>
          obtain ⟨more, hread⟩ := hquote quote body
          have hvisible : ¬ isBlank quote = true := by
            rcases hpiece with ⟨rfl, _⟩ | ⟨rfl, _⟩ | ⟨rfl, _⟩ <;> decide
          rw [List.flatMap_cons, hread, List.cons_append, List.dropWhile_cons_of_neg hvisible,
            List.dropWhile_cons_of_neg (show ¬ Piece.isBlankPlain (.literal quote body) =
              true from Bool.false_ne_true),
            List.flatMap_cons, hread, List.cons_append]

theorem reverse_textOf (pieces : List Piece) :
    (textOf pieces).reverse = pieces.reverse.flatMap fun piece => piece.text.reverse := by
  rw [textOf, List.reverse_flatMap]
  rfl

theorem trim_textOf (h : ∀ piece ∈ pieces, piece.IsToken) :
    trim (textOf pieces) = textOf (trimPieces pieces) := by
  have hstart : trimStart (textOf pieces) = textOf (pieces.dropWhile Piece.isBlankPlain) :=
    dropWhile_flatMap (fun _ => rfl) (fun _ _ => ⟨_, rfl⟩) h
  have hend : ∀ piece ∈ (pieces.dropWhile Piece.isBlankPlain).reverse, piece.IsToken :=
    fun piece hpiece => h piece ((List.dropWhile_sublist _).subset (List.mem_reverse.mp hpiece))
  have hquote : ∀ quote body, ∃ more, (Piece.literal quote body).text.reverse = quote :: more :=
    fun quote body => ⟨body.reverse ++ [quote], by simp [Piece.text]⟩
  rw [trim, trimEnd, dropEndWhile, hstart, reverse_textOf,
    dropWhile_flatMap (fun _ => rfl) hquote hend, trimPieces]
  rw [← List.reverse_reverse (textOf _), reverse_textOf, List.reverse_reverse]

theorem isToken_trimPieces (h : ∀ piece ∈ pieces, piece.IsToken) :
    ∀ piece ∈ trimPieces pieces, piece.IsToken := by
  intro piece hpiece
  have hstart := (List.dropWhile_sublist _).subset (List.mem_reverse.mp hpiece)
  exact h piece ((List.dropWhile_sublist _).subset (List.mem_reverse.mp hstart))

theorem map_emptied_trimPieces (pieces : List Piece) :
    (trimPieces pieces).map Piece.emptied = trimPieces (pieces.map Piece.emptied) := by
  have hsame : Piece.isBlankPlain ∘ Piece.emptied = Piece.isBlankPlain := by
    funext piece
    cases piece <;> rfl
  rw [trimPieces, trimPieces, List.dropWhile_map, hsame, ← List.map_reverse,
    List.dropWhile_map, hsame, ← List.map_reverse]

theorem ofLine_cLike_code_iff (line : List Char) :
    (ofLine .cLike none line).1 = .code ↔
      trim line ≠ [] ∧ ¬ ['/', '/'] <+: trim line ∧ ¬ ['/', '*'] <+: trim line := by
  rw [← List.isPrefixOf_iff_prefix, ← List.isPrefixOf_iff_prefix]
  cases hempty : trim line with
  | nil => simp [ofLine, hempty]
  | cons c rest =>
      cases hline : ['/', '/'].isPrefixOf (c :: rest) with
      | true => simp [ofLine, hempty, CommentSyntax.cLike, hline]
      | false =>
          cases hopen : ['/', '*'].isPrefixOf (c :: rest) <;>
            simp [ofLine, hempty, CommentSyntax.cLike, hline, hopen]

/-- What the literals of a line of code hold changes neither its class nor the block
that it leaves open. -/
theorem ofLine_congr {others : List Piece} (h : ∀ piece ∈ pieces, piece.IsToken)
    (hothers : ∀ piece ∈ others, piece.IsToken)
    (hsame : pieces.map Piece.emptied = others.map Piece.emptied)
    (hcode : (ofLine .cLike none (textOf pieces)).1 = .code) :
    ofLine .cLike none (textOf others) = ofLine .cLike none (textOf pieces) := by
  have hslash : (Piece.plain '/').IsToken := by decide
  have htrimmed := isToken_trimPieces h
  have htrimmedOthers := isToken_trimPieces hothers
  have hsameTrimmed : (trimPieces pieces).map Piece.emptied =
      (trimPieces others).map Piece.emptied := by
    rw [map_emptied_trimPieces, map_emptied_trimPieces, hsame]
  have hprefix : ∀ second, ['/', second] <+: textOf (trimPieces others) ↔
      ['/', second] <+: textOf (trimPieces pieces) := by
    intro second
    rw [← pair_prefix_textOf_emptied second hslash htrimmedOthers, ← hsameTrimmed,
      pair_prefix_textOf_emptied second hslash htrimmed]
  have hhead : (textOf (trimPieces others)).head? = (textOf (trimPieces pieces)).head? := by
    rw [← head?_textOf_emptied, ← hsameTrimmed, head?_textOf_emptied]
  have hcodeOthers : (ofLine .cLike none (textOf others)).1 = .code := by
    rw [ofLine_cLike_code_iff, trim_textOf h] at hcode
    rw [ofLine_cLike_code_iff, trim_textOf hothers, hprefix, hprefix, ne_eq,
      ← List.head?_eq_none_iff, hhead, List.head?_eq_none_iff]
    exact hcode
  rw [ofLine_of_code hcode, ofLine_of_code hcodeOthers, trim_textOf h, trim_textOf hothers]
  refine congrArg (Prod.mk LineClass.code) (openedBlock_cLike_congr ?_)
  rw [blankLiterals_textOf htrimmedOthers, blankLiterals_textOf htrimmed, hsameTrimmed]

/-- What the literals of a line hold is blanked, and nothing else.  Two lines that differ in it
leave the same block open, and as lines of code they count the same. -/
theorem literal_bodies_ignored (line : TokenLine) :
    blankLiterals none line.text = textOf line.emptied ∧
    ∀ other : TokenLine, other.emptied = line.emptied →
      openedBlock .cLike other.text = openedBlock .cLike line.text ∧
      ((ofLine .cLike none line.text).1 = .code →
        ofLine .cLike none other.text = ofLine .cLike none line.text) := by
  have hblank := blankLiterals_textOf line.isToken
  refine ⟨hblank, ?_⟩
  intro other hsame
  refine ⟨openedBlock_cLike_congr ?_,
    fun hcode => ofLine_congr line.isToken other.isToken hsame.symm hcode⟩
  rw [TokenLine.text, TokenLine.text, blankLiterals_textOf other.isToken, hblank]
  exact congrArg textOf hsame

/-- A call with a string that looks like the start of a comment, and the three sorts of
literals around it. -/
def quotedOpening : TokenLine where
  pieces := [.plain 'f', .plain '(', .literal '"' "/\\\"*".toList, .plain ',',
    .literal rawQuote "\"/*".toList, .plain ',', .literal '\'' "\\'".toList, .plain ',',
    .literal '\'' "'".toList, .plain ')']
  isToken := by decide

/-- The same call with other literals. -/
def quotedNothing : TokenLine where
  pieces := [.plain 'f', .plain '(', .literal '"' [], .plain ',', .literal rawQuote "x".toList,
    .plain ',', .literal '\'' "\"".toList, .plain ',', .literal '\'' "\\n".toList, .plain ')']
  isToken := by decide

theorem literal_bodies_ignored_quotedOpening :
    quotedOpening.text = "f(\"/\\\"*\",\x60\"/*\x60,'\\'',''')".toList ∧
    blankLiterals none quotedOpening.text = "f(\"\",\x60\x60,'','')".toList ∧
    quotedNothing.emptied = quotedOpening.emptied ∧
    openedBlock .cLike quotedNothing.text = openedBlock .cLike quotedOpening.text ∧
    ofLine .cLike none quotedNothing.text = ofLine .cLike none quotedOpening.text := by
  have hsame : quotedNothing.emptied = quotedOpening.emptied := by decide
  have hcode : (ofLine .cLike none quotedOpening.text).1 = .code := by decide +kernel
  obtain ⟨hblank, hothers⟩ := literal_bodies_ignored quotedOpening
  obtain ⟨hblock, hline⟩ := hothers quotedNothing hsame
  refine ⟨by decide, ?_, hsame, hblock, hline hcode⟩
  rw [hblank]
  decide

end LineClass
end CodeSurvey
