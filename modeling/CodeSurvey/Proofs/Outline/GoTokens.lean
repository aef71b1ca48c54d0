import CodeSurvey.Outline.GoLines
import CodeSurvey.Proofs.Lines.Literals
import CodeSurvey.Proofs.Text.Lines

/-
Stripping a text goes by its tokens, however they lie across its lines.  Each token says of its
characters which ones stay, and where the lines end is not changed by that.  `Reads` compares
stripping with this line by line: what stands in front of a text that is read right, and leads to
where that text begins, is read right as well (`Reads.append`).  So a text of tokens is read right
token by token.  The theorem this file exists for is `strip_goes_by_tokens`.
-/

namespace CodeSurvey
namespace GoOutline

open Text (rawQuote)

/-- A character of a text, and whether it stays when the text is stripped. -/
structure Mark where
  char : Char
  stays : Bool
  deriving Repr, DecidableEq

namespace Mark

def kept (c : Char) : Mark := ⟨c, true⟩

def dropped (c : Char) : Mark := ⟨c, false⟩

/-- The lines of a marked text.  A line feed ends one whether it stays or not. -/
def lines : List Mark → List (List Mark)
  | [] => []
  | mark :: rest =>
    if mark.char = '\n' then [] :: lines rest
    else (mark :: (lines rest).headD []) :: (lines rest).tail

/-- The characters that stay. -/
def code (marks : List Mark) : List Char := (marks.filter stays).map char

/-- A line as it is written, and what stays of it. -/
def toLine (marks : List Mark) : Line := ⟨marks.map char, code marks⟩

theorem code_cons (mark : Mark) (marks : List Mark) :
    code (mark :: marks) = code [mark] ++ code marks := by
  rw [code, code, code, ← List.map_append, ← List.filter_append, List.singleton_append]

end Mark

inductive Token where
  | plain (c : Char)
  /-- one that begins no comment -/
  | slash
  /-- a string or a rune on one line -/
  | literal (quote : Char) (body : List Char)
  | rawString (body : List Char)
  | lineComment (body : List Char)
  | blockComment (body : List Char)
  deriving Repr, DecidableEq

namespace Token

/-- Of a literal its quotes stay, and of a comment nothing does. -/
def marks : Token → List Mark
  | plain c => [.kept c]
  | slash => [.kept '/']
  | literal quote body => .kept quote :: (body.map .dropped ++ [.kept quote])
  | rawString body => .kept rawQuote :: (body.map .dropped ++ [.kept rawQuote])
  | lineComment body => ('/' :: '/' :: body).map .dropped
  | blockComment body =>
      .dropped '/' :: .dropped '*' :: (body.map .dropped ++ [.dropped '*', .dropped '/'])

def text (token : Token) : List Char := token.marks.map Mark.char

def IsToken : Token → Prop
  | plain c => isQuote c = false ∧ c ≠ rawQuote ∧ c ≠ '/'
  | slash => True
  | literal quote body => isQuote quote = true ∧ LineClass.isBody quote body = true ∧ '\n' ∉ body
  | rawString body => rawQuote ∉ body
  | lineComment body => '\n' ∉ body
  | blockComment body => ¬ ['*', '/'] <:+: body

instance : DecidablePred IsToken
  | plain _ => inferInstanceAs (Decidable (_ ∧ _))
  | slash => inferInstanceAs (Decidable True)
  | literal _ _ => inferInstanceAs (Decidable (_ ∧ _))
  | rawString _ => inferInstanceAs (Decidable (_ ∉ _))
  | lineComment _ => inferInstanceAs (Decidable (_ ∉ _))
  | blockComment _ => inferInstanceAs (Decidable (¬ _))

/-- What may stand behind a token: nothing that makes a comment of a slash, and behind a line
comment the end of its line. -/
def MayPrecede : Token → List Char → Prop
  | slash, rest => rest.head? ≠ some '/' ∧ rest.head? ≠ some '*'
  | lineComment _, rest => rest = [] ∨ rest.head? = some '\n'
  | _, _ => True

instance (token : Token) (rest : List Char) : Decidable (token.MayPrecede rest) :=
  match token with
  | plain _ => inferInstanceAs (Decidable True)
  | slash => inferInstanceAs (Decidable (_ ∧ _))
  | literal _ _ => inferInstanceAs (Decidable True)
  | rawString _ => inferInstanceAs (Decidable True)
  | lineComment _ => inferInstanceAs (Decidable (_ ∨ _))
  | blockComment _ => inferInstanceAs (Decidable True)

/-- The token without what its body holds, but for the line feeds. -/
def emptied : Token → Token
  | plain c => plain c
  | slash => slash
  | literal quote _ => literal quote []
  | rawString body => rawString (body.filter (· == '\n'))
  | lineComment _ => lineComment []
  | blockComment body => blockComment (body.filter (· == '\n'))

end Token

def marksOf (tokens : List Token) : List Mark := tokens.flatMap Token.marks

def textOf (tokens : List Token) : List Char := (marksOf tokens).map Mark.char

/-- Each token may stand before the next ones. -/
def Separated : List Token → Prop
  | [] => True
  | token :: rest => token.MayPrecede (textOf rest) ∧ Separated rest

instance decidableSeparated : (tokens : List Token) → Decidable (Separated tokens)
  | [] => inferInstanceAs (Decidable True)
  | _ :: rest =>
    have := decidableSeparated rest
    inferInstanceAs (Decidable (_ ∧ _))

/-- A text that is made of tokens, with no carriage return in it. -/
structure TokenText where
  tokens : List Token
  isToken : ∀ token ∈ tokens, token.IsToken
  separated : Separated tokens
  noReturn : '\r' ∉ textOf tokens

namespace TokenText

def marks (source : TokenText) : List Mark := marksOf source.tokens

def text (source : TokenText) : List Char := textOf source.tokens

def emptied (source : TokenText) : List Token := source.tokens.map Token.emptied

end TokenText

/-! ## Stripping within a line -/

section Strip

variable {c quote : Char} {rest : List Char}

theorem strip_code_cons (hquote : isQuote c = false) (hraw : c ≠ rawQuote)
    (hslash : c = '/' → rest.head? ≠ some '/' ∧ rest.head? ≠ some '*') :
    strip .code (c :: rest) = (c :: (strip .code rest).1, (strip .code rest).2) := by
  rw [strip]
  · simp [hquote, hraw]
  · rintro more rfl rfl
    exact (hslash rfl).1 rfl
  · rintro more rfl rfl
    exact (hslash rfl).2 rfl

theorem eq_of_isQuote (h : isQuote quote = true) : quote = '"' ∨ quote = '\'' := by
  simpa [isQuote] using h

theorem strip_code_quote (hquote : isQuote quote = true) (rest : List Char) :
    strip .code (quote :: rest) =
      (quote :: (strip (.literal quote) rest).1, (strip (.literal quote) rest).2) := by
  rcases eq_of_isQuote hquote with rfl | rfl
  · rw [strip]
    · simp [rawQuote, isQuote]
    · simp
    · simp
  · rw [strip]
    · simp [rawQuote, isQuote]
    · simp
    · simp

theorem strip_comment_cons (h : c = '*' → rest.head? ≠ some '/') :
    strip .comment (c :: rest) = strip .comment rest := by
  rw [strip]
  rintro more rfl rfl
  exact h rfl rfl

/-- The body of a literal is passed over up to the quote that ends it. -/
theorem strip_literal_body {body : List Char} (hbody : LineClass.isBody quote body = true)
    (hquote : quote ≠ '\\') (rest : List Char) :
    strip (.literal quote) (body ++ quote :: rest) =
      (quote :: (strip .code rest).1, (strip .code rest).2) := by
  fun_induction LineClass.isBody quote body with
  | case1 =>
      rw [List.nil_append, strip]
      · simp
      · simp [hquote]
      · simp [hquote]
  | case2 c more ih => exact ih hbody
  | case3 c more hescape ih =>
      simp only [Bool.and_eq_true, bne_iff_ne] at hbody
      obtain ⟨⟨hslash, hother⟩, hmore⟩ := hbody
      rw [List.cons_append, strip]
      · simp [hother, ih hmore]
      · simp [hslash]
      · simp [hslash]

end Strip

/-! ## Stripping across lines -/

/-- The rest of the line at the start of a text. -/
def firstLine (text : List Char) : List Char := (Text.lines text).headD []

theorem head?_of_head?_firstLine {text : List Char} {c : Char}
    (h : (firstLine text).head? = some c) : text.head? = some c := by
  rw [firstLine] at h
  fun_cases Text.lines text with
  | case1 => simp [Text.lines] at h
  | case2 rest => simp [Text.lines] at h
  | case3 rest => simp [Text.lines] at h
  | case4 d rest hfeed hreturn hnone => simpa [Text.lines, hfeed, hreturn, hnone] using h
  | case5 d rest hfeed hreturn line more hlines =>
      simpa [Text.lines, hfeed, hreturn, hlines] using h

theorem firstLine_eq_nil {text : List Char} (h : text = [] ∨ text.head? = some '\n') :
    firstLine text = [] := by
  rcases h with rfl | h
  · rfl
  · obtain ⟨rest, rfl⟩ := List.head?_eq_some_iff.mp h
    rfl

theorem lines_append_inside {before : List Char} (hne : before ≠ []) (hfeed : '\n' ∉ before)
    (hreturn : '\r' ∉ before) (rest : List Char) :
    Text.lines (before ++ rest) = (before ++ firstLine rest) :: (Text.lines rest).tail := by
  induction before with
  | nil => contradiction
  | cons c before ih =>
      rw [List.mem_cons, not_or] at hfeed hreturn
      rw [List.cons_append,
        Text.lines_cons_inside (Ne.symm hfeed.1) fun hc => absurd hc.symm hreturn.1]
      cases before with
      | nil => rfl
      | cons d before =>
          rw [ih (List.cons_ne_nil d before) hfeed.2 hreturn.2]
          rfl

/-- The lines of a text that begins inside `inside`, stripped. -/
def stripText (inside : Inside) (text : List Char) : List Line := stripFrom inside (Text.lines text)

/-- More in front of the first line. -/
def prepend (raw code : List Char) (lines : List Line) : List Line :=
  ⟨raw ++ (lines.headD ⟨[], []⟩).raw, code ++ (lines.headD ⟨[], []⟩).code⟩ :: lines.tail

theorem prepend_prepend (raw code raw' code' : List Char) (lines : List Line) :
    prepend raw code (prepend raw' code' lines) = prepend (raw ++ raw') (code ++ code') lines := by
  simp [prepend]

/-- Stripping may stop between two characters of a line, if nothing is left to be
written there at its end. -/
theorem stripText_append {inside next : Inside} {raw code rest : List Char} (hne : raw ≠ [])
    (hfeed : '\n' ∉ raw) (hreturn : '\r' ∉ raw) (hnext : (strip next []).1 = [])
    (hstrip : strip inside (raw ++ firstLine rest) =
      (code ++ (strip next (firstLine rest)).1, (strip next (firstLine rest)).2)) :
    stripText inside (raw ++ rest) = prepend raw code (stripText next rest) := by
  rw [stripText, lines_append_inside hne hfeed hreturn, stripFrom, hstrip, stripText, firstLine]
  cases hlines : Text.lines rest with
  | nil => simp [stripFrom, prepend, hnext]
  | cons line more => simp [stripFrom, prepend]

theorem stripText_newline {inside : Inside} (hinside : strip inside [] = ([], inside))
    (rest : List Char) : stripText inside ('\n' :: rest) = ⟨[], []⟩ :: stripText inside rest := by
  rw [stripText, Text.lines, stripFrom, hinside, stripText]

def rendered (marks : List Mark) : List Line := (Mark.lines marks).map Mark.toLine

theorem rendered_newline {mark : Mark} (h : mark.char = '\n') (rest : List Mark) :
    rendered (mark :: rest) = ⟨[], []⟩ :: rendered rest := by
  rw [rendered, Mark.lines, if_pos h]
  rfl

theorem rendered_cons {mark : Mark} (h : mark.char ≠ '\n') (rest : List Mark) :
    rendered (mark :: rest) = prepend [mark.char] (Mark.code [mark]) (rendered rest) := by
  rw [rendered, Mark.lines, if_neg h, rendered]
  cases Mark.lines rest with
  | nil => simp [prepend, Mark.toLine]
  | cons line more => simp [prepend, Mark.toLine, Mark.code_cons mark line]

theorem rendered_append {marks : List Mark} (hne : marks ≠ []) (hfeed : '\n' ∉ marks.map Mark.char)
    (rest : List Mark) :
    rendered (marks ++ rest) = prepend (marks.map Mark.char) (Mark.code marks) (rendered rest) := by
  induction marks with
  | nil => contradiction
  | cons mark marks ih =>
      rw [List.map_cons, List.mem_cons, not_or] at hfeed
      rw [List.cons_append, rendered_cons (Ne.symm hfeed.1)]
      cases marks with
      | nil => rfl
      | cons other marks =>
          rw [ih (List.cons_ne_nil other marks) hfeed.2, prepend_prepend, List.singleton_append,
            ← List.map_cons, ← Mark.code_cons]

/-- A marked text that begins inside `inside` is stripped as its marks say. -/
def Reads (inside : Inside) (marks : List Mark) : Prop :=
  stripText inside (marks.map Mark.char) = rendered marks

theorem Reads.append {inside next : Inside} {marks rest : List Mark} (h : Reads next rest)
    (hne : marks ≠ []) (hfeed : '\n' ∉ marks.map Mark.char) (hreturn : '\r' ∉ marks.map Mark.char)
    (hnext : (strip next []).1 = [])
    (hstrip : strip inside (marks.map Mark.char ++ firstLine (rest.map Mark.char)) =
      (Mark.code marks ++ (strip next (firstLine (rest.map Mark.char))).1,
        (strip next (firstLine (rest.map Mark.char))).2)) : Reads inside (marks ++ rest) := by
  have hraw : marks.map Mark.char ≠ [] := mt List.map_eq_nil_iff.mp hne
  rw [Reads, List.map_append, stripText_append hraw hfeed hreturn hnext hstrip, h,
    rendered_append hne hfeed]

theorem Reads.newline {inside : Inside} {mark : Mark} {rest : List Mark} (h : Reads inside rest)
    (hmark : mark.char = '\n') (hinside : strip inside [] = ([], inside)) :
    Reads inside (mark :: rest) := by
  rw [Reads, List.map_cons, hmark, stripText_newline hinside, rendered_newline hmark, h]

theorem Reads.cons {inside next : Inside} {mark : Mark} {rest : List Mark} (h : Reads next rest)
    (hfeed : mark.char ≠ '\n') (hreturn : mark.char ≠ '\r') (hnext : (strip next []).1 = [])
    (hstrip : strip inside (mark.char :: firstLine (rest.map Mark.char)) =
      (Mark.code [mark] ++ (strip next (firstLine (rest.map Mark.char))).1,
        (strip next (firstLine (rest.map Mark.char))).2)) : Reads inside (mark :: rest) :=
  h.append (List.cons_ne_nil mark []) (mt List.mem_singleton.mp (Ne.symm hfeed))
    (mt List.mem_singleton.mp (Ne.symm hreturn)) hnext hstrip

/-! ## Tokens -/

section Tokens

variable {body : List Char} {rest : List Mark}

theorem code_map_dropped (body : List Char) : Mark.code (body.map .dropped) = [] := by
  simp [Mark.code, Mark.dropped]

theorem map_char_dropped (body : List Char) : (body.map Mark.dropped).map Mark.char = body := by
  simp [Mark.dropped, Function.comp_def]

theorem reads_rawString_body (hbody : rawQuote ∉ body) (hreturn : '\r' ∉ body)
    (h : Reads .rawString rest) : Reads .rawString (body.map .dropped ++ rest) := by
  induction body with
  | nil => exact h
  | cons c body ih =>
      rw [List.mem_cons, not_or] at hbody hreturn
      have hrest := ih hbody.2 hreturn.2
      by_cases hfeed : c = '\n'
      · exact hrest.newline hfeed rfl
      · exact hrest.cons hfeed (Ne.symm hreturn.1) rfl (strip_rawString_cons (Ne.symm hbody.1))

/-- A star and a slash end a comment only if nothing stands between them, be
it the end of a line. -/
theorem reads_comment_body (hbody : ¬ ['*', '/'] <:+: body) (hreturn : '\r' ∉ body)
    (hrest : (rest.map Mark.char).head? ≠ some '/') (h : Reads .comment rest) :
    Reads .comment (body.map .dropped ++ rest) := by
  induction body with
  | nil => exact h
  | cons c body ih =>
      rw [List.mem_cons, not_or] at hreturn
      have hread := ih (fun hinner => hbody (List.infix_cons hinner)) hreturn.2
      by_cases hfeed : c = '\n'
      · exact hread.newline hfeed rfl
      · refine hread.cons hfeed (Ne.symm hreturn.1) rfl (strip_comment_cons fun hstar hslash => ?_)
        have hnext := head?_of_head?_firstLine hslash
        rw [List.map_append, map_char_dropped] at hnext
        cases body with
        | nil => exact hrest hnext
        | cons d body =>
            have hd : d = '/' := by simpa using hnext
            exact hbody ⟨[], body, by rw [show c = '*' from hstar, hd]; rfl⟩

theorem reads_literal {quote : Char} (hquote : isQuote quote = true)
    (hbody : LineClass.isBody quote body = true) (hfeed : '\n' ∉ body) (hreturn : '\r' ∉ body)
    (h : Reads .code rest) : Reads .code ((Token.literal quote body).marks ++ rest) := by
  have hplain : quote ≠ '\n' ∧ quote ≠ '\r' ∧ quote ≠ '\\' := by
    rcases eq_of_isQuote hquote with rfl | rfl <;> decide
  have htext : (Token.literal quote body).marks.map Mark.char = quote :: (body ++ [quote]) := by
    rw [Token.marks, List.map_cons, List.map_append, map_char_dropped]
    rfl
  have hcode : Mark.code (Token.literal quote body).marks = [quote, quote] := by
    simp [Token.marks, Mark.code, Mark.kept, Mark.dropped]
  refine h.append (List.cons_ne_nil _ _) ?_ ?_ rfl ?_
  · rw [htext]
    simp [hfeed, Ne.symm hplain.1]
  · rw [htext]
    simp [hreturn, Ne.symm hplain.2.1]
  · rw [htext, hcode, List.cons_append, List.append_assoc, List.singleton_append,
      strip_code_quote hquote, strip_literal_body hbody hplain.2.2]
    rfl

theorem reads_rawString (hbody : rawQuote ∉ body) (hreturn : '\r' ∉ body) (h : Reads .code rest) :
    Reads .code ((Token.rawString body).marks ++ rest) := by
  have hclosed : Reads .rawString (.kept rawQuote :: rest) :=
    h.cons (by decide) (by decide) rfl (strip_rawString_quote _)
  have hopened : Reads .code (.kept rawQuote :: (body.map .dropped ++ .kept rawQuote :: rest)) :=
    (reads_rawString_body hbody hreturn hclosed).cons (by decide) (by decide) rfl
      (strip_code_rawQuote _)
  rw [Token.marks, List.cons_append, List.append_assoc]
  exact hopened

theorem reads_lineComment (hfeed : '\n' ∉ body) (hreturn : '\r' ∉ body)
    (hprecede : rest.map Mark.char = [] ∨ (rest.map Mark.char).head? = some '\n')
    (h : Reads .code rest) : Reads .code ((Token.lineComment body).marks ++ rest) := by
  refine h.append (List.cons_ne_nil _ _) ?_ ?_ rfl ?_
  · rw [Token.marks, map_char_dropped]
    simp [hfeed]
  · rw [Token.marks, map_char_dropped]
    simp [hreturn]
  · rw [Token.marks, map_char_dropped, code_map_dropped, firstLine_eq_nil hprecede]
    rfl

theorem reads_blockComment (hbody : ¬ ['*', '/'] <:+: body) (hreturn : '\r' ∉ body)
    (h : Reads .code rest) : Reads .code ((Token.blockComment body).marks ++ rest) := by
  have hclosed : Reads .comment ([.dropped '*', .dropped '/'] ++ rest) :=
    h.append (List.cons_ne_nil _ _) (by decide) (by decide) rfl rfl
  have hstar : ((Mark.dropped '*' :: Mark.dropped '/' :: rest).map Mark.char).head? ≠ some '/' := by
    simp [Mark.dropped]
  have hopened : Reads .code ([.dropped '/', .dropped '*'] ++ (body.map .dropped ++
      .dropped '*' :: .dropped '/' :: rest)) :=
    (reads_comment_body hbody hreturn hstar hclosed).append (List.cons_ne_nil _ _) (by decide)
      (by decide) rfl rfl
  rw [Token.marks, List.cons_append, List.cons_append, List.append_assoc]
  exact hopened

theorem reads_token {token : Token} (htoken : token.IsToken)
    (hprecede : token.MayPrecede (rest.map Mark.char)) (hreturn : '\r' ∉ token.text)
    (h : Reads .code rest) : Reads .code (token.marks ++ rest) := by
  have hbody : ∀ {body : List Char}, body.map .dropped <:+: token.marks → '\r' ∉ body := by
    intro body hinner hmem
    exact hreturn (List.mem_map.mpr ⟨.dropped '\r', hinner.subset (List.mem_map_of_mem hmem), rfl⟩)
  cases token with
  | plain c =>
      obtain ⟨hquote, hraw, hslash⟩ := htoken
      by_cases hfeed : c = '\n'
      · exact h.newline hfeed rfl
      · have hc : c ≠ '\r' := by
          rintro rfl
          exact hreturn List.mem_cons_self
        exact h.cons hfeed hc rfl (strip_code_cons hquote hraw fun hc => absurd hc hslash)
  | slash =>
      refine h.cons (by decide) (by decide) rfl
        (strip_code_cons (by decide) (by decide) fun _ => ?_)
      exact ⟨mt head?_of_head?_firstLine hprecede.1, mt head?_of_head?_firstLine hprecede.2⟩
  | literal quote body =>
      have hfree := hbody ⟨[.kept quote], [.kept quote], rfl⟩
      exact reads_literal htoken.1 htoken.2.1 htoken.2.2 hfree h
  | rawString body =>
      exact reads_rawString htoken (hbody ⟨[.kept rawQuote], [.kept rawQuote], rfl⟩) h
  | lineComment body =>
      have hfree := hbody (List.suffix_append ['/', '/'] body |>.map Mark.dropped).isInfix
      exact reads_lineComment htoken hfree hprecede h
  | blockComment body =>
      have hfree := hbody ⟨[.dropped '/', .dropped '*'], [.dropped '*', .dropped '/'], rfl⟩
      exact reads_blockComment htoken hfree h

theorem reads_marksOf {tokens : List Token} (htokens : ∀ token ∈ tokens, token.IsToken)
    (hseparated : Separated tokens) (hreturn : '\r' ∉ textOf tokens) :
    Reads .code (marksOf tokens) := by
  induction tokens with
  | nil => rfl
  | cons token tokens ih =>
      obtain ⟨htoken, htokens⟩ := List.forall_mem_cons.mp htokens
      have htext : textOf (token :: tokens) = token.text ++ textOf tokens := List.map_append
      rw [htext, List.mem_append, not_or] at hreturn
      exact reads_token htoken hseparated.1 hreturn.1 (ih htokens hseparated.2 hreturn.2)

end Tokens

/-! ## What the bodies hold -/

section Codes

variable {mark : Mark} {body : List Char} {rest : List Mark}

/-- What stays of each line. -/
def codesOf (marks : List Mark) : List (List Char) := (Mark.lines marks).map Mark.code

theorem map_code_rendered (marks : List Mark) : (rendered marks).map Line.code = codesOf marks := by
  rw [rendered, List.map_map]
  rfl

theorem codesOf_newline (hmark : mark.char = '\n') :
    codesOf (mark :: rest) = [] :: codesOf rest := by
  rw [codesOf, Mark.lines, if_pos hmark]
  rfl

theorem codesOf_cons (hmark : mark.char ≠ '\n') :
    codesOf (mark :: rest) = (Mark.code [mark] ++ (codesOf rest).headD []) ::
      (codesOf rest).tail := by
  have hrendered := congrArg (List.map Line.code) (rendered_cons hmark rest)
  rw [map_code_rendered, prepend, List.map_cons] at hrendered
  rw [hrendered, ← map_code_rendered, ← List.map_tail]
  cases rendered rest <;> rfl

theorem codesOf_append_congr {other : List Mark} (front : List Mark)
    (h : codesOf rest = codesOf other) : codesOf (front ++ rest) = codesOf (front ++ other) := by
  induction front with
  | nil => exact h
  | cons mark front ih =>
      rw [List.cons_append, List.cons_append]
      by_cases hmark : mark.char = '\n'
      · rw [codesOf_newline hmark, codesOf_newline hmark, ih]
      · rw [codesOf_cons hmark, codesOf_cons hmark, ih]

theorem codesOf_ne_nil (h : rest ≠ []) : codesOf rest ≠ [] := by
  obtain ⟨mark, rest, rfl⟩ := List.exists_cons_of_ne_nil h
  by_cases hmark : mark.char = '\n'
  · simp [codesOf_newline hmark]
  · simp [codesOf_cons hmark]

/-- In front of more, a character that is dropped leaves no trace unless it ends a line. -/
theorem codesOf_dropped {c : Char} (hc : c ≠ '\n') (hrest : rest ≠ []) :
    codesOf (.dropped c :: rest) = codesOf rest := by
  obtain ⟨line, more, hlines⟩ := List.exists_cons_of_ne_nil (codesOf_ne_nil hrest)
  rw [codesOf_cons hc, hlines]
  rfl

theorem codesOf_body (body : List Char) (hrest : rest ≠ []) :
    codesOf (body.map .dropped ++ rest) =
      codesOf ((body.filter (· == '\n')).map .dropped ++ rest) := by
  induction body with
  | nil => rfl
  | cons c body ih =>
      by_cases hc : c = '\n'
      · have hfilter : (c :: body).filter (· == '\n') = c :: body.filter (· == '\n') := by simp [hc]
        rw [hfilter]
        exact codesOf_append_congr [.dropped c] ih
      · have hfilter : (c :: body).filter (· == '\n') = body.filter (· == '\n') := by simp [hc]
        rw [hfilter, ← ih]
        exact codesOf_dropped hc (List.append_ne_nil_of_right_ne_nil _ hrest)

/-- Of a body between two marks only the line feeds count. -/
theorem codesOf_enclosed {other closing : List Mark} (opening : List Mark) (body : List Char)
    (hclosing : closing ≠ []) (h : codesOf rest = codesOf other) :
    codesOf (opening ++ (body.map .dropped ++ closing) ++ rest) =
      codesOf (opening ++ ((body.filter (· == '\n')).map .dropped ++ closing) ++ other) := by
  rw [List.append_assoc, List.append_assoc, List.append_assoc, List.append_assoc]
  refine codesOf_append_congr opening ?_
  rw [codesOf_body body (List.append_ne_nil_of_left_ne_nil hclosing rest)]
  exact codesOf_append_congr _ (codesOf_append_congr closing h)

theorem codesOf_inline {c : Char} (hc : c ≠ '\n') (hbody : '\n' ∉ body) :
    codesOf ((c :: body).map .dropped ++ rest) =
      (codesOf rest).headD [] :: (codesOf rest).tail := by
  induction body generalizing c with
  | nil => exact codesOf_cons hc
  | cons d body ih =>
      rw [List.mem_cons, not_or] at hbody
      rw [← ih (Ne.symm hbody.1) hbody.2]
      exact codesOf_dropped hc (by simp)

theorem codesOf_token {token : Token} {other : List Mark} (htoken : token.IsToken)
    (h : codesOf rest = codesOf other) :
    codesOf (token.marks ++ rest) = codesOf (token.emptied.marks ++ other) := by
  cases token with
  | plain c => exact codesOf_append_congr [.kept c] h
  | slash => exact codesOf_append_congr [.kept '/'] h
  | literal quote body =>
      have hbreaks : body.filter (· == '\n') = [] := by
        rw [List.filter_eq_nil_iff]
        intro c hc hfeed
        exact htoken.2.2 (beq_iff_eq.mp hfeed ▸ hc)
      have hsame := codesOf_enclosed [.kept quote] body (List.cons_ne_nil (.kept quote) []) h
      rw [hbreaks] at hsame
      exact hsame
  | rawString body =>
      exact codesOf_enclosed [.kept rawQuote] body (List.cons_ne_nil (Mark.kept rawQuote) []) h
  | lineComment body =>
      have hbody : '\n' ∉ '/' :: body := by
        rw [List.mem_cons, not_or]
        exact ⟨by decide, htoken⟩
      have hempty : '\n' ∉ ['/'] := by decide
      rw [Token.emptied, Token.marks, Token.marks, codesOf_inline (by decide) hbody,
        codesOf_inline (by decide) hempty, h]
  | blockComment body =>
      have hclosing : [Mark.dropped '*', Mark.dropped '/'] ≠ [] := List.cons_ne_nil _ _
      exact codesOf_enclosed [.dropped '/', .dropped '*'] body hclosing h

theorem codesOf_marksOf {tokens : List Token} (h : ∀ token ∈ tokens, token.IsToken) :
    codesOf (marksOf tokens) = codesOf (marksOf (tokens.map Token.emptied)) := by
  induction tokens with
  | nil => rfl
  | cons token tokens ih =>
      obtain ⟨htoken, htokens⟩ := List.forall_mem_cons.mp h
      exact codesOf_token htoken (ih htokens)

end Codes

theorem map_raw_stripFrom (inside : Inside) (raws : List (List Char)) :
    (stripFrom inside raws).map Line.raw = raws := by
  induction raws generalizing inside with
  | nil => rfl
  | cons raw rest ih => rw [stripFrom, List.map_cons, ih]

/-- A text of tokens is stripped as its tokens say: there is an entry for each line, with the line
as it is written and what stays of it.  What the bodies of literals and comments hold beside line
feeds makes no difference. -/
theorem strip_goes_by_tokens (source : TokenText) :
    stripLines source.text = (Mark.lines source.marks).map Mark.toLine ∧
    (stripLines source.text).map Line.raw = Text.lines source.text ∧
    ∀ other : TokenText, other.emptied = source.emptied →
      (stripLines other.text).map Line.code = (stripLines source.text).map Line.code := by
  have hreads : ∀ text : TokenText, stripLines text.text = rendered text.marks :=
    fun text => reads_marksOf text.isToken text.separated text.noReturn
  have hcodes : ∀ text : TokenText, (stripLines text.text).map Line.code =
      codesOf (marksOf text.emptied) := by
    intro text
    rw [hreads, map_code_rendered, TokenText.marks, codesOf_marksOf text.isToken]
    rfl
  refine ⟨hreads source, map_raw_stripFrom .code _, fun other hsame => ?_⟩
  rw [hcodes, hcodes, hsame]

/-- Quotes and comment marks inside other tokens, and a star and a slash on either
side of a line feed. -/
def tangled : TokenText where
  tokens := [.plain 'x', .plain '=', .literal '"' "\\\"//\\\\".toList, .slash, .literal '\'' ['"'],
    .lineComment "it's \"odd\" /*".toList, .plain '\n', .blockComment "/\"*\n/'//".toList,
    .plain 'y', .plain '=', .rawString "one\n\"two/*".toList, .lineComment "\x60".toList]
  isToken := by decide
  separated := by decide
  noReturn := by decide

def untangled : TokenText where
  tokens := [.plain 'x', .plain '=', .literal '"' [], .slash, .literal '\'' ['a'], .lineComment [],
    .plain '\n', .blockComment ['\n'], .plain 'y', .plain '=', .rawString ['\n'], .lineComment []]
  isToken := by decide
  separated := by decide
  noReturn := by decide

theorem strip_goes_by_tokens_tangled :
    untangled.emptied = tangled.emptied ∧
    (stripLines tangled.text).map Line.code =
      ["x=\"\"/''".toList, [], ['y', '=', rawQuote], [rawQuote]] ∧
    (stripLines untangled.text).map Line.code = (stripLines tangled.text).map Line.code := by
  obtain ⟨hstrip, -, hbodies⟩ := strip_goes_by_tokens tangled
  have hsame : untangled.emptied = tangled.emptied := by decide
  refine ⟨hsame, ?_, hbodies untangled hsame⟩
  rw [hstrip]
  decide

end GoOutline
end CodeSurvey
