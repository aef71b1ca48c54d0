import Mathlib.Data.List.Find
import CodeSurvey.Job
import CodeSurvey.Proofs.Report.MeasuredFile
import CodeSurvey.Proofs.Text.Lines
import CodeSurvey.Proofs.Text.Search
import CodeSurvey.Proofs.Text.Utf8
import CodeSurvey.Registry

/-
What a byte-order mark at the start of a file changes.  The outline does not see it, but the lines
are counted with it: it makes the first line one character longer, and a line of code, whatever the
line was.  So the figures stay the same for files that begin with a line of code and have a longer
line, and for few others; the exact condition is `MarkIsHarmless`.
-/

namespace CodeSurvey
namespace Text

variable {p : Char → Bool}

theorem dropEndWhile_cons (c : Char) (text : List Char) :
    dropEndWhile p (c :: text) =
      if dropEndWhile p text = [] ∧ p c = true then [] else c :: dropEndWhile p text := by
  unfold dropEndWhile
  rw [List.reverse_cons, List.dropWhile_append]
  by_cases hrest : text.reverse.dropWhile p = []
  · by_cases hc : p c = true <;> simp [hrest, hc]
  · simp [hrest]

/-- Trimming the end only leaves the blanks before the text. -/
theorem exists_trimEnd_eq (line : List Char) :
    ∃ blanks, (∀ c ∈ blanks, isBlank c = true) ∧ trimEnd line = blanks ++ trim line := by
  induction line with
  | nil => exact ⟨[], by simp, rfl⟩
  | cons c rest ih =>
      by_cases hc : isBlank c = true
      · have htrim : trim (c :: rest) = trim rest := by simp [trim, trimStart, hc]
        obtain ⟨blanks, hblanks, hrest⟩ := ih
        rw [htrim, trimEnd, dropEndWhile_cons, ← trimEnd]
        by_cases hempty : trimEnd rest = []
        · rw [if_pos ⟨hempty, hc⟩]
          refine ⟨[], by simp, ?_⟩
          rw [hempty] at hrest
          exact (List.append_eq_nil_iff.mp hrest.symm).2.symm
        · rw [if_neg fun h => hempty h.1, hrest]
          exact ⟨c :: blanks, by simpa [hc] using hblanks, rfl⟩
      · refine ⟨[], by simp, ?_⟩
        rw [List.nil_append, trim, trimStart, List.dropWhile_cons_of_neg hc]

namespace Utf8

/-- The bytes of a byte-order mark. -/
def markBytes : List UInt8 := [0xEF, 0xBB, 0xBF]

theorem scan_markBytes (bytes : List UInt8) :
    scan (markBytes ++ bytes) = .char byteOrderMark 3 :: scan bytes := by
  show scan (0xEF :: 0xBB :: 0xBF :: bytes) = _
  rw [scan.eq_def]
  rfl

theorem decode_markBytes {bytes : List UInt8} {text : List Char} (h : decode bytes = .ok text) :
    decode (markBytes ++ bytes) = .ok (byteOrderMark :: text) := by
  rw [decode, strict_eq_ok_iff] at h
  rw [decode, scan_markBytes, strict_eq_ok_iff, List.forall_mem_cons, List.map_cons, h.2]
  exact ⟨⟨⟨_, _, rfl⟩, h.1⟩, rfl⟩

theorem decodeLossy_of_decode {bytes : List UInt8} {text : List Char}
    (h : decode bytes = .ok text) : decodeLossy bytes = text :=
  (strict_eq_ok_iff.mp h).2

end Utf8
end Text

namespace LineClass

open Text Utf8

variable {delimiters : CommentSyntax} {start : List Char}

/-- The delimiters that begin a comment. -/
def openings (delimiters : CommentSyntax) : List String :=
  delimiters.line ++ delimiters.block.map Prod.fst

/-- Characters that neither quote nor begin a comment. -/
structure Inert (delimiters : CommentSyntax) (start : List Char) : Prop where
  quotes : ∀ c ∈ start, c ≠ '"' ∧ c ≠ '\'' ∧ c ≠ rawQuote
  openings : ∀ opening ∈ openings delimiters, ∃ first, opening.toList.head? = some first ∧
    first ∉ start

theorem staysOpen_append (h : Inert delimiters start) {opening : String}
    (hopening : opening ∈ openings delimiters) (closing : String) (code : List Char) :
    staysOpen delimiters.line opening closing (start ++ code) =
      staysOpen delimiters.line opening closing code := by
  obtain ⟨first, hfirst, hnot⟩ := h.openings opening hopening
  unfold staysOpen
  rw [breakOn_append hfirst hnot]
  cases breakOn opening.toList code with
  | none => rfl
  | some found =>
      obtain ⟨before, after⟩ := found
      simp only [Option.map_some]
      congr 2
      rw [Bool.eq_iff_iff, List.any_eq_true, List.any_eq_true]
      refine exists_congr fun mark => and_congr_right fun hmark => ?_
      obtain ⟨other, hother, hnotother⟩ := h.openings mark (List.mem_append_left _ hmark)
      rw [find_append hother hnotother]
      cases find mark.toList code with
      | none => rfl
      | some position =>
          rw [Option.map_some, decide_eq_true_iff, decide_eq_true_iff, List.length_append]
          omega

theorem openedBlock_append (h : Inert delimiters start) (line : List Char) :
    openedBlock delimiters (start ++ line) = openedBlock delimiters line := by
  unfold openedBlock
  congr 1
  refine List.find?_congr ?_
  intro block hblock
  have hopening : block.1 ∈ openings delimiters :=
    List.mem_append_right _ (List.mem_map_of_mem hblock)
  rw [blankLiterals_append h.quotes]
  by_cases hquote : isQuoteLike block.1 = true
  · simp only [hquote, if_true]
    exact staysOpen_append h hopening block.2 line
  · simp only [hquote]
    exact staysOpen_append h hopening block.2 (blankLiterals none line)

/-- No comment begins with a blank or a mark. -/
def BeginsVisibly (delimiters : CommentSyntax) : Prop :=
  ∀ opening ∈ openings delimiters, ∃ first, opening.toList.head? = some first ∧
    isBlank first = false ∧ first ≠ byteOrderMark

theorem beginsVisibly_cLike : BeginsVisibly .cLike := by
  intro opening hopening
  simp only [openings, CommentSyntax.cLike, List.map_cons, List.map_nil, List.cons_append,
    List.nil_append, List.mem_cons, List.not_mem_nil, or_false] at hopening
  rcases hopening with rfl | rfl <;> exact ⟨'/', by decide⟩

theorem beginsVisibly_hash : BeginsVisibly .hash := by
  intro opening hopening
  simp only [openings, CommentSyntax.hash, List.map_cons, List.map_nil, List.cons_append,
    List.nil_append, List.mem_cons, List.not_mem_nil, or_false] at hopening
  rcases hopening with rfl | rfl | rfl
  · exact ⟨'#', by decide⟩
  · exact ⟨'"', by decide⟩
  · exact ⟨'\'', by decide⟩

theorem BeginsVisibly.inert (h : BeginsVisibly delimiters) {blanks : List Char}
    (hblanks : ∀ c ∈ blanks, isBlank c = true) : Inert delimiters (byteOrderMark :: blanks) := by
  have hmark : byteOrderMark ≠ '"' ∧ byteOrderMark ≠ '\'' ∧ byteOrderMark ≠ rawQuote := by decide
  have hquotes : isBlank '"' = false ∧ isBlank '\'' = false ∧ isBlank rawQuote = false := by decide
  refine ⟨List.forall_mem_cons.mpr ⟨hmark, ?_⟩, ?_⟩
  · intro c hc
    have hblank := hblanks c hc
    refine ⟨?_, ?_, ?_⟩ <;> (rintro rfl; simp [hquotes] at hblank)
  · intro opening hopening
    obtain ⟨first, hfirst, hvisible, hne⟩ := h opening hopening
    refine ⟨first, hfirst, ?_⟩
    rw [List.mem_cons, not_or]
    refine ⟨hne, ?_⟩
    intro hmem
    rw [hblanks first hmem] at hvisible
    contradiction

theorem BeginsVisibly.not_isPrefixOf (h : BeginsVisibly delimiters) {opening : String}
    (hopening : opening ∈ openings delimiters) (line : List Char) :
    opening.toList.isPrefixOf (byteOrderMark :: line) = false := by
  obtain ⟨first, hfirst, _, hne⟩ := h opening hopening
  cases htext : opening.toList with
  | nil => simp [htext] at hfirst
  | cons c more =>
      rw [htext, List.head?_cons, Option.some.injEq] at hfirst
      simp [List.isPrefixOf, hfirst, hne]

theorem trim_mark (line : List Char) :
    trim (byteOrderMark :: line) = byteOrderMark :: trimEnd line := by
  have hmark : isBlank byteOrderMark = false := by decide
  rw [trim, trimStart, List.dropWhile_cons_of_neg (by simp [hmark]), trimEnd, dropEndWhile_cons]
  simp [hmark, trimEnd]

/-- With a mark before it, every line is a line of code. -/
theorem ofLine_mark (h : BeginsVisibly delimiters) (line : List Char) :
    ofLine delimiters none (byteOrderMark :: line) =
      (.code, openedBlock delimiters (trim line)) := by
  have hlines :
      (delimiters.line.any fun mark => mark.toList.isPrefixOf (byteOrderMark :: trimEnd line)) =
        false := by
    rw [List.any_eq_false]
    intro mark hmark
    simp [h.not_isPrefixOf (List.mem_append_left _ hmark)]
  have hblocks : (delimiters.block.find? fun block =>
      block.1.toList.isPrefixOf (byteOrderMark :: trimEnd line)) = none := by
    rw [List.find?_eq_none]
    intro block hblock
    simp [h.not_isPrefixOf (List.mem_append_right _ (List.mem_map_of_mem hblock))]
  obtain ⟨blanks, hblanks, hend⟩ := exists_trimEnd_eq line
  have hopened : openedBlock delimiters (byteOrderMark :: trimEnd line) =
      openedBlock delimiters (trim line) := by
    rw [hend]
    exact openedBlock_append (h.inert hblanks) (trim line)
  simp only [ofLine, trim_mark, hlines, hblocks, hopened]
  rfl

theorem ofLine_of_blank {line : List Char} (h : (ofLine delimiters none line).1 = .blank) :
    ofLine delimiters none line = (.blank, none) ∧ trim line = [] := by
  simp only [ofLine] at h ⊢
  split at h
  · next hempty => exact ⟨by simp [hempty], List.isEmpty_iff.mp hempty⟩
  · split at h
    · contradiction
    · split at h <;> contradiction

theorem BeginsVisibly.openedBlock_nil (h : BeginsVisibly delimiters) :
    openedBlock delimiters [] = none := by
  rw [openedBlock, Option.map_eq_none_iff, List.find?_eq_none]
  intro block hblock
  obtain ⟨first, hfirst, _⟩ := h block.1 (List.mem_append_right _ (List.mem_map_of_mem hblock))
  have hsearch : breakOn block.1.toList [] = none := by
    cases htext : block.1.toList with
    | nil => simp [htext] at hfirst
    | cons c more => rfl
  simp [blankLiterals, staysOpen, hsearch]

end LineClass

namespace LineCounts

open Text Utf8 LineClass

variable {delimiters : CommentSyntax} {text : List Char}

theorem linesOf_mark (text : List Char) :
    linesOf (byteOrderMark :: text) = match linesOf text with
      | [] => [[byteOrderMark]]
      | first :: rest => (byteOrderMark :: first) :: rest := by
  have hreturn : (byteOrderMark == '\r') = false := by decide
  unfold linesOf
  rw [lines_cons_inside (by decide) fun hmark => absurd hmark (by decide)]
  cases lines text with
  | nil => simp [dropEndWhile, hreturn]
  | cons first rest => simp [dropEndWhile_cons, hreturn]

theorem lt_longest_iff {length : Nat} {lines : List (List Char)} :
    length < (lines.map List.length).foldl max 0 ↔ ∃ line ∈ lines, length < line.length := by
  induction lines with
  | nil => simp
  | cons first rest ih =>
      have hexists : (∃ line ∈ first :: rest, length < line.length) ↔
          length < first.length ∨ ∃ line ∈ rest, length < line.length := by simp
      rw [List.map_cons, List.foldl_cons, foldl_max, hexists, ← ih]
      omega

/-- Agreement in all figures but the average length. -/
structure Alike (a b : LineCounts) : Prop where
  total : a.total = b.total
  code : a.code = b.code
  comment : a.comment = b.comment
  blank : a.blank = b.blank
  maxLength : a.maxLength = b.maxLength

/-- The text has a line longer than its first, and the first is a line of code.  If it is a comment,
the lines after it make up for it: read as code it leaves another block open, so that one of them
turns into a comment instead. -/
def MarkIsHarmless (delimiters : CommentSyntax) (text : List Char) : Prop :=
  ∃ first rest, linesOf text = first :: rest ∧ (∃ line ∈ rest, first.length < line.length) ∧
    ((ofLine delimiters none first).1 = .code ∨
      (ofLine delimiters none first).1 = .comment ∧
        (ofLines delimiters none (first :: rest)).Perm
          (.code :: ofLines delimiters (openedBlock delimiters (trim first)) rest))

theorem alike_iff_perm {a b : List Char} (hlength : (linesOf a).length = (linesOf b).length) :
    Alike (ofText delimiters a) (ofText delimiters b) ↔
      (ofLines delimiters none (linesOf a)).Perm (ofLines delimiters none (linesOf b)) ∧
        ((linesOf a).map List.length).foldl max 0 = ((linesOf b).map List.length).foldl max 0 := by
  rw [List.perm_iff_count]
  constructor
  · intro h
    refine ⟨?_, h.maxLength⟩
    intro lineClass
    cases lineClass with
    | code => exact h.code
    | comment => exact h.comment
    | blank => exact h.blank
  · rintro ⟨hcount, hmax⟩
    exact ⟨hlength, hcount .code, hcount .comment, hcount .blank, hmax⟩

theorem longest_mark_iff (first : List Char) (rest : List (List Char)) :
    (((byteOrderMark :: first) :: rest).map List.length).foldl max 0 =
      ((first :: rest).map List.length).foldl max 0 ↔
        ∃ line ∈ rest, first.length < line.length := by
  rw [← lt_longest_iff, List.map_cons, List.map_cons, List.foldl_cons, List.foldl_cons, foldl_max,
    foldl_max (max 0 first.length), List.length_cons]
  omega

theorem ofLines_mark (h : BeginsVisibly delimiters) (first : List Char) (rest : List (List Char)) :
    ofLines delimiters none ((byteOrderMark :: first) :: rest) =
      .code :: ofLines delimiters (openedBlock delimiters (trim first)) rest := by
  rw [ofLines, ofLine_mark h]

theorem perm_mark_iff (h : BeginsVisibly delimiters) (first : List Char) (rest : List (List Char)) :
    (ofLines delimiters none ((byteOrderMark :: first) :: rest)).Perm
      (ofLines delimiters none (first :: rest)) ↔
      (ofLine delimiters none first).1 = .code ∨
        (ofLine delimiters none first).1 = .comment ∧
          (ofLines delimiters none (first :: rest)).Perm
            (.code :: ofLines delimiters (openedBlock delimiters (trim first)) rest) := by
  rw [ofLines_mark h]
  cases hclass : (ofLine delimiters none first).1 with
  | code =>
      rw [ofLines, ofLine_of_code hclass]
      simp
  | comment =>
      rw [List.perm_comm]
      simp
  | blank =>
      obtain ⟨hline, htrim⟩ := ofLine_of_blank hclass
      rw [ofLines, hline, htrim, h.openedBlock_nil]
      constructor
      · intro hperm
        have hcount := hperm.count_eq .code
        simp at hcount
      · simp

theorem alike_mark_iff (h : BeginsVisibly delimiters) (text : List Char) :
    Alike (ofText delimiters (byteOrderMark :: text)) (ofText delimiters text) ↔
      MarkIsHarmless delimiters text := by
  have hmarked := linesOf_mark text
  cases hlines : linesOf text with
  | nil =>
      rw [hlines] at hmarked
      constructor
      · intro halike
        have htotal : (linesOf (byteOrderMark :: text)).length = (linesOf text).length :=
          halike.total
        rw [hmarked, hlines] at htotal
        contradiction
      · rintro ⟨first, rest, hcons, _⟩
        rw [hlines] at hcons
        contradiction
  | cons first rest =>
      rw [hlines] at hmarked
      rw [alike_iff_perm (by rw [hmarked, hlines]; rfl), hmarked, hlines, longest_mark_iff,
        perm_mark_iff h, MarkIsHarmless, hlines]
      constructor
      · rintro ⟨hclasses, hlonger⟩
        exact ⟨first, rest, rfl, hlonger, hclasses⟩
      · rintro ⟨_, _, hcons, hlonger, hclasses⟩
        obtain ⟨rfl, rfl⟩ := List.cons.inj hcons
        exact ⟨hclasses, hlonger⟩

-- The closing delimiter of this comment stands in what would be a literal if the line were code.
example : MarkIsHarmless .cLike "/* \" */\nlimit = 10\n".toList := by
  have hlines : linesOf "/* \" */\nlimit = 10\n".toList = ["/* \" */".toList,
      "limit = 10".toList] := by decide +kernel
  exact ⟨_, _, hlines, ⟨_, .head _, by decide⟩, .inr ⟨by decide +kernel, by decide +kernel⟩⟩

end LineCounts

namespace FileReport

open Text Utf8

/-- Agreement in what is declared and in all figures that rest on lines or branches. -/
structure Agree (a b : FileReport) : Prop where
  functions : a.functions = b.functions
  types : a.types = b.types
  imports : a.imports = b.imports
  lineCount : a.lineCount = b.lineCount
  codeLines : a.codeLines = b.codeLines
  commentLines : a.commentLines = b.commentLines
  blankLines : a.blankLines = b.blankLines
  maxLineLength : a.maxLineLength = b.maxLineLength
  complexity : a.complexity = b.complexity
  technicalDebt : a.technicalDebt = b.technicalDebt

theorem agree_measured_iff (report : FileReport) (delimiters : CommentSyntax) (a b : List UInt8) :
    Agree (report.measured a delimiters) (report.measured b delimiters) ↔
      LineCounts.Alike (.ofText delimiters (decodeLossy a))
        (.ofText delimiters (decodeLossy b)) := by
  constructor
  · intro h
    exact ⟨h.lineCount, h.codeLines, h.commentLines, h.blankLines, h.maxLineLength⟩
  · intro h
    exact ⟨rfl, rfl, rfl, h.total, h.code, h.comment, h.blank, h.maxLength, rfl,
      debt_congr rfl rfl h.maxLength h.code h.comment⟩

end FileReport

namespace Job

open Text Utf8

theorem outcome_ofText {path : Path} {content : List UInt8} {text : List Char}
    (htext : Language.decode path content = .ok text) (name : String) (extensions : List String)
    (comments : CommentSyntax) (read : List Char → List Declaration × List SyntaxFault) :
    (Job.mk path content (.ofText name extensions comments read)).outcome =
      .ok ((FileReport.assemble path name (read text).1 (read text).2).measured
        content comments) := by
  simp only [outcome, Language.ofText, htext]

theorem decode_unmarked {path : Path} {content : List UInt8} {text : List Char}
    (htext : decode content = .ok text) (hunmarked : text.head? ≠ some byteOrderMark) :
    Language.decode path content = .ok text := by
  rw [Language.decode, htext]
  cases text with
  | nil => rfl
  | cons c rest =>
      have hc : (c == byteOrderMark) = false :=
        beq_eq_false_iff_ne.mpr fun heq => hunmarked (heq ▸ rfl)
      simp [Language.withoutMark, hc]

theorem decode_marked {path : Path} {content : List UInt8} {text : List Char}
    (htext : decode content = .ok text) :
    Language.decode path (markBytes ++ content) = .ok text := by
  rw [Language.decode, decode_markBytes htext]
  simp [Language.withoutMark]

theorem exists_ofText_of_builtin {language : Language} (h : language ∈ Registry.builtins) :
    ∃ name extensions comments read,
      language = .ofText name extensions comments read ∧ LineClass.BeginsVisibly comments := by
  simp only [Registry.builtins, List.mem_cons, List.not_mem_nil, or_false] at h
  rcases h with rfl | rfl | rfl
  · exact ⟨_, _, _, _, rfl, LineClass.beginsVisibly_hash⟩
  · exact ⟨_, _, _, _, rfl, LineClass.beginsVisibly_cLike⟩
  · exact ⟨_, _, _, _, rfl, LineClass.beginsVisibly_cLike⟩

/-- A mark never changes what is found in a file, and it leaves the figures as they are exactly if
it is harmless to the lines. -/
theorem mark_harmless_iff (language : Language) (hlanguage : language ∈ Registry.builtins)
    (path : Path) {content : List UInt8} {text : List Char} (htext : decode content = .ok text)
    (hunmarked : text.head? ≠ some byteOrderMark) :
    ∃ plain marked, (Job.mk path content language).outcome = .ok plain ∧
      (Job.mk path (markBytes ++ content) language).outcome = .ok marked ∧
      (marked.functions = plain.functions ∧ marked.types = plain.types ∧
        marked.imports = plain.imports ∧
        marked.dependencies = plain.dependencies ∧ marked.faults = plain.faults ∧
        marked.complexity = plain.complexity) ∧
      (marked.Agree plain ↔ LineCounts.MarkIsHarmless language.comments text) := by
  obtain ⟨name, extensions, comments, read, rfl, hvisible⟩ := exists_ofText_of_builtin hlanguage
  refine ⟨_, _, outcome_ofText (decode_unmarked htext hunmarked) name extensions comments read,
    outcome_ofText (decode_marked htext) name extensions comments read,
    ⟨rfl, rfl, rfl, rfl, rfl, rfl⟩, ?_⟩
  rw [FileReport.agree_measured_iff, decodeLossy_of_decode htext,
    decodeLossy_of_decode (decode_markBytes htext)]
  exact LineCounts.alike_mark_iff hvisible text

def codeFirst : String := "package main\n\nvar limit, retries = 10, 3\n"

theorem mark_harmless_iff_codeFirst :
    ∃ plain marked,
      (Job.mk ⟨"main.go"⟩ (encode codeFirst.toList) GoOutline.language).outcome = .ok plain ∧
      (Job.mk ⟨"main.go"⟩ (markBytes ++ encode codeFirst.toList) GoOutline.language).outcome =
        .ok marked ∧
      marked.Agree plain := by
  have htext : decode (encode codeFirst.toList) = .ok codeFirst.toList := by decide +kernel
  have hlines : LineCounts.linesOf codeFirst.toList =
      ["package main".toList, [], "var limit, retries = 10, 3".toList] := by decide +kernel
  have hbuiltin : GoOutline.language ∈ Registry.builtins := by simp [Registry.builtins]
  obtain ⟨plain, marked, hplain, hmarked, _, hagree⟩ :=
    mark_harmless_iff GoOutline.language hbuiltin ⟨"main.go"⟩ htext (by decide)
  refine ⟨plain, marked, hplain, hmarked, hagree.mpr ?_⟩
  exact ⟨_, _, hlines, ⟨_, .tail _ (.head _), by decide⟩, .inl (by decide +kernel)⟩

def commentFirst : String := "# settings\nlimit = 10\n"

/-- The mark hides that the first line is a comment, and it is counted as a character. -/
theorem mark_hides_comment :
    ∃ plain marked,
      (Job.mk ⟨"settings.py"⟩ (encode commentFirst.toList) PythonOutline.language).outcome =
        .ok plain ∧
      (Job.mk ⟨"settings.py"⟩
        (markBytes ++ encode commentFirst.toList) PythonOutline.language).outcome =
        .ok marked ∧
      (plain.codeLines, plain.commentLines, plain.maxLineLength) = (1, 1, 10) ∧
      (marked.codeLines, marked.commentLines, marked.maxLineLength) = (2, 0, 11) ∧
      ¬ marked.Agree plain := by
  have htext : decode (encode commentFirst.toList) = .ok commentFirst.toList := by decide +kernel
  refine ⟨_, _, outcome_ofText (decode_unmarked htext (by decide)) _ _ _ _,
    outcome_ofText (decode_marked htext) _ _ _ _, ?_, ?_, ?_⟩
  · simp only [FileReport.measured]
    rw [decodeLossy_of_decode htext]
    decide +kernel
  · simp only [FileReport.measured]
    rw [decodeLossy_of_decode (decode_markBytes htext)]
    decide +kernel
  · intro hagree
    have hcode := hagree.codeLines
    simp only [FileReport.measured] at hcode
    rw [decodeLossy_of_decode htext, decodeLossy_of_decode (decode_markBytes htext)] at hcode
    revert hcode
    decide +kernel

end Job
end CodeSurvey
