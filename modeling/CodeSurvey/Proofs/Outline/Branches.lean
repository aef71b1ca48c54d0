import CodeSurvey.Proofs.Outline.GoDefinitions
import CodeSurvey.Proofs.Outline.PythonDefinitions
import CodeSurvey.Proofs.Outline.RustDefinitions

/-
No branch of a file is charged to two of its functions, in any of the three languages.
-/

namespace CodeSurvey

open Syntax
open Text.Utf8 (encode)

theorem Language.outline_ofText_eq_outlined_iff {name : String} {extensions : List String}
    {comments : CommentSyntax} {read : List Char → List Declaration × List SyntaxFault}
    {path : Path} {content : List UInt8} {report : FileReport} :
    (Language.ofText name extensions comments read).outline path content = .outlined report ↔
      ∃ text, Language.decode path content = .ok text ∧
        report = .assemble path name (read text).1 (read text).2 := by
  dsimp only [Language.ofText]
  cases Language.decode path content with
  | error fault => simp
  | ok text => simp [eq_comm]

theorem Language.outline_ofTree {κ : Type} {name : String} {extensions : List String}
    {comments : CommentSyntax} {declarations : Syntax.Tree κ → List Declaration}
    {parse : List Char → Syntax.Tree κ} {path : Path} {content : List UInt8} {text : List Char}
    (h : Language.decode path content = .ok text) :
    (Language.ofTree name extensions comments declarations parse).outline path content =
      .outlined (.assemble path name (declarations (parse text))
        ((parse text).faults.take maxSyntaxFaults)) :=
  outline_ofText_eq_outlined_iff.mpr ⟨text, h, rfl⟩

/-- The charge to the functions of a file is covered by its branches.  Each function is charged
for the branches of its body, whatever the tree, and in Go for those of its lines; a signature
is charged for none. -/
theorem branches_charged_once :
    (∀ module path faults, Tree.Charged PythonOutline.isBranch PythonOutline.Outlines module
      (.assemble path "Python" (PythonOutline.declarations module) faults)) ∧
    (∀ file path faults, Tree.Charged RustOutline.isBranch RustOutline.Outlines file
      (.assemble path "Rust" (RustOutline.declarations file) faults)) ∧
    ∀ path content report,
      (∀ parse, (PythonOutline.languageBy parse).outline path content = .outlined report → ∃ text,
        Language.decode path content = .ok text ∧
        Tree.Charged PythonOutline.isBranch PythonOutline.Outlines (parse text) report) ∧
      (∀ parse, (RustOutline.languageBy parse).outline path content = .outlined report → ∃ text,
        Language.decode path content = .ok text ∧
        Tree.Charged RustOutline.isBranch RustOutline.Outlines (parse text) report) ∧
      (GoOutline.language.outline path content = .outlined report → ∃ text,
        Language.decode path content = .ok text ∧ GoOutline.Charged text report) := by
  refine ⟨PythonOutline.charged_declarations, RustOutline.charged_declarations, ?_⟩
  intro path content report
  refine ⟨fun parse hpython => ?_, fun parse hrust => ?_, fun hgo => ?_⟩
  · obtain ⟨text, hdecode, rfl⟩ := Language.outline_ofText_eq_outlined_iff.mp hpython
    exact ⟨text, hdecode, PythonOutline.charged_declarations (parse text) path _⟩
  · obtain ⟨text, hdecode, rfl⟩ := Language.outline_ofText_eq_outlined_iff.mp hrust
    exact ⟨text, hdecode, RustOutline.charged_declarations (parse text) path _⟩
  · obtain ⟨text, hdecode, rfl⟩ := Language.outline_ofText_eq_outlined_iff.mp hgo
    exact ⟨text, hdecode, GoOutline.charged_read text path _⟩

/-- The inner function is part of the one around it, and the last branch is in no function. -/
def nestedPython : List Char :=
  "def f(x):\n  if x:\n    def g():\n      if y: z()\nif w: f(1)\n".toList

def nestedRust : List Char :=
  "trait T \x7b fn s(); \x7d\nmod m \x7b fn f() \x7b if a && b \x7b \x7d \x7d \x7d\n".toList

def receiversGo : List Char :=
  ("type T interface \x7b\n M()\n\x7d\nfunc (t T) N() \x7b\n if a && b \x7b\n \x7d\n\x7d\n" ++
    "func f() \x7b\n\x7d\n").toList

theorem branches_charged_once_nested :
    (∃ report, PythonOutline.language.outline ⟨"f.py"⟩ (encode nestedPython) = .outlined report ∧
      report.allFunctions.map FunctionOutline.complexity = [3] ∧
      Tree.Charged PythonOutline.isBranch PythonOutline.Outlines (PythonOutline.parse nestedPython)
        report) ∧
    (∃ report, RustOutline.language.outline ⟨"f.rs"⟩ (encode nestedRust) = .outlined report ∧
      report.allFunctions.map FunctionOutline.complexity = [3, 1] ∧
      Tree.Charged RustOutline.isBranch RustOutline.Outlines
        (RustOutline.parse nestedRust) report) ∧
    (∃ report, GoOutline.language.outline ⟨"f.go"⟩ (encode receiversGo) = .outlined report ∧
      report.allFunctions.map FunctionOutline.complexity = [1, 1, 3] ∧
      ((GoOutline.types (GoOutline.findings receiversGo)).map TypeOutline.name).Nodup ∧
      charge report.allFunctions ≤ GoOutline.branchesOf (GoOutline.stripLines receiversGo)) := by
  have hpython : Language.decode ⟨"f.py"⟩ (encode nestedPython) = .ok nestedPython := by
    decide +kernel
  have hrust : Language.decode ⟨"f.rs"⟩ (encode nestedRust) = .ok nestedRust := by decide +kernel
  have hgo : Language.decode ⟨"f.go"⟩ (encode receiversGo) = .ok receiversGo := by decide +kernel
  obtain ⟨_, _, hcharged⟩ := branches_charged_once
  refine ⟨?_, ?_, ?_⟩
  · unfold PythonOutline.language
    have houtlined : (PythonOutline.languageBy PythonOutline.parse).outline ⟨"f.py"⟩
        (encode nestedPython) = .outlined (.assemble ⟨"f.py"⟩ "Python"
          (PythonOutline.declarations (PythonOutline.parse nestedPython))
          ((PythonOutline.parse nestedPython).faults.take maxSyntaxFaults)) := by
      rw [PythonOutline.languageBy, Language.outline_ofTree hpython]
    obtain ⟨text, hdecode, htree⟩ := (hcharged _ _ _).1 PythonOutline.parse houtlined
    rw [hpython] at hdecode
    rw [← Except.ok.inj hdecode] at htree
    exact ⟨_, houtlined, by decide +kernel, htree⟩
  · unfold RustOutline.language
    have houtlined : (RustOutline.languageBy RustOutline.parse).outline ⟨"f.rs"⟩
        (encode nestedRust) = .outlined (.assemble ⟨"f.rs"⟩ "Rust"
          (RustOutline.declarations (RustOutline.parse nestedRust))
          ((RustOutline.parse nestedRust).faults.take maxSyntaxFaults)) := by
      rw [RustOutline.languageBy, Language.outline_ofTree hrust]
    obtain ⟨text, hdecode, htree⟩ := (hcharged _ _ _).2.1 RustOutline.parse houtlined
    rw [hrust] at hdecode
    rw [← Except.ok.inj hdecode] at htree
    exact ⟨_, houtlined, by decide +kernel, htree⟩
  · have houtlined : GoOutline.language.outline ⟨"f.go"⟩ (encode receiversGo) =
        .outlined (.assemble ⟨"f.go"⟩ "Go" (GoOutline.read receiversGo).1
          (GoOutline.read receiversGo).2) := by
      rw [GoOutline.language, Language.outline_ofText_eq_outlined_iff]
      exact ⟨_, hgo, rfl⟩
    have hdistinct :
        ((GoOutline.types (GoOutline.findings receiversGo)).map TypeOutline.name).Nodup := by
      decide +kernel
    obtain ⟨text, hdecode, hlines⟩ := (hcharged _ _ _).2.2 houtlined
    rw [hgo] at hdecode
    rw [← Except.ok.inj hdecode] at hlines
    exact ⟨_, houtlined, by decide +kernel, hdistinct, hlines.total hdistinct⟩

end CodeSurvey
