import Mathlib.Data.List.Flatten
import CodeSurvey.FileReport
import CodeSurvey.Sum
import CodeSurvey.Syntax.Tree

/-
Functions that are read off a syntax tree.  An outline reports functions and methods that stand at
definitions of the tree.  Where the definitions do not overlap, so that their nodes one after
another are a sublist of all nodes, no branch of the tree can be charged to two of them:
`charged_of_definitions`.
-/

namespace CodeSurvey

/-- What the functions are charged for branches: their complexities, each without the 1 that
every function has. -/
def charge (functions : List FunctionOutline) : Nat := (functions.map fun f => f.complexity - 1).sum

theorem charge_append (a b : List FunctionOutline) : charge (a ++ b) = charge a + charge b := by
  rw [charge, List.map_append, List.sum_append]
  rfl

theorem charge_perm {a b : List FunctionOutline} (h : a.Perm b) : charge a = charge b := by
  induction h with
  | nil => rfl
  | cons f _ ih =>
      show f.complexity - 1 + charge _ = f.complexity - 1 + charge _
      rw [ih]
  | swap f g rest =>
      show g.complexity - 1 + (f.complexity - 1 + charge rest) =
        f.complexity - 1 + (g.complexity - 1 + charge rest)
      omega
  | trans _ _ ihab ihbc => exact ihab.trans ihbc

namespace Declaration

/-- The functions that a declaration brings into a report. -/
def functions : Declaration → List FunctionOutline
  | .function f => [f]
  | .type t => t.methods
  | .import _ => []

def function? : Declaration → Option FunctionOutline
  | .function f => some f
  | _ => none

def type? : Declaration → Option TypeOutline
  | .type t => some t
  | _ => none

theorem eq_of_function? {declaration : Declaration} {f : FunctionOutline}
    (h : declaration.function? = some f) : declaration = .function f := by
  cases declaration with
  | function g => exact congrArg Declaration.function (Option.some.inj h)
  | type t => contradiction
  | «import» name => contradiction

theorem eq_of_type? {declaration : Declaration} {t : TypeOutline} (h : declaration.type? = some t) :
    declaration = .type t := by
  cases declaration with
  | function f => contradiction
  | type u => exact congrArg Declaration.type (Option.some.inj h)
  | «import» name => contradiction

theorem flatMap_functions_imports (names : List String) :
    (names.map Declaration.import).flatMap functions = [] := by
  rw [List.flatMap_map]
  exact List.flatMap_eq_nil_iff.mpr fun _ _ => rfl

theorem flatMap_functions_functions (outlines : List FunctionOutline) :
    (outlines.map Declaration.function).flatMap functions = outlines := by
  rw [List.flatMap_map]
  exact List.flatMap_singleton' outlines

theorem flatMap_functions_types (types : List TypeOutline) :
    (types.map Declaration.type).flatMap functions = types.flatMap TypeOutline.methods :=
  List.flatMap_map _ _ types

end Declaration

namespace FileReport

/-- The functions of a file and the methods of its types. -/
def allFunctions (report : FileReport) : List FunctionOutline := report.functions ++ report.methods

theorem perm_allFunctions_declare (report : FileReport) (declaration : Declaration) :
    (report.declare declaration).allFunctions.Perm
      (report.allFunctions ++ declaration.functions) := by
  cases declaration with
  | function f =>
      show ((report.functions ++ [f]) ++ report.methods).Perm
        ((report.functions ++ report.methods) ++ [f])
      rw [List.append_assoc, List.append_assoc]
      exact List.perm_append_comm.append_left _
  | type t =>
      show (report.functions ++ (report.types ++ [t]).flatMap TypeOutline.methods).Perm _
      rw [List.flatMap_append, List.flatMap_singleton, ← List.append_assoc]
      exact .refl _
  | «import» name =>
      show (if report.imports.contains name then report else _).allFunctions.Perm
        (report.allFunctions ++ [])
      rw [List.append_nil]
      split <;> exact .refl _

/-- A report has the functions that its declarations bring, and no others. -/
theorem perm_allFunctions_assemble (path : Path) (language : String)
    (declarations : List Declaration) (faults : List SyntaxFault) :
    (assemble path language declarations faults).allFunctions.Perm
      (declarations.flatMap Declaration.functions) := by
  have hrun : ∀ report : FileReport, (declarations.foldl declare report).allFunctions.Perm
      (report.allFunctions ++ declarations.flatMap Declaration.functions) := by
    induction declarations with
    | nil =>
        intro report
        rw [List.flatMap_nil, List.append_nil]
        exact .refl _
    | cons declaration rest ih =>
        intro report
        rw [List.foldl_cons, List.flatMap_cons, ← List.append_assoc]
        exact (ih _).trans ((report.perm_allFunctions_declare declaration).append_right _)
  exact hrun { path, language }

/-- Functions and types keep the order in which they are declared. -/
theorem members_foldl_declare (declarations : List Declaration) (report : FileReport) :
    (declarations.foldl declare report).functions =
      report.functions ++ declarations.filterMap Declaration.function? ∧
    (declarations.foldl declare report).types = report.types ++
      declarations.filterMap Declaration.type? := by
  induction declarations generalizing report with
  | nil => simp
  | cons declaration rest ih =>
      obtain ⟨hfunctions, htypes⟩ := ih (report.declare declaration)
      rw [List.foldl_cons, hfunctions, htypes]
      cases declaration with
      | function f => exact ⟨List.append_assoc report.functions [f] _, rfl⟩
      | type t => exact ⟨rfl, List.append_assoc report.types [t] _⟩
      | «import» name =>
          rw [declare]
          split <;> exact ⟨rfl, rfl⟩

theorem functions_assemble (path : Path) (language : String) (declarations : List Declaration)
    (faults : List SyntaxFault) :
    (assemble path language declarations faults).functions =
      declarations.filterMap Declaration.function? :=
  (members_foldl_declare declarations { path, language }).1

theorem types_assemble (path : Path) (language : String) (declarations : List Declaration)
    (faults : List SyntaxFault) :
    (assemble path language declarations faults).types = declarations.filterMap Declaration.type? :=
  (members_foldl_declare declarations { path, language }).2

structure DeclaredBy (declarations : List Declaration) (report : FileReport) : Prop where
  functions : ∀ f ∈ report.functions, .function f ∈ declarations
  types : ∀ t ∈ report.types, .type t ∈ declarations

theorem declaredBy_assemble (path : Path) (language : String) (declarations : List Declaration)
    (faults : List SyntaxFault) :
    (assemble path language declarations faults).DeclaredBy declarations := by
  refine ⟨fun f hf => ?_, fun t ht => ?_⟩
  · rw [functions_assemble] at hf
    obtain ⟨declaration, hmem, hsome⟩ := List.mem_filterMap.mp hf
    exact Declaration.eq_of_function? hsome ▸ hmem
  · rw [types_assemble] at ht
    obtain ⟨declaration, hmem, hsome⟩ := List.mem_filterMap.mp ht
    exact Declaration.eq_of_type? hsome ▸ hmem

end FileReport

namespace Syntax
namespace Tree

variable {κ : Type}

theorem isNamed_of_kind?_eq {tree : Tree κ} {kind : κ} (h : tree.kind? = some kind) :
    tree.isNamed = true := by
  unfold kind? at h
  unfold isNamed
  split at h
  · next hlabel => rw [hlabel]
  · contradiction

mutual

/-- The nodes of a tree in the order of the text, the tree itself first. -/
def subtrees : Tree κ → List (Tree κ)
  | node label role text span children => node label role text span children :: subtreesAll children

def subtreesAll : List (Tree κ) → List (Tree κ)
  | [] => []
  | tree :: rest => subtrees tree ++ subtreesAll rest

end

theorem subtreesAll_eq_flatMap (trees : List (Tree κ)) :
    subtreesAll trees = trees.flatMap subtrees := by
  induction trees with
  | nil => rfl
  | cons tree rest ih => rw [subtreesAll, List.flatMap_cons, ih]

theorem subtrees_eq (tree : Tree κ) : tree.subtrees = tree :: tree.children.flatMap subtrees := by
  cases tree with
  | node label role text span nodes =>
      rw [subtrees, subtreesAll_eq_flatMap]
      rfl

theorem mem_subtrees_self (tree : Tree κ) : tree ∈ tree.subtrees := by
  rw [subtrees_eq]
  exact List.mem_cons_self

mutual

theorem count_eq_countP (p : Tree κ → Bool) : ∀ tree : Tree κ, tree.count p = tree.subtrees.countP p
  | node label role text span children => by
      rw [count, subtrees, List.countP_cons, countAll_eq_countP p children]
      omega

theorem countAll_eq_countP (p : Tree κ → Bool) :
    ∀ trees : List (Tree κ), countAll p trees = (subtreesAll trees).countP p
  | [] => rfl
  | tree :: rest => by
      rw [countAll, subtreesAll, List.countP_append, count_eq_countP p tree,
        countAll_eq_countP p rest]

end

theorem flatMap_subtrees_sublist {trees : List (Tree κ)} {tree : Tree κ}
    (h : trees.Sublist tree.children) : (trees.flatMap subtrees).Sublist tree.subtrees := by
  rw [subtrees_eq]
  exact (h.flatMap subtrees).cons tree

theorem namedChildren_flatMap_sublist {f : Tree κ → List (Tree κ)} (tree : Tree κ)
    (h : ∀ child, ((f child).flatMap subtrees).Sublist child.subtrees) :
    ((tree.namedChildren.flatMap f).flatMap subtrees).Sublist tree.subtrees := by
  rw [List.flatMap_assoc]
  exact (List.Sublist.flatMap_right _ fun child _ => h child).trans
    (flatMap_subtrees_sublist List.filter_sublist)

theorem child?_subtrees_sublist {tree child : Tree κ} {role : Role}
    (h : tree.child? role = some child) : child.subtrees.Sublist tree.subtrees := by
  have hmem : child ∈ tree.children := List.mem_of_find?_eq_some h
  have hsublist := flatMap_subtrees_sublist (List.singleton_sublist.mpr hmem)
  rwa [List.flatMap_singleton] at hsublist

/-- The branches that a definition is charged for are those of its body. -/
structure ChargedFor (isBranch : Tree κ → Bool) (definition : Tree κ) (f : FunctionOutline) :
    Prop where
  body : ∀ body, definition.child? .body = some body →
    f.complexity = 1 + body.subtrees.countP isBranch
  bodiless : definition.child? .body = none → f.complexity = 1

theorem chargedFor_iff {isBranch : Tree κ → Bool} {definition : Tree κ} {f : FunctionOutline} :
    ChargedFor isBranch definition f ↔
      f.complexity = 1 + ((definition.child? .body).map (count isBranch)).getD 0 := by
  cases hbody : definition.child? .body with
  | none =>
      refine ⟨fun h => h.bodiless hbody, fun h => ⟨?_, fun _ => h⟩⟩
      intro body hsome
      rw [hbody] at hsome
      contradiction
  | some body =>
      rw [Option.map_some, Option.getD_some, count_eq_countP]
      refine ⟨fun h => h.body body hbody, fun h => ⟨?_, ?_⟩⟩
      · intro other hsome
        rw [hbody, Option.some.injEq] at hsome
        rw [h, hsome]
      · intro hnone
        rw [hbody] at hnone
        contradiction

theorem ChargedFor.le_countP {isBranch : Tree κ → Bool} {definition : Tree κ} {f : FunctionOutline}
    (h : ChargedFor isBranch definition f) :
    f.complexity - 1 ≤ definition.subtrees.countP isBranch := by
  cases hbody : definition.child? .body with
  | none =>
      rw [h.bodiless hbody]
      exact Nat.zero_le _
  | some body =>
      have hle := (child?_subtrees_sublist hbody).countP_le (p := isBranch)
      rw [h.body body hbody]
      omega

/-- Each function that is reported stands at a definition of the tree and is charged for the
branches of its body, and together they are charged for no more branches than there are.  `Outlines`
says which outlines a definition has. -/
structure Charged (isBranch : Tree κ → Bool) (Outlines : Tree κ → FunctionOutline → Prop)
    (tree : Tree κ) (report : FileReport) : Prop where
  total : charge report.allFunctions ≤ tree.subtrees.countP isBranch
  own : ∀ f ∈ report.allFunctions, ∃ definition ∈ tree.subtrees,
    Outlines definition f ∧ ChargedFor isBranch definition f

/-- Definitions that do not overlap are charged for no branch twice. -/
theorem charged_of_definitions {δ : Type} {isBranch : Tree κ → Bool}
    {Outlines : Tree κ → FunctionOutline → Prop} {tree : Tree κ} {report : FileReport}
    (definitions : List δ) (place : δ → Tree κ) (outline : δ → FunctionOutline)
    (hreport : report.allFunctions.Perm (definitions.map outline))
    (hapart : (definitions.flatMap fun d => (place d).subtrees).Sublist tree.subtrees)
    (houtlines : ∀ d ∈ definitions, Outlines (place d) (outline d))
    (hcharged : ∀ d ∈ definitions, ChargedFor isBranch (place d) (outline d)) :
    Charged isBranch Outlines tree report := by
  refine ⟨?_, ?_⟩
  · have hsum : charge (definitions.map outline) ≤
        (definitions.flatMap fun d => (place d).subtrees).countP isBranch := by
      clear hreport hapart houtlines
      induction definitions with
      | nil => exact Nat.zero_le _
      | cons d rest ih =>
          obtain ⟨hd, hrest⟩ := List.forall_mem_cons.mp hcharged
          have hfirst := hd.le_countP
          have hothers := ih hrest
          show (outline d).complexity - 1 + charge (rest.map outline) ≤ _
          rw [List.flatMap_cons, List.countP_append]
          omega
    calc charge report.allFunctions = charge (definitions.map outline) := charge_perm hreport
      _ ≤ (definitions.flatMap fun d => (place d).subtrees).countP isBranch := hsum
      _ ≤ tree.subtrees.countP isBranch := hapart.countP_le
  · intro f hf
    obtain ⟨d, hd, rfl⟩ := List.mem_map.mp (hreport.mem_iff.mp hf)
    have hmem : place d ∈ tree.subtrees :=
      hapart.subset (List.mem_flatMap.mpr ⟨d, hd, mem_subtrees_self (place d)⟩)
    exact ⟨place d, hmem, houtlines d hd, hcharged d hd⟩

end Tree
end Syntax
end CodeSurvey
