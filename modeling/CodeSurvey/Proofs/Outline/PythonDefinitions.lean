import Mathlib.Data.List.Basic
import CodeSurvey.Outline.PythonOutline
import CodeSurvey.Proofs.Outline.Definitions

/-
The function definitions that the outline of a Python module reports: those that are statements of
the module or of the body of one of its classes, decorated or not.  They do not overlap, and each
function of the outline is that of one of them.
-/

namespace CodeSurvey
namespace PythonOutline

open Syntax

/-- The function that a statement of a class body defines. -/
def methodsAt (statement : Node) : List Node :=
  match undecorated statement with
  | some node => if node.isKind .functionDefinition then [node] else []
  | none => []

/-- The functions of a definition: itself, or the methods of a class. -/
def functionsAt (node : Node) : List Node :=
  if node.isKind .functionDefinition then [node]
  else if node.isKind .classDefinition then
    match node.child? .body with
    | some body => body.namedChildren.flatMap methodsAt
    | none => []
  else []

/-- The function definitions that a statement of the module brings into the outline. -/
def definitionsAt (statement : Node) : List Node :=
  match undecorated statement with
  | some node => functionsAt node
  | none => []

def definitions (module : Node) : List Node := module.namedChildren.flatMap definitionsAt

theorem undecorated_subtrees_sublist {statement node : Node}
    (h : undecorated statement = some node) : node.subtrees.Sublist statement.subtrees := by
  rw [undecorated] at h
  split at h
  · exact Tree.child?_subtrees_sublist h
  · rw [Option.some.injEq] at h
    exact h ▸ .refl _

theorem methodsAt_sublist (statement : Node) :
    ((methodsAt statement).flatMap Tree.subtrees).Sublist statement.subtrees := by
  unfold methodsAt
  split
  · next node hnode =>
      split
      · rw [List.flatMap_singleton]
        exact undecorated_subtrees_sublist hnode
      · exact List.nil_sublist _
  · exact List.nil_sublist _

theorem functionsAt_sublist (node : Node) :
    ((functionsAt node).flatMap Tree.subtrees).Sublist node.subtrees := by
  unfold functionsAt
  split
  · simp
  · split
    · split
      · next body hbody =>
          exact (Tree.namedChildren_flatMap_sublist body methodsAt_sublist).trans
            (Tree.child?_subtrees_sublist hbody)
      · exact List.nil_sublist _
    · exact List.nil_sublist _

theorem definitionsAt_sublist (statement : Node) :
    ((definitionsAt statement).flatMap Tree.subtrees).Sublist statement.subtrees := by
  unfold definitionsAt
  split
  · next node hnode => exact (functionsAt_sublist node).trans (undecorated_subtrees_sublist hnode)
  · exact List.nil_sublist _

/-- The definitions of a module lie apart from each other. -/
theorem definitions_sublist (module : Node) :
    ((definitions module).flatMap Tree.subtrees).Sublist module.subtrees :=
  Tree.namedChildren_flatMap_sublist module definitionsAt_sublist

theorem methods_addMember (outline : TypeOutline) (statement : Node) :
    (addMember outline statement).methods = outline.methods ++
      (methodsAt statement).map functionOutline := by
  unfold addMember methodsAt
  split
  · next hnone => simp [hnone]
  · next node hnode =>
      rw [hnode]
      dsimp only
      split
      · rfl
      · split <;> simp

theorem methods_foldl_addMember (outline : TypeOutline) (statements : List Node) :
    (statements.foldl addMember outline).methods =
      outline.methods ++ (statements.flatMap methodsAt).map functionOutline := by
  induction statements generalizing outline with
  | nil => simp
  | cons statement rest ih =>
      rw [List.foldl_cons, ih, methods_addMember, List.flatMap_cons, List.map_append,
        List.append_assoc]

theorem methods_classOutline (node : Node) :
    (classOutline node).methods =
      (match node.child? .body with
        | some body => body.namedChildren.flatMap methodsAt
        | none => []).map functionOutline := by
  unfold classOutline
  cases node.child? .body with
  | none => rfl
  | some body =>
      show (body.namedChildren.foldl addMember _).methods = _
      rw [methods_foldl_addMember]
      rfl

theorem functions_definitionOf (node : Node) :
    (definitionOf node).flatMap Declaration.functions = (functionsAt node).map functionOutline := by
  unfold definitionOf functionsAt
  split
  · rfl
  · split
    · rw [← methods_classOutline, List.flatMap_singleton]
      rfl
    · rfl

theorem functions_importsOf (node : Node) :
    (importsOf node).flatMap Declaration.functions = [] := by
  unfold importsOf importedModules sourceModule
  split
  · simp [List.flatMap_map, Declaration.functions]
  · split
    · cases node.child? .moduleName <;> rfl
    · rfl

mutual

theorem functions_guardedImports :
    ∀ node : Node, (guardedImports node).flatMap Declaration.functions = []
  | .node _ _ _ _ children => functions_guardedImportsAll children

theorem functions_guardedImportsAll :
    ∀ nodes : List Node, (guardedImportsAll nodes).flatMap Declaration.functions = []
  | [] => rfl
  | node :: rest => by
      rw [guardedImportsAll, List.flatMap_append, functions_guardedImportsAll rest, List.append_nil]
      split
      · rw [List.flatMap_append, functions_importsOf, List.nil_append]
        split
        · exact functions_guardedImports node
        · rfl
      · rfl

end

theorem functions_declarationsOf (statement : Node) :
    (declarationsOf statement).flatMap Declaration.functions =
      (definitionsAt statement).map functionOutline := by
  unfold declarationsOf definitionsAt undecorated
  split
  · next hkind =>
      simp only [Tree.isKind, hkind, beq_self_eq_true, if_true]
      cases statement.child? .definition with
      | none => rfl
      | some definition => exact functions_definitionOf definition
  · next hkind =>
      rw [functions_guardedImports]
      simp [Tree.isKind, hkind, functionsAt]
  · next hkind =>
      rw [functions_guardedImports]
      simp [Tree.isKind, hkind, functionsAt]
  · next hdecorated _ _ =>
      rw [List.flatMap_append, functions_definitionOf, functions_importsOf, List.append_nil]
      have hplain : statement.kind? ≠ some .decoratedDefinition := hdecorated
      simp [Tree.isKind, hplain]

theorem functions_declarations (module : Node) :
    (declarations module).flatMap Declaration.functions =
      (definitions module).map functionOutline := by
  rw [declarations, definitions, List.flatMap_assoc, List.map_flatMap]
  exact List.flatMap_congr fun statement _ => functions_declarationsOf statement

/-- What it means for a function to be that of a definition. -/
def Outlines (definition : Node) (f : FunctionOutline) : Prop :=
  definition.isKind .functionDefinition = true ∧ f = functionOutline definition

theorem isKind_of_mem_methodsAt {statement node : Node} (h : node ∈ methodsAt statement) :
    node.isKind .functionDefinition = true := by
  unfold methodsAt at h
  split at h
  · split at h
    · next hkind => exact List.mem_singleton.mp h ▸ hkind
    · contradiction
  · contradiction

theorem isKind_of_mem_definitions {module node : Node} (h : node ∈ definitions module) :
    node.isKind .functionDefinition = true := by
  obtain ⟨statement, _, hstatement⟩ := List.mem_flatMap.mp h
  unfold definitionsAt at hstatement
  split at hstatement
  · unfold functionsAt at hstatement
    split at hstatement
    · next hkind => exact List.mem_singleton.mp hstatement ▸ hkind
    · split at hstatement
      · split at hstatement
        · obtain ⟨member, _, hmember⟩ := List.mem_flatMap.mp hstatement
          exact isKind_of_mem_methodsAt hmember
        · contradiction
      · contradiction
  · contradiction

theorem charged_declarations (module : Node) (path : Path) (faults : List SyntaxFault) :
    Tree.Charged isBranch Outlines module
      (.assemble path "Python" (declarations module) faults) := by
  refine Tree.charged_of_definitions (definitions module) id functionOutline ?_
    (definitions_sublist module) ?_ ?_
  · rw [← functions_declarations]
    exact FileReport.perm_allFunctions_assemble path "Python" (declarations module) faults
  · intro node hnode
    exact ⟨isKind_of_mem_definitions hnode, rfl⟩
  · intro node _
    exact Tree.chargedFor_iff.mpr rfl

end PythonOutline
end CodeSurvey
