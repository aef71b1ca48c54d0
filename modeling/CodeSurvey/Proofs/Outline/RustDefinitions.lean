import Mathlib.Data.List.Perm.Basic
import CodeSurvey.Outline.RustOutline
import CodeSurvey.Proofs.Outline.Definitions

/-
The function definitions that the outline of a Rust file reports: the functions among its items,
inner modules included, and those in the bodies of its traits and implementations.  They do not
overlap.  An implementation adds its methods to one type only, so each function of the outline is
that of one definition.
-/

namespace CodeSurvey
namespace RustOutline

open Syntax

/-- The functions in the body of an item, as items. -/
def methodItems (node : Node) : List Item :=
  match node.child? .body with
  | some body => (itemsAmong [] body.children).filter isFunction
  | none => []

/-- The item itself, if it is a function. -/
def functionItems (item : Item) : List Item := if item.node.isKind .functionItem then [item] else []

/-- The functions of a trait or of an implementation for some type. -/
def memberItems (item : Item) : List Item :=
  match item.node.kind?, item.node.child? .subject with
  | some .traitItem, _ => methodItems item.node
  | some .implItem, some _ => methodItems item.node
  | _, _ => []

def definitions (file : Node) : List Item :=
  (items file).flatMap fun item => functionItems item ++ memberItems item

theorem map_functionOutline_methodItems (node : Node) :
    (methodItems node).map functionOutline = methodsOf node := by
  unfold methodItems methodsOf
  cases node.child? .body <;> rfl

theorem map_node_itemsAmong (before nodes : List Node) :
    (itemsAmong before nodes).map Item.node = nodes.filter Tree.isNamed := by
  induction nodes generalizing before with
  | nil => rfl
  | cons node rest ih =>
      rw [itemsAmong, List.map_append, ih]
      by_cases hnamed : node.isNamed = true <;> simp [hnamed]

theorem methodItems_sublist (node : Node) :
    ((methodItems node).flatMap fun item => item.node.subtrees).Sublist node.subtrees := by
  unfold methodItems
  split
  · next body hbody =>
      have hnamed : ((itemsAmong [] body.children).flatMap fun item =>
          item.node.subtrees).Sublist body.subtrees := by
        rw [← List.flatMap_map Item.node, map_node_itemsAmong]
        exact Tree.flatMap_subtrees_sublist List.filter_sublist
      exact ((List.filter_sublist.flatMap _).trans hnamed).trans
        (Tree.child?_subtrees_sublist hbody)
  · exact List.nil_sublist _

/-- What a single item contributes lies inside it. -/
theorem definitionsAt_sublist (item : Item) :
    ((functionItems item ++ memberItems item).flatMap fun item =>
      item.node.subtrees).Sublist item.node.subtrees := by
  unfold functionItems memberItems
  split
  · next hkind =>
      have hfunction : item.node.kind? = some .functionItem := by simpa [Tree.isKind] using hkind
      simp [hfunction]
  · rw [List.nil_append]
    split
    · exact methodItems_sublist item.node
    · exact methodItems_sublist item.node
    · exact List.nil_sublist _

mutual

/-- The items of a file do not overlap. -/
theorem items_sublist : ∀ file : Node,
    ((items file).flatMap fun item => item.node.subtrees).Sublist file.subtrees
  | .node _ _ _ _ children => by
      rw [items, Tree.subtrees]
      exact (itemsAll_sublist [] children).cons _

theorem itemsAll_sublist (before : List Node) : ∀ nodes : List Node,
    ((itemsAll before nodes).flatMap fun item => item.node.subtrees).Sublist
      (Tree.subtreesAll nodes)
  | [] => List.nil_sublist _
  | node :: rest => by
      rw [itemsAll, List.flatMap_append, Tree.subtreesAll]
      refine List.Sublist.append ?_ (itemsAll_sublist (node :: before) rest)
      split
      · exact moduleItems_sublist node
      · split
        · simp
        · exact List.nil_sublist _

theorem moduleItems_sublist : ∀ node : Node,
    ((moduleItems node).flatMap fun item => item.node.subtrees).Sublist node.subtrees
  | .node _ _ _ _ children => by
      rw [moduleItems, Tree.subtrees]
      exact (bodyItems_sublist children).cons _

theorem bodyItems_sublist : ∀ nodes : List Node,
    ((bodyItems nodes).flatMap fun item => item.node.subtrees).Sublist (Tree.subtreesAll nodes)
  | [] => List.nil_sublist _
  | node :: rest => by
      rw [bodyItems, Tree.subtreesAll]
      split
      · exact (items_sublist node).trans (List.sublist_append_left _ _)
      · exact (bodyItems_sublist rest).trans (List.sublist_append_right _ _)

end

/-- The definitions of a file lie apart from each other. -/
theorem definitions_sublist (file : Node) :
    ((definitions file).flatMap fun item => item.node.subtrees).Sublist file.subtrees := by
  rw [definitions, List.flatMap_assoc]
  exact (List.Sublist.flatMap_right _ fun item _ => definitionsAt_sublist item).trans
    (items_sublist file)

theorem perm_methods_extendFirst {types : List TypeOutline} {name : String}
    (h : types.any (·.name == name) = true) (methods : List FunctionOutline) :
    ((extendFirst name methods types).flatMap TypeOutline.methods).Perm
      (types.flatMap TypeOutline.methods ++ methods) := by
  induction types with
  | nil => contradiction
  | cons type rest ih =>
      rw [extendFirst]
      split
      · rw [List.flatMap_cons, List.flatMap_cons, List.append_assoc, List.append_assoc]
        exact List.perm_append_comm.append_left _
      · next hname =>
          have hrest : rest.any (·.name == name) = true := by simpa [hname] using h
          rw [List.flatMap_cons, List.flatMap_cons, List.append_assoc]
          exact (ih hrest).append_left _

/-- An item adds its own functions to the methods of all types, and nothing else. -/
theorem perm_methods_addType (types : List TypeOutline) (item : Item) :
    ((addType types item).flatMap TypeOutline.methods).Perm
      (types.flatMap TypeOutline.methods ++ (memberItems item).map functionOutline) := by
  unfold addType memberItems
  split
  · next hkind => simp [hkind, typeOutline, TypeOutline.ofLines]
  · next hkind => simp [hkind, typeOutline, TypeOutline.ofLines]
  · next hkind => simp [hkind, map_functionOutline_methodItems]
  · next hkind =>
      unfold addImplementation
      cases hsubject : item.node.child? .subject with
      | none => simp [hkind]
      | some subject =>
          simp only [hkind, map_functionOutline_methodItems]
          split
          · next hany => exact perm_methods_extendFirst hany (methodsOf item.node)
          · simp
  · next htrait himpl =>
      split
      · exact absurd ‹_› htrait
      · exact absurd ‹_› himpl
      · simp

theorem perm_methods_foldl_addType (types : List TypeOutline) (items : List Item) :
    ((items.foldl addType types).flatMap TypeOutline.methods).Perm
      (types.flatMap TypeOutline.methods ++ (items.flatMap memberItems).map functionOutline) := by
  induction items generalizing types with
  | nil => simp
  | cons item rest ih =>
      rw [List.foldl_cons, List.flatMap_cons, List.map_append, ← List.append_assoc]
      exact (ih _).trans ((perm_methods_addType types item).append_right _)

theorem filter_isKind_eq_flatMap (items : List Item) :
    items.filter (·.node.isKind .functionItem) = items.flatMap functionItems := by
  induction items with
  | nil => rfl
  | cons item rest ih =>
      rw [List.filter_cons, List.flatMap_cons, ← ih, functionItems]
      split <;> rfl

theorem perm_functions_declarations (file : Node) :
    ((declarations file).flatMap Declaration.functions).Perm
      ((definitions file).map functionOutline) := by
  have hsplit : (declarations file).flatMap Declaration.functions =
      ((items file).flatMap functionItems).map functionOutline
        ++ ((items file).foldl addType []).flatMap TypeOutline.methods := by
    have hfunctions : (((items file).filter (·.node.isKind .functionItem)).map fun item =>
        Declaration.function (functionOutline item)) =
        (((items file).flatMap functionItems).map functionOutline).map Declaration.function := by
      rw [List.map_map, filter_isKind_eq_flatMap]
      rfl
    rw [declarations, hfunctions, List.flatMap_append, List.flatMap_append,
      Declaration.flatMap_functions_imports, Declaration.flatMap_functions_functions,
      Declaration.flatMap_functions_types, List.nil_append]
  have htypes := perm_methods_foldl_addType [] (items file)
  rw [List.flatMap_nil, List.nil_append] at htypes
  rw [hsplit, definitions]
  refine (htypes.append_left _).trans ?_
  rw [← List.map_append]
  exact (List.flatMap_append_perm (items file) functionItems memberItems).map functionOutline

/-- What it means for a function to be that of a definition. -/
def Outlines (definition : Node) (f : FunctionOutline) : Prop :=
  (definition.isKind .functionItem || definition.isKind .functionSignatureItem) = true ∧
    ∃ documented, f = functionOutline ⟨documented, definition⟩

theorem isFunction_of_mem_methodItems {node : Node} {item : Item} (h : item ∈ methodItems node) :
    isFunction item = true := by
  unfold methodItems at h
  split at h
  · exact (List.mem_filter.mp h).2
  · contradiction

theorem isFunction_of_mem_definitions {file : Node} {item : Item} (h : item ∈ definitions file) :
    isFunction item = true := by
  obtain ⟨container, _, hitem⟩ := List.mem_flatMap.mp h
  rcases List.mem_append.mp hitem with hitem | hitem
  · unfold functionItems at hitem
    split at hitem
    · next hkind =>
        rw [List.mem_singleton.mp hitem, isFunction, hkind, Bool.true_or]
    · contradiction
  · unfold memberItems at hitem
    split at hitem
    · exact isFunction_of_mem_methodItems hitem
    · exact isFunction_of_mem_methodItems hitem
    · contradiction

theorem charged_declarations (file : Node) (path : Path) (faults : List SyntaxFault) :
    Tree.Charged isBranch Outlines file (.assemble path "Rust" (declarations file) faults) := by
  refine Tree.charged_of_definitions (definitions file) Item.node functionOutline ?_
    (definitions_sublist file) ?_ ?_
  · exact (FileReport.perm_allFunctions_assemble path "Rust" (declarations file) faults).trans
      (perm_functions_declarations file)
  · intro item hitem
    exact ⟨isFunction_of_mem_definitions hitem, item.documented, rfl⟩
  · intro item _
    exact Tree.chargedFor_iff.mpr rfl

end RustOutline
end CodeSurvey
