import Mathlib.Data.List.Nodup
import CodeSurvey.Outline.PythonOutline
import CodeSurvey.Proofs.Outline.Definitions

/-
The imports of a Python module.  They are looked for among the statements of the module and inside
its `if` and `try` statements, clause by clause, but not inside a second such statement.  `LeadsTo`
gives the nodes on the way to a statement, and `SeenThrough` tells which ways are followed.
-/

namespace CodeSurvey

namespace Syntax
namespace Tree

variable {κ : Type}

/-- The nodes on the way from the top of a tree down to another node, each a
child of the one before. -/
def LeadsTo : Tree κ → List (Tree κ) → Tree κ → Prop
  | top, [], found => found ∈ top.children
  | top, next :: rest, found => next ∈ top.children ∧ LeadsTo next rest found

end Tree
end Syntax

namespace FileReport

variable {report : FileReport} {name : String}

theorem mem_imports_declare {declaration : Declaration} :
    name ∈ (report.declare declaration).imports ↔ name ∈ report.imports ∨
    declaration = .import name := by
  cases declaration with
  | function f => simp [declare]
  | type t => simp [declare]
  | «import» other =>
      rw [declare, Declaration.import.injEq]
      split
      · next hknown =>
          rw [List.contains_iff_mem] at hknown
          exact ⟨.inl, fun h => h.elim id fun hother => hother ▸ hknown⟩
      · rw [List.mem_append, List.mem_singleton, eq_comm (a := name)]

theorem nodup_imports_declare (h : report.imports.Nodup) (declaration : Declaration) :
    (report.declare declaration).imports.Nodup := by
  cases declaration with
  | function f => exact h
  | type t => exact h
  | «import» name =>
      rw [declare]
      split
      · exact h
      · next hnew =>
          rw [List.contains_iff_mem] at hnew
          exact List.nodup_append_comm.mp (List.nodup_cons.mpr ⟨hnew, h⟩)

/-- A report has the imports that its declarations name. -/
theorem mem_imports_assemble {path : Path} {language : String} {declarations : List Declaration}
    {faults : List SyntaxFault} :
    name ∈ (assemble path language declarations faults).imports ↔
      Declaration.import name ∈ declarations := by
  have hrun : ∀ report : FileReport, name ∈ (declarations.foldl declare report).imports ↔
      name ∈ report.imports ∨ Declaration.import name ∈ declarations := by
    induction declarations with
    | nil => simp
    | cons declaration rest ih =>
        intro report
        rw [List.foldl_cons, ih, mem_imports_declare, List.mem_cons, or_assoc, eq_comm]
  exact (hrun { path, language }).trans (or_iff_right List.not_mem_nil)

theorem nodup_imports_assemble (path : Path) (language : String) (declarations : List Declaration)
    (faults : List SyntaxFault) : (assemble path language declarations faults).imports.Nodup :=
  List.foldlRecOn declarations declare (motive := fun report => report.imports.Nodup) List.nodup_nil
    fun _ hnodup declaration _ => nodup_imports_declare hnodup declaration

end FileReport

namespace PythonOutline

open Syntax

/-- The modules that an import statement names. -/
inductive Imports : Node → String → Prop where
  | plain {statement name : Node} (hstatement : statement.isKind .importStatement = true)
      (hname : name ∈ statement.children) (hkind : name.isKind .dottedName = true) :
        Imports statement name.text
  | renamed {statement clause name : Node} (hstatement : statement.isKind .importStatement = true)
      (hclause : clause ∈ statement.children) (hkind : clause.isKind .aliasedImport = true)
      (hname : clause.child? .name = some name) : Imports statement name.text
  | source {statement name : Node} (hstatement : statement.isKind .importFromStatement = true)
      (hname : statement.child? .moduleName = some name) : Imports statement name.text

/-- A statement that guards what stands in its clauses. -/
def IsGuard (node : Node) : Prop := node.kind? = some .ifStatement ∨ node.kind? = some .tryStatement

/-- A part of a guard that other statements stand in. -/
def IsPart (node : Node) : Prop :=
  node.kind? ∈ [some .block, some .elifClause, some .elseClause, some .exceptClause,
    some .finallyClause]

/-- The way to a statement leads through guards and their parts only. -/
def GuardedBy (ancestors : List Node) : Prop := ∀ node ∈ ancestors, IsGuard node ∨ IsPart node

/-- A statement of the module is seen, and one behind the parts of a single guard. -/
def SeenThrough : List Node → Prop
  | [] => True
  | guard :: parts => IsGuard guard ∧ ∀ part ∈ parts, IsPart part

/-- Some statement that is seen imports the module of the given name. -/
def SeesImport (module : Node) (name : String) : Prop :=
  ∃ ancestors statement, module.LeadsTo ancestors statement ∧ SeenThrough ancestors ∧
    Imports statement name

variable {module node statement : Node} {name : String}

theorem mem_importedModules_iff :
    Declaration.import name ∈ importedModules statement ↔
      ∃ child ∈ statement.children,
        (child.isKind .dottedName = true ∧ child.text = name) ∨
        (child.isKind .aliasedImport = true ∧ ∃ inner, child.child? .name = some inner ∧
          inner.text = name) := by
  have hnamed : ∀ {child : Node} {kind : PythonKind}, child ∈ statement.children →
      child.isKind kind = true →
      child ∈ statement.namedChildren := fun hchild hkind =>
    List.mem_filter.mpr ⟨hchild, Tree.isNamed_of_kind?_eq (beq_iff_eq.mp hkind)⟩
  simp only [importedModules, List.mem_map, List.mem_filterMap, Declaration.import.injEq]
  constructor
  · rintro ⟨found, ⟨child, hchild, hfound⟩, rfl⟩
    refine ⟨child, List.mem_of_mem_filter hchild, ?_⟩
    split at hfound
    · next hkind => exact .inl ⟨hkind, congrArg Tree.text (Option.some.inj hfound)⟩
    · split at hfound
      · next hkind => exact .inr ⟨hkind, found, hfound, rfl⟩
      · contradiction
  · rintro ⟨child, hchild, ⟨hkind, rfl⟩ | ⟨hkind, inner, hinner, rfl⟩⟩
    · exact ⟨child, ⟨child, hnamed hchild hkind, if_pos hkind⟩, rfl⟩
    · have hother : ¬ child.isKind .dottedName = true := by
        rw [Tree.isKind, beq_iff_eq] at hkind ⊢
        simp [hkind]
      refine ⟨inner, ⟨child, hnamed hchild hkind, ?_⟩, rfl⟩
      rw [if_neg hother, if_pos hkind, hinner]

theorem mem_importsOf_iff : Declaration.import name ∈ importsOf statement ↔
    Imports statement name := by
  constructor
  · intro h
    rw [importsOf] at h
    split at h
    · next hstatement =>
        obtain ⟨child, hchild, ⟨hkind, rfl⟩ | ⟨hkind, inner, hinner, rfl⟩⟩ :=
          mem_importedModules_iff.mp h
        · exact .plain hstatement hchild hkind
        · exact .renamed hstatement hchild hkind hinner
    · split at h
      · next hstatement =>
          obtain ⟨found, hfound, hname⟩ := Option.map_eq_some_iff.mp (Option.mem_toList.mp h)
          exact Declaration.import.inj hname ▸ .source hstatement hfound
      · contradiction
  · intro h
    cases h with
    | plain hstatement hchild hkind =>
        rw [importsOf, if_pos hstatement, mem_importedModules_iff]
        exact ⟨_, hchild, .inl ⟨hkind, rfl⟩⟩
    | renamed hstatement hchild hkind hinner =>
        rw [importsOf, if_pos hstatement, mem_importedModules_iff]
        exact ⟨_, hchild, .inr ⟨hkind, _, hinner, rfl⟩⟩
    | source hstatement hfound =>
        have hother : ¬ statement.isKind .importStatement = true := by
          rw [Tree.isKind, beq_iff_eq] at hstatement ⊢
          simp [hstatement]
        rw [importsOf, if_neg hother, if_pos hstatement, sourceModule, hfound]
        exact List.mem_singleton_self _

/-! ## The parts of a guard -/

theorem Imports.kind_eq (h : Imports statement name) :
    statement.kind? = some .importStatement ∨ statement.kind? = some .importFromStatement := by
  cases h with
  | plain hstatement _ _ => exact .inl (beq_iff_eq.mp hstatement)
  | renamed hstatement _ _ _ => exact .inl (beq_iff_eq.mp hstatement)
  | source hstatement _ => exact .inr (beq_iff_eq.mp hstatement)

theorem Imports.isNamed (h : Imports statement name) : statement.isNamed = true := by
  rcases h.kind_eq with hkind | hkind
  · exact Tree.isNamed_of_kind?_eq hkind
  · exact Tree.isNamed_of_kind?_eq hkind

theorem isGuardPart_iff : isGuardPart node = true ↔ IsPart node := by
  unfold isGuardPart IsPart
  split <;> simp_all

theorem IsPart.isNamed (h : IsPart node) : node.isNamed = true := by
  cases hkind : node.kind? with
  | none => simp [IsPart, hkind] at h
  | some kind => exact Tree.isNamed_of_kind?_eq hkind

theorem mem_guardedImportsAll_cons {rest : List Node} :
    Declaration.import name ∈ guardedImportsAll (node :: rest) ↔
      (Imports node name ∨ IsPart node ∧ Declaration.import name ∈ guardedImports node) ∨
        Declaration.import name ∈ guardedImportsAll rest := by
  rw [guardedImportsAll, List.mem_append]
  refine or_congr_left ?_
  by_cases hnamed : node.isNamed = true
  · rw [if_pos hnamed, List.mem_append, mem_importsOf_iff]
    refine or_congr_right ?_
    rw [← isGuardPart_iff]
    split
    · next hpart => rw [and_iff_right hpart]
    · next hpart => simp [hpart]
  · rw [if_neg hnamed]
    refine iff_of_false List.not_mem_nil ?_
    rintro (himports | ⟨hpart, -⟩)
    · exact hnamed himports.isNamed
    · exact hnamed hpart.isNamed

/-- Looking into a guard is looking at its children, and into those that are parts of it. -/
theorem mem_guardedImports_step :
    Declaration.import name ∈ guardedImports node ↔
      ∃ child ∈ node.children, Imports child name ∨
        IsPart child ∧ Declaration.import name ∈ guardedImports child := by
  have hall : ∀ nodes : List Node, Declaration.import name ∈ guardedImportsAll nodes ↔
      ∃ child ∈ nodes, Imports child name ∨
        IsPart child ∧ Declaration.import name ∈ guardedImports child := by
    intro nodes
    induction nodes with
    | nil => simp [guardedImportsAll]
    | cons first rest ih => rw [mem_guardedImportsAll_cons, ih, List.exists_mem_cons_iff]
  cases node with
  | node label role text span children => exact hall children

mutual

theorem exists_of_mem_guardedImports :
    ∀ node : Node, Declaration.import name ∈ guardedImports node →
    ∃ parts statement, node.LeadsTo parts statement ∧ (∀ part ∈ parts, IsPart part) ∧
      Imports statement name
  | .node _ _ _ _ children, h => by
      obtain ⟨child, hchild, himports | ⟨hpart, parts, statement, hleads, hparts, himports⟩⟩ :=
        exists_of_mem_guardedImportsAll children h
      · exact ⟨[], child, hchild, by simp, himports⟩
      · exact ⟨child :: parts, statement, ⟨hchild, hleads⟩,
          List.forall_mem_cons.mpr ⟨hpart, hparts⟩, himports⟩

theorem exists_of_mem_guardedImportsAll :
    ∀ nodes : List Node, Declaration.import name ∈ guardedImportsAll nodes →
    ∃ child ∈ nodes, Imports child name ∨ IsPart child ∧
      ∃ parts statement, child.LeadsTo parts statement ∧ (∀ part ∈ parts, IsPart part) ∧
        Imports statement name
  | [], h => by simp [guardedImportsAll] at h
  | node :: rest, h => by
      rcases mem_guardedImportsAll_cons.mp h with (himports | ⟨hpart, hinner⟩) | hrest
      · exact ⟨node, List.mem_cons_self, .inl himports⟩
      · exact ⟨node, List.mem_cons_self, .inr ⟨hpart, exists_of_mem_guardedImports node hinner⟩⟩
      · obtain ⟨child, hchild, hfound⟩ := exists_of_mem_guardedImportsAll rest hrest
        exact ⟨child, List.mem_cons_of_mem node hchild, hfound⟩

end

theorem mem_guardedImports_iff :
    Declaration.import name ∈ guardedImports node ↔
      ∃ parts statement, node.LeadsTo parts statement ∧ (∀ part ∈ parts, IsPart part) ∧
        Imports statement name := by
  refine ⟨exists_of_mem_guardedImports node, ?_⟩
  rintro ⟨parts, statement, hleads, hparts, himports⟩
  induction parts generalizing node with
  | nil => exact mem_guardedImports_step.mpr ⟨statement, hleads, .inl himports⟩
  | cons part rest ih =>
      obtain ⟨hpart, hrest⟩ := List.forall_mem_cons.mp hparts
      exact mem_guardedImports_step.mpr ⟨part, hleads.1, .inr ⟨hpart, ih hleads.2 hrest⟩⟩

/-! ## The statements of a module -/

theorem IsGuard.isNamed (h : IsGuard node) : node.isNamed = true := by
  rcases h with hkind | hkind
  · exact Tree.isNamed_of_kind?_eq hkind
  · exact Tree.isNamed_of_kind?_eq hkind

theorem not_mem_definitionOf : Declaration.import name ∉ definitionOf node := by
  unfold definitionOf
  split
  · simp
  · split <;> simp

theorem mem_declarationsOf_iff :
    Declaration.import name ∈ declarationsOf node ↔
      Imports node name ∨ IsGuard node ∧ Declaration.import name ∈ guardedImports node := by
  unfold declarationsOf
  split
  · next hkind =>
      -- a decorated definition imports nothing
      refine iff_of_false ?_ ?_
      · cases node.child? .definition with
        | none => exact List.not_mem_nil
        | some definition => exact not_mem_definitionOf
      · rintro (himports | ⟨hguard, -⟩)
        · simpa [hkind] using himports.kind_eq
        · simp [IsGuard, hkind] at hguard
  · next hkind =>
      rw [or_iff_right fun himports => by simpa [hkind] using himports.kind_eq,
        and_iff_right (.inl hkind)]
  · next hkind =>
      rw [or_iff_right fun himports => by simpa [hkind] using himports.kind_eq,
        and_iff_right (.inr hkind)]
  · next hif htry =>
      rw [List.mem_append, or_iff_right not_mem_definitionOf, mem_importsOf_iff, or_iff_left]
      rintro ⟨hguard | hguard, -⟩
      · exact hif hguard
      · exact htry hguard

theorem mem_declarations_iff : Declaration.import name ∈ declarations module ↔
    SeesImport module name := by
  rw [declarations, List.mem_flatMap]
  constructor
  · rintro ⟨child, hchild, hdeclared⟩
    have hmem : child ∈ module.children := List.mem_of_mem_filter hchild
    rcases mem_declarationsOf_iff.mp hdeclared with himports | ⟨hguard, hinner⟩
    · exact ⟨[], child, hmem, trivial, himports⟩
    · obtain ⟨parts, statement, hleads, hparts, himports⟩ := mem_guardedImports_iff.mp hinner
      exact ⟨child :: parts, statement, ⟨hmem, hleads⟩, ⟨hguard, hparts⟩, himports⟩
  · rintro ⟨ancestors, statement, hleads, hseen, himports⟩
    cases ancestors with
    | nil =>
        refine ⟨statement, List.mem_filter.mpr ⟨hleads, himports.isNamed⟩, ?_⟩
        exact mem_declarationsOf_iff.mpr (.inl himports)
    | cons guard parts =>
        obtain ⟨hguard, hparts⟩ := hseen
        refine ⟨guard, List.mem_filter.mpr ⟨hleads.1, hguard.isNamed⟩, ?_⟩
        have hinner := mem_guardedImports_iff.mpr ⟨parts, statement, hleads.2, hparts, himports⟩
        exact mem_declarationsOf_iff.mpr (.inr ⟨hguard, hinner⟩)

/-- The imports of a module are those that are seen, each once.  So the guarded ones are all
found exactly if those that are not seen, as behind a second guard, are imported in a place
that is seen as well. -/
theorem guarded_imports_found_iff (module : Node) (path : Path) (faults : List SyntaxFault) :
    (FileReport.assemble path "Python" (declarations module) faults).imports.Nodup ∧
    (∀ name, name ∈ (FileReport.assemble path "Python" (declarations module) faults).imports ↔
      SeesImport module name) ∧
    ((∀ ancestors statement, module.LeadsTo ancestors statement → GuardedBy ancestors →
        ∀ name, Imports statement name →
          name ∈ (FileReport.assemble path "Python" (declarations module) faults).imports) ↔
      ∀ ancestors statement, module.LeadsTo ancestors statement → GuardedBy ancestors →
      ¬ SeenThrough ancestors →
        ∀ name, Imports statement name → SeesImport module name) := by
  have hfound : ∀ name,
      name ∈ (FileReport.assemble path "Python" (declarations module) faults).imports ↔
      SeesImport module name :=
        fun name => FileReport.mem_imports_assemble.trans mem_declarations_iff
  refine ⟨FileReport.nodup_imports_assemble .., hfound, ?_, ?_⟩
  · intro hall ancestors statement hleads hguarded _ name himports
    exact (hfound name).mp (hall ancestors statement hleads hguarded name himports)
  · intro hinner ancestors statement hleads hguarded name himports
    rw [hfound]
    by_cases hseen : SeenThrough ancestors
    · exact ⟨ancestors, statement, hleads, hseen, himports⟩
    · exact hinner ancestors statement hleads hguarded hseen name himports

/-- The import stands in an `if` statement, and that in a `try` statement. -/
def innerGuard : List Char := "try:\n  if a:\n    import b\nexcept E:\n  pass\n".toList

theorem inner_guard_missed : ∃ ancestors statement,
    (parse innerGuard).LeadsTo ancestors statement ∧ GuardedBy ancestors ∧ Imports statement "b" ∧
    "b" ∉ (FileReport.assemble ⟨"a.py"⟩ "Python" (declarations (parse innerGuard)) []).imports := by
  have hchecked : ((parse innerGuard).children.any fun guard => guard.isKind .tryStatement &&
        guard.children.any fun part => part.isKind .block &&
        part.children.any fun inner => inner.isKind .ifStatement &&
        inner.children.any fun last => last.isKind .block &&
        last.children.any fun statement => statement.isKind .importStatement &&
        statement.children.any fun name => name.isKind .dottedName && name.text == "b") = true := by
    decide +kernel
  have hnone :
      (FileReport.assemble ⟨"a.py"⟩ "Python" (declarations (parse innerGuard)) []).imports =
        [] := by
    decide +kernel
  simp only [Bool.and_eq_true, List.any_eq_true, beq_iff_eq] at hchecked
  obtain ⟨guard, hguard, htry, part, hpart, hblock, inner, hinner, hif, last, hlast,
    hend, statement, hstatement, himport, name, hname, hdotted, htext⟩ := hchecked
  refine ⟨[guard, part, inner, last], statement, ?_, ?_, htext ▸ .plain himport hname hdotted, ?_⟩
  · exact ⟨hguard, hpart, hinner, hlast, hstatement⟩
  · have hisPart : ∀ {node : Node}, node.isKind .block = true → IsPart node := by
      intro node hkind
      simp [IsPart, beq_iff_eq.mp hkind]
    simp only [GuardedBy, List.forall_mem_cons, List.not_mem_nil, false_implies,
      implies_true, and_true]
    exact ⟨.inl (.inr (beq_iff_eq.mp htry)), .inr (hisPart hblock), .inl (.inl (beq_iff_eq.mp hif)),
      .inr (hisPart hend)⟩
  · rw [hnone]
    exact List.not_mem_nil

end PythonOutline
end CodeSurvey
