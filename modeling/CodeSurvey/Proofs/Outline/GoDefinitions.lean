import Mathlib.Data.List.Perm.Basic
import CodeSurvey.Outline.GoOutline
import CodeSurvey.Proofs.Outline.Definitions

/-
The functions that the outline of a Go file reports.  A declaration takes the lines of its extent
and the reading goes on behind them, so the functions that are found share no line:
`charge_scan_le`.  A method goes to every type that has the name of its receiver, or to one made for
it: where no two types have one name, that is one type.
-/

namespace CodeSurvey
namespace GoOutline

open Text

/-! ## What a line begins -/

def Line.BeginsImport (line : Line) : Prop := "import".toList <+: trim line.code

def Line.BeginsFunction (line : Line) : Prop :=
  ¬ line.BeginsImport ∧ (functionHeader.run (trim line.code)).isSome = true

def Line.BeginsType (line : Line) : Prop :=
  ¬ line.BeginsImport ∧ functionHeader.run (trim line.code) = none ∧
    (typeHeader.run (trim line.code)).isSome = true

instance : DecidablePred Line.BeginsImport := fun _ => inferInstanceAs (Decidable (_ <+: _))

instance : DecidablePred Line.BeginsFunction := fun _ => inferInstanceAs (Decidable (¬ _ ∧ _ = _))

theorem Line.BeginsType.not_function {line : Line} (h : line.BeginsType) :
    ¬ line.BeginsFunction := by
  rintro ⟨_, hsome⟩
  rw [h.2.1] at hsome
  contradiction

theorem declarationAt_cases {position : Position} {found : Found}
    (h : declarationAt position = some found) :
    (position.line.BeginsImport ∧ found = importAt position) ∨
    (position.line.BeginsFunction ∧
      ∃ receiver name tail, found = functionAt position receiver name tail) ∨
    (position.line.BeginsType ∧ ∃ name kind, found = typeAt position name kind) := by
  unfold declarationAt at h
  dsimp only at h
  split at h
  · next himport => exact .inl ⟨List.isPrefixOf_iff_prefix.mp himport, (Option.some.inj h).symm⟩
  · next himport =>
      have hother : ¬ position.line.BeginsImport := mt List.isPrefixOf_iff_prefix.mpr himport
      split at h
      · next hheader =>
          exact .inr (.inl ⟨⟨hother, by rw [hheader]; rfl⟩, _, _, _, (Option.some.inj h).symm⟩)
      · next hheader =>
          split at h
          · next htype =>
              exact .inr (.inr ⟨⟨hother, hheader, by rw [htype]; rfl⟩, _, _,
                (Option.some.inj h).symm⟩)
          · contradiction

theorem begins_nothing_of_none {position : Position} (h : declarationAt position = none) :
    ¬ position.line.BeginsImport ∧ ¬ position.line.BeginsFunction ∧ ¬ position.line.BeginsType := by
  unfold declarationAt at h
  dsimp only at h
  split at h
  · contradiction
  · next himport =>
      split at h
      · contradiction
      · next hfunction =>
          split at h
          · contradiction
          · next htype =>
              refine ⟨mt List.isPrefixOf_iff_prefix.mpr himport, ?_, ?_⟩
              · simp [Line.BeginsFunction, hfunction]
              · simp [Line.BeginsType, htype]

/-! ## Functions and their lines -/

/-- The functions among findings, whether they have a receiver or not. -/
def outlines (findings : List Finding) : List FunctionOutline :=
  findings.filterMap fun
    | .function _ outline => some outline
    | _ => none

/-- The lines that a function takes up. -/
def linesOf (lines : List Line) (f : FunctionOutline) : List Line :=
  (lines.drop (f.startLine - 1)).take f.lineCount

theorem branchesOf_cons (line : Line) (rest : List Line) :
    branchesOf (line :: rest) = branches line.code + branchesOf rest := rfl

theorem branchesOf_take_add_drop (count : Nat) (lines : List Line) :
    branchesOf (lines.take count) + branchesOf (lines.drop count) = branchesOf lines := by
  have hsplit := congrArg branchesOf (List.take_append_drop count lines)
  rw [branchesOf, List.map_append, List.sum_append] at hsplit
  exact hsplit

theorem outlines_append (a b : List Finding) : outlines (a ++ b) = outlines a ++ outlines b :=
  List.filterMap_append

theorem types_append (a b : List Finding) : types (a ++ b) = types a ++ types b :=
  List.filterMap_append

/-- Only an interface declares methods, and these have no branches. -/
structure PlainType (t : TypeOutline) : Prop where
  methods_eq_nil : t.kind ≠ .interface → t.methods = []
  complexity_eq_one : ∀ m ∈ t.methods, m.complexity = 1

/-- What stands at a position: at most one function, which takes all the lines of the declaration
and is charged for their branches, or a type. -/
structure Found.ChargedAt (position : Position) (found : Found) : Prop where
  atMostOne : (outlines found.findings).length ≤ 1
  startLine : ∀ f ∈ outlines found.findings, f.startLine = position.lineNumber
  endLine : ∀ f ∈ outlines found.findings, f.endLine = position.lineNumber + found.further
  complexity : ∀ f ∈ outlines found.findings,
    f.complexity = 1 + branchesOf (position.line :: position.after.take found.further)
  types : ∀ t ∈ types found.findings, PlainType t

theorem chargedAt_of_nil {position : Position} {found : Found}
    (houtlines : outlines found.findings = []) (htypes : ∀ t ∈ types found.findings, PlainType t) :
    found.ChargedAt position := by
  refine ⟨?_, ?_, ?_, ?_, htypes⟩ <;> rw [houtlines]
  · exact Nat.zero_le _
  all_goals exact fun _ => nofun

theorem filterMap_imports {α : Type} {pick : Finding → Option α}
    (hpick : ∀ path, pick (.import path) = none) (paths : List String) :
    (paths.map Finding.import).filterMap pick = [] := by
  rw [List.filterMap_map]
  exact List.filterMap_eq_nil_iff.mpr fun path _ => hpick path

/-- An import brings its paths and at most one fault, and nothing else. -/
theorem filterMap_importAt {α : Type} {pick : Finding → Option α}
    (hpick : ∀ path, pick (.import path) = none) (hfault : ∀ fault, pick (.fault fault) = none)
    (position : Position) : (importAt position).findings.filterMap pick = [] := by
  unfold importAt
  split
  · exact filterMap_imports hpick [_]
  · split
    · rfl
    · split
      · exact filterMap_imports hpick _
      · rw [List.filterMap_append, filterMap_imports hpick, faultAt]
        simp [hfault]

theorem outlines_importAt (position : Position) : outlines (importAt position).findings = [] :=
  filterMap_importAt (fun _ => rfl) (fun _ => rfl) position

theorem chargedAt_importAt (position : Position) : (importAt position).ChargedAt position := by
  have htypes : types (importAt position).findings = [] :=
    filterMap_importAt (fun _ => rfl) (fun _ => rfl) position
  refine chargedAt_of_nil (outlines_importAt position) ?_
  rw [htypes]
  exact fun _ => nofun

theorem chargedAt_functionAt (position : Position) (receiver : Option String)
    (name tail : List Char) : (functionAt position receiver name tail).ChargedAt position := by
  obtain ⟨outline, faults, further, hfound, hfaults, hstart, hend, hcomplexity⟩ :
      ∃ outline faults further, functionAt position receiver name tail =
          ⟨faults ++ [.function receiver outline], further⟩ ∧
        (outlines faults = [] ∧ types faults = []) ∧ outline.startLine = position.lineNumber ∧
        outline.endLine = max (position.lineNumber + further) position.lineNumber ∧
        outline.complexity = 1 + branchesOf (position.line :: position.after.take further) := by
    refine ⟨_, _, _, rfl, ?_, rfl, rfl, rfl⟩
    split <;> exact ⟨rfl, rfl⟩
  have houtlines : outlines (faults ++ [.function receiver outline]) = [outline] := by
    rw [outlines_append, hfaults.1]
    rfl
  have htypes : types (faults ++ [.function receiver outline]) = [] := by
    rw [types_append, hfaults.2]
    rfl
  rw [hfound]
  refine ⟨?_, ?_, ?_, ?_, ?_⟩
  · rw [houtlines]
    exact Nat.le_refl 1
  · intro f hf
    rw [houtlines, List.mem_singleton] at hf
    rw [hf, hstart]
  · intro f hf
    rw [houtlines, List.mem_singleton] at hf
    rw [hf, hend]
    exact Nat.max_eq_left (Nat.le_add_right _ _)
  · intro f hf
    rw [houtlines, List.mem_singleton] at hf
    rw [hf, hcomplexity]
  · rw [htypes]
    exact fun _ => nofun

theorem complexity_numberedMethods {lineNumber : Nat} {lines : List Line} {m : FunctionOutline}
    (h : m ∈ numberedMethods lineNumber lines) : m.complexity = 1 := by
  induction lines generalizing lineNumber with
  | nil => contradiction
  | cons line rest ih =>
      rw [numberedMethods, List.mem_append] at h
      rcases h with h | h
      · split at h
        · contradiction
        · obtain ⟨header, _, rfl⟩ := Option.map_eq_some_iff.mp (Option.mem_toList.mp h)
          rfl
      · exact ih h

theorem chargedAt_typeAt (position : Position) (name : List Char) (kind : TypeKind) :
    (typeAt position name kind).ChargedAt position := by
  obtain ⟨outline, faults, further, hfound, hfaults, hplain⟩ :
      ∃ outline faults further, typeAt position name kind = ⟨faults ++ [.type outline], further⟩ ∧
        (outlines faults = [] ∧ types faults = []) ∧ PlainType outline := by
    refine ⟨_, _, _, rfl, ?_, ?_⟩
    · split <;> exact ⟨rfl, rfl⟩
    · split
      · exact ⟨fun hkind => absurd rfl hkind, fun m hm => complexity_numberedMethods hm⟩
      · exact ⟨fun _ => rfl, fun _ => nofun⟩
  rw [hfound]
  refine chargedAt_of_nil ?_ ?_
  · rw [outlines_append, hfaults.1]
    rfl
  · intro t ht
    rw [types_append, hfaults.2, List.nil_append] at ht
    exact List.mem_singleton.mp ht ▸ hplain

theorem chargedAt_declarationAt {position : Position} {found : Found}
    (h : declarationAt position = some found) : found.ChargedAt position := by
  rcases declarationAt_cases h with ⟨_, rfl⟩ | ⟨_, receiver, name, tail, rfl⟩ | ⟨_, name, kind, rfl⟩
  · exact chargedAt_importAt position
  · exact chargedAt_functionAt position receiver name tail
  · exact chargedAt_typeAt position name kind

theorem Found.ChargedAt.charge_le {position : Position} {found : Found}
    (h : found.ChargedAt position) :
    charge (outlines found.findings) ≤
      branchesOf (position.line :: position.after.take found.further) := by
  have hone := h.atMostOne
  have hcomplexity := h.complexity
  generalize outlines found.findings = functions at hone hcomplexity
  match functions with
  | [] => exact Nat.zero_le _
  | [f] =>
      have hf := hcomplexity f List.mem_cons_self
      show f.complexity - 1 + 0 ≤ _
      omega
  | _ :: _ :: _ => simp at hone

/-- Reading goes on behind the lines of a declaration, so that no line is
charged to two functions. -/
theorem charge_scan_le (index taken : Nat) (depth : Int) (before : Option Line)
    (lines : List Line) :
    charge (outlines (scan index taken depth before lines)) ≤ branchesOf (lines.drop taken) := by
  induction lines generalizing index taken depth before with
  | nil => exact Nat.zero_le _
  | cons line after ih =>
      cases taken with
      | succ taken => exact ih (index + 1) taken depth (some line)
      | zero =>
          rw [scan, List.drop_zero]
          split
          · next found hfound =>
              have hhere : charge (outlines found.findings) ≤
                  branchesOf (line :: after.take found.further) :=
                (chargedAt_declarationAt hfound).charge_le
              have hbehind := ih (index + 1) found.further depth (some line)
              have hsplit := branchesOf_take_add_drop found.further after
              rw [outlines_append, charge_append]
              rw [branchesOf_cons] at hhere ⊢
              omega
          · have hbehind : ∀ depth, charge (outlines (scan (index + 1) 0 depth (some line) after)) ≤
                branchesOf (line :: after) := fun depth =>
              Nat.le_trans (ih (index + 1) 0 depth (some line)) (Nat.le_add_left _ _)
            dsimp only
            split
            · exact hbehind 0
            · exact hbehind _

/-- What is known of one finding: the function is charged for the branches of its own lines. -/
def Finding.ChargedIn (lines : List Line) : Finding → Prop
  | .function _ f => f.complexity = 1 + branchesOf (linesOf lines f)
  | .type t => PlainType t
  | _ => True

theorem Found.ChargedAt.chargedIn {lines after : List Line} {index : Nat} {before : Option Line}
    {line : Line} {found : Found} (h : found.ChargedAt ⟨index, before, line, after⟩)
    (hlines : lines.drop index = line :: after) :
    ∀ finding ∈ found.findings, finding.ChargedIn lines := by
  intro finding hfinding
  cases finding with
  | function receiver f =>
      have hf : f ∈ outlines found.findings := List.mem_filterMap.mpr ⟨_, hfinding, rfl⟩
      have hstart : f.startLine = index + 1 := h.startLine f hf
      have hend : f.endLine = index + 1 + found.further := h.endLine f hf
      have hcount : f.lineCount = found.further + 1 := by
        rw [FunctionOutline.lineCount]
        omega
      show f.complexity = 1 + branchesOf (linesOf lines f)
      rw [h.complexity f hf, linesOf, hstart, hcount, Nat.add_sub_cancel, hlines,
        List.take_succ_cons]
  | type t => exact h.types t (List.mem_filterMap.mpr ⟨_, hfinding, rfl⟩)
  | «import» path => trivial
  | fault fault => trivial

theorem chargedIn_scan {lines rest : List Line} {index : Nat} (taken : Nat) (depth : Int)
    (before : Option Line) (hrest : lines.drop index = rest) :
    ∀ finding ∈ scan index taken depth before rest, finding.ChargedIn lines := by
  induction rest generalizing index taken depth before with
  | nil => exact fun _ => nofun
  | cons line after ih =>
      have hafter : lines.drop (index + 1) = after := by
        rw [← List.drop_drop, hrest]
        rfl
      cases taken with
      | succ taken => exact ih taken depth (some line) hafter
      | zero =>
          rw [scan]
          split
          · next found hfound =>
              exact List.forall_mem_append.mpr
                ⟨(chargedAt_declarationAt hfound).chargedIn hrest,
                  ih found.further depth (some line) hafter⟩
          · dsimp only
            split
            · exact List.forall_mem_cons.mpr ⟨trivial, ih 0 0 (some line) hafter⟩
            · exact ih 0 _ (some line) hafter

theorem chargedIn_findings (source : List Char) :
    ∀ finding ∈ findings source, finding.ChargedIn (stripLines source) :=
  chargedIn_scan 0 0 none rfl

theorem perm_methods_addOrphan (types : List TypeOutline) (receiver : String)
    (method : FunctionOutline) :
    ((addOrphan types receiver method).flatMap TypeOutline.methods).Perm
      (types.flatMap TypeOutline.methods ++ [method]) := by
  induction types with
  | nil => exact .refl _
  | cons type rest ih =>
      rw [addOrphan]
      split
      · rw [List.flatMap_cons, List.flatMap_cons, List.append_assoc, List.append_assoc]
        exact List.perm_append_comm.append_left _
      · rw [List.flatMap_cons, List.flatMap_cons, List.append_assoc]
        exact ih.append_left _

/-- A type of the file is the receiver of the method. -/
def isReceived (types : List TypeOutline) (method : String × FunctionOutline) : Bool :=
  types.any (·.name == method.1)

/-- The methods that no type of the file receives go to types made for them. -/
theorem perm_methods_orphans (types : List TypeOutline)
    (methods : List (String × FunctionOutline)) :
    ((orphans types methods).flatMap TypeOutline.methods).Perm
      ((methods.filter (! isReceived types ·)).map (·.2)) := by
  have hrun : ∀ (methods : List (String × FunctionOutline)) (made : List TypeOutline),
      ((methods.foldl (fun made method => addOrphan made method.1 method.2) made).flatMap
        TypeOutline.methods).Perm (made.flatMap TypeOutline.methods ++ methods.map (·.2)) := by
    intro methods
    induction methods with
    | nil =>
        intro made
        rw [List.map_nil, List.append_nil]
        exact .refl _
    | cons first rest ih =>
        intro made
        rw [List.foldl_cons, List.map_cons, List.append_cons]
        exact (ih _).trans ((perm_methods_addOrphan made first.1 first.2).append_right _)
  exact hrun _ []

/-- Where no two types have one name, a method goes to at most one of them. -/
theorem perm_filter_isReceived {types : List TypeOutline}
    (hdistinct : (types.map TypeOutline.name).Nodup) (methods : List (String × FunctionOutline)) :
    (types.flatMap fun type => methods.filter (·.1 == type.name)).Perm
      (methods.filter (isReceived types)) := by
  induction types with
  | nil => simp [isReceived]
  | cons type rest ih =>
      rw [List.map_cons, List.nodup_cons] at hdistinct
      obtain ⟨hfresh, hrest⟩ := hdistinct
      have hown : (methods.filter (isReceived (type :: rest))).filter (·.1 == type.name) =
          methods.filter (·.1 == type.name) := by
        rw [List.filter_filter]
        refine List.filter_congr fun method _ => ?_
        by_cases hname : method.1 = type.name <;> simp [isReceived, hname]
      have hothers : (methods.filter (isReceived (type :: rest))).filter (! ·.1 == type.name) =
          methods.filter (isReceived rest) := by
        rw [List.filter_filter]
        refine List.filter_congr fun method _ => ?_
        rw [isReceived, List.any_cons, Bool.beq_comm, ← isReceived]
        by_cases hname : (type.name == method.1) = true
        · have hnone : isReceived rest method = false := by
            rw [isReceived, List.any_eq_false]
            intro other hother heq
            exact hfresh
              (List.mem_map.mpr ⟨other, hother, (eq_of_beq heq).trans (eq_of_beq hname).symm⟩)
          rw [hname, hnone]
          rfl
        · rw [Bool.not_eq_true] at hname
          rw [hname]
          rfl
      have hsplit :=
        List.filter_append_perm (·.1 == type.name) (methods.filter (isReceived (type :: rest)))
      rw [hown, hothers] at hsplit
      rw [List.flatMap_cons]
      exact ((ih hrest).append_left _).trans hsplit

theorem perm_functions_methods (findings : List Finding) :
    (functions findings ++ (methods findings).map (·.2)).Perm (outlines findings) := by
  induction findings with
  | nil => exact .refl _
  | cons finding rest ih =>
      cases finding with
      | function receiver f =>
          cases receiver with
          | none => exact ih.cons f
          | some receiver => exact List.perm_middle.trans (ih.cons f)
      | type t => exact ih
      | «import» path => exact ih
      | fault fault => exact ih

/-- The types of a file with their methods, and those made for receivers from other files. -/
def outlinedTypes (found : List Finding) : List TypeOutline :=
  (types found).map (withMethods (methods found)) ++ orphans (types found) (methods found)

/-- Where no two types have one name, a method with a receiver belongs to one type only. -/
theorem perm_methods_outlinedTypes {found : List Finding}
    (hdistinct : ((types found).map TypeOutline.name).Nodup) :
    ((outlinedTypes found).flatMap TypeOutline.methods).Perm
      ((types found).flatMap TypeOutline.methods ++ (methods found).map (·.2)) := by
  have hreceived :
      (((types found).map (withMethods (methods found))).flatMap TypeOutline.methods).Perm
      ((types found).flatMap TypeOutline.methods ++
        ((methods found).filter (isReceived (types found))).map (·.2)) := by
    have happend := List.flatMap_append_perm (types found) TypeOutline.methods fun type =>
      ((methods found).filter (·.1 == type.name)).map Prod.snd
    rw [← List.map_flatMap] at happend
    rw [List.flatMap_map]
    exact happend.symm.trans
      (((perm_filter_isReceived hdistinct (methods found)).map _).append_left _)
  have hall : (((methods found).filter (isReceived (types found))).map (·.2) ++
      ((methods found).filter (! isReceived (types found) ·)).map (·.2)).Perm
        ((methods found).map (·.2)) := by
    rw [← List.map_append]
    exact (List.filter_append_perm _ _).map _
  rw [outlinedTypes, List.flatMap_append]
  refine (hreceived.append (perm_methods_orphans (types found) (methods found))).trans ?_
  rw [List.append_assoc]
  exact hall.append_left _

/-- Where no two types have one name, the methods that are declared with a
receiver are charged once. -/
theorem charge_declarations {found : List Finding}
    (hdistinct : ((types found).map TypeOutline.name).Nodup) :
    charge ((declarations found).flatMap Declaration.functions) =
      charge (outlines found) + charge ((types found).flatMap TypeOutline.methods) := by
  have htypes := charge_perm (perm_methods_outlinedTypes hdistinct)
  have hall := charge_perm (perm_functions_methods found)
  rw [outlinedTypes, List.flatMap_append, charge_append, charge_append] at htypes
  rw [charge_append] at hall
  rw [declarations, List.flatMap_append, List.flatMap_append, List.flatMap_append,
    Declaration.flatMap_functions_imports, Declaration.flatMap_functions_functions,
    Declaration.flatMap_functions_types, Declaration.flatMap_functions_types, List.nil_append,
    charge_append, charge_append]
  omega

/-- A method of a type made for receivers was declared with that receiver. -/
theorem mem_of_mem_orphans {types : List TypeOutline} {methods : List (String × FunctionOutline)}
    {type : TypeOutline} (htype : type ∈ orphans types methods) :
    ∀ m ∈ type.methods, (type.name, m) ∈ methods := by
  have hstep : ∀ (made : List TypeOutline) (receiver : String) (method : FunctionOutline),
      (receiver, method) ∈ methods → (∀ t ∈ made, ∀ m ∈ t.methods, (t.name, m) ∈ methods) →
        ∀ t ∈ addOrphan made receiver method, ∀ m ∈ t.methods, (t.name, m) ∈ methods := by
    intro made receiver method hmem hmade
    induction made with
    | nil =>
        intro t ht m hm
        rw [List.mem_singleton.mp ht] at hm ⊢
        exact List.mem_singleton.mp hm ▸ hmem
    | cons first rest ih =>
        rw [List.forall_mem_cons] at hmade
        rw [addOrphan]
        split
        · next hname =>
            refine List.forall_mem_cons.mpr ⟨fun m hm => ?_, hmade.2⟩
            rcases List.mem_append.mp hm with hm | hm
            · exact hmade.1 m hm
            · rw [List.mem_singleton.mp hm]
              show (first.name, method) ∈ methods
              rw [eq_of_beq hname]
              exact hmem
        · exact List.forall_mem_cons.mpr ⟨hmade.1, ih hmade.2⟩
  have hrun : ∀ t ∈ orphans types methods, ∀ m ∈ t.methods, (t.name, m) ∈ methods :=
    List.foldlRecOn _ _ (fun _ => nofun) fun made hmade method hmethod =>
      hstep made method.1 method.2 (List.mem_of_mem_filter hmethod) hmade
  exact hrun type htype

/-- How the functions of a report are charged for the branches of a source.  A function, or a method
with a receiver, is charged for its own lines, and the method of an interface for none. -/
structure Charged (source : List Char) (report : FileReport) : Prop where
  total : ((types (findings source)).map TypeOutline.name).Nodup →
    charge report.allFunctions ≤ branchesOf (stripLines source)
  functions : ∀ f ∈ report.functions, .function none f ∈ findings source ∧
    f.complexity = 1 + branchesOf (linesOf (stripLines source) f)
  methods : ∀ t ∈ report.types, ∀ m ∈ t.methods,
    (.function (some t.name) m ∈ findings source ∧
      m.complexity = 1 + branchesOf (linesOf (stripLines source) m)) ∨
    ∃ declared ∈ types (findings source), declared.kind = .interface ∧ declared.name = t.name ∧
      m ∈ declared.methods ∧ m.complexity = 1

theorem plainType_of_mem_types {source : List Char} {t : TypeOutline}
    (h : t ∈ types (findings source)) : PlainType t := by
  obtain ⟨finding, hfinding, hsome⟩ := List.mem_filterMap.mp h
  cases finding with
  | type declared => exact Option.some.inj hsome ▸ chargedIn_findings source _ hfinding
  | function _ _ => contradiction
  | «import» _ => contradiction
  | fault _ => contradiction

theorem mem_findings_of_mem_functions {found : List Finding} {f : FunctionOutline}
    (h : f ∈ functions found) : .function none f ∈ found := by
  obtain ⟨finding, hfinding, hsome⟩ := List.mem_filterMap.mp h
  split at hsome
  · exact Option.some.inj hsome ▸ hfinding
  · contradiction

theorem mem_findings_of_mem_methods {found : List Finding} {receiver : String} {m : FunctionOutline}
    (h : (receiver, m) ∈ methods found) : .function (some receiver) m ∈ found := by
  obtain ⟨finding, hfinding, hsome⟩ := List.mem_filterMap.mp h
  split at hsome
  · cases hsome
    exact hfinding
  · contradiction

theorem mem_findings_of_mem_types {found : List Finding} {t : TypeOutline} (h : t ∈ types found) :
    .type t ∈ found := by
  obtain ⟨finding, hfinding, hsome⟩ := List.mem_filterMap.mp h
  split at hsome
  · exact Option.some.inj hsome ▸ hfinding
  · contradiction

theorem charge_types (source : List Char) :
    charge ((types (findings source)).flatMap TypeOutline.methods) = 0 := by
  have hplain : ∀ m ∈ (types (findings source)).flatMap TypeOutline.methods, m.complexity = 1 := by
    intro m hm
    obtain ⟨t, ht, hm⟩ := List.mem_flatMap.mp hm
    exact (plainType_of_mem_types ht).complexity_eq_one m hm
  generalize (types (findings source)).flatMap TypeOutline.methods = methods at hplain
  induction methods with
  | nil => rfl
  | cons m rest ih =>
      obtain ⟨hm, hrest⟩ := List.forall_mem_cons.mp hplain
      show m.complexity - 1 + charge rest = 0
      rw [hm, ih hrest]

theorem mem_type_declarations {found : List Finding} {t : TypeOutline}
    (h : .type t ∈ declarations found) :
    (∃ declared ∈ types found, t = withMethods (methods found) declared) ∨
      t ∈ orphans (types found) (methods found) := by
  simpa [declarations, eq_comm] using h

/-- A method of an outlined type was declared with the type as its receiver, or
in the type itself. -/
theorem mem_methods_declarations {found : List Finding} {t : TypeOutline} {m : FunctionOutline}
    (ht : .type t ∈ declarations found) (hm : m ∈ t.methods) :
    (t.name, m) ∈ methods found ∨ ∃ declared ∈ types found, declared.name = t.name ∧
    m ∈ declared.methods := by
  rcases mem_type_declarations ht with ⟨declared, hdeclared, rfl⟩ | horphan
  · rcases List.mem_append.mp hm with hm | hm
    · exact .inr ⟨declared, hdeclared, rfl, hm⟩
    · obtain ⟨⟨receiver, method⟩, hmethod, rfl⟩ := List.mem_map.mp hm
      obtain ⟨hmethod, hname⟩ := List.mem_filter.mp hmethod
      have hreceiver : receiver = declared.name := eq_of_beq hname
      exact .inl (hreceiver ▸ hmethod)
  · exact .inl (mem_of_mem_orphans horphan m hm)

theorem mem_function_declarations {found : List Finding} {f : FunctionOutline}
    (h : .function f ∈ declarations found) : f ∈ functions found := by
  simpa [declarations] using h

theorem charged_read (source : List Char) (path : Path) (faults : List SyntaxFault) :
    Charged source (.assemble path "Go" (read source).1 faults) := by
  have hdeclared := FileReport.declaredBy_assemble path "Go" (read source).1 faults
  have hown : ∀ receiver f, .function receiver f ∈ findings source →
      f.complexity = 1 + branchesOf (linesOf (stripLines source) f) :=
    fun receiver f => chargedIn_findings source (.function receiver f)
  refine ⟨?_, ?_, ?_⟩
  · intro hdistinct
    calc charge (FileReport.assemble path "Go" (read source).1 faults).allFunctions
        = charge ((declarations (findings source)).flatMap Declaration.functions) :=
          charge_perm (FileReport.perm_allFunctions_assemble path "Go" (read source).1 faults)
      _ = charge (outlines (findings source)) := by rw [charge_declarations hdistinct, charge_types,
        Nat.add_zero]
      _ ≤ branchesOf (stripLines source) := charge_scan_le 0 0 0 none (stripLines source)
  · intro f hf
    have hfound :=
      mem_findings_of_mem_functions (mem_function_declarations (hdeclared.functions f hf))
    exact ⟨hfound, hown none f hfound⟩
  · intro t ht m hm
    rcases mem_methods_declarations (hdeclared.types t ht) hm with
      hmem | ⟨declared, hmem, hname, hm⟩
    · have hfound := mem_findings_of_mem_methods hmem
      exact .inl ⟨hfound, hown (some t.name) m hfound⟩
    · -- only an interface brings methods of its own
      have hplain := plainType_of_mem_types hmem
      refine .inr ⟨declared, hmem, ?_, hname, hm, hplain.complexity_eq_one m hm⟩
      by_contra hkind
      rw [hplain.methods_eq_nil hkind] at hm
      contradiction

end GoOutline
end CodeSurvey
