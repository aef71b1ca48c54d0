import Mathlib.Data.Multiset.Basic
import Mathlib.Data.List.Nodup
import Mathlib.Data.List.Perm.Basic
import CodeSurvey.Outline.RustOutline
import CodeSurvey.Proofs.Outline.Definitions

/-
The types of a Rust file and where their methods come from.  Declarations and implementations are
blocks about a type; they are taken in the order of the text, and what becomes of a type depends on
the blocks about it alone (`methodsNamed_typesOf`).  The first of them makes an entry that takes up
every later implementation.  A declaration always makes an entry, so one that comes after an
implementation makes a second one.
-/

namespace CodeSurvey

/-- The function without the lines that it stands on. -/
def FunctionOutline.unplaced (f : FunctionOutline) : FunctionOutline :=
  { f with startLine := 0, endLine := 0 }

namespace RustOutline

open Syntax

/-- What an item says about a type: it declares the type or implements it, and the functions in its
body are methods of the type. -/
structure TypeBlock where
  name : String
  declares : Bool
  methods : List FunctionOutline
  deriving DecidableEq

def blockOf (node : Node) : Option TypeBlock :=
  match node.kind? with
  | some .structItem | some .enumItem => some ⟨node.nameText, true, []⟩
  | some .traitItem => some ⟨node.nameText, true, methodsOf node⟩
  | some .implItem =>
    (node.child? .subject).map fun subject => ⟨baseTypeName subject.text, false, methodsOf node⟩
  | _ => none

/-- The blocks of a file in the order of the text, inner modules included. -/
def blocks (file : Node) : List TypeBlock := (items file).filterMap fun item => blockOf item.node

namespace TypeBlock

/-- What the declarations among the blocks bring, one by one. -/
def declared (blocks : List TypeBlock) : List (List FunctionOutline) :=
  (blocks.filter (·.declares)).map methods

/-- What the implementations among the blocks bring, all together. -/
def implemented (blocks : List TypeBlock) : List FunctionOutline :=
  (blocks.filter (! ·.declares)).flatMap methods

/-- The methods of the entries for one type, after one more block about it. -/
def addTo : List (List FunctionOutline) → TypeBlock → List (List FunctionOutline)
  | [], block => [block.methods]
  | first :: rest, block =>
    if block.declares then first :: (rest ++ [block.methods]) else (first ++ block.methods) :: rest

/-- The methods of the entries for one type: the first block about it makes an entry, which takes up
all implementations that follow, and every later declaration makes another one. -/
def entries : List TypeBlock → List (List FunctionOutline)
  | [] => []
  | first :: rest => (first.methods ++ implemented rest) :: declared rest

/-- The block without the lines that its functions stand on. -/
def unplaced (block : TypeBlock) : TypeBlock :=
  { block with methods := block.methods.map FunctionOutline.unplaced }

/-- Lines have no say in which entry a method belongs to. -/
theorem entries_map_unplaced (blocks : List TypeBlock) :
    entries (blocks.map unplaced) = (entries blocks).map (List.map FunctionOutline.unplaced) := by
  have hdeclared : ∀ blocks : List TypeBlock, declared (blocks.map unplaced) =
      (declared blocks).map (List.map FunctionOutline.unplaced) := by
    intro blocks
    rw [declared, declared, List.filter_map, List.map_map, List.map_map]
    rfl
  have himplemented : ∀ blocks : List TypeBlock, implemented (blocks.map unplaced) =
      (implemented blocks).map FunctionOutline.unplaced := by
    intro blocks
    rw [implemented, implemented, List.filter_map, List.flatMap_map, List.map_flatMap]
    rfl
  cases blocks with
  | nil => rfl
  | cons first rest =>
      rw [List.map_cons, entries, entries, himplemented, hdeclared, List.map_cons, List.map_append]
      rfl

theorem foldl_addTo_cons (first : List FunctionOutline) (rest : List (List FunctionOutline))
    (blocks : List TypeBlock) :
    blocks.foldl addTo (first :: rest) =
      (first ++ implemented blocks) :: (rest ++ declared blocks) := by
  induction blocks generalizing first rest with
  | nil => simp [implemented, declared]
  | cons block blocks ih =>
      rw [List.foldl_cons, addTo]
      split
      · next hdeclares => simp [ih, implemented, declared, hdeclares]
      · next hdeclares => simp [ih, implemented, declared, hdeclares]

theorem foldl_addTo (blocks : List TypeBlock) : blocks.foldl addTo [] = entries blocks := by
  cases blocks with
  | nil => rfl
  | cons first rest => exact foldl_addTo_cons first.methods [] rest

theorem addTo_of_declares {block : TypeBlock} (h : block.declares = true)
    (methods : List (List FunctionOutline)) : addTo methods block = methods ++ [block.methods] := by
  cases methods with
  | nil => rfl
  | cons first rest => simp [addTo, h]

theorem foldl_addTo_singleton (methods : List (List FunctionOutline)) (block : TypeBlock)
    (name : String) :
    ([block].filter (·.name == name)).foldl addTo methods =
      if block.name = name then addTo methods block else methods := by
  by_cases hname : block.name = name <;> simp [hname]

/-- The declarations among the blocks are of different types. -/
def DistinctDeclarations (blocks : List TypeBlock) : Prop :=
  ((blocks.filter (·.declares)).map name).Nodup

/-- No implementation comes before the declaration of its type. -/
def DeclaredFirst (blocks : List TypeBlock) : Prop :=
  blocks.Pairwise fun earlier later => earlier.declares = false → later.declares = true →
    earlier.name ≠ later.name

theorem distinctDeclarations_map_unplaced {blocks : List TypeBlock} :
    DistinctDeclarations (blocks.map unplaced) ↔ DistinctDeclarations blocks := by
  rw [DistinctDeclarations, DistinctDeclarations, List.filter_map, List.map_map]
  rfl

instance (blocks : List TypeBlock) : Decidable (DistinctDeclarations blocks) :=
  inferInstanceAs (Decidable (List.Nodup _))

instance (blocks : List TypeBlock) : Decidable (DeclaredFirst blocks) :=
  inferInstanceAs (Decidable (List.Pairwise _ _))

/-- Where the declarations are of different types, it is the same to say that
nothing comes before them. -/
theorem declaredFirst_iff {blocks : List TypeBlock} (h : DistinctDeclarations blocks) :
    DeclaredFirst blocks ↔ blocks.Pairwise fun earlier later => later.declares = true →
    earlier.name ≠ later.name := by
  rw [DistinctDeclarations, List.Nodup, List.pairwise_map, List.pairwise_filter] at h
  constructor
  · intro hfirst
    refine hfirst.imp₂ ?_ h
    intro earlier later himplemented hdeclared hlater
    cases hearlier : earlier.declares with
    | true => exact hdeclared hearlier hlater
    | false => exact himplemented hearlier hlater
  · intro hfirst
    refine List.Pairwise.imp ?_ hfirst
    intro earlier later hlater _
    exact hlater

theorem declared_eq_nil_iff {blocks : List TypeBlock} :
    declared blocks = [] ↔ ∀ block ∈ blocks, ¬ block.declares := by
  rw [declared, List.map_eq_nil_iff, List.filter_eq_nil_iff]

theorem length_entries_le (blocks : List TypeBlock) :
    (entries blocks).length ≤ (declared blocks).length + 1 := by
  cases blocks with
  | nil => exact Nat.zero_le _
  | cons first rest =>
      have hsub : (declared rest).Sublist (declared (first :: rest)) :=
        ((List.sublist_cons_self first rest).filter _).map _
      exact Nat.succ_le_succ hsub.length_le

/-- There is one entry for each type exactly if none is declared behind another block about it. -/
theorem length_entries_le_one_iff (blocks : List TypeBlock) :
    (∀ name, (entries (blocks.filter (·.name == name))).length ≤ 1) ↔
      blocks.Pairwise fun earlier later => later.declares = true → earlier.name ≠ later.name := by
  induction blocks with
  | nil => simp [entries]
  | cons first rest ih =>
      have hself : (first :: rest).filter (·.name == first.name) =
          first :: rest.filter (·.name == first.name) :=
        List.filter_cons_of_pos (by simp)
      have hother : ∀ {name : String}, first.name ≠ name →
          (first :: rest).filter (·.name == name) = rest.filter (·.name == name) := fun hne =>
        List.filter_cons_of_neg (by simpa using hne)
      have hnone : (entries ((first :: rest).filter (·.name == first.name))).length ≤ 1 ↔
          declared (rest.filter (·.name == first.name)) = [] := by
        rw [hself, entries, List.length_cons, Nat.succ_le_succ_iff, Nat.le_zero,
          List.length_eq_zero_iff]
      have hfirst : declared (rest.filter (·.name == first.name)) = [] ↔
          ∀ later ∈ rest, later.declares = true → first.name ≠ later.name := by
        rw [declared_eq_nil_iff, List.forall_mem_filter]
        refine forall₂_congr fun later _ => ?_
        rw [beq_iff_eq, imp_not_comm, ne_comm]
      rw [List.pairwise_cons, ← ih, ← hfirst, ← hnone]
      constructor
      · intro hall
        refine ⟨hall first.name, fun name => ?_⟩
        by_cases hname : first.name = name
        · subst hname
          have hle := length_entries_le (rest.filter (·.name == first.name))
          rwa [hnone.mp (hall first.name)] at hle
        · rw [← hother hname]
          exact hall name
      · rintro ⟨hhead, htail⟩ name
        by_cases hname : first.name = name
        · exact hname ▸ hhead
        · rw [hother hname]
          exact htail name

/-- All methods of the blocks are in the entries, each once. -/
theorem flatten_entries_perm (blocks : List TypeBlock) :
    (entries blocks).flatten.Perm (blocks.flatMap methods) := by
  cases blocks with
  | nil => exact .refl _
  | cons first rest =>
      rw [entries, List.flatten_cons, List.flatMap_cons, List.append_assoc]
      refine List.Perm.append_left _ ?_
      rw [implemented, declared, ← List.flatMap_def, ← List.flatMap_append]
      refine List.Perm.flatMap_right _ ?_
      have hsplit := List.filter_append_perm (fun block => ! block.declares) rest
      simpa using hsplit

theorem exists_mem_entries {blocks : List TypeBlock} {block : TypeBlock} (h : block ∈ blocks) :
    ∃ entry ∈ entries blocks, block.methods.Sublist entry := by
  cases blocks with
  | nil => contradiction
  | cons first rest =>
      rcases List.mem_cons.mp h with rfl | hrest
      · exact ⟨_, List.mem_cons_self, List.sublist_append_left ..⟩
      · cases hdeclares : block.declares with
        | true =>
            have hmem : block.methods ∈ declared rest :=
              List.mem_map_of_mem (List.mem_filter.mpr ⟨hrest, hdeclares⟩)
            exact ⟨_, List.mem_cons_of_mem _ hmem, .refl _⟩
        | false =>
            have hmem : block ∈ rest.filter (! ·.declares) :=
              List.mem_filter.mpr ⟨hrest, by simp [hdeclares]⟩
            have hsub : block.methods.Sublist (implemented rest) := by
              rw [implemented, List.flatMap_def]
              exact List.sublist_flatten_of_mem (List.mem_map_of_mem hmem)
            exact ⟨_, List.mem_cons_self, hsub.trans (List.sublist_append_right ..)⟩

/-- If an implementation comes first, its entry holds what all implementations bring. -/
theorem entries_cons_of_implements {first : TypeBlock} (h : first.declares = false)
    (rest : List TypeBlock) :
    entries (first :: rest) = implemented (first :: rest) :: declared (first :: rest) := by
  simp [entries, implemented, declared, h]

theorem head?_append_of_implements {front : List TypeBlock} (hne : front ≠ [])
    (hfront : ∀ block ∈ front, block.declares = false) (rest : List TypeBlock) :
    (front ++ rest).head?.any (! ·.declares) = true := by
  obtain ⟨first, others, rfl⟩ := List.exists_cons_of_ne_nil hne
  simp [hfront first List.mem_cons_self]

/-- So where an implementation comes first, the order of the blocks does not matter. -/
theorem coe_map_entries_eq {blocks others : List TypeBlock} (h : blocks.Perm others)
    (hblocks : blocks.head?.any (! ·.declares) = true)
    (hothers : others.head?.any (! ·.declares) = true) :
    Multiset.ofList ((entries blocks).map Multiset.ofList) =
      Multiset.ofList ((entries others).map Multiset.ofList) := by
  have hentries : ∀ {blocks : List TypeBlock}, blocks.head?.any (! ·.declares) = true →
      entries blocks = implemented blocks :: declared blocks := by
    intro blocks hfirst
    cases blocks with
    | nil => contradiction
    | cons first rest => exact entries_cons_of_implements (by simpa using hfirst) rest
  have himplemented : (implemented blocks).Perm (implemented others) := (h.filter _).flatMap_right _
  have hdeclared : (declared blocks).Perm (declared others) := (h.filter _).map _
  rw [hentries hblocks, hentries hothers, List.map_cons, List.map_cons,
    Multiset.coe_eq_coe.mpr himplemented, Multiset.coe_eq_coe]
  exact (hdeclared.map _).cons _

end TypeBlock

/-- The methods of each of the types with the given name, in order. -/
def methodsNamed (types : List TypeOutline) (name : String) : List (List FunctionOutline) :=
  (types.filter (·.name == name)).map TypeOutline.methods

theorem methodsNamed_concat (types : List TypeOutline) (type : TypeOutline) (name : String) :
    methodsNamed (types ++ [type]) name =
      if type.name = name then methodsNamed types name ++ [type.methods]
      else methodsNamed types name := by
  by_cases hname : type.name = name <;> simp [methodsNamed, List.filter_append, hname]

theorem methodsNamed_cons (type : TypeOutline) (types : List TypeOutline) (name : String) :
    methodsNamed (type :: types) name =
      if type.name = name then type.methods :: methodsNamed types name
      else methodsNamed types name := by
  by_cases hname : type.name = name <;> simp [methodsNamed, hname]

theorem methodsNamed_extendFirst {types : List TypeOutline} {name : String}
    (methods : List FunctionOutline) (h : types.any (·.name == name) = true) (other : String) :
    methodsNamed (extendFirst name methods types) other =
      if name = other then TypeBlock.addTo (methodsNamed types other) ⟨name, false, methods⟩
      else methodsNamed types other := by
  induction types with
  | nil => contradiction
  | cons type rest ih =>
      rw [extendFirst]
      split
      · next hname =>
          rw [methodsNamed_cons, methodsNamed_cons, beq_iff_eq.mp hname]
          split <;> rfl
      · next hname =>
          have hrest : rest.any (·.name == name) = true := by simpa [hname] using h
          have hne : type.name ≠ name := mt beq_iff_eq.mpr hname
          rw [methodsNamed_cons, methodsNamed_cons, ih hrest]
          by_cases hother : name = other
          · rw [if_pos hother, if_neg (hother ▸ hne), if_pos hother, if_neg (hother ▸ hne)]
          · rw [if_neg hother, if_neg hother]

theorem methodsNamed_eq_nil {types : List TypeOutline} {name : String}
    (h : types.any (·.name == name) = false) : methodsNamed types name = [] := by
  rw [methodsNamed, List.map_eq_nil_iff, List.filter_eq_nil_iff]
  exact List.any_eq_false.mp h

/-- What an item can do to the types before it: nothing, if it is not about a type; add one; or, for
an implementation, extend the first type of its name. -/
theorem addType_cases (types : List TypeOutline) (item : Item) :
    (blockOf item.node = none ∧ addType types item = types) ∨
    (∃ type, blockOf item.node = some ⟨type.name, true, type.methods⟩ ∧
      addType types item = types ++ [type]) ∨
    (∃ name, blockOf item.node = some ⟨name, false, methodsOf item.node⟩ ∧
      types.any (·.name == name) = true ∧
      addType types item = extendFirst name (methodsOf item.node) types) ∨
    (∃ type, blockOf item.node = some ⟨type.name, false, type.methods⟩ ∧
      types.any (·.name == type.name) = false ∧
      addType types item = types ++ [type]) := by
  unfold addType
  split
  · next hkind => exact .inr (.inl ⟨_, by simp only [blockOf, hkind]; rfl, rfl⟩)
  · next hkind => exact .inr (.inl ⟨_, by simp only [blockOf, hkind]; rfl, rfl⟩)
  · next hkind => exact .inr (.inl ⟨_, by simp only [blockOf, hkind]; rfl, rfl⟩)
  · next hkind =>
      cases hsubject : item.node.child? .subject with
      | none => exact .inl ⟨by simp [blockOf, hkind, hsubject],
          by simp [addImplementation, hsubject]⟩
      | some subject =>
          have hblock : blockOf item.node =
              some ⟨baseTypeName subject.text, false, methodsOf item.node⟩ := by
            simp [blockOf, hkind, hsubject]
          by_cases hany : types.any (·.name == baseTypeName subject.text) = true
          · refine .inr (.inr (.inl ⟨_, hblock, hany, ?_⟩))
            simp only [addImplementation, hsubject, hany, if_true]
          · let type : TypeOutline :=
              { TypeOutline.ofLines (baseTypeName subject.text) .struct
                  item.node.startLine item.node.endLine with
                hasDocstring := item.documented
                methods := methodsOf item.node }
            refine .inr (.inr (.inr ⟨type, hblock, Bool.eq_false_iff.mpr hany, ?_⟩))
            simp only [addImplementation, hsubject, hany, if_false, Bool.false_eq_true, type]
  · next hstruct henum htrait himpl =>
      refine .inl ⟨?_, rfl⟩
      unfold blockOf
      split
      · exact absurd ‹_› hstruct
      · exact absurd ‹_› henum
      · exact absurd ‹_› htrait
      · exact absurd ‹_› himpl
      · rfl

/-- An item changes the entries for the type that it is about, and no others. -/
theorem methodsNamed_addType (types : List TypeOutline) (item : Item) (name : String) :
    methodsNamed (addType types item) name =
      ((blockOf item.node).toList.filter (·.name == name)).foldl TypeBlock.addTo
        (methodsNamed types name) := by
  obtain ⟨hblock, hadd⟩ | ⟨type, hblock, hadd⟩ | ⟨owner, hblock, hany, hadd⟩ |
    ⟨type, hblock, hnone, hadd⟩ := addType_cases types item
  · rw [hadd, hblock]
    rfl
  · rw [hadd, hblock, methodsNamed_concat, Option.toList_some, TypeBlock.foldl_addTo_singleton,
      TypeBlock.addTo_of_declares rfl]
  · rw [hadd, hblock, methodsNamed_extendFirst _ hany, Option.toList_some,
      TypeBlock.foldl_addTo_singleton]
  · rw [hadd, hblock, methodsNamed_concat, Option.toList_some, TypeBlock.foldl_addTo_singleton]
    by_cases hname : type.name = name
    · rw [hname] at hnone
      rw [if_pos hname, if_pos hname, methodsNamed_eq_nil hnone]
      rfl
    · rw [if_neg hname, if_neg hname]

theorem methodsNamed_foldl_addType (types : List TypeOutline) (items : List Item) (name : String) :
    methodsNamed (items.foldl addType types) name =
      ((items.filterMap fun item => blockOf item.node).filter (·.name == name)).foldl
        TypeBlock.addTo
        (methodsNamed types name) := by
  induction items generalizing types with
  | nil => rfl
  | cons item rest ih =>
      rw [List.foldl_cons, ih, methodsNamed_addType, ← List.foldl_append, ← List.filter_append,
        List.filterMap_cons]
      cases blockOf item.node <;> rfl

/-- The types that a report on the file has. -/
def typesOf (file : Node) : List TypeOutline := (items file).foldl addType []

theorem types_assemble_declarations (file : Node) (path : Path) (faults : List SyntaxFault) :
    (FileReport.assemble path "Rust" (declarations file) faults).types = typesOf file := by
  have himports : ((imports file).map Declaration.import).filterMap Declaration.type? = [] := by
    rw [List.filterMap_map, List.filterMap_eq_nil_iff]
    exact fun _ _ => rfl
  have hfunctions : (((items file).filter (·.node.isKind .functionItem)).map fun item =>
      Declaration.function (functionOutline item)).filterMap Declaration.type? = [] := by
    rw [List.filterMap_map, List.filterMap_eq_nil_iff]
    exact fun _ _ => rfl
  have htypes : ((typesOf file).map Declaration.type).filterMap Declaration.type? =
      typesOf file := by
    rw [List.filterMap_map]
    exact List.filterMap_some
  rw [FileReport.types_assemble, declarations, List.filterMap_append, List.filterMap_append,
    himports, hfunctions]
  exact htypes

/-- The blocks about one type. -/
def blocksNamed (file : Node) (name : String) : List TypeBlock :=
  (blocks file).filter (·.name == name)

theorem methodsNamed_typesOf (file : Node) (name : String) :
    methodsNamed (typesOf file) name = TypeBlock.entries (blocksNamed file name) := by
  rw [typesOf, methodsNamed_foldl_addType, ← TypeBlock.foldl_addTo]
  rfl

theorem mem_names_iff {types : List TypeOutline} {name : String} :
    name ∈ types.map TypeOutline.name ↔ methodsNamed types name ≠ [] := by
  rw [Ne, methodsNamed, List.map_eq_nil_iff, List.filter_eq_nil_iff, List.mem_map]
  simp

theorem mem_names_typesOf {file : Node} {name : String} :
    name ∈ (typesOf file).map TypeOutline.name ↔ ∃ block ∈ blocks file, block.name = name := by
  have hentries : TypeBlock.entries (blocksNamed file name) = [] ↔ blocksNamed file name = [] := by
    cases blocksNamed file name <;> simp [TypeBlock.entries]
  rw [mem_names_iff, methodsNamed_typesOf, Ne, hentries, blocksNamed, List.filter_eq_nil_iff]
  simp

/-- Names are distinct exactly if there is one entry for each. -/
theorem nodup_names_iff (types : List TypeOutline) :
    (types.map TypeOutline.name).Nodup ↔ ∀ name, (methodsNamed types name).length ≤ 1 := by
  rw [List.nodup_iff_count_le_one]
  refine forall_congr' fun name => ?_
  rw [methodsNamed, List.length_map, ← List.countP_eq_length_filter, List.count, List.countP_map]
  rfl

/-! ## The items of a file -/

/-- The nodes that stand in a file or in a body: its own, and those in the bodies of its modules. -/
inductive StandsIn : Node → Node → Prop where
  | own {container node : Node} (hnode : node ∈ container.children) : StandsIn container node
  | inner {container module body node : Node} (hmodule : module ∈ container.children)
      (hkind : module.isKind .modItem = true) (hbody : module.child? .body = some body)
      (hnode : StandsIn body node) : StandsIn container node

mutual

theorem standsIn_of_mem_items {item : Item} :
    ∀ container : Node, item ∈ items container → StandsIn container item.node
  | .node _ _ _ _ children, h => by
      obtain ⟨child, hchild, hown | ⟨hkind, body, hbody, hinner⟩⟩ :=
        standsIn_of_mem_itemsAll [] children h
      · exact hown ▸ .own hchild
      · exact .inner hchild hkind hbody hinner

theorem standsIn_of_mem_itemsAll {item : Item} (before : List Node) : ∀ nodes : List Node,
    item ∈ itemsAll before nodes → ∃ child ∈ nodes, child = item.node ∨
      child.isKind .modItem = true ∧ ∃ body, child.child? .body = some body ∧
      StandsIn body item.node
  | [], h => by simp [itemsAll] at h
  | node :: rest, h => by
      rw [itemsAll, List.mem_append] at h
      rcases h with hfirst | hrest
      · refine ⟨node, List.mem_cons_self, ?_⟩
        split at hfirst
        · next hkind => exact .inr ⟨hkind, standsIn_of_mem_moduleItems node hfirst⟩
        · split at hfirst
          · exact .inl (congrArg Item.node (List.mem_singleton.mp hfirst)).symm
          · contradiction
      · obtain ⟨child, hchild, hitem⟩ := standsIn_of_mem_itemsAll (node :: before) rest hrest
        exact ⟨child, List.mem_cons_of_mem node hchild, hitem⟩

theorem standsIn_of_mem_moduleItems {item : Item} : ∀ module : Node, item ∈ moduleItems module →
    ∃ body, module.child? .body = some body ∧ StandsIn body item.node
  | .node _ _ _ _ children, h => standsIn_of_mem_bodyItems children h

theorem standsIn_of_mem_bodyItems {item : Item} : ∀ nodes : List Node, item ∈ bodyItems nodes →
    ∃ body, nodes.find? (·.role == some .body) = some body ∧ StandsIn body item.node
  | [], h => by simp [bodyItems] at h
  | node :: rest, h => by
      rw [bodyItems] at h
      split at h
      · next hrole => exact ⟨node, by simp [hrole], standsIn_of_mem_items node h⟩
      · next hrole =>
          obtain ⟨body, hbody, hitem⟩ := standsIn_of_mem_bodyItems rest h
          exact ⟨body, by simpa [List.find?_cons, hrole] using hbody, hitem⟩

end

theorem moduleItems_eq {module body : Node} (h : module.child? .body = some body) :
    moduleItems module = items body := by
  have hbody : ∀ nodes : List Node, nodes.find? (·.role == some .body) = some body →
      bodyItems nodes = items body := by
    intro nodes
    induction nodes with
    | nil =>
        intro hfind
        contradiction
    | cons node rest ih =>
        intro hfind
        rw [List.find?_cons] at hfind
        rw [bodyItems]
        by_cases hrole : (node.role == some .body) = true
        · simp only [hrole, Option.some.injEq] at hfind
          rw [if_pos hrole, hfind]
        · simp only [hrole] at hfind
          rw [if_neg hrole, ih hfind]
  cases module with
  | node label role text span children => exact hbody children h

/-- A child is an item; if it is a module, its items take its place. -/
theorem exists_mem_itemsAll {child : Node} {nodes : List Node} (h : child ∈ nodes)
    (before : List Node) :
    ∃ passed, ∀ item ∈ (if child.isKind .modItem then moduleItems child
      else if child.isNamed then [⟨isDocumented passed, child⟩]
      else []), item ∈ itemsAll before nodes := by
  induction nodes generalizing before with
  | nil => contradiction
  | cons node rest ih =>
      rw [itemsAll]
      rcases List.mem_cons.mp h with rfl | hrest
      · exact ⟨before, fun item hitem => List.mem_append_left _ hitem⟩
      · obtain ⟨passed, hpassed⟩ := ih hrest (node :: before)
        exact ⟨passed, fun item hitem => List.mem_append_right _ (hpassed item hitem)⟩

theorem items_eq (container : Node) : items container = itemsAll [] container.children := by
  cases container
  rfl

theorem exists_mem_items {container node : Node} (h : StandsIn container node)
    (hkind : node.isKind .modItem = false) (hnamed : node.isNamed = true) :
    ∃ item ∈ items container, item.node = node := by
  induction h with
  | own hnode =>
      obtain ⟨passed, hpassed⟩ := exists_mem_itemsAll hnode []
      rw [hkind, hnamed] at hpassed
      rw [items_eq]
      exact ⟨_, hpassed _ (List.mem_singleton_self _), rfl⟩
  | inner hmodule hmod hbody _ ih =>
      obtain ⟨item, hitem, hnode⟩ := ih hkind hnamed
      obtain ⟨passed, hpassed⟩ := exists_mem_itemsAll hmodule []
      rw [if_pos hmod, moduleItems_eq hbody] at hpassed
      rw [items_eq]
      exact ⟨item, hpassed item hitem, hnode⟩

theorem kind_of_blockOf {node : Node} {block : TypeBlock} (h : blockOf node = some block) :
    node.isKind .modItem = false ∧ node.isNamed = true := by
  cases hkind : node.kind? with
  | none => simp [blockOf, hkind] at h
  | some kind =>
      refine ⟨?_, Tree.isNamed_of_kind?_eq hkind⟩
      rw [Tree.isKind, hkind, beq_eq_false_iff_ne]
      intro hmodule
      simp [blockOf, hkind, Option.some.inj hmodule] at h

/-- The blocks of a file are those of the items that stand in it. -/
theorem mem_blocks_iff {file : Node} {block : TypeBlock} :
    block ∈ blocks file ↔ ∃ node, StandsIn file node ∧ blockOf node = some block := by
  rw [blocks, List.mem_filterMap]
  constructor
  · rintro ⟨item, hitem, hblock⟩
    exact ⟨item.node, standsIn_of_mem_items file hitem, hblock⟩
  · rintro ⟨node, hstands, hblock⟩
    obtain ⟨hkind, hnamed⟩ := kind_of_blockOf hblock
    obtain ⟨item, hitem, rfl⟩ := exists_mem_items hstands hkind hnamed
    exact ⟨item, hitem, hblock⟩

/-! ## Moving an implementation -/

/-- The blocks of a file, on whichever lines they stand. -/
def shape (file : Node) : List TypeBlock := (blocks file).map TypeBlock.unplaced

/-- The methods of the types with the given name, type by type, in no order and on no lines. -/
def methodSets (types : List TypeOutline) (name : String) : Multiset (Multiset FunctionOutline) :=
  .ofList ((methodsNamed types name).map fun methods =>
    .ofList (methods.map FunctionOutline.unplaced))

/-- The same types with the same methods, in any order and on any lines. -/
def SameTypes (types others : List TypeOutline) : Prop :=
  ∀ name, methodSets types name = methodSets others name

theorem methodSets_typesOf (file : Node) (name : String) : methodSets (typesOf file) name =
    .ofList ((TypeBlock.entries ((shape file).filter (·.name == name))).map .ofList) := by
  have hshape : (shape file).filter (·.name == name) =
      (blocksNamed file name).map TypeBlock.unplaced := by
    rw [shape, blocksNamed, List.filter_map]
    rfl
  rw [methodSets, methodsNamed_typesOf, hshape, TypeBlock.entries_map_unplaced, List.map_map]
  rfl

theorem mem_names_typesOf_iff_shape {file : Node} {name : String} :
    name ∈ (typesOf file).map TypeOutline.name ↔ ∃ block ∈ shape file, block.name = name := by
  rw [mem_names_typesOf]
  simp only [shape, List.mem_map, exists_exists_and_eq_and]
  rfl

/-- `moved` is `file` with one implementation taken from behind the declaration of its type to a
place before it.  What it passes may come to stand on other lines. -/
structure MovedUp (file moved : Node) (before after between behind : List TypeBlock)
    (declaration implementation : TypeBlock) : Prop where
  shape_file :
    shape file = before ++ (after ++ declaration :: (between ++ implementation :: behind))
  shape_moved :
    shape moved = before ++ implementation :: (after ++ declaration :: (between ++ behind))
  declares : declaration.declares = true
  implements : implementation.declares = false
  sameType : implementation.name = declaration.name

variable {file moved : Node} {before after between behind : List TypeBlock}
  {declaration implementation : TypeBlock}

namespace MovedUp

variable (h : MovedUp file moved before after between behind declaration implementation)
include h

theorem perm : (shape moved).Perm (shape file) := by
  rw [h.shape_file, h.shape_moved]
  refine List.Perm.append_left before ?_
  have hmiddle : (after ++ declaration :: (between ++ implementation :: behind)).Perm
      (implementation :: (after ++ declaration :: (between ++ behind))) := by
    have hcons : (declaration :: (between ++ implementation :: behind)).Perm
        (implementation :: declaration :: (between ++ behind)) :=
      (List.perm_middle.cons declaration).trans (.swap ..)
    exact (hcons.append_left after).trans List.perm_middle
  exact hmiddle.symm

theorem filter_shape_file : (shape file).filter (·.name == declaration.name) =
    before.filter (·.name == declaration.name) ++ (after.filter (·.name == declaration.name) ++
      declaration :: (between.filter (·.name == declaration.name) ++
        implementation :: behind.filter (·.name == declaration.name))) := by
  simp [h.shape_file, List.filter_append, h.sameType]

theorem filter_shape_moved : (shape moved).filter (·.name == declaration.name) =
    before.filter (·.name == declaration.name) ++ implementation ::
      (after.filter (·.name == declaration.name) ++
        declaration :: (between.filter (·.name == declaration.name) ++
          behind.filter (·.name == declaration.name))) := by
  simp [h.shape_moved, List.filter_append, h.sameType]

/-- The blocks about other types stay as they are. -/
theorem filter_shape_eq {name : String} (hname : declaration.name ≠ name) :
    (shape moved).filter (·.name == name) = (shape file).filter (·.name == name) := by
  have himplementation : implementation.name ≠ name := h.sameType ▸ hname
  simp [h.shape_file, h.shape_moved, List.filter_append, hname, himplementation]

theorem implements_of_mem_front (hdistinct : TypeBlock.DistinctDeclarations (blocks file)) :
    ∀ other ∈ before ++ after, other.name = declaration.name → other.declares = false := by
  rw [← TypeBlock.distinctDeclarations_map_unplaced, ← shape, TypeBlock.DistinctDeclarations,
    List.Nodup, List.pairwise_map, List.pairwise_filter, h.shape_file, ← List.append_assoc,
    List.pairwise_append] at hdistinct
  intro other hother hname
  rw [Bool.eq_false_iff]
  intro hdeclares
  exact hdistinct.2.2 other hother declaration List.mem_cons_self hdeclares h.declares hname

/-- With a block about the type before its declaration, all implementations end up in one entry,
wherever they stand. -/
theorem methodSets_eq (hdistinct : TypeBlock.DistinctDeclarations (blocks file))
    (hfront : ∃ other ∈ before ++ after, other.name = declaration.name) :
    methodSets (typesOf moved) declaration.name = methodSets (typesOf file) declaration.name := by
  have himplements : ∀ other ∈ (before ++ after).filter (·.name == declaration.name),
      other.declares = false := by
    intro other hother
    obtain ⟨hmem, hname⟩ := List.mem_filter.mp hother
    exact h.implements_of_mem_front hdistinct other hmem (beq_iff_eq.mp hname)
  have hne : (before ++ after).filter (·.name == declaration.name) ≠ [] := by
    obtain ⟨other, hother, hname⟩ := hfront
    exact List.ne_nil_of_mem (List.mem_filter.mpr ⟨hother, beq_iff_eq.mpr hname⟩)
  rw [List.filter_append] at himplements hne
  rw [methodSets_typesOf, methodSets_typesOf]
  refine TypeBlock.coe_map_entries_eq (h.perm.filter _) ?_ ?_
  · have hbefore : ∀ other ∈ before.filter (·.name == declaration.name) ++ [implementation],
        other.declares = false := by
      intro other hother
      rcases List.mem_append.mp hother with hmem | hmem
      · exact himplements other (List.mem_append_left _ hmem)
      · exact List.mem_singleton.mp hmem ▸ h.implements
    rw [h.filter_shape_moved, List.append_cons]
    exact TypeBlock.head?_append_of_implements (by simp) hbefore _
  · rw [h.filter_shape_file, ← List.append_assoc]
    exact TypeBlock.head?_append_of_implements hne himplements _

/-- Without one, the declaration makes an entry of its own where it had been
the first to make one. -/
theorem card_methodSets (hfront : ¬ ∃ other ∈ before ++ after, other.name = declaration.name) :
    (methodSets (typesOf moved) declaration.name).card =
      (methodSets (typesOf file) declaration.name).card + 1 := by
  have hnone : ∀ {part : List TypeBlock}, (∀ other ∈ part, other ∈ before ++ after) →
      part.filter (·.name == declaration.name) = [] := by
    intro part hpart
    rw [List.filter_eq_nil_iff]
    intro other hother hname
    exact hfront ⟨other, hpart other hother, beq_iff_eq.mp hname⟩
  have hbefore := hnone fun other hother => List.mem_append_left after hother
  have hafter := hnone fun other hother => List.mem_append_right before hother
  rw [methodSets_typesOf, methodSets_typesOf, h.filter_shape_file, h.filter_shape_moved,
    hbefore, hafter]
  simp [TypeBlock.entries, TypeBlock.declared, List.filter_append, h.declares, h.implements]

theorem sameTypes_iff (hdistinct : TypeBlock.DistinctDeclarations (blocks file)) :
    SameTypes (typesOf moved) (typesOf file) ↔
      ∃ other ∈ before ++ after, other.name = declaration.name := by
  constructor
  · intro hsame
    by_contra hfront
    have hcard := h.card_methodSets hfront
    rw [hsame declaration.name] at hcard
    omega
  · intro hfront name
    by_cases hname : declaration.name = name
    · exact hname ▸ h.methodSets_eq hdistinct hfront
    · rw [methodSets_typesOf, methodSets_typesOf, h.filter_shape_eq hname]

end MovedUp

/-- There is one entry for each type of a file exactly if no implementation stands before the
declaration of its type.  In any case the functions of a block are methods of an entry for its type,
and together the entries for a type have the methods of its blocks, each once.  Moving an
implementation in front of the declaration keeps the names, but it keeps the methods of each entry
only if another implementation stood there before. -/
theorem one_entry_per_type_iff (file : Node)
    (hdistinct : TypeBlock.DistinctDeclarations (blocks file)) :
    (∀ path faults, (FileReport.assemble path "Rust" (declarations file) faults).types =
      typesOf file) ∧
    (((typesOf file).map TypeOutline.name).Nodup ↔ TypeBlock.DeclaredFirst (blocks file)) ∧
    (∀ node block, StandsIn file node → blockOf node = some block →
      ∃ type ∈ typesOf file, type.name = block.name ∧ block.methods.Sublist type.methods) ∧
    (∀ name, (methodsNamed (typesOf file) name).flatten.Perm
      ((blocksNamed file name).flatMap TypeBlock.methods)) ∧
    ∀ moved before after between behind declaration implementation,
      MovedUp file moved before after between behind declaration implementation →
      (∀ name, name ∈ (typesOf moved).map TypeOutline.name ↔
        name ∈ (typesOf file).map TypeOutline.name) ∧
      (SameTypes (typesOf moved) (typesOf file) ↔
        ∃ other ∈ before ++ after, other.name = declaration.name) := by
  refine ⟨types_assemble_declarations file, ?_, ?_, ?_, ?_⟩
  · rw [nodup_names_iff, TypeBlock.declaredFirst_iff hdistinct,
      ← TypeBlock.length_entries_le_one_iff]
    exact forall_congr' fun name => by rw [methodsNamed_typesOf, blocksNamed]
  · intro node block hstands hblock
    have hmem : block ∈ blocksNamed file block.name :=
      List.mem_filter.mpr ⟨mem_blocks_iff.mpr ⟨node, hstands, hblock⟩, beq_self_eq_true _⟩
    obtain ⟨entry, hentry, hsub⟩ := TypeBlock.exists_mem_entries hmem
    rw [← methodsNamed_typesOf, methodsNamed] at hentry
    obtain ⟨type, htype, rfl⟩ := List.mem_map.mp hentry
    obtain ⟨htypes, hname⟩ := List.mem_filter.mp htype
    exact ⟨type, htypes, beq_iff_eq.mp hname, hsub⟩
  · intro name
    rw [methodsNamed_typesOf]
    exact TypeBlock.flatten_entries_perm _
  · intro moved before after between behind declaration implementation hmoved
    refine ⟨fun name => ?_, hmoved.sameTypes_iff hdistinct⟩
    rw [mem_names_typesOf_iff_shape, mem_names_typesOf_iff_shape]
    simp only [hmoved.perm.mem_iff]

/-- The implementation stands in a module behind the declaration of its type. -/
def implementedInModule : List Char :=
  "struct A;\nmod m \x7b impl A \x7b fn f() \x7b \x7d \x7d \x7d\ntrait T \x7b fn g(); \x7d\n".toList

/-- The same lines, with the module in front of the declaration. -/
def moduleInFront : List Char :=
  "mod m \x7b impl A \x7b fn f() \x7b \x7d \x7d \x7d\nstruct A;\ntrait T \x7b fn g(); \x7d\n".toList

def declaredA : TypeBlock := ⟨"A", true, []⟩

def implementedA (line : Nat) : TypeBlock := ⟨"A", false, [FunctionOutline.ofLines "f" line line]⟩

def declaredT (line : Nat) : TypeBlock := ⟨"T", true, [FunctionOutline.ofLines "g" line line]⟩

/-- The move takes the function from the second line to the first, and its type from one entry to
two. -/
theorem one_entry_per_type_iff_inModule :
    blocks (parse implementedInModule) = [declaredA, implementedA 2, declaredT 3] ∧
    blocks (parse moduleInFront) = [implementedA 1, declaredA, declaredT 3] ∧
    TypeBlock.DistinctDeclarations (blocks (parse implementedInModule)) ∧
    MovedUp (parse implementedInModule) (parse moduleInFront) [] [] [] [declaredT 0] declaredA
      (implementedA 0) ∧
    ((typesOf (parse implementedInModule)).map TypeOutline.name).Nodup ∧
    ((methodsNamed (typesOf (parse implementedInModule)) "A").flatten.Perm
      ((blocksNamed (parse implementedInModule) "A").flatMap TypeBlock.methods)) ∧
    ¬ SameTypes (typesOf (parse moduleInFront)) (typesOf (parse implementedInModule)) := by
  have hfile : blocks (parse implementedInModule) = [declaredA, implementedA 2, declaredT 3] := by
    decide +kernel
  have hmoved : blocks (parse moduleInFront) = [implementedA 1, declaredA, declaredT 3] := by
    decide +kernel
  have hdistinct : TypeBlock.DistinctDeclarations (blocks (parse implementedInModule)) := by
    rw [hfile]
    decide
  have hfirst : TypeBlock.DeclaredFirst (blocks (parse implementedInModule)) := by
    rw [hfile]
    decide
  have hmovedUp : MovedUp (parse implementedInModule) (parse moduleInFront) [] [] [] [declaredT 0]
      declaredA (implementedA 0) := by
    refine ⟨?_, ?_, rfl, rfl, rfl⟩
    · rw [shape, hfile]
      rfl
    · rw [shape, hmoved]
      rfl
  obtain ⟨_, hnodup, _, hmethods, hmove⟩ :=
    one_entry_per_type_iff (parse implementedInModule) hdistinct
  refine ⟨hfile, hmoved, hdistinct, hmovedUp, hnodup.mpr hfirst, hmethods "A", ?_⟩
  rw [(hmove _ _ _ _ _ _ _ hmovedUp).2]
  simp

/-- The implementation stands before the declaration of its type. -/
def implementedEarly : List Char := "impl A \x7b fn f() \x7b \x7d \x7d\nstruct A;\n".toList

theorem early_implementation_doubles_type :
    TypeBlock.DistinctDeclarations (blocks (parse implementedEarly)) ∧
    ¬ ((FileReport.assemble ⟨"a.rs"⟩ "Rust" (declarations (parse implementedEarly)) []).types.map
      TypeOutline.name).Nodup := by
  decide +kernel

end RustOutline
end CodeSurvey
