import Mathlib.Data.List.Nodup
import CodeSurvey.Proofs.Text.Split
import CodeSurvey.Walk

/-
A walk finds no file twice.  In a file system whose directories hold distinct names, the path of an
entry says its directory's components and then its name, so files below different entries have
different paths, also in the sense in which paths compare.  The main statement is
`Walk.gathered_found`.
-/

namespace CodeSurvey

/-- What an entry of a directory can be called. -/
def IsEntryName (name : String) : Prop :=
  name ≠ "" ∧ name ≠ "." ∧ name ≠ ".." ∧ '/' ∉ name.toList

instance (name : String) : Decidable (IsEntryName name) := inferInstanceAs (Decidable (_ ∧ _))

namespace Path

open Text

/-- What the first stretch of a text stands for, if the text is not empty. -/
def openingComponent (text : List Char) : Option Component :=
  if text = [] then some .root else if text = ['.'] then some .current else innerComponent text

theorem components_of_split {path : Path} {first : List Char} {more : List (List Char)}
    (hpath : path.text.toList ≠ [])
    (hsplit : splitWhere (· == '/') path.text.toList = first :: more) :
    path.components = (openingComponent first).toList ++ more.filterMap innerComponent := by
  cases more with
  | nil =>
      have hfirst : first ≠ [] := by
        rintro rfl
        exact hpath (eq_nil_of_splitWhere hsplit)
      simp only [components, segments, hsplit, openingComponent, hfirst, if_false]
      cases (if first = ['.'] then some Component.current else innerComponent first) <;> simp
  | cons second more =>
      simp only [components, segments, hsplit, ← openingComponent.eq_1, List.filterMap_cons,
        List.filterMap_map]
      cases openingComponent first <;> rfl

theorem innerComponent_of_name {name : String} (h : IsEntryName name) :
    innerComponent name.toList = some (.name name) := by
  obtain ⟨hempty, hdot, hdots, _⟩ := h
  have hempty' : name.toList ≠ [] := fun h => hempty (String.toList_inj.mp h)
  have hdot' : name.toList ≠ ['.'] := fun h => hdot (String.toList_inj.mp h)
  have hdots' : name.toList ≠ ['.', '.'] := fun h => hdots (String.toList_inj.mp h)
  simp [innerComponent, hempty', hdot', hdots']

theorem text_toList_join {base : Path} {name : String} (hbase : base.text ≠ "")
    (hname : IsEntryName name) :
    (base.join name).text.toList = base.text.toList ++ '/' :: name.toList ∨
      ∃ text, base.text.toList = text ++ ['/'] ∧
        (base.join name).text.toList = text ++ '/' :: name.toList := by
  have hhead : (name.toList.head? == some '/' || base.text == "") = false := by
    rw [Bool.or_eq_false_iff, beq_eq_false_iff_ne, beq_eq_false_iff_ne]
    exact ⟨fun h => hname.2.2.2 (List.mem_of_head? h), hbase⟩
  by_cases hlast : (base.text.toList.getLast? == some '/') = true
  · refine .inr ⟨base.text.toList.dropLast, ?_, ?_⟩
    · exact (List.dropLast_append_getLast? _ (beq_iff_eq.mp hlast)).symm
    · simp only [join, hhead, hlast, if_true, Bool.false_eq_true, if_false, String.toList_append]
      conv_lhs => rw [← List.dropLast_append_getLast? _ (beq_iff_eq.mp hlast)]
      simp
  · refine .inl ?_
    simp [join, hhead, hlast]

/-- The path of an entry says its directory and then its name. -/
theorem components_join {base : Path} {name : String} (hbase : base.text ≠ "")
    (hname : IsEntryName name) : (base.join name).components = base.components ++ [.name name] := by
  have hcut : ∀ before after : List Char, splitWhere (· == '/') (before ++ '/' :: after) =
      splitWhere (· == '/') before ++ splitWhere (· == '/') after := splitWhere_append rfl
  have hsingle : splitWhere (· == '/') name.toList = [name.toList] :=
    splitWhere_eq_singleton fun c hc => beq_eq_false_iff_ne.mpr fun h => hname.2.2.2 (h ▸ hc)
  have hlast : [name.toList].filterMap innerComponent = [.name name] := by
    simp [innerComponent_of_name hname]
  have hbase' : base.text.toList ≠ [] := fun h => hbase (String.toList_inj.mp h)
  rcases text_toList_join hbase hname with htext | ⟨text, hclosed, htext⟩
  · obtain ⟨first, more, hsplit⟩ :=
      List.exists_cons_of_ne_nil (splitWhere_ne_nil (p := (· == '/')) base.text.toList)
    have hjoin : splitWhere (· == '/') (base.join name).text.toList =
        first :: (more ++ [name.toList]) := by
      rw [htext, hcut, hsplit, hsingle, List.cons_append]
    rw [components_of_split (by simp [htext]) hjoin, components_of_split hbase' hsplit,
      List.filterMap_append, List.append_assoc, hlast]
  · -- The separator that closes the directory's path leaves an empty stretch, which stands for
    -- nothing.
    obtain ⟨first, more, hsplit⟩ :=
      List.exists_cons_of_ne_nil (splitWhere_ne_nil (p := (· == '/')) text)
    have hclosed' : splitWhere (· == '/') base.text.toList = first :: (more ++ [[]]) := by
      rw [hclosed, hcut, hsplit, List.cons_append]
      rfl
    have hjoin : splitWhere (· == '/') (base.join name).text.toList =
        first :: (more ++ [name.toList]) := by
      rw [htext, hcut, hsplit, hsingle, List.cons_append]
    have hempty : [([] : List Char)].filterMap innerComponent = [] := rfl
    rw [components_of_split (by simp [htext]) hjoin, components_of_split hbase' hclosed',
      List.filterMap_append, List.filterMap_append, hlast, hempty, List.append_nil,
      List.append_assoc]

theorem text_join_ne {base : Path} {name : String} (hbase : base.text ≠ "")
    (hname : IsEntryName name) : (base.join name).text ≠ "" := by
  intro h
  rcases text_toList_join hbase hname with htext | ⟨text, _, htext⟩
  · simp [h] at htext
  · simp [h] at htext

end Path

/-- Directories hold distinct names, all the way down.  Nothing is asked of what is no directory. -/
inductive FileTree.WellFormed : FileTree → Prop
  | leaf {tree : FileTree} (hleaf : ∀ entries, tree ≠ .directory entries) : WellFormed tree
  | directory {entries : Entries} (hdistinct : (entries.map Prod.fst).Nodup)
      (hnames : ∀ entry ∈ entries, IsEntryName entry.1)
      (htrees : ∀ entry ∈ entries, WellFormed entry.2) : WellFormed (.directory entries)

theorem FileTree.WellFormed.child {entries : Entries} {name : String} {tree : FileTree}
    (h : WellFormed (.directory entries)) (hchild : child? entries name = some tree) :
    tree.WellFormed := by
  cases h with
  | leaf hleaf => exact absurd rfl (hleaf entries)
  | directory _ _ htrees =>
      obtain ⟨entry, hfind, rfl⟩ := Option.map_eq_some_iff.mp hchild
      exact htrees entry (List.mem_of_find?_eq_some hfind)

theorem FileTree.eq_of_reachedBefore {tree found : FileTree} {rest : List String}
    (h : tree.reachedBefore rest = .ok found) : found = tree := by
  unfold reachedBefore at h
  split at h <;> split at h
  · exact (Except.ok.inj h).symm
  · contradiction
  · exact (Except.ok.inj h).symm
  · contradiction

namespace FileSystem

def WellFormed (files : FileSystem) : Prop := (FileTree.directory files.root).WellFormed

theorem wellFormed_headD {root : FileTree.Entries} {stack : List FileTree.Entries}
    (hroot : (FileTree.directory root).WellFormed)
    (hstack : ∀ entries ∈ stack, (FileTree.directory entries).WellFormed) :
    (FileTree.directory (stack.headD root)).WellFormed := by
  cases stack with
  | nil => exact hroot
  | cons entries stack => exact hstack entries List.mem_cons_self

/-- Wherever names lead from well-formed directories, the tree there is well-formed. -/
theorem wellFormed_follow {root : FileTree.Entries} {followLast : Bool} {links : Nat}
    {stack : List FileTree.Entries} {names : List String} {tree : FileTree}
    (hroot : (FileTree.directory root).WellFormed)
    (hstack : ∀ entries ∈ stack, (FileTree.directory entries).WellFormed)
    (h : follow root followLast links stack names = .ok tree) : tree.WellFormed := by
  fun_induction follow root followLast links stack names with
  | case1 links stack =>
      rw [Except.ok.injEq] at h
      rw [← h]
      exact wellFormed_headD hroot hstack
  | case2 links stack rest ih => exact ih hstack h
  | case3 links stack rest _ ih =>
      exact ih (fun entries hentries => hstack entries (List.mem_of_mem_drop hentries)) h
  | case4 => contradiction
  | case5 links stack name rest _ _ entries hchild ih =>
      have hentries := (wellFormed_headD hroot hstack).child hchild
      exact ih (List.forall_mem_cons.mpr ⟨hentries, hstack⟩) h
  | case6 links stack name rest _ _ target hchild =>
      rw [Except.ok.injEq] at h
      rw [← h]
      exact .leaf (by simp)
  | case7 => contradiction
  | case8 stack name rest _ _ target hchild _ links ih =>
      refine ih ?_ h
      split
      · simp
      · exact hstack
  | case9 links stack name rest _ _ tree _ _ hchild =>
      rw [FileTree.eq_of_reachedBefore h]
      exact (wellFormed_headD hroot hstack).child hchild

theorem wellFormed_locate {files : FileSystem} {followLast : Bool} {path : Path} {tree : FileTree}
    (hfiles : files.WellFormed) (h : files.locate followLast path = .ok tree) :
    tree.WellFormed := by
  unfold locate at h
  split at h
  · contradiction
  · split at h
    · exact wellFormed_follow hfiles (by simp) h
    · exact wellFormed_follow hfiles (by simp) h

end FileSystem

/-- The file that a visit found, if it did. -/
def Visit.found? : Visit → Option Discovered
  | .found file => some file
  | _ => none

namespace Walk

variable {walk : Walk} {base : Path}

theorem found_eq_filterMap (walk : Walk) : walk.found = walk.visits.filterMap Visit.found? := by
  rw [found, entries, List.filterMap_filterMap]
  congr 1
  funext visit
  cases visit <;> rfl

theorem visitAll_eq_map (walk : Walk) (directory : Path) (entries : FileTree.Entries) :
    walk.visitAll directory entries =
      entries.map fun entry => (entry.1, walk.visit (directory.join entry.1) entry.2) := by
  induction entries with
  | nil => rw [visitAll, List.map_nil]
  | cons entry rest ih => rw [visitAll, ih, List.map_cons]

theorem inOrder_perm (entries : List (String × List Visit)) :
    (inOrder entries).Perm (entries.flatMap Prod.snd) :=
  (List.mergeSort_perm entries _).flatMap_right _

/-- The files found below a directory: no two have the same path, and each has the
language of its path. -/
structure Gathered (walk : Walk) (base : Path) (found : List Discovered) : Prop where
  distinct : (found.map fun file => file.path.components).Nodup
  below : ∀ file ∈ found, base.components <+: file.path.components
  resolved : ∀ file ∈ found, walk.registry.resolve file.path = .ok file.language

theorem gathered_nil : walk.Gathered base [] := ⟨List.nodup_nil, by simp, by simp⟩

theorem Gathered.perm {found found' : List Discovered} (h : walk.Gathered base found)
    (hperm : found'.Perm found) : walk.Gathered base found' where
  distinct := (hperm.map _).nodup_iff.mpr h.distinct
  below file hfile := h.below file (hperm.mem_iff.mp hfile)
  resolved file hfile := h.resolved file (hperm.mem_iff.mp hfile)

theorem gathered_fateOf (walk : Walk) (path : Path) (size : Nat) :
    walk.Gathered path ([walk.fateOf path size].filterMap Visit.found?) := by
  unfold fateOf
  split
  · exact gathered_nil
  · cases hresolve : walk.registry.resolve path with
    | error fault => exact gathered_nil
    | ok language =>
        exact ⟨by simp [Visit.found?], by simp [Visit.found?], by simp [Visit.found?, hresolve]⟩

theorem gathered_classify (walk : Walk) (path : Path) (target : Except String FileTree) :
    walk.Gathered path ((walk.classify path target).filterMap Visit.found?) := by
  unfold classify
  split
  · exact gathered_nil
  · split
    · next tree =>
        cases tree.fileSize? with
        | none => exact gathered_nil
        | some size => exact gathered_fateOf walk path size
    · exact gathered_nil

/-- A link is an entry too, but one to a directory leads to no file. -/
theorem found_classify_linkTarget {path : Path} {tree : FileTree}
    (hlocate : walk.files.locate true path = .ok tree) (hnone : tree.fileSize? = none) :
    (walk.classify path (walk.linkTarget path)).filterMap Visit.found? = [] := by
  simp only [linkTarget, hlocate, classify, hnone]
  split <;> rfl

/-- What is found below the entries of a directory is found below the directory. -/
theorem gathered_inOrder {entries : FileTree.Entries} (hbase : base.text ≠ "")
    (hdistinct : (entries.map Prod.fst).Nodup) (hnames : ∀ entry ∈ entries, IsEntryName entry.1)
    (hentries : ∀ entry ∈ entries, walk.Gathered (base.join entry.1)
      ((walk.visit (base.join entry.1) entry.2).filterMap Visit.found?)) :
    walk.Gathered base ((inOrder (walk.visitAll base entries)).filterMap Visit.found?) := by
  have hperm : ((inOrder (walk.visitAll base entries)).filterMap Visit.found?).Perm
      (entries.flatMap fun entry =>
        (walk.visit (base.join entry.1) entry.2).filterMap Visit.found?) := by
    refine ((inOrder_perm _).filterMap _).trans (.of_eq ?_)
    rw [visitAll_eq_map, List.flatMap_map, List.filterMap_flatMap]
  have hbelow : ∀ entry ∈ entries,
      ∀ file ∈ (walk.visit (base.join entry.1) entry.2).filterMap Visit.found?,
        base.components ++ [.name entry.1] <+: file.path.components := by
    intro entry hentry file hfile
    rw [← Path.components_join hbase (hnames entry hentry)]
    exact (hentries entry hentry).below file hfile
  refine Gathered.perm ⟨?_, ?_, ?_⟩ hperm
  · rw [List.map_flatMap, List.nodup_flatMap]
    refine ⟨fun entry hentry => (hentries entry hentry).distinct, ?_⟩
    refine (List.pairwise_map.mp hdistinct).imp_of_mem fun {a b} ha hb hne => ?_
    intro components hcomponents hcomponents'
    obtain ⟨file, hfile, rfl⟩ := List.mem_map.mp hcomponents
    obtain ⟨file', hfile', hsame⟩ := List.mem_map.mp hcomponents'
    -- Both entries' names would stand at the same place.
    obtain ⟨rest, hrest⟩ := hbelow a ha file hfile
    obtain ⟨rest', hrest'⟩ := hbelow b hb file' hfile'
    rw [← hrest', ← hrest] at hsame
    simp only [List.append_assoc, List.cons_append, List.append_cancel_left_eq, List.cons.injEq,
      Component.name.injEq] at hsame
    exact hne hsame.1.symm
  · intro file hfile
    obtain ⟨entry, hentry, hfile⟩ := List.mem_flatMap.mp hfile
    exact (List.prefix_append _ _).trans (hbelow entry hentry file hfile)
  · intro file hfile
    obtain ⟨entry, hentry, hfile⟩ := List.mem_flatMap.mp hfile
    exact (hentries entry hentry).resolved file hfile

theorem gathered_visit {tree : FileTree} (htree : tree.WellFormed) (hbase : base.text ≠ "") :
    walk.Gathered base ((walk.visit base tree).filterMap Visit.found?) := by
  induction htree generalizing base with
  | @leaf tree hleaf =>
      cases tree with
      | directory entries => exact absurd rfl (hleaf entries)
      | closed fault =>
          rw [visit]
          split
          · exact gathered_nil
          · exact gathered_nil
      | special =>
          rw [visit]
          exact gathered_nil
      | _ =>
          rw [visit]
          exact gathered_classify ..
  | directory hdistinct hnames _ ih =>
      rw [visit]
      split
      · exact gathered_nil
      · exact gathered_inOrder hbase hdistinct hnames fun entry hentry =>
          ih entry hentry (Path.text_join_ne hbase (hnames entry hentry))

theorem text_ne_of_locate {files : FileSystem} {followLast : Bool} {path : Path} {tree : FileTree}
    (h : files.locate followLast path = .ok tree) : path.text ≠ "" := by
  intro hempty
  simp [FileSystem.locate, hempty] at h

theorem gathered_contents {entries : FileTree.Entries}
    (htree : (FileTree.directory entries).WellFormed) (hroot : walk.root.text ≠ "") :
    walk.Gathered walk.root ((walk.contents entries).filterMap Visit.found?) := by
  cases htree with
  | leaf hleaf => exact absurd rfl (hleaf entries)
  | directory hdistinct hnames htrees =>
      exact gathered_inOrder hroot hdistinct hnames fun entry hentry =>
        gathered_visit (htrees entry hentry) (Path.text_join_ne hroot (hnames entry hentry))

/-- A walk finds no path twice, and every file with the language of its path. -/
theorem gathered_found (walk : Walk) (hfiles : walk.files.WellFormed) :
    walk.Gathered walk.root walk.found := by
  rw [found_eq_filterMap, visits]
  split
  · exact gathered_nil
  · exact gathered_nil
  · next entries hlocate =>
      exact gathered_contents (FileSystem.wellFormed_locate hfiles hlocate)
        (text_ne_of_locate hlocate)
  · split
    · exact gathered_nil
    · next entries hlocate =>
        rw [List.filterMap_append, found_classify_linkTarget hlocate rfl, List.nil_append]
        exact gathered_contents (FileSystem.wellFormed_locate hfiles hlocate)
          (text_ne_of_locate hlocate)
    · next fault hlocate =>
        rw [List.filterMap_append, found_classify_linkTarget hlocate rfl, List.nil_append]
        exact gathered_nil
    · exact gathered_classify ..
  · exact gathered_nil
  · exact gathered_classify ..

end Walk
end CodeSurvey
