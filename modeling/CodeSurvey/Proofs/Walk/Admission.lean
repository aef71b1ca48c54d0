import Mathlib.Data.List.Forall2
import CodeSurvey.Proofs.Walk.DistinctPaths

/-
Which files a walk finds.  The walk never asks whether a file lies below an excluded directory: it
does not enter such a directory.  `Admits` says what this comes to, for a file at the end of a route
from the root, and `found_exactly` that the walk finds the files that are admitted and no others, in
the order of their routes.
-/

namespace CodeSurvey

/-- A route leads from a tree through directories to another; links on the way are not followed. -/
inductive FileTree.Leads : FileTree → List String → FileTree → Prop
  | here (tree : FileTree) : Leads tree [] tree
  | through {entries : Entries} {name : String} {tree found : FileTree} {route : List String}
      (hentry : (name, tree) ∈ entries) (hroute : Leads tree route found) :
      Leads (.directory entries) (name :: route) found

namespace FileTree

variable {tree found : FileTree} {name : String} {route : List String}

theorem leads_nil_iff : tree.Leads [] found ↔ found = tree := by
  constructor
  · rintro ⟨⟩
    rfl
  · rintro rfl
    exact .here found

theorem leads_cons_iff {entries : Entries} :
    (directory entries).Leads (name :: route) found ↔
      ∃ tree, (name, tree) ∈ entries ∧ tree.Leads route found := by
  constructor
  · rintro (_ | ⟨hentry, hroute⟩)
    exact ⟨_, hentry, hroute⟩
  · rintro ⟨tree, hentry, hroute⟩
    exact .through hentry hroute

theorem leads_leaf_iff (hleaf : ∀ entries, tree ≠ .directory entries) :
    tree.Leads route found ↔ route = [] ∧ found = tree := by
  constructor
  · rintro (_ | ⟨_, _⟩)
    · exact ⟨rfl, rfl⟩
    · exact absurd rfl (hleaf _)
  · rintro ⟨rfl, rfl⟩
    exact .here found

end FileTree

/-- The path of what a route leads to. -/
def Path.joinAll (base : Path) (route : List String) : Path := route.foldl Path.join base

/-- With a link at the end or without, names lead to the same, unless the link
itself is asked for. -/
theorem FileSystem.follow_last (root : FileTree.Entries) (links : Nat)
    (stack : List FileTree.Entries) (names : List String) :
    follow root false links stack names = follow root true links stack names ∨
      ∃ target, follow root false links stack names = .ok (.link target) := by
  fun_induction follow root true links stack names with
  | case1 links stack =>
      rw [follow]
      exact .inl rfl
  | case2 links stack rest ih =>
      rw [follow, if_pos rfl]
      exact ih
  | case3 links stack rest hdot ih =>
      rw [follow, if_neg hdot, if_pos rfl]
      exact ih
  | case4 links stack name rest hdot hdots hchild =>
      rw [follow, if_neg hdot, if_neg hdots, hchild]
      exact .inl rfl
  | case5 links stack name rest hdot hdots entries hchild ih =>
      rw [follow, if_neg hdot, if_neg hdots, hchild]
      exact ih
  | case6 links stack name rest hdot hdots target hchild hlast => simp at hlast
  | case7 stack name rest hdot hdots target hchild hlast =>
      rw [follow, if_neg hdot, if_neg hdots, hchild]
      cases rest with
      | nil => exact .inr ⟨target, by simp⟩
      | cons second rest => exact .inl (by simp)
  | case8 stack name rest hdot hdots target hchild hlast links ih =>
      rw [follow, if_neg hdot, if_neg hdots, hchild]
      cases rest with
      | nil => exact .inr ⟨target, by simp⟩
      | cons second rest => simpa using ih
  | case9 links stack name rest hdot hdots tree hdirectory hlink hchild =>
      rw [follow, if_neg hdot, if_neg hdots, hchild]
      cases tree with
      | directory entries => exact absurd rfl (hdirectory entries)
      | link target => exact absurd rfl (hlink target)
      | _ => exact .inl rfl

theorem FileSystem.locate_last (files : FileSystem) (path : Path) :
    files.locate false path = files.locate true path ∨
      ∃ target, files.locate false path = .ok (.link target) := by
  unfold locate
  split
  · exact .inl rfl
  · split
    · exact follow_last ..
    · exact follow_last ..

namespace Walk

variable {walk : Walk} {base : Path} {tree : FileTree} {name : String} {route : List String}
  {file : Discovered}

/-- The size of an entry that is a file or a link to one. -/
inductive HasSize (walk : Walk) (path : Path) : FileTree → Nat → Prop
  | file {tree : FileTree} {size : Nat} (hsize : tree.fileSize? = some size) :
      HasSize walk path tree size
  | link {found : FileTree} {size : Nat} (target : String)
      (hlocate : walk.files.locate true path = .ok found) (hsize : found.fileSize? = some size) :
      HasSize walk path (.link target) size

theorem hasSize_iff {path : Path} {size : Nat} (hlink : ∀ target, tree ≠ .link target) :
    walk.HasSize path tree size ↔ tree.fileSize? = some size := by
  constructor
  · intro h
    cases h with
    | file hsize => exact hsize
    | link target => exact absurd rfl (hlink target)
  · exact .file

theorem hasSize_link_iff {path : Path} {target : String} {size : Nat} :
    walk.HasSize path (.link target) size ↔
      ∃ found, walk.linkTarget path = .ok found ∧ found.fileSize? = some size := by
  unfold linkTarget
  constructor
  · intro h
    cases h with
    | file hsize => contradiction
    | link _ hlocate hsize => exact ⟨_, by rw [hlocate], hsize⟩
  · rintro ⟨found, h, hsize⟩
    split at h
    · next hlocate =>
        rw [Except.ok.injEq] at h
        exact .link target (h ▸ hlocate) hsize
    · contradiction

/-- A file at the end of a route from a tree that passes every rule, as do the directories on the
way.  The rules have no say about the tree itself. -/
structure Admits (walk : Walk) (base : Path) (tree : FileTree) (route : List String)
    (file : Discovered) : Prop where
  path : file.path = base.joinAll route
  entered : ∀ above below, route = above ++ below → above ≠ [] → below ≠ [] →
    walk.isExcluded (base.joinAll above) true = false
  size : ∃ entry, tree.Leads route entry ∧ walk.HasSize file.path entry file.size
  kept : walk.isExcluded file.path false = false
  included : walk.includes.isEmpty = true ∨
    walk.includes.applyTo (relative walk.root file.path) false = true
  small : file.size ≤ walk.maxFileSize
  language : walk.registry.resolve file.path = .ok file.language

/-- An admitted file below a tree that is itself entered. -/
def Meets (walk : Walk) (base : Path) (tree : FileTree) (route : List String) (file : Discovered) :
    Prop :=
  walk.Admits base tree route file ∧ (route ≠ [] → walk.isExcluded base true = false)

theorem not_admits_nil {entries : FileTree.Entries} :
    ¬ walk.Admits base (.directory entries) [] file := by
  intro h
  obtain ⟨entry, hleads, hsize⟩ := h.size
  rw [FileTree.leads_nil_iff] at hleads
  subst hleads
  rw [hasSize_iff (by simp)] at hsize
  contradiction

/-- An admitted file below a directory is one below some entry of it. -/
theorem admits_cons_iff {entries : FileTree.Entries} :
    walk.Admits base (.directory entries) (name :: route) file ↔
      ∃ tree, (name, tree) ∈ entries ∧ walk.Meets (base.join name) tree route file := by
  constructor
  · intro h
    obtain ⟨entry, hleads, hsize⟩ := h.size
    obtain ⟨tree, hentry, hleads⟩ := FileTree.leads_cons_iff.mp hleads
    refine ⟨tree, hentry, ⟨h.path, ?_, ⟨entry, hleads, hsize⟩, h.kept, h.included, h.small,
      h.language⟩, fun hroute => ?_⟩
    · intro above below hsplit _ hbelow
      exact h.entered (name :: above) below (by rw [hsplit]; rfl) (List.cons_ne_nil _ _) hbelow
    · exact h.entered [name] route rfl (List.cons_ne_nil _ _) hroute
  · rintro ⟨tree, hentry, h, hopen⟩
    obtain ⟨entry, hleads, hsize⟩ := h.size
    refine ⟨h.path, ?_, ⟨entry, .through hentry hleads, hsize⟩, h.kept, h.included, h.small,
      h.language⟩
    intro above below hsplit habove hbelow
    obtain ⟨first, above, rfl⟩ := List.exists_cons_of_ne_nil habove
    rw [List.cons_append, List.cons.injEq] at hsplit
    obtain ⟨rfl, hsplit⟩ := hsplit
    by_cases hnil : above = []
    · subst hnil
      refine hopen ?_
      rw [hsplit, List.nil_append]
      exact hbelow
    · exact h.entered above below hsplit hnil hbelow

theorem mem_found_fateOf {path : Path} {size : Nat} :
    file ∈ (walk.fateOf path size).found? ↔
      file.path = path ∧ file.size = size ∧ size ≤ walk.maxFileSize ∧
      walk.registry.resolve path = .ok file.language := by
  obtain ⟨filePath, fileSize, language⟩ := file
  unfold fateOf
  split
  · next hlarge =>
      constructor
      · intro h
        contradiction
      · rintro ⟨_, _, hsmall, _⟩
        omega
  · next hsmall =>
      have hsmall' : size ≤ walk.maxFileSize := by omega
      cases hresolve : walk.registry.resolve path with
      | error fault => simp [Visit.found?]
      | ok found =>
          simp only [Visit.found?, Option.mem_def, Option.some.injEq, Discovered.mk.injEq,
            hsmall', true_and, Except.ok.injEq]
          constructor
          · rintro ⟨rfl, rfl, rfl⟩
            exact ⟨rfl, rfl, rfl⟩
          · rintro ⟨rfl, rfl, rfl⟩
            exact ⟨rfl, rfl, rfl⟩

theorem mem_found_classify {path : Path} {target : Except String FileTree} :
    file ∈ (walk.classify path target).filterMap Visit.found? ↔
      walk.isExcluded path false = false ∧ walk.isIncluded path = true ∧
        ∃ tree size, target = .ok tree ∧ tree.fileSize? = some size ∧
          file ∈ (walk.fateOf path size).found? := by
  unfold classify
  split
  · next hout =>
      rw [Bool.or_eq_true, Bool.not_eq_true'] at hout
      constructor
      · intro h
        contradiction
      · rintro ⟨hkept, hincluded, _⟩
        rw [hkept, hincluded] at hout
        simp at hout
  · next hin =>
      rw [Bool.or_eq_true, not_or, Bool.not_eq_true, Bool.not_eq_true', Bool.not_eq_false] at hin
      split
      · next tree =>
          cases hsize : tree.fileSize? with
          | none => simp [hsize]
          | some size => simp [hin, hsize, eq_comm]
      · simp [Visit.found?]

theorem length_found_classify_le {path : Path} {target : Except String FileTree} :
    ((walk.classify path target).filterMap Visit.found?).length ≤ 1 := by
  refine Nat.le_trans (List.length_filterMap_le _ _) ?_
  unfold classify
  split
  · exact Nat.le_refl 1
  · split
    · exact Option.length_toList_le
    · exact Nat.le_refl 1

theorem isIncluded_iff {path : Path} : walk.isIncluded path = true ↔
    walk.includes.isEmpty = true ∨
    walk.includes.applyTo (relative walk.root path) false = true := by
  rw [isIncluded, Bool.or_eq_true]

/-- At an entry that is no directory, a file is admitted if the entry is classified as found. -/
theorem meets_leaf_iff {target : Except String FileTree}
    (hleaf : ∀ entries, tree ≠ .directory entries)
    (htarget : ∀ size, walk.HasSize base tree size ↔
      ∃ found, target = .ok found ∧ found.fileSize? = some size) :
    walk.Meets base tree route file ↔
      route = [] ∧ file ∈ (walk.classify base target).filterMap Visit.found? := by
  rw [mem_found_classify]
  constructor
  · rintro ⟨h, _⟩
    obtain ⟨entry, hleads, hentry⟩ := h.size
    obtain ⟨rfl, rfl⟩ := (FileTree.leads_leaf_iff hleaf).mp hleads
    have hpath : file.path = base := h.path
    rw [hpath, htarget] at hentry
    obtain ⟨found, hfound, hsize⟩ := hentry
    refine ⟨rfl, hpath ▸ h.kept, isIncluded_iff.mpr (hpath ▸ h.included), found, _,
      hfound, hsize, ?_⟩
    exact mem_found_fateOf.mpr ⟨hpath, rfl, h.small, hpath ▸ h.language⟩
  · rintro ⟨rfl, hkept, hincluded, found, size, hfound, hsize, hfile⟩
    obtain ⟨rfl, rfl, hsmall, hlanguage⟩ := mem_found_fateOf.mp hfile
    refine ⟨⟨rfl, ?_, ⟨tree, .here tree, (htarget _).mpr ⟨found, hfound, hsize⟩⟩, hkept,
      isIncluded_iff.mp hincluded, hsmall, hlanguage⟩, fun hroute => absurd rfl hroute⟩
    intro above below hsplit habove _
    exact absurd (List.append_eq_nil_iff.mp hsplit.symm).1 habove

/-- Nothing is admitted at an entry that is no directory, file or link. -/
theorem not_meets_of_no_size (hleaf : ∀ entries, tree ≠ .directory entries)
    (hlink : ∀ target, tree ≠ .link target) (hsize : tree.fileSize? = none) :
    ¬ walk.Meets base tree route file := by
  rintro ⟨h, _⟩
  obtain ⟨entry, hleads, hentry⟩ := h.size
  obtain ⟨_, rfl⟩ := (FileTree.leads_leaf_iff hleaf).mp hleads
  rw [hasSize_iff hlink, hsize] at hentry
  contradiction

/-- A list holds the files that some condition admits, in the order of their routes. -/
def Enumerates (admits : List String → Discovered → Prop) (found : List Discovered) : Prop :=
  ∃ routes : List (List String), List.Forall₂ admits routes found ∧ routes.Pairwise (· < ·) ∧
    ∀ route file, admits route file → file ∈ found

theorem enumerates_nil {admits : List String → Discovered → Prop}
    (h : ∀ route file, ¬ admits route file) : Enumerates admits [] :=
  ⟨[], .nil, .nil, fun route file hfile => absurd hfile (h route file)⟩

theorem enumerates_leaf {admits : List String → Discovered → Prop} {found : List Discovered}
    (hlength : found.length ≤ 1) (h : ∀ route file, admits route file ↔ route = [] ∧ file ∈ found) :
    Enumerates admits found := by
  match found, hlength with
  | [], _ => exact ⟨[], .nil, .nil, fun route file hfile => ((h route file).mp hfile).2⟩
  | [only], _ =>
      refine ⟨[[]], .cons ((h [] only).mpr ⟨rfl, List.mem_singleton_self only⟩) .nil,
        List.pairwise_singleton _ _, fun route file hfile => ((h route file).mp hfile).2⟩

/-- The files below several entries, taken in the order of the entries' names. -/
theorem enumerates_flatMap {α : Type} {entries : List (String × α)}
    {admits : String × α → List String → Discovered → Prop} {found : String × α → List Discovered}
    (hsorted : entries.Pairwise fun a b => a.1 < b.1)
    (heach : ∀ entry ∈ entries, Enumerates (admits entry) (found entry)) :
    Enumerates (fun route file => ∃ entry ∈ entries, ∃ rest, route = entry.1 :: rest ∧
      admits entry rest file)
      (entries.flatMap found) := by
  induction entries with
  | nil => exact ⟨[], .nil, .nil, fun route file h => by simp at h⟩
  | cons entry entries ih =>
      rw [List.pairwise_cons] at hsorted
      obtain ⟨routes, hadmits, hincreasing, hall⟩ := heach entry List.mem_cons_self
      obtain ⟨routes', hadmits', hincreasing', hall'⟩ :=
        ih hsorted.2 fun other hother => heach other (List.mem_cons_of_mem entry hother)
      have hlater : ∀ route ∈ routes', ∃ other ∈ entries, ∃ rest, route = other.1 :: rest := by
        intro route hroute
        obtain ⟨index, hindex, rfl⟩ := List.mem_iff_getElem.mp hroute
        obtain ⟨other, hother, rest, hrest, _⟩ := hadmits'.get hindex (hadmits'.length_eq ▸ hindex)
        exact ⟨other, hother, rest, hrest⟩
      refine ⟨routes.map (entry.1 :: ·) ++ routes', ?_, ?_, ?_⟩
      · rw [List.flatMap_cons]
        refine List.rel_append ?_ (hadmits'.imp ?_)
        · rw [List.forall₂_map_left_iff]
          exact hadmits.imp fun rest file hfile => ⟨entry, List.mem_cons_self, rest, rfl, hfile⟩
        · rintro route file ⟨other, hother, hfile⟩
          exact ⟨other, List.mem_cons_of_mem entry hother, hfile⟩
      · rw [List.pairwise_append, List.pairwise_map]
        refine ⟨hincreasing.imp fun hlt => List.cons_lt_cons_iff.mpr (.inr ⟨rfl, hlt⟩),
          hincreasing', ?_⟩
        intro route hroute later hlaterMem
        obtain ⟨rest, _, rfl⟩ := List.mem_map.mp hroute
        obtain ⟨other, hother, rest', rfl⟩ := hlater later hlaterMem
        exact List.cons_lt_cons_iff.mpr (.inl (hsorted.1 other hother))
      · rintro route file ⟨other, hother, rest, rfl, hfile⟩
        rw [List.flatMap_cons, List.mem_append]
        rcases List.mem_cons.mp hother with rfl | hother
        · exact .inl (hall rest file hfile)
        · exact .inr (hall' _ file ⟨other, hother, rest, rfl, hfile⟩)

/-- What is found below entries is found in the order of their names. -/
theorem found_inOrder (walk : Walk) (base : Path) (entries : FileTree.Entries) :
    (inOrder (walk.visitAll base entries)).filterMap Visit.found? =
      (entries.mergeSort fun a b => a.1 ≤ b.1).flatMap fun entry =>
        (walk.visit (base.join entry.1) entry.2).filterMap Visit.found? := by
  rw [inOrder, visitAll_eq_map, List.filterMap_flatMap, ← List.map_mergeSort, List.flatMap_map]
  intro a _ b _
  rfl

theorem pairwise_lt_mergeSort {entries : FileTree.Entries}
    (hdistinct : (entries.map Prod.fst).Nodup) :
    (entries.mergeSort fun a b => a.1 ≤ b.1).Pairwise fun a b => a.1 < b.1 := by
  have htrans : ∀ a b c : String × FileTree,
      decide (a.1 ≤ b.1) = true → decide (b.1 ≤ c.1) = true → decide (a.1 ≤ c.1) = true := by
    intro a b c hab hbc
    rw [decide_eq_true_iff] at hab hbc ⊢
    exact String.le_trans hab hbc
  have htotal : ∀ a b : String × FileTree, (decide (a.1 ≤ b.1) || decide (b.1 ≤ a.1)) = true := by
    intro a b
    rw [Bool.or_eq_true, decide_eq_true_iff, decide_eq_true_iff]
    exact String.le_total a.1 b.1
  have hsorted := List.pairwise_mergeSort htrans htotal entries
  have hnames : (entries.mergeSort fun a b => a.1 ≤ b.1).Pairwise fun a b => a.1 ≠ b.1 := by
    rw [← List.pairwise_map, ← List.nodup_iff_pairwise_ne]
    exact (((List.mergeSort_perm entries _).map Prod.fst).nodup_iff).mpr hdistinct
  refine (hsorted.and hnames).imp ?_
  rintro a b ⟨hle, hne⟩
  rw [decide_eq_true_iff] at hle
  exact Std.lt_of_le_of_ne hle hne

theorem enumerates_inOrder {entries : FileTree.Entries} (hdistinct : (entries.map Prod.fst).Nodup)
    (heach : ∀ entry ∈ entries, Enumerates (walk.Meets (base.join entry.1) entry.2)
      ((walk.visit (base.join entry.1) entry.2).filterMap Visit.found?)) :
    Enumerates (walk.Admits base (.directory entries))
      ((inOrder (walk.visitAll base entries)).filterMap Visit.found?) := by
  have hall := enumerates_flatMap (pairwise_lt_mergeSort hdistinct)
    fun entry hentry => heach entry (List.mem_mergeSort.mp hentry)
  have hsame : walk.Admits base (.directory entries) = fun route file =>
      ∃ entry ∈ entries.mergeSort fun a b => decide (a.1 ≤ b.1), ∃ rest, route = entry.1 :: rest ∧
        walk.Meets (base.join entry.1) entry.2 rest file := by
    funext route file
    rw [eq_iff_iff]
    cases route with
    | nil => simp [not_admits_nil]
    | cons name route =>
        rw [admits_cons_iff]
        constructor
        · rintro ⟨tree, hentry, hfile⟩
          exact ⟨(name, tree), List.mem_mergeSort.mpr hentry, route, rfl, hfile⟩
        · rintro ⟨⟨other, tree⟩, hentry, rest, hroute, hfile⟩
          obtain ⟨rfl, rfl⟩ := List.cons.inj hroute
          exact ⟨tree, List.mem_mergeSort.mp hentry, hfile⟩
  rw [found_inOrder, hsame]
  exact hall

theorem enumerates_visit (htree : tree.WellFormed) :
    Enumerates (walk.Meets base tree) ((walk.visit base tree).filterMap Visit.found?) := by
  induction htree generalizing base with
  | @leaf tree hleaf =>
      cases tree with
      | directory entries => exact absurd rfl (hleaf entries)
      | link target =>
          rw [visit]
          exact enumerates_leaf length_found_classify_le fun route file =>
            meets_leaf_iff hleaf fun _ => hasSize_link_iff
      | closed fault =>
          have hnone : ((walk.visit base (.closed fault)).filterMap Visit.found?) = [] := by
            rw [visit]
            split <;> rfl
          rw [hnone]
          exact enumerates_nil fun route file => not_meets_of_no_size hleaf (by simp) rfl
      | special =>
          rw [visit]
          exact enumerates_nil fun route file => not_meets_of_no_size hleaf (by simp) rfl
      | _ =>
          rw [visit]
          exact enumerates_leaf length_found_classify_le fun route file =>
            meets_leaf_iff hleaf fun _ => (hasSize_iff (by simp)).trans (by simp)
  | @directory entries hdistinct hnames _ ih =>
      rw [visit]
      split
      · next hout =>
          refine enumerates_nil ?_
          rintro route file ⟨hfile, hopen⟩
          cases route with
          | nil => exact absurd hfile not_admits_nil
          | cons name route =>
              rw [hopen (List.cons_ne_nil name route)] at hout
              contradiction
      · next hin =>
          have hsame : walk.Meets base (.directory entries) =
              walk.Admits base (.directory entries) := by
            funext route file
            rw [eq_iff_iff]
            exact ⟨fun h => h.1, fun h => ⟨h, fun _ => Bool.eq_false_iff.mpr hin⟩⟩
          rw [hsame]
          exact enumerates_inOrder hdistinct fun entry hentry => ih entry hentry

theorem enumerates_contents {entries : FileTree.Entries}
    (htree : (FileTree.directory entries).WellFormed) :
    Enumerates (walk.Admits walk.root (.directory entries))
      ((walk.contents entries).filterMap Visit.found?) := by
  cases htree with
  | leaf hleaf => exact absurd rfl (hleaf entries)
  | directory hdistinct _ htrees =>
      exact enumerates_inOrder hdistinct fun entry hentry => enumerates_visit (htrees entry hentry)

/-- Below a root that is a directory, or a link to one, all that is found is found
among the contents. -/
theorem found_eq_contents {entries : FileTree.Entries}
    (hroot : walk.files.locate true walk.root = .ok (.directory entries)) :
    walk.found = (walk.contents entries).filterMap Visit.found? := by
  rw [found_eq_filterMap, visits]
  rcases walk.files.locate_last walk.root with hlast | ⟨target, hlast⟩
  · rw [hlast, hroot]
  · simp only [hlast, hroot]
    rw [List.filterMap_append, found_classify_linkTarget hroot rfl, List.nil_append]

theorem enumerates_found (hfiles : walk.files.WellFormed) {entries : FileTree.Entries}
    (hroot : walk.files.locate true walk.root = .ok (.directory entries)) :
    Enumerates (walk.Admits walk.root (.directory entries)) walk.found := by
  rw [found_eq_contents hroot]
  exact enumerates_contents (FileSystem.wellFormed_locate hfiles hroot)

/-- An entry of the root is admitted if it has a size and no rule leaves it out. -/
theorem admits_entry {entries : FileTree.Entries} {size : Nat} {language : Language}
    (hentry : (name, tree) ∈ entries) (hsize : walk.HasSize (base.join name) tree size)
    (hkept : walk.isExcluded (base.join name) false = false)
    (hincluded : walk.includes.isEmpty = true) (hsmall : size ≤ walk.maxFileSize)
    (hlanguage : walk.registry.resolve (base.join name) = .ok language) :
    walk.Admits base (.directory entries) [name] ⟨base.join name, size, language⟩ := by
  refine admits_cons_iff.mpr ⟨tree, hentry, ⟨rfl, ?_, ⟨tree, .here tree, hsize⟩, hkept,
    .inl hincluded, hsmall, hlanguage⟩, fun hroute => absurd rfl hroute⟩
  intro above below hsplit habove _
  exact absurd (List.append_eq_nil_iff.mp hsplit.symm).1 habove

/-- A walk finds exactly the admitted files: each once, and in the order of their routes, so that
the contents of a directory stand in its place among the entries around it. -/
theorem found_exactly (walk : Walk) (hfiles : walk.files.WellFormed) {entries : FileTree.Entries}
    (hroot : walk.files.locate true walk.root = .ok (.directory entries)) :
    (∀ file, file ∈ walk.found ↔ ∃ route, walk.Admits walk.root (.directory entries) route file) ∧
    (walk.found.map fun file => file.path.components).Nodup ∧
    ∃ routes : List (List String),
      List.Forall₂ (walk.Admits walk.root (.directory entries)) routes walk.found ∧
      routes.Pairwise (· < ·) := by
  obtain ⟨routes, hadmits, hincreasing, hall⟩ := enumerates_found hfiles hroot
  refine ⟨fun file => ⟨fun hfile => ?_, ?_⟩, (walk.gathered_found hfiles).distinct, routes, hadmits,
    hincreasing⟩
  · obtain ⟨index, hindex, rfl⟩ := List.mem_iff_getElem.mp hfile
    exact ⟨_, hadmits.get (hadmits.length_eq ▸ hindex) hindex⟩
  · rintro ⟨route, hroute⟩
    exact hall route file hroute

/-- What is below the root of the walk that follows: a link to a file, and a
directory that is left out. -/
def linkedEntries : FileTree.Entries :=
  [("vendor", .directory [("dep.py", .file [])]), ("lib", .directory [("main.py", .file [0x78])]),
    ("alias.py", .link "lib/main.py")]

def linkedLanguage : Language :=
  { name := "Python", extensions := [".py"], outline := fun _ _ => .crashed none }

def linkedWalk : Walk :=
  .ofSettings ⟨[("p", .directory linkedEntries)], []⟩ ⟨"p"⟩
    { excludePatterns := ["vendor"], respectGitignore := false } ⟨.ofList [(".py", linkedLanguage)]⟩

theorem wellFormed_linkedWalk : linkedWalk.files.WellFormed := by
  have hvendor : (FileTree.directory [("dep.py", .file [])]).WellFormed :=
    .directory (by decide) (by decide) (List.forall_mem_singleton.mpr (.leaf (by simp)))
  have hlib : (FileTree.directory [("main.py", .file [0x78])]).WellFormed :=
    .directory (by decide) (by decide) (List.forall_mem_singleton.mpr (.leaf (by simp)))
  refine .directory (by decide) (by decide) (List.forall_mem_singleton.mpr ?_)
  refine .directory (by decide) (by decide) ?_
  exact List.forall_mem_cons.mpr ⟨hvendor,
    List.forall_mem_cons.mpr ⟨hlib, List.forall_mem_singleton.mpr (.leaf (by simp))⟩⟩

theorem locate_linkedWalk :
    linkedWalk.files.locate true linkedWalk.root = .ok (.directory linkedEntries) ∧
    linkedWalk.files.locate true ⟨"p/alias.py"⟩ = .ok (.file [0x78]) := by
  simp [linkedWalk, ofSettings, linkedEntries, FileSystem.locate, FileSystem.isAbsolute,
    FileSystem.steps, Text.splitWhere, FileSystem.follow, FileTree.child?,
    FileTree.reachedBefore, FileSystem.maxLinks]

/-- The link is found under its own path, with the size of the file that it leads to. -/
theorem found_exactly_linkedWalk :
    linkedWalk.files.WellFormed ∧
    linkedWalk.files.locate true linkedWalk.root = .ok (.directory linkedEntries) ∧
    ⟨⟨"p/alias.py"⟩, 1, linkedLanguage⟩ ∈ linkedWalk.found := by
  refine ⟨wellFormed_linkedWalk, locate_linkedWalk.1, ?_⟩
  have hpath : linkedWalk.root.join "alias.py" = ⟨"p/alias.py"⟩ := by decide
  have hadmits : linkedWalk.Admits linkedWalk.root (.directory linkedEntries) ["alias.py"]
      ⟨linkedWalk.root.join "alias.py", 1, linkedLanguage⟩ := by
    have hentry : ("alias.py", .link "lib/main.py") ∈ linkedEntries := by simp [linkedEntries]
    have hsize := HasSize.link "lib/main.py" (hpath ▸ locate_linkedWalk.2) rfl
    exact admits_entry hentry hsize (by decide +kernel) (by decide) (by decide) rfl
  exact ((found_exactly linkedWalk wellFormed_linkedWalk locate_linkedWalk.1).1 _).mpr
    ⟨["alias.py"], hpath ▸ hadmits⟩

end Walk
end CodeSurvey
