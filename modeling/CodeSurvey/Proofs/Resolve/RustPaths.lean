import CodeSurvey.Proofs.Text.Split
import CodeSurvey.Resolve

/-
How Rust paths find files.  A path is looked up by its names below a directory: that of the crate,
or that of the module which its first names lead to.  The module lies below the crate
(`exists_moduleDirectory_eq`), so a path from the module can be spelled out from the crate.  The
longer path has more beginnings, but those that reach into the module are tried first and in the
same order (`longestModule_append`).
-/

namespace CodeSurvey
namespace Resolve

open Text

variable {keys : Keys} {current : String} {names path : List String}

/-! ## Paths -/

/-- What can stand between the colons of a path. -/
def IsPathName (name : String) : Prop := name ≠ "" ∧ ':' ∉ name.toList ∧ '\x7b' ∉ name.toList

instance (name : String) : Decidable (IsPathName name) := inferInstanceAs (Decidable (_ ∧ _))

def pathOf (names : List String) : String := String.intercalate "::" names

/-- The names that lead from a module to one that many levels further out. -/
def outward (levels : Nat) : List String :=
  if levels = 0 then ["self"] else List.replicate levels "super"

theorem isPathName_of_mem_outward {levels : Nat} {name : String} (h : name ∈ outward levels) :
    IsPathName name := by
  unfold outward at h
  split at h
  · rw [List.mem_singleton.mp h]
    decide
  · rw [List.eq_of_mem_replicate h]
    decide

theorem toList_pathOf (names : List String) :
    (pathOf names).toList = List.intercalate [':', ':'] (names.map String.toList) := by
  rw [pathOf, String.toList_intercalate]
  rfl

/-- A path without a list of names at its end is cut at its colons only. -/
theorem breakOn_pathOf (h : ∀ name ∈ names, IsPathName name) :
    breakOn "::\x7b".toList (pathOf names).toList = none := by
  rw [breakOn_eq_none_iff, toList_pathOf]
  intro hfound
  have hbrace : '\x7b' ∈ "::\x7b".toList := by decide
  rcases mem_intercalate (hfound.subset hbrace) with hcolon | ⟨part, hpart, hmem⟩
  · simp at hcolon
  · obtain ⟨name, hname, rfl⟩ := List.mem_map.mp hpart
    exact (h name hname).2.2 hmem

theorem rustSegments_pathOf (hne : names ≠ []) (h : ∀ name ∈ names, IsPathName name) :
    rustSegments (pathOf names) = names := by
  have hsplit : splitOn [':', ':'] (pathOf names).toList = names.map String.toList := by
    rw [toList_pathOf]
    refine splitOn_intercalate rfl (mt List.map_eq_nil_iff.mp hne) ?_
    intro part hpart
    obtain ⟨name, hname, rfl⟩ := List.mem_map.mp hpart
    exact (h name hname).2.1
  have hid : String.ofList ∘ String.toList = id := funext fun name => String.ofList_toList
  rw [rustSegments, breakOn_pathOf h]
  show ((splitOn [':', ':'] (pathOf names).toList).map String.ofList).filter _ = names
  rw [hsplit, List.map_map, hid, List.map_id]
  refine List.filter_eq_self.mpr ?_
  intro name hname
  simp [(h name hname).1]

/-! ## Directories -/

/-- The crate is the innermost `src` around a file, or the file's own directory. -/
theorem crateRoot_cases (current : String) :
    ("src" ∉ directories current ∧ crateRoot current = directories current) ∨
      ∃ outer inner, directories current = outer ++ "src" :: inner ∧ "src" ∉ inner ∧
        crateRoot current = outer ++ ["src"] := by
  -- the directories are passed from the innermost outwards: `below` up to the first `src`, `beyond`
  -- from it on
  generalize hbelow : (directories current).reverse.takeWhile (· != "src") = below
  generalize hbeyond : (directories current).reverse.dropWhile (· != "src") = beyond
  have hsplit : directories current = beyond.reverse ++ below.reverse := by
    rw [← List.reverse_append, ← hbelow, ← hbeyond, List.takeWhile_append_dropWhile,
      List.reverse_reverse]
  have hfree : "src" ∉ below := by
    intro hmem
    rw [← hbelow] at hmem
    have hsrc := List.all_eq_true.mp List.all_takeWhile "src" hmem
    simp at hsrc
  cases beyond with
  | nil =>
      left
      rw [List.reverse_nil, List.nil_append] at hsplit
      have hlength : below.length = (directories current).length := by
        rw [hsplit, List.length_reverse]
      refine ⟨by rw [hsplit, List.mem_reverse]; exact hfree, ?_⟩
      simp only [crateRoot, hbelow, hlength, if_true]
  | cons innermost outer =>
      right
      have hsrc : innermost = "src" := by
        have hhead := List.head_dropWhile_not (· != "src") (l := (directories current).reverse)
          (by rw [hbeyond]; exact List.cons_ne_nil innermost outer)
        simp only [hbeyond, List.head_cons] at hhead
        simpa using hhead
      subst hsrc
      rw [List.reverse_cons, List.append_assoc, List.singleton_append] at hsplit
      refine ⟨outer.reverse, below.reverse, hsplit, by rw [List.mem_reverse]; exact hfree, ?_⟩
      have hlength : (directories current).length = outer.length + 1 + below.length := by
        rw [hsplit, List.length_append, List.length_cons, List.length_reverse, List.length_reverse]
        omega
      simp only [crateRoot, hbelow]
      rw [if_neg (by omega), hlength, Nat.add_sub_cancel, hsplit, ← List.singleton_append,
        ← List.append_assoc]
      exact List.take_left' (by simp)

/-- What a file's module holds lies in or below the directory of its crate. -/
theorem exists_moduleDirectory_eq (current : String) :
    ∃ below, moduleDirectory current = crateRoot current ++ below := by
  obtain ⟨inner, hinner⟩ : ∃ inner, directories current = crateRoot current ++ inner := by
    rcases crateRoot_cases current with ⟨_, hroot⟩ | ⟨outer, inner, hsplit, _, hroot⟩
    · exact ⟨[], by rw [hroot, List.append_nil]⟩
    · exact ⟨inner, by rw [hroot, hsplit, List.append_assoc, List.singleton_append]⟩
  simp only [moduleDirectory]
  split
  · exact ⟨inner, hinner⟩
  · exact ⟨inner ++ [stem (fileName current)], by rw [hinner, List.append_assoc]⟩

/-! ## Resolution -/

theorem rustBase_outward {levels : Nat} (h : 1 ≤ levels → path.head? ≠ some "super") :
    rustBase current (outward levels ++ path) =
      (ascend (moduleDirectory current) levels).map fun base => (base, path) := by
  cases levels with
  | zero =>
      have hhere : ascend (moduleDirectory current) 0 = some (moduleDirectory current) := by
        simp [ascend]
      have hself : outward 0 ++ path = "self" :: path := rfl
      rw [hhere, hself, rustBase, Option.map_some]
  | succ further =>
      have hstop : path.takeWhile (· == "super") = [] := by
        cases path with
        | nil => rfl
        | cons name rest =>
            have hname : ¬ (name == "super") = true :=
              fun hsuper => h (Nat.le_add_left 1 further) (congrArg some (eq_of_beq hsuper))
            rw [List.takeWhile_cons, if_neg hname]
      have hfurther : (List.replicate further "super" ++ path).takeWhile (· == "super") =
          List.replicate further "super" := by
        rw [List.takeWhile_append_of_pos, hstop, List.append_nil]
        exact fun name hname => beq_iff_eq.mpr (List.eq_of_mem_replicate hname)
      have houtward : outward (further + 1) ++ path =
          "super" :: (List.replicate further "super" ++ path) := rfl
      rw [houtward, rustBase, hfurther, List.length_replicate,
        List.drop_left' List.length_replicate]

/-- Beginnings that reach beyond `front` are those of the rest, below the directory
that `front` leads to. -/
theorem longestModule_append (base front segments : List String) (count : Nat) :
    longestModule keys current base (front ++ segments) (front.length + count) =
      (longestModule keys current (base ++ front) segments count).or
        (longestModule keys current base (front ++ segments) front.length) := by
  induction count with
  | zero => rfl
  | succ count ih =>
      have htake : (front ++ segments).take (front.length + (count + 1)) = front ++
          segments.take (count + 1) :=
        List.take_length_add_append (count + 1)
      rw [← Nat.add_assoc, longestModule, Nat.add_assoc, htake, ← List.append_assoc, longestModule]
      cases firstFile keys current
        (rustFiles (joined (base ++ front ++ segments.take (count + 1)))) with
      | some file => rfl
      | none => exact ih

theorem resolve_pathOf (hne : names ≠ []) (h : ∀ name ∈ names, IsPathName name) :
    resolve keys "Rust" current (pathOf names) =
      (rustBase current names).bind fun start =>
        longestModule keys current start.1 start.2 start.2.length := by
  show rust keys current (pathOf names) = _
  rw [rust, rustSegments_pathOf hne h]
  cases rustBase current names with
  | none => rfl
  | some start => rfl

theorem longestModule_eq_whole {base : List String} (hne : names ≠ [])
    (hkey : joined (base ++ names) ++ ".rs" ∈ keys)
    (hother : joined (base ++ names) ++ ".rs" ≠ current) :
    longestModule keys current base names names.length =
      some (joined (base ++ names) ++ ".rs") := by
  obtain ⟨count, hcount⟩ := Nat.exists_eq_succ_of_ne_zero (mt List.length_eq_zero_iff.mp hne)
  have hfound : firstFile keys current (rustFiles (joined (base ++ names))) =
      some (joined (base ++ names) ++ ".rs") := by
    rw [firstFile, rustFiles, List.find?_cons_of_pos]
    rw [Bool.and_eq_true, bne_iff_ne]
    exact ⟨Std.TreeSet.contains_iff_mem.mpr hkey, hother⟩
  rw [hcount, Nat.succ_eq_add_one, longestModule, ← Nat.succ_eq_add_one, ← hcount,
    List.take_length, hfound]

/-- A path from a module, or from a module around it, leads where the path does that names the
module from the crate.  From the crate, the path of a module leads to its file. -/
theorem rust_paths_agree (keys : Keys) (current : String) :
    ∃ below, moduleDirectory current = crateRoot current ++ below ∧
      (∀ (levels : Nat) (path : List String) (file : String), path ≠ [] → levels ≤ below.length →
        (∀ name ∈ below.take (below.length - levels) ++ path, IsPathName name) →
        (1 ≤ levels → path.head? ≠ some "super") →
        resolve keys "Rust" current (pathOf (outward levels ++ path)) = some file →
        resolve keys "Rust" current
          (pathOf ("crate" :: (below.take (below.length - levels) ++ path))) = some file) ∧
      (∀ names, names ≠ [] → (∀ name ∈ names, IsPathName name) →
        joined (crateRoot current ++ names) ++ ".rs" ∈ keys →
        joined (crateRoot current ++ names) ++ ".rs" ≠ current →
        resolve keys "Rust" current (pathOf ("crate" :: names)) =
          some (joined (crateRoot current ++ names) ++ ".rs")) := by
  have hcrate : ∀ names, (∀ name ∈ names, IsPathName name) →
      resolve keys "Rust" current (pathOf ("crate" :: names)) =
        longestModule keys current (crateRoot current) names names.length := by
    intro names hnames
    have hall : ∀ name ∈ "crate" :: names, IsPathName name :=
      List.forall_mem_cons.mpr ⟨by decide, hnames⟩
    rw [resolve_pathOf (List.cons_ne_nil _ _) hall, rustBase, Option.bind_some]
  obtain ⟨below, hbelow⟩ := exists_moduleDirectory_eq current
  refine ⟨below, hbelow, ?_, ?_⟩
  · intro levels path file hne hlevels hnames hsuper hfile
    have hpath : ∀ name ∈ outward levels ++ path, IsPathName name := by
      rw [List.forall_mem_append]
      exact ⟨fun name => isPathName_of_mem_outward, (List.forall_mem_append.mp hnames).2⟩
    have hascend : ascend (moduleDirectory current) levels =
        some (crateRoot current ++ below.take (below.length - levels)) := by
      rw [hbelow, ascend, List.length_append, if_neg (by omega), Nat.add_sub_assoc hlevels,
        List.take_length_add_append]
    rw [resolve_pathOf (by simp [hne]) hpath, rustBase_outward hsuper, hascend, Option.map_some,
      Option.bind_some]
      at hfile
    rw [hcrate _ hnames, List.length_append, longestModule_append, hfile, Option.some_or]
  · intro names hne hnames hkey hother
    rw [hcrate names hnames, longestModule_eq_whole hne hkey hother]

/-- A crate with a module in a module. -/
def crateKeys : Keys :=
  .ofList ["core/src/model.rs", "core/src/engine/pool.rs", "core/src/engine/pool/queue.rs"]

theorem rust_paths_agree_crateKeys :
    (resolve crateKeys "Rust" "core/src/engine/pool.rs" "self::queue::Queue" =
      some "core/src/engine/pool/queue.rs" ∧
      resolve crateKeys "Rust" "core/src/engine/pool.rs" "crate::engine::pool::queue::Queue" =
        some "core/src/engine/pool/queue.rs") ∧
    (resolve crateKeys "Rust" "core/src/engine/pool.rs" "super::super::model::Item" =
      some "core/src/model.rs" ∧
      resolve crateKeys "Rust" "core/src/engine/pool.rs" "crate::model::Item" =
        some "core/src/model.rs") ∧
    resolve crateKeys "Rust" "core/src/engine/pool.rs" "crate::engine::pool::queue" =
      some "core/src/engine/pool/queue.rs" := by
  obtain ⟨below, hbelow, hlevels, hwhole⟩ := rust_paths_agree crateKeys "core/src/engine/pool.rs"
  have hroot : crateRoot "core/src/engine/pool.rs" = ["core", "src"] := by decide +kernel
  have hmodule : moduleDirectory "core/src/engine/pool.rs" = ["core", "src", "engine", "pool"] := by
    decide +kernel
  rw [hroot] at hwhole
  obtain rfl : below = ["engine", "pool"] := by
    rw [hroot, hmodule] at hbelow
    have hsame : ["core", "src"] ++ ["engine", "pool"] = ["core", "src"] ++ below := hbelow
    exact (List.append_cancel_left hsame).symm
  have hinner : resolve crateKeys "Rust" "core/src/engine/pool.rs" "self::queue::Queue" =
      some "core/src/engine/pool/queue.rs" := by decide +kernel
  have houter : resolve crateKeys "Rust" "core/src/engine/pool.rs" "super::super::model::Item" =
      some "core/src/model.rs" := by decide +kernel
  refine ⟨⟨hinner, ?_⟩, ⟨houter, ?_⟩, ?_⟩
  · exact hlevels 0 ["queue",
      "Queue"] _ (by decide) (by decide) (by decide +kernel) (by decide) hinner
  · exact hlevels 2 ["model",
      "Item"] _ (by decide) (by decide) (by decide +kernel) (by decide) houter
  · exact hwhole ["engine", "pool",
      "queue"] (by decide) (by decide +kernel) (by decide +kernel) (by decide +kernel)

end Resolve
end CodeSurvey
