import CodeSurvey.ProjectReport
import CodeSurvey.Proofs.Graph.CycleCompleteness
import CodeSurvey.Proofs.Graph.ReportedCycles

/-
The dependency graph of a project says what its files import, no more and no less.  The graph grows
by one edge at a time; `Records` says which targets were written down for each node so far, and one
edge, the dependencies of one file and a list of files each extend it.  A node with an edge is
therefore the key of a file, and every node of a cycle has one.
-/

namespace CodeSurvey
namespace Graph
namespace Adjacency

variable {graph : Adjacency} {written : String → List String}

/-- What was written, each once, in the order in which it was written first. -/
structure FirstOccurrences (written targets : List String) : Prop where
  mem : ∀ target, target ∈ targets ↔ target ∈ written
  nodup : targets.Nodup
  order : targets.Pairwise fun a b => written.idxOf a < written.idxOf b

theorem firstOccurrences_nil : FirstOccurrences [] [] := ⟨by simp, .nil, .nil⟩

theorem FirstOccurrences.concat {written targets : List String}
    (h : FirstOccurrences written targets) (target : String) :
    FirstOccurrences (written ++ [target])
      (if targets.contains target then targets else targets ++ [target]) := by
  have hkept : targets.Pairwise fun a b => (written ++ [target]).idxOf a <
      (written ++ [target]).idxOf b := by
    refine h.order.imp_of_mem ?_
    intro a b ha hb hlt
    rw [List.idxOf_append, if_pos ((h.mem a).mp ha), List.idxOf_append, if_pos ((h.mem b).mp hb)]
    exact hlt
  by_cases hnew : target ∈ targets
  · rw [if_pos (List.contains_iff_mem.mpr hnew)]
    refine ⟨?_, h.nodup, hkept⟩
    intro other
    rw [h.mem, List.mem_append, List.mem_singleton]
    constructor
    · exact .inl
    · rintro (hother | rfl)
      · exact hother
      · exact (h.mem other).mp hnew
  · rw [if_neg (mt List.contains_iff_mem.mp hnew)]
    refine ⟨?_, ?_, ?_⟩
    · intro other
      rw [List.mem_append, List.mem_append, h.mem]
    · rw [List.nodup_append]
      refine ⟨h.nodup, List.nodup_singleton target, ?_⟩
      intro a ha b hb heq
      rw [List.mem_singleton] at hb
      exact hnew (hb ▸ heq ▸ ha)
    · rw [List.pairwise_append]
      refine ⟨hkept, List.pairwise_singleton _ _, ?_⟩
      intro a ha b hb
      rw [List.mem_singleton] at hb
      subst hb
      have hnotwritten : b ∉ written := fun hwritten => hnew ((h.mem b).mpr hwritten)
      have hlt := List.idxOf_lt_length_of_mem ((h.mem a).mp ha)
      rw [List.idxOf_append, if_pos ((h.mem a).mp ha), List.idxOf_append, if_neg hnotwritten]
      omega

/-- The graph holds the targets that were written for each node, and no node without any. -/
structure Records (written : String → List String) (graph : Adjacency) : Prop where
  mem : ∀ node, node ∈ graph ↔ written node ≠ []
  targets : ∀ node, FirstOccurrences (written node) (graph.targets node)

theorem records_empty : Records (fun _ => []) {} := by
  refine ⟨?_, ?_⟩
  · intro node
    simp [Std.TreeMap.not_mem_emptyc]
  · intro node
    rw [targets, Std.TreeMap.getD_emptyc]
    exact firstOccurrences_nil

theorem mem_addEdge {node target other : String} :
    other ∈ graph.addEdge node target ↔ other = node ∨ other ∈ graph := by
  rw [addEdge, Std.TreeMap.mem_alter]
  by_cases h : compare node other = .eq
  · rw [if_pos h]
    have heq := Std.LawfulEqCmp.eq_of_compare h
    cases graph[node]? <;> simp [heq]
  · rw [if_neg h]
    have hne : other ≠ node := fun heq => h (heq ▸ Std.ReflCmp.compare_self)
    simp [hne]

theorem targets_addEdge_self {node target : String} :
    (graph.addEdge node target).targets node =
      if (graph.targets node).contains target then graph.targets node
      else graph.targets node ++ [target] := by
  rw [targets, addEdge, Std.TreeMap.getD_alter, if_pos Std.ReflCmp.compare_self, targets,
    Std.TreeMap.getD_eq_getD_getElem?]
  cases graph[node]? <;> rfl

theorem targets_addEdge_of_ne {node target other : String} (h : other ≠ node) :
    (graph.addEdge node target).targets other = graph.targets other := by
  have hne : compare node other ≠ .eq := fun heq => h (Std.LawfulEqCmp.eq_of_compare heq).symm
  rw [targets, addEdge, Std.TreeMap.getD_alter, if_neg hne, targets]

theorem Records.addEdge (h : Records written graph) (node target : String) :
    Records (fun other => written other ++ if other = node then [target] else [])
      (graph.addEdge node target) := by
  refine ⟨?_, ?_⟩
  · intro other
    rw [mem_addEdge, h.mem]
    by_cases hother : other = node <;> simp [hother]
  · intro other
    by_cases hother : other = node
    · subst hother
      rw [targets_addEdge_self, if_pos rfl]
      exact (h.targets other).concat target
    · rw [targets_addEdge_of_ne hother, if_neg hother, List.append_nil]
      exact h.targets other

/-- Every node of a cycle that is reported has an edge. -/
theorem mem_of_mem_cycle {cycle : List String} (hcycle : cycle ∈ graph.cycles) {node : String}
    (hnode : node ∈ cycle) : node ∈ graph := by
  have hrested : Search.Rested graph (graph.keys.foldl (Search.visitRoot graph) Search.start) :=
    Search.rested_start.visitRoots graph.keys fun root hroot => hroot
  obtain ⟨nodes, hnodes, rfl⟩ := hrested.consistent.cycles cycle hcycle
  have hmem : node ∈ nodes := by
    rcases List.mem_append.mp hnode with h | h
    · exact h
    · exact List.mem_of_mem_take h
  exact Std.TreeMap.mem_keys.mp (hnodes.onCircuit hmem).mem_keys

end Adjacency
end Graph

namespace Resolve

variable {keys : Keys} {language current imported file : String}

theorem firstFile_some {candidates : List String}
    (h : firstFile keys current candidates = some file) : file ∈ keys ∧ file ≠ current := by
  have hfile := List.find?_some h
  rw [Bool.and_eq_true, bne_iff_ne] at hfile
  exact ⟨Std.TreeSet.contains_iff_mem.mp hfile.1, hfile.2⟩

theorem longestModule_some {base segments : List String} {count : Nat}
    (h : longestModule keys current base segments count = some file) :
    file ∈ keys ∧ file ≠ current := by
  induction count with
  | zero => contradiction
  | succ count ih =>
      rw [longestModule] at h
      split at h
      · next hfound =>
          rw [Option.some.injEq] at h
          exact firstFile_some (h ▸ hfound)
      · exact ih h

/-- An import never leads to a file outside the project or back to its own file. -/
theorem resolve_some (h : resolve keys language current imported = some file) :
    file ∈ keys ∧ file ≠ current := by
  rw [resolve.eq_def] at h
  split at h
  · rw [python] at h
    split at h
    · contradiction
    · split at h
      · contradiction
      · exact firstFile_some h
  · rw [rust] at h
    split at h
    · contradiction
    · exact longestModule_some h
  · contradiction

end Resolve

/-- The part of the graph that holds the dependencies of one kind. -/
def DependencyGraph.edges (graph : DependencyGraph) : DependencyKind → Graph.Adjacency
  | .internal => graph.internal
  | .external => graph.external
  | .standard => graph.standard

namespace ProjectReport

open Graph.Adjacency

variable {root : Path} {keys : Resolve.Keys} {kind : DependencyKind} {graph : DependencyGraph}
  {written : String → List String}

/-- Where a dependency of the file with the given key leads: to a file of the project, or
to what is written. -/
def targetOf (keys : Resolve.Keys) (language key : String) (dependency : Dependency) : String :=
  match dependency.kind, Resolve.resolve keys language key dependency.name with
  | .internal, some file => file
  | _, _ => dependency.name

/-- Where the dependencies of one kind lead. -/
def targetsAmong (keys : Resolve.Keys) (language key : String) (kind : DependencyKind)
    (dependencies : List Dependency) : List String :=
  (dependencies.filter (·.kind == kind)).map (targetOf keys language key)

/-- Where the dependencies of one kind lead in all files with the given key, in the
order of the reports. -/
def targetsIn (root : Path) (keys : Resolve.Keys) (kind : DependencyKind)
    (reports : List FileReport) (key : String) : List String :=
  reports.flatMap fun report =>
    if key = fileKey root report.path then
      targetsAmong keys report.language key kind report.dependencies
    else []

theorem edges_addDependency (language key : String) (dependency : Dependency) :
    (addDependency keys language key graph dependency).edges kind =
      if dependency.kind = kind then
        (graph.edges kind).addEdge key (targetOf keys language key dependency)
      else graph.edges kind := by
  unfold addDependency targetOf
  cases hkind : dependency.kind <;> cases kind <;> simp [DependencyGraph.edges, internalTarget]
  cases Resolve.resolve keys language key dependency.name <;> rfl

theorem targetsAmong_cons (language key : String) (dependency : Dependency)
    (rest : List Dependency) :
    targetsAmong keys language key kind (dependency :: rest) =
      (if dependency.kind = kind then [targetOf keys language key dependency] else [])
        ++ targetsAmong keys language key kind rest := by
  by_cases hkind : dependency.kind = kind <;> simp [targetsAmong, hkind]

theorem mem_targetsAmong {language key target : String} {dependencies : List Dependency} :
    target ∈ targetsAmong keys language key kind dependencies ↔
      ∃ dependency ∈ dependencies, dependency.kind = kind ∧
      targetOf keys language key dependency = target := by
  simp [targetsAmong, and_assoc]

theorem records_addDependencies (keys : Resolve.Keys) (language key : String)
    (dependencies : List Dependency) (h : Records written (graph.edges kind)) :
    Records
      (fun node => written node ++
        if node = key then targetsAmong keys language node kind dependencies else [])
      ((dependencies.foldl (addDependency keys language key) graph).edges kind) := by
  induction dependencies generalizing graph written with
  | nil => simpa [targetsAmong] using h
  | cons dependency rest ih =>
      have hstep : Records (fun node => written node ++
          if node = key then
            if dependency.kind = kind then [targetOf keys language node dependency] else []
          else [])
          ((addDependency keys language key graph dependency).edges kind) := by
        rw [edges_addDependency]
        by_cases hkind : dependency.kind = kind
        · rw [if_pos hkind]
          convert h.addEdge key (targetOf keys language key dependency) using 3 with node
          by_cases hnode : node = key <;> simp [hnode, hkind]
        · simpa [hkind] using h
      rw [List.foldl_cons]
      convert ih hstep using 2 with node
      by_cases hnode : node = key <;> simp [hnode, targetsAmong_cons]

theorem records_addFiles (root : Path) (keys : Resolve.Keys) (reports : List FileReport)
    (h : Records written (graph.edges kind)) :
    Records (fun node => written node ++ targetsIn root keys kind reports node)
      ((reports.foldl (addFile root keys) graph).edges kind) := by
  induction reports generalizing graph written with
  | nil => simpa [targetsIn] using h
  | cons report rest ih =>
      rw [List.foldl_cons, addFile]
      have hfile :=
        records_addDependencies keys report.language
          (fileKey root report.path) report.dependencies h
      convert ih hfile using 2 with node
      simp [targetsIn]

theorem records_dependenciesOf (root : Path) (reports : List FileReport) (kind : DependencyKind) :
    Records (targetsIn root (keysOf root reports) kind reports)
      ((dependenciesOf root reports).edges kind) := by
  have hempty : Records (fun _ => []) (DependencyGraph.edges {} kind) := by
    cases kind <;> exact records_empty
  have hfiles := records_addFiles root (keysOf root reports) reports hempty
  simp only [List.nil_append] at hfiles
  cases kind <;> exact hfiles

theorem mem_keysOf {reports : List FileReport} {key : String} :
    key ∈ keysOf root reports ↔ ∃ report ∈ reports, fileKey root report.path = key := by
  rw [keysOf, Std.TreeSet.mem_ofList, List.contains_iff_mem, List.mem_map]

theorem mem_targetsIn {reports : List FileReport} {key target : String} :
    target ∈ targetsIn root keys kind reports key ↔
      ∃ report ∈ reports, fileKey root report.path = key ∧
        ∃ dependency ∈ report.dependencies, dependency.kind = kind ∧
          targetOf keys report.language key dependency = target := by
  rw [targetsIn, List.mem_flatMap]
  refine exists_congr fun report => and_congr_right fun _ => ?_
  by_cases hkey : key = fileKey root report.path
  · rw [if_pos hkey, mem_targetsAmong]
    simp [hkey]
  · rw [if_neg hkey]
    simp [Ne.symm hkey]

theorem targetsIn_ne_nil {reports : List FileReport} {key : String} :
    targetsIn root keys kind reports key ≠ [] ↔
      ∃ report ∈ reports, fileKey root report.path = key ∧
        ∃ dependency ∈ report.dependencies, dependency.kind = kind := by
  constructor
  · intro hne
    obtain ⟨target, htarget⟩ := List.exists_mem_of_ne_nil _ hne
    obtain ⟨report, hreport, hkey, dependency, hdependency, hkind, _⟩ := mem_targetsIn.mp htarget
    exact ⟨report, hreport, hkey, dependency, hdependency, hkind⟩
  · rintro ⟨report, hreport, hkey, dependency, hdependency, hkind⟩
    exact List.ne_nil_of_mem (mem_targetsIn.mpr ⟨report, hreport, hkey, dependency, hdependency,
      hkind, rfl⟩)

/-- For each kind the graph has the keys of the files with a dependency of that kind and, for each
of them, where these dependencies lead, in the order in which they are first written.  An import
that leads to a file leads to another file of the project, and the cycles go through files of the
project only. -/
theorem dependencies_recorded (root : Path) (reports : List FileReport) :
    (∀ kind key, key ∈ (dependenciesOf root reports).edges kind ↔
      ∃ report ∈ reports, fileKey root report.path = key ∧
        ∃ dependency ∈ report.dependencies, dependency.kind = kind) ∧
    (∀ kind key,
      (((dependenciesOf root reports).edges kind).targets key).Nodup ∧
      (((dependenciesOf root reports).edges kind).targets key).Pairwise (fun a b =>
        (targetsIn root (keysOf root reports) kind reports key).idxOf a <
          (targetsIn root (keysOf root reports) kind reports key).idxOf b) ∧
      ∀ target, target ∈ ((dependenciesOf root reports).edges kind).targets key ↔
        ∃ report ∈ reports, fileKey root report.path = key ∧
          ∃ dependency ∈ report.dependencies, dependency.kind = kind ∧
            targetOf (keysOf root reports) report.language key dependency = target) ∧
    (∀ language key name file, Resolve.resolve (keysOf root reports) language key name = some file →
      file ≠ key ∧ ∃ report ∈ reports, fileKey root report.path = file) ∧
    (∀ cycle ∈ (dependenciesOf root reports).cycles, ∀ node ∈ cycle,
      ∃ report ∈ reports, fileKey root report.path = node) := by
  refine ⟨?_, ?_, ?_, ?_⟩
  · intro kind key
    rw [(records_dependenciesOf root reports kind).mem, targetsIn_ne_nil]
  · intro kind key
    have hfirst := (records_dependenciesOf root reports kind).targets key
    refine ⟨hfirst.nodup, hfirst.order, ?_⟩
    intro target
    rw [hfirst.mem, mem_targetsIn]
  · intro language key name file hfile
    have hmem := Resolve.resolve_some hfile
    exact ⟨hmem.2, mem_keysOf.mp hmem.1⟩
  · intro cycle hcycle node hnode
    have hmem : node ∈ (dependenciesOf root reports).edges .internal :=
      mem_of_mem_cycle hcycle hnode
    rw [(records_dependenciesOf root reports .internal).mem, targetsIn_ne_nil] at hmem
    obtain ⟨report, hreport, hkey, _⟩ := hmem
    exact ⟨report, hreport, hkey⟩

/-- Two files that import each other, one of them twice, with an import that leads to no file. -/
def mutualImports : List FileReport :=
  let importing (file name : String) : Dependency := { name, kind := .internal, file := ⟨file⟩ }
  [{ path := ⟨"app/a.py"⟩, language := "Python"
     dependencies := [importing "app/a.py" ".b", importing "app/a.py" ".gone",
       importing "app/a.py" ".b"] },
    { path := ⟨"app/b.py"⟩, language := "Python", dependencies := [importing "app/b.py" ".a"] }]

theorem dependencies_recorded_mutualImports :
    (Resolve.resolve (keysOf ⟨"app"⟩ mutualImports) "Python" "a.py" ".b" = some "b.py" ∧
      ∃ report ∈ mutualImports, fileKey ⟨"app"⟩ report.path = "b.py") ∧
    (["a.py", "b.py", "a.py"] ∈ (dependenciesOf ⟨"app"⟩ mutualImports).cycles ∧
      ∃ report ∈ mutualImports, fileKey ⟨"app"⟩ report.path = "a.py") := by
  have hresolved : Resolve.resolve (keysOf ⟨"app"⟩ mutualImports) "Python" "a.py" ".b" =
      some "b.py" := by
    decide +kernel
  have hcycle : ["a.py", "b.py", "a.py"] ∈ (dependenciesOf ⟨"app"⟩ mutualImports).cycles := by
    decide +kernel
  obtain ⟨_, _, hfiles, hcycles⟩ := dependencies_recorded ⟨"app"⟩ mutualImports
  exact ⟨⟨hresolved, (hfiles _ _ _ _ hresolved).2⟩, hcycle, hcycles _ hcycle "a.py" (by simp)⟩

end ProjectReport
end CodeSurvey
