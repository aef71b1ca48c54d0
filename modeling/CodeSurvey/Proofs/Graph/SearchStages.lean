import CodeSurvey.Proofs.Graph.SearchMoves
import CodeSurvey.Sum

/-
A search for cycles, stage by stage.  `visit` is told how much room there is on the path; a call can
as well read that off the path (`explore`), and then it is the only function that satisfies its own
recursion (`explore_unique`).  A stage keeps what such a recursion keeps between two steps: the
search, the calls that have not returned, and the roots that are left.  From stage to stage there is
one way only, and it comes to an end (`wellFounded_next`) with what `cycles` reports.  The theorem
this file exists for is `Adjacency.cycle_search_bounded`.
-/

namespace CodeSurvey
namespace Graph

namespace Search

open Adjacency

variable {graph : Adjacency} {node target : String} {search : Search}

/-- One of the bounds keeps a call from entering its node. -/
def isFull (search : Search) : Bool := maxDepth ≤ search.path.length || maxNodes ≤ search.expanded

theorem isFull_eq_false_iff :
    search.isFull = false ↔ search.path.length < maxDepth ∧ search.expanded < maxNodes := by
  simp [isFull]

theorem isFull_of_room_eq_zero (h : maxDepth - search.path.length = 0) : search.isFull = true := by
  simp only [isFull, Bool.or_eq_true, decide_eq_true_eq]
  omega

/-- What a call does, if `call` stands for the calls that it makes in turn. -/
def body (graph : Adjacency) (call : String → Search → Search) (node : String) (search : Search) :
    Search :=
  if search.isFull then search
  else ((graph.sortedTargets node).foldl (follow call node) (search.enter node)).leave node

/-- A call that reads off the path how much room there is. -/
def explore (graph : Adjacency) (node : String) (search : Search) : Search :=
  visit graph (maxDepth - search.path.length) node search

theorem cycles_prefix_record (search : Search) (target : String) :
    search.cycles <+: (search.record target).cycles := by
  unfold record
  split
  · exact List.prefix_rfl
  · exact List.prefix_append _ _

/-! ## The recursion without its room -/

section Calls

variable {call other : String → Search → Search}

theorem path_follow (hcall : ∀ target search, (call target search).path = search.path) :
    (follow call node search target).path = search.path := by
  unfold follow
  split
  · rfl
  · split
    · exact hcall target search
    · split
      · exact path_record search target
      · rfl

theorem path_foldl_follow (hcall : ∀ target search, (call target search).path = search.path)
    (targets : List String) : (targets.foldl (follow call node) search).path = search.path := by
  induction targets generalizing search with
  | nil => rfl
  | cons target targets ih => rw [List.foldl_cons, ih, path_follow hcall]

/-- Whatever its room, a call leaves the path as it was. -/
theorem path_visit (room : Nat) : (visit graph room node search).path = search.path := by
  induction room generalizing node search with
  | zero => rfl
  | succ room ih =>
      rw [visit]
      split
      · rfl
      · exact path_leave (path_foldl_follow (fun _ _ => ih) _)

theorem path_explore : (explore graph node search).path = search.path := path_visit _

/-- Calls are made with one node more on the path, so that it matters only what they do there. -/
theorem foldl_follow_congr {depth : Nat}
    (hcall : ∀ target search, (call target search).path = search.path)
    (hsame : ∀ target search, search.path.length = depth → other target search = call target search)
    (targets : List String) (hdepth : search.path.length = depth) :
    targets.foldl (follow other node) search = targets.foldl (follow call node) search := by
  induction targets generalizing search with
  | nil => rfl
  | cons target targets ih =>
      have hfirst : follow other node search target = follow call node search target := by
        rw [follow, follow, hsame target search hdepth]
      rw [List.foldl_cons, List.foldl_cons, hfirst]
      exact ih (by rw [path_follow hcall, hdepth])

end Calls

theorem explore_eq_self (hfull : search.isFull = true) : explore graph node search = search := by
  rw [explore]
  cases hroom : maxDepth - search.path.length with
  | zero => rfl
  | succ room =>
      have hcount : maxNodes ≤ search.expanded := by
        simp only [isFull, Bool.or_eq_true, decide_eq_true_eq] at hfull
        omega
      rw [visit, if_pos hcount]

/-- The recursion of a call, in which no room is counted. -/
theorem explore_eq (graph : Adjacency) (node : String) (search : Search) :
    explore graph node search = body graph (explore graph) node search := by
  rw [body]
  cases hfull : search.isFull with
  | true => rw [if_pos rfl, explore_eq_self hfull]
  | false =>
      obtain ⟨hdepth, hcount⟩ := isFull_eq_false_iff.mp hfull
      obtain ⟨room, hroom⟩ : ∃ room, maxDepth - search.path.length = room + 1 :=
        ⟨maxDepth - search.path.length - 1, by omega⟩
      have hinner : ∀ target inner, inner.path.length = (search.enter node).path.length →
          visit graph room target inner = explore graph target inner := by
        intro target inner hinner
        have hlength : (search.enter node).path.length = search.path.length + 1 := rfl
        have hsame : maxDepth - inner.path.length = room := by omega
        rw [explore, hsame]
      rw [if_neg Bool.false_ne_true, explore, hroom, visit, if_neg (Nat.not_le.mpr hcount)]
      rw [foldl_follow_congr (fun _ _ => path_explore) hinner _ rfl]

theorem explore_unique {call : String → Search → Search}
    (hcall : ∀ node search, call node search = body graph call node search) :
    call = explore graph := by
  have hdeep : ∀ room node search, maxDepth - search.path.length = room →
      call node search = explore graph node search := by
    intro room
    induction room with
    | zero =>
        intro node search hroom
        have hfull := isFull_of_room_eq_zero hroom
        rw [hcall, body, if_pos hfull, explore_eq_self hfull]
    | succ room ih =>
        intro node search hroom
        have hinner : ∀ target inner, inner.path.length = (search.enter node).path.length →
            call target inner = explore graph target inner := by
          intro target inner hinner
          have hlength : (search.enter node).path.length = search.path.length + 1 := rfl
          exact ih target inner (by omega)
        rw [hcall, explore_eq, body, body,
          foldl_follow_congr (fun _ _ => path_explore) hinner _ rfl]
  funext node search
  exact hdeep _ node search rfl

end Search

/-! ## Stages -/

/-- A call that has entered its node, and the targets to which it has still to follow an edge. -/
structure Frame where
  node : String
  targets : List String

/-- A search that is under way. -/
structure Stage where
  search : Search
  /-- the calls that have not returned, the latest first -/
  frames : List Frame
  /-- the node of a call that was made and has not looked at the bounds -/
  calling : Option String
  roots : List String
  /-- the nodes that calls have entered, each as often as it was, the latest first -/
  entered : List String

namespace Stage

open Adjacency Search

def start (graph : Adjacency) : Stage := ⟨.start, [], none, graph.keys, []⟩

/-- What comes next in a search; nothing does at its end. -/
def next (graph : Adjacency) : Stage → Option Stage
  | ⟨search, frames, some node, roots, entered⟩ =>
    if search.isFull then some ⟨search, frames, none, roots, entered⟩
    else some ⟨search.enter node, ⟨node, graph.sortedTargets node⟩ :: frames, none, roots,
      node :: entered⟩
  | ⟨search, ⟨node, []⟩ :: frames, none, roots, entered⟩ =>
      some ⟨search.leave node, frames, none, roots, entered⟩
  | ⟨search, ⟨node, target :: targets⟩ :: frames, none, roots, entered⟩ =>
    if target == node then some ⟨search, ⟨node, targets⟩ :: frames, none, roots, entered⟩
    else if ! search.visited.contains target then
      some ⟨search, ⟨node, targets⟩ :: frames, some target, roots, entered⟩
    else if search.onPath.contains target then
      some ⟨search.record target, ⟨node, targets⟩ :: frames, none, roots, entered⟩
    else some ⟨search, ⟨node, targets⟩ :: frames, none, roots, entered⟩
  | ⟨search, [], none, root :: roots, entered⟩ =>
    if search.visited.contains root then some ⟨search, [], none, roots, entered⟩
    else if maxNodes ≤ search.expanded then some ⟨search, [], none, [], entered⟩
    else some ⟨{ search with rootHasCycle := false }, [], some root, roots, entered⟩
  | ⟨_, [], none, [], _⟩ => none

abbrev Leads (graph : Adjacency) : Stage → Stage → Prop :=
  Relation.ReflTransGen fun before after => before.next graph = some after

/-- The stage in which a call returns: the search is as the call leaves it, and nothing else is new
but the nodes that were entered. -/
def resumed (stage : Stage) (search : Search) (log : List String) : Stage :=
  { stage with search, calling := none, entered := log ++ stage.entered }

variable {graph : Adjacency} {stage after : Stage}

/-- What can come next, said once for all that is to be kept. -/
inductive Step (graph : Adjacency) : Stage → Stage → Prop
  | cut {search : Search} {frames : List Frame} {node : String} {roots entered : List String} :
      Step graph ⟨search, frames, some node, roots, entered⟩ ⟨search, frames, none, roots, entered⟩
  | enter {search : Search} {frames : List Frame} {node : String} {roots entered : List String}
      (hdepth : search.path.length < maxDepth) (hcount : search.expanded < maxNodes) :
      Step graph ⟨search, frames, some node, roots, entered⟩
        ⟨search.enter node, ⟨node, graph.sortedTargets node⟩ :: frames, none, roots,
          node :: entered⟩
  | leave {search : Search} {node : String} {frames : List Frame} {roots entered : List String} :
      Step graph ⟨search, ⟨node, []⟩ :: frames, none, roots, entered⟩
        ⟨search.leave node, frames, none, roots, entered⟩
  | pass {search : Search} {node target : String} {targets : List String} {frames : List Frame}
      {roots entered : List String} :
      Step graph ⟨search, ⟨node, target :: targets⟩ :: frames, none, roots, entered⟩
        ⟨search, ⟨node, targets⟩ :: frames, none, roots, entered⟩
  | call {search : Search} {node target : String} {targets : List String} {frames : List Frame}
      {roots entered : List String} (hnew : target ∉ search.visited) :
      Step graph ⟨search, ⟨node, target :: targets⟩ :: frames, none, roots, entered⟩
        ⟨search, ⟨node, targets⟩ :: frames, some target, roots, entered⟩
  | record {search : Search} {node target : String} {targets : List String} {frames : List Frame}
      {roots entered : List String} (hne : target ≠ node) (hpath : target ∈ search.onPath) :
      Step graph ⟨search, ⟨node, target :: targets⟩ :: frames, none, roots, entered⟩
        ⟨search.record target, ⟨node, targets⟩ :: frames, none, roots, entered⟩
  | skip {search : Search} {root : String} {roots rest entered : List String}
      (hrest : rest <:+ roots) :
      Step graph ⟨search, [], none, root :: roots, entered⟩ ⟨search, [], none, rest, entered⟩
  | root {search : Search} {root : String} {roots entered : List String}
      (hnew : root ∉ search.visited) :
      Step graph ⟨search, [], none, root :: roots, entered⟩
        ⟨{ search with rootHasCycle := false }, [], some root, roots, entered⟩

theorem step_of_next (h : stage.next graph = some after) : Step graph stage after := by
  obtain ⟨search, frames, calling, roots, entered⟩ := stage
  cases calling with
  | some node =>
      rw [next] at h
      split at h
      · obtain rfl := Option.some.inj h
        exact .cut
      · next hfull =>
          obtain rfl := Option.some.inj h
          obtain ⟨hdepth, hcount⟩ := isFull_eq_false_iff.mp (Bool.eq_false_iff.mpr hfull)
          exact .enter hdepth hcount
  | none =>
      cases frames with
      | nil =>
          cases roots with
          | nil => simp [next] at h
          | cons root roots =>
              rw [next] at h
              split at h
              · obtain rfl := Option.some.inj h
                exact .skip List.suffix_rfl
              · next hnew =>
                  split at h
                  · obtain rfl := Option.some.inj h
                    exact .skip List.nil_suffix
                  · obtain rfl := Option.some.inj h
                    exact .root (mt Std.TreeSet.mem_iff_contains.mp hnew)
      | cons frame frames =>
          obtain ⟨node, targets⟩ := frame
          cases targets with
          | nil =>
              rw [next] at h
              obtain rfl := Option.some.inj h
              exact .leave
          | cons target targets =>
              rw [next] at h
              split at h
              · obtain rfl := Option.some.inj h
                exact .pass
              · next hself =>
                  split at h
                  · next hnew =>
                      obtain rfl := Option.some.inj h
                      rw [Bool.not_eq_true'] at hnew
                      exact .call
                        (by rw [Std.TreeSet.mem_iff_contains, hnew]; exact Bool.false_ne_true)
                  · split at h
                    · next honPath =>
                        obtain rfl := Option.some.inj h
                        exact .record (fun heq => hself (beq_iff_eq.mpr heq))
                          (Std.TreeSet.mem_iff_contains.mpr honPath)
                    · obtain rfl := Option.some.inj h
                      exact .pass

/-! ## The end -/

/-- What is still to be done before the next node is entered. -/
def work (stage : Stage) : Nat :=
  stage.calling.toList.length + (stage.frames.map fun frame => 2 * frame.targets.length + 1).sum +
    2 * stage.roots.length

def weight (stage : Stage) : Nat × Nat := (maxNodes - stage.search.expanded, stage.work)

theorem Step.weight_lt (h : Step graph stage after) :
    Prod.Lex (· < ·) (· < ·) after.weight stage.weight := by
  have hless : ∀ {before after : Stage}, after.search.expanded = before.search.expanded →
      after.work < before.work → Prod.Lex (· < ·) (· < ·) after.weight before.weight := by
    intro before after hexpanded hwork
    rw [weight, weight, hexpanded]
    exact .right _ hwork
  cases h with
  | cut => exact hless rfl (by simp +arith [work])
  | enter _ hcount =>
      refine .left _ _ ?_
      simp only [Search.enter]
      omega
  | leave => exact hless rfl (by simp +arith [work])
  | pass => exact hless rfl (by simp +arith [work])
  | call => exact hless rfl (by simp +arith [work])
  | @record search node target =>
      refine hless ?_ (by simp +arith [work])
      cases hcycle : search.rootHasCycle with
      | true => rw [record_eq_self hcycle]
      | false => rw [record_eq hcycle]
  | skip hrest =>
      have hlength := hrest.length_le
      refine hless rfl ?_
      simp only [work, List.length_cons]
      omega
  | root => exact hless rfl (by simp +arith [work])

/-- No search goes on for ever, from whatever stage. -/
theorem wellFounded_next (graph : Adjacency) :
    WellFounded fun after before : Stage => before.next graph = some after :=
  Subrelation.wf (fun h => (step_of_next h).weight_lt)
    (InvImage.wf weight (Prod.lex Nat.lt_wfRel Nat.lt_wfRel).wf)

/-! ## What holds at every stage -/

/-- What is true at every stage: the calls that have not returned are the path, and
they go on along edges. -/
structure Sound (graph : Adjacency) (stage : Stage) : Prop where
  consistent : Consistent graph stage.search
  path : stage.search.path = stage.frames.map Frame.node
  edges : ∀ frame ∈ stage.frames, ∀ target ∈ frame.targets, graph.Edge frame.node target
  roots : ∀ root ∈ stage.roots, root ∈ graph.keys
  calling : ∀ node ∈ stage.calling, node ∉ stage.search.visited ∧ node ∈ graph.nodes ∧
    ∀ last ∈ stage.search.path.head?, graph.Edge last node
  nodup : stage.entered.Nodup
  entered : ∀ node, node ∈ stage.entered ↔ node ∈ stage.search.visited

theorem sound_start (graph : Adjacency) : (start graph).Sound graph :=
  ⟨consistent_start, rfl, by simp [start], fun _ h => h, by simp [start], List.nodup_nil,
    by simp [start, Search.start]⟩

theorem Step.sound (h : Step graph stage after) (hsound : stage.Sound graph) :
    after.Sound graph := by
  cases h with
  | cut => exact { hsound with calling := by simp }
  | @enter search frames node roots entered hdepth hcount =>
      obtain ⟨hnew, hnode, hfrom⟩ := hsound.calling node rfl
      refine ⟨hsound.consistent.enter hnew hnode hdepth hcount hfrom, ?_, ?_, hsound.roots,
        by simp, ?_, ?_⟩
      · exact congrArg (node :: ·) hsound.path
      · exact List.forall_mem_cons.mpr ⟨fun target htarget => mem_sortedTargets.mp htarget,
          hsound.edges⟩
      · exact List.nodup_cons.mpr ⟨fun hmem => hnew ((hsound.entered node).mp hmem), hsound.nodup⟩
      · intro other
        exact List.mem_cons.trans
          ((or_congr_right (hsound.entered other)).trans mem_visited_enter.symm)
  | @leave search node frames roots entered =>
      have hpath : search.path = node :: frames.map Frame.node := hsound.path
      refine ⟨hsound.consistent.leave (by rw [hpath, List.head?_cons]), path_leave hpath, ?_,
        hsound.roots, by simp, hsound.nodup, hsound.entered⟩
      exact (List.forall_mem_cons.mp hsound.edges).2
  | pass =>
      obtain ⟨hfirst, hedges⟩ := List.forall_mem_cons.mp hsound.edges
      refine { hsound with edges := List.forall_mem_cons.mpr ⟨fun target htarget => ?_, hedges⟩ }
      exact hfirst target (List.mem_cons_of_mem _ htarget)
  | @call search node target targets frames roots entered hnew =>
      obtain ⟨hfirst, hedges⟩ := List.forall_mem_cons.mp hsound.edges
      have hpath : search.path = node :: frames.map Frame.node := hsound.path
      have hedge : graph.Edge node target := hfirst target List.mem_cons_self
      refine { hsound with
        edges := List.forall_mem_cons.mpr ⟨fun other hother => ?_, hedges⟩
        calling := ?_ }
      · exact hfirst other (List.mem_cons_of_mem _ hother)
      · intro called hcalled
        obtain rfl := Option.some.inj hcalled
        refine ⟨hnew, hedge.mem_nodes, ?_⟩
        rw [hpath, List.head?_cons]
        intro last hlast
        obtain rfl := Option.some.inj hlast
        exact hedge
  | @record search node target targets frames roots entered hne honPath =>
      obtain ⟨hfirst, hedges⟩ := List.forall_mem_cons.mp hsound.edges
      have hpath : search.path = node :: frames.map Frame.node := hsound.path
      have hedge : graph.Edge node target := hfirst target List.mem_cons_self
      have htarget : target ∈ search.path := (hsound.consistent.onPath target).mp honPath
      refine ⟨hsound.consistent.record (by rw [hpath, List.head?_cons]) hedge hne htarget, ?_, ?_,
        hsound.roots, by simp, hsound.nodup, ?_⟩
      · exact (path_record search target).trans hpath
      · exact List.forall_mem_cons.mpr
          ⟨fun other hother => hfirst other (List.mem_cons_of_mem _ hother), hedges⟩
      · intro other
        rw [visited_record]
        exact hsound.entered other
  | skip hrest =>
      exact { hsound with
        roots := fun other hother =>
          hsound.roots other (List.mem_cons_of_mem _ (hrest.subset hother)) }
  | @root search root roots entered hnew =>
      have hpath : search.path = [] := hsound.path
      obtain ⟨hroot, hroots⟩ := List.forall_mem_cons.mp hsound.roots
      refine ⟨{ hsound.consistent with }, hsound.path, hsound.edges, hroots, ?_, hsound.nodup,
        hsound.entered⟩
      intro called hcalled
      obtain rfl := Option.some.inj hcalled
      refine ⟨hnew, mem_nodes_of_mem_keys hroot, ?_⟩
      rw [hpath]
      simp

theorem Leads.sound {before : Stage} (h : Leads graph before after) (hsound : before.Sound graph) :
    after.Sound graph := by
  induction h with
  | refl => exact hsound
  | tail _ hnext ih => exact (step_of_next hnext).sound ih

theorem Step.extends (h : Step graph stage after) :
    (∀ node ∈ stage.search.visited, node ∈ after.search.visited) ∧
    stage.search.cycles <+: after.search.cycles := by
  cases h with
  | enter => exact ⟨fun node hnode => mem_visited_enter.mpr (.inr hnode), List.prefix_rfl⟩
  | record => exact ⟨fun node hnode => by rwa [visited_record], cycles_prefix_record _ _⟩
  | _ => exact ⟨fun _ hnode => hnode, List.prefix_rfl⟩

theorem Leads.extends {before : Stage} (h : Leads graph before after) :
    (∀ node ∈ before.search.visited, node ∈ after.search.visited) ∧
    before.search.cycles <+: after.search.cycles := by
  induction h with
  | refl => exact ⟨fun _ hnode => hnode, List.prefix_rfl⟩
  | tail _ hnext ih =>
      obtain ⟨hvisited, hcycles⟩ := (step_of_next hnext).extends
      exact ⟨fun node hnode => hvisited node (ih.1 node hnode), ih.2.trans hcycles⟩

/-! ## Calls return -/

/-- Every call that is made with so many nodes on the path comes back, with what `explore` gives. -/
def CallsReturn (graph : Adjacency) (depth : Nat) : Prop :=
  ∀ stage node, stage.calling = some node → stage.search.path.length = depth →
    ∃ log, Leads graph stage (stage.resumed (explore graph node stage.search) log)

section Runs

variable {search : Search} {node : String} {frames : List Frame} {roots entered : List String}
  {depth : Nat}

theorem leads_edge (hcalls : CallsReturn graph depth) (hdepth : search.path.length = depth)
    (target : String) (targets : List String) :
    ∃ log, Leads graph ⟨search, ⟨node, target :: targets⟩ :: frames, none, roots, entered⟩
      ⟨follow (explore graph) node search target, ⟨node, targets⟩ :: frames, none, roots,
        log ++ entered⟩ := by
  unfold follow
  split
  · next hself => exact ⟨[], .single (by rw [next, if_pos hself]; rfl)⟩
  · next hself =>
      split
      · next hnew =>
          obtain ⟨log, hreturn⟩ :=
            hcalls ⟨search, ⟨node, targets⟩ :: frames, some target, roots,
              entered⟩ target rfl hdepth
          exact ⟨log, .head (by rw [next, if_neg hself, if_pos hnew]) hreturn⟩
      · next hnew =>
          split
          · next honPath =>
              exact ⟨[], .single (by rw [next, if_neg hself, if_neg hnew, if_pos honPath]; rfl)⟩
          · next honPath =>
              exact ⟨[], .single (by rw [next, if_neg hself, if_neg hnew, if_neg honPath]; rfl)⟩

theorem leads_edges (hcalls : CallsReturn graph depth) (targets : List String)
    (hdepth : search.path.length = depth) :
    ∃ log, Leads graph ⟨search, ⟨node, targets⟩ :: frames, none, roots, entered⟩
      ⟨targets.foldl (follow (explore graph) node) search, ⟨node, []⟩ :: frames, none, roots,
        log ++ entered⟩ := by
  induction targets generalizing search entered with
  | nil => exact ⟨[], .refl⟩
  | cons target targets ih =>
      obtain ⟨log, hfirst⟩ := leads_edge hcalls hdepth target targets
      have hpath : (follow (explore graph) node search target).path = search.path :=
        path_follow fun _ _ => path_explore
      obtain ⟨more, hrest⟩ := ih (by rw [hpath, hdepth])
      rw [← List.append_assoc] at hrest
      exact ⟨more ++ log, hfirst.trans hrest⟩

/-- A call whose own calls return does so too. -/
theorem callsReturn_of_succ (hcalls : CallsReturn graph (depth + 1)) : CallsReturn graph depth := by
  rintro ⟨search, frames, calling, roots, entered⟩ node rfl hdepth
  show ∃ log, Leads graph _ ⟨explore graph node search, frames, none, roots, log ++ entered⟩
  rw [explore_eq, body]
  cases hfull : search.isFull with
  | true =>
      rw [if_pos rfl]
      exact ⟨[], .single (by rw [next, if_pos hfull]; rfl)⟩
  | false =>
      rw [if_neg Bool.false_ne_true]
      have henter : next graph ⟨search, frames, some node, roots, entered⟩ =
          some ⟨search.enter node, ⟨node, graph.sortedTargets node⟩ :: frames, none, roots,
            node :: entered⟩ := by
        rw [next, hfull, if_neg Bool.false_ne_true]
      have hinner : (search.enter node).path.length = depth + 1 := congrArg (· + 1) hdepth
      obtain ⟨log, hedges⟩ := leads_edges hcalls (graph.sortedTargets node) hinner
      refine ⟨log ++ [node], .head henter (hedges.tail ?_)⟩
      rw [next, List.append_assoc]
      rfl

theorem callsReturn (graph : Adjacency) (depth : Nat) : CallsReturn graph depth := by
  -- a path that is too long lets nothing enter; from there on the argument goes down
  have hroom : ∀ room depth, maxDepth - depth = room → CallsReturn graph depth := by
    intro room
    induction room with
    | zero =>
        rintro depth hlong ⟨search, frames, calling, roots, entered⟩ node rfl hdepth
        have hfull : search.isFull = true :=
          isFull_of_room_eq_zero ((congrArg (maxDepth - ·) hdepth).trans hlong)
        show ∃ log, Leads graph _ ⟨explore graph node search, frames, none, roots, log ++ entered⟩
        rw [explore_eq_self hfull]
        exact ⟨[], .single (by rw [next, if_pos hfull]; rfl)⟩
    | succ room ih => exact fun depth hdepth => callsReturn_of_succ (ih (depth + 1) (by omega))
  exact hroom _ depth rfl

theorem foldl_visitRoot_full (hfull : maxNodes ≤ search.expanded) (roots : List String) :
    roots.foldl (visitRoot graph) search = search := by
  induction roots with
  | nil => rfl
  | cons root roots ih =>
      have hroot : visitRoot graph search root = search := by
        rw [visitRoot, if_pos]
        simp [hfull]
      rw [List.foldl_cons, hroot, ih]

/-- From root to root the stages come to what the search comes to. -/
theorem leads_roots (roots : List String) (hpath : search.path = []) :
    ∃ log, Leads graph ⟨search, [], none, roots, entered⟩
      ⟨roots.foldl (visitRoot graph) search, [], none, [], log ++ entered⟩ := by
  induction roots generalizing search entered with
  | nil => exact ⟨[], .refl⟩
  | cons root roots ih =>
      by_cases hvisited : search.visited.contains root = true
      · have hroot : visitRoot graph search root = search := by
          rw [visitRoot, hvisited, Bool.true_or, if_pos rfl]
        obtain ⟨log, hrest⟩ := ih hpath
        rw [List.foldl_cons, hroot]
        exact ⟨log, .head (by rw [next, if_pos hvisited]) hrest⟩
      · by_cases hfull : maxNodes ≤ search.expanded
        · rw [foldl_visitRoot_full hfull]
          exact ⟨[], .single (by rw [next, if_neg hvisited, if_pos hfull]; rfl)⟩
        · have hcall : next graph ⟨search, [], none, root :: roots, entered⟩ =
              some ⟨{ search with rootHasCycle := false }, [], some root, roots, entered⟩ := by
            rw [next, if_neg hvisited, if_neg hfull]
          have hroot : visitRoot graph search root =
              explore graph root { search with rootHasCycle := false } := by
            rw [visitRoot, if_neg (by simp [hvisited, hfull]), explore]
            simp only [hpath, List.length_nil, Nat.sub_zero]
          obtain ⟨log, hreturn⟩ := callsReturn graph 0
            ⟨{ search with rootHasCycle := false }, [], some root, roots, entered⟩ root rfl
            (congrArg List.length hpath)
          have hafter : (explore graph root { search with rootHasCycle := false }).path = [] :=
            path_explore.trans hpath
          obtain ⟨more, hrest⟩ := ih hafter
          rw [← List.append_assoc] at hrest
          rw [List.foldl_cons, hroot]
          exact ⟨more ++ log, .head hcall (hreturn.trans hrest)⟩

end Runs

/-- The bounds and the bookkeeping of a stage. -/
structure Bounded (stage : Stage) : Prop where
  /-- no node was entered twice, and none is counted as visited without that -/
  once : stage.entered.Nodup ∧ ∀ node, node ∈ stage.entered ↔ node ∈ stage.search.visited
  expanded : stage.search.expanded = stage.search.visited.size ∧ stage.search.expanded ≤ maxNodes
  path : stage.search.path.Nodup ∧ stage.search.path.length ≤ maxDepth
  /-- the path is that of the calls which have not returned -/
  frames : stage.search.path = stage.frames.map Frame.node
  onPath : ∀ node, node ∈ stage.search.onPath ↔ node ∈ stage.search.path
  visited : ∀ node ∈ stage.search.onPath, node ∈ stage.search.visited

theorem Sound.bounded (h : stage.Sound graph) : stage.Bounded where
  once := ⟨h.nodup, h.entered⟩
  expanded := ⟨h.consistent.expanded, h.consistent.count⟩
  path := ⟨h.consistent.nodup, h.consistent.depth⟩
  frames := h.path
  onPath := h.consistent.onPath
  visited := fun node hnode => h.consistent.visited node ((h.consistent.onPath node).mp hnode)

end Stage

/-- What a call leaves as it was, and what it does no more than add to. -/
structure Search.Restored (before after : Search) : Prop where
  path : after.path = before.path
  onPath : ∀ node, node ∈ after.onPath ↔ node ∈ before.onPath
  visited : ∀ node ∈ before.visited, node ∈ after.visited
  cycles : before.cycles <+: after.cycles

theorem Stage.Sound.restored {graph : Adjacency} {stage : Stage} {search : Search}
    {log : List String} (h : stage.Sound graph) (hpath : search.path = stage.search.path)
    (hreturn : Stage.Leads graph stage (stage.resumed search log)) :
    stage.search.Restored search := by
  have hafter := hreturn.sound h
  obtain ⟨hvisited, hcycles⟩ := hreturn.extends
  refine ⟨hpath, fun node => ?_, hvisited, hcycles⟩
  have honPath : node ∈ search.onPath ↔ node ∈ search.path := hafter.consistent.onPath node
  rw [honPath, hpath, h.consistent.onPath]

namespace Adjacency

open Search

/-- However a graph is made, the search for its cycles keeps to its bounds at every stage.  Each
call that is made comes back, with the path as it was.  No stage is followed by others for ever, and
the recursion of a call needs no room to be counted: one function satisfies it, and no other. -/
theorem cycle_search_bounded (graph : Adjacency) :
    (∀ stage, Stage.Leads graph (.start graph) stage → stage.Bounded) ∧
    (∀ stage node, Stage.Leads graph (.start graph) stage → stage.calling = some node →
      ∃ log, Stage.Leads graph stage (stage.resumed (explore graph node stage.search) log) ∧
        stage.search.Restored (explore graph node stage.search)) ∧
    (WellFounded fun after before : Stage => before.next graph = some after) ∧
    (∀ call, (∀ node search, call node search = body graph call node search) ↔
      call = explore graph) ∧
    ∃ last, Stage.Leads graph (.start graph) last ∧ last.next graph = none ∧
    last.search.cycles = graph.cycles := by
  have hsound : ∀ {stage}, Stage.Leads graph (.start graph) stage → stage.Sound graph :=
    fun hleads => hleads.sound (Stage.sound_start graph)
  refine ⟨fun stage hleads => (hsound hleads).bounded, ?_, Stage.wellFounded_next graph,
    fun call => ?_, ?_⟩
  · intro stage node hleads hcalling
    obtain ⟨log, hreturn⟩ := Stage.callsReturn graph _ stage node hcalling rfl
    exact ⟨log, hreturn, (hsound hleads).restored path_explore hreturn⟩
  · constructor
    · exact explore_unique
    · rintro rfl
      exact explore_eq graph
  · have hend : ∃ log, Stage.Leads graph (.start graph)
        ⟨graph.keys.foldl (visitRoot graph) .start, [], none, [], log ++ []⟩ :=
          Stage.leads_roots graph.keys rfl
    obtain ⟨log, hleads⟩ := hend
    exact ⟨_, hleads, rfl, rfl⟩

/-- Two nodes with an edge each to the other, one of them to itself as well. -/
def pairGraph : Adjacency := .ofList [("a", ["a", "b"]), ("b", ["a"])]

/-- The stage at which the second node of the pair is called for. -/
def pairStage : Stage :=
  ⟨Search.start.enter "a", [⟨"a", []⟩], some "b", ["b"], ["a"]⟩

theorem leads_pairStage : Stage.Leads pairGraph (.start pairGraph) pairStage := by
  refine .head (b := ⟨.start, [], some "a", ["b"], []⟩) rfl ?_
  refine .head (b := ⟨Search.start.enter "a", [⟨"a", ["a", "b"]⟩], none, ["b"], ["a"]⟩) rfl ?_
  refine .head (b := ⟨Search.start.enter "a", [⟨"a", ["b"]⟩], none, ["b"], ["a"]⟩) rfl ?_
  exact .single rfl

/-- The call for the second node records the cycle, and comes back to the path on which the
first node stands alone. -/
theorem cycle_search_bounded_pairGraph :
    Stage.Leads pairGraph (.start pairGraph) pairStage ∧ pairStage.calling = some "b" ∧
    pairStage.Bounded ∧
    pairStage.search.Restored (explore pairGraph "b" pairStage.search) ∧
    (explore pairGraph "b" pairStage.search).cycles = [["a", "b", "a"]] := by
  obtain ⟨hbounded, hreturns, _⟩ := cycle_search_bounded pairGraph
  obtain ⟨log, _, hrestored⟩ := hreturns pairStage "b" leads_pairStage rfl
  exact ⟨leads_pairStage, rfl, hbounded pairStage leads_pairStage, hrestored, by decide⟩

end Adjacency
end Graph
end CodeSurvey
