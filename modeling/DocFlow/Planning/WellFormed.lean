import DocFlow.Planning.Dag
import Mathlib.Data.List.Perm.Subperm
import Mathlib.Logic.Relation

/-!
# The graphs that are accepted

`validateDag` accepts the well-formed graphs and no others (`validateDag_exact`): the references are
different and known, nothing waits for itself, in a circle, or behind more than two others.

* `depth_eq_error`: the search fails at a circle only, since `visiting` never repeats a reference.
* `depth_hasPath`: a depth is the length of a path, and by `Sound` no path is longer.
-/

namespace DocFlow.Planning

open Relation

/-! ## Failures -/

/-- A `PlanningApplicationError` with the status 409. -/
def Rejects (e : Failure) : Prop := ∃ detail resultCode, e = .applicationError 409 detail resultCode

/-! ## Paths -/

/-- `q` stands in the list of `r`. -/
def Edge (graph : Graph) (r q : TaskRef) : Prop := q ∈ (graph.lookup r).getD []

/-- A path of `n` references begins at `r`. -/
def HasPath (graph : Graph) (r : TaskRef) (n : Nat) : Prop :=
  ∃ path, (r :: path).IsChain (Edge graph) ∧ path.length + 1 = n

theorem HasPath.single (graph : Graph) (r : TaskRef) : HasPath graph r 1 := ⟨[], .singleton r, rfl⟩

theorem HasPath.cons {graph : Graph} {r q : TaskRef} {n : Nat} (h : HasPath graph q n)
    (hedge : Edge graph r q) : HasPath graph r (1 + n) := by
  obtain ⟨path, hpath, rfl⟩ := h
  refine ⟨q :: path, List.isChain_cons_cons.mpr ⟨hedge, hpath⟩, ?_⟩
  rw [List.length_cons]
  omega

def Witnessed (graph : Graph) (depths : Depths) : Prop :=
  ∀ r d, depths.lookup r = some d → HasPath graph r d

section

variable {graph : Graph}

theorem maxDepth_hasPath {search : TaskRef → Depths → Except Failure (Nat × Depths)}
    (hs : ∀ r a d b, search r a = .ok (d, b) → Witnessed graph a →
      Witnessed graph b ∧ HasPath graph r d) {refs : List TaskRef} {a b : Depths} {m : Nat}
    (h : maxDepth search refs a = .ok (m, b)) (ha : Witnessed graph a) :
    Witnessed graph b ∧ (m = 0 ∨ ∃ r ∈ refs, HasPath graph r m) := by
  induction refs generalizing a m b with
  | nil =>
    obtain ⟨rfl, rfl⟩ := Prod.mk.inj (Except.ok.inj h)
    exact ⟨ha, .inl rfl⟩
  | cons r refs ih =>
    simp only [maxDepth, bind_eq_ok, pure_eq_ok, Prod.exists, Prod.mk.injEq] at h
    obtain ⟨d, a', hr, m', b', hm, rfl, rfl⟩ := h
    obtain ⟨ha', hd⟩ := hs r a d a' hr ha
    obtain ⟨hb, hm'⟩ := ih hm ha'
    refine ⟨hb, .inr ?_⟩
    by_cases hle : m' ≤ d
    · exact ⟨r, List.mem_cons_self, by rwa [Nat.max_eq_left hle]⟩
    · rw [Nat.max_eq_right (by omega)]
      obtain rfl | ⟨q, hq, hpath⟩ := hm'
      · omega
      · exact ⟨q, List.mem_cons_of_mem r hq, hpath⟩

/-- A depth is the length of a path. -/
theorem depth_hasPath (fuel : Nat) : ∀ visiting r a d b, depth graph fuel visiting r a = .ok (d, b) →
    Witnessed graph a → Witnessed graph b ∧ HasPath graph r d := by
  induction fuel with
  | zero =>
    intro visiting r a d b h
    cases h
  | succ fuel ih =>
    intro visiting r a d b h ha
    rw [depth] at h
    split at h
    · next d' hd =>
      obtain ⟨rfl, rfl⟩ := Prod.mk.inj (Except.ok.inj h)
      exact ⟨ha, ha r d' hd⟩
    · split at h
      · cases h
      · simp only [bind_eq_ok, pure_eq_ok, Prod.exists, Prod.mk.injEq] at h
        obtain ⟨m, b', hm, rfl, rfl⟩ := h
        obtain ⟨hb, hm'⟩ := maxDepth_hasPath (ih (r :: visiting)) hm ha
        have hpath : HasPath graph r (1 + m) := by
          obtain rfl | ⟨q, hq, hpath⟩ := hm'
          · exact .single graph r
          · exact hpath.cons hq
        refine ⟨fun q e hq => ?_, hpath⟩
        by_cases hqr : q = r
        · subst hqr
          rw [List.lookup_cons_self] at hq
          exact Option.some.inj hq ▸ hpath
        · rw [lookup_cons_ne hqr] at hq
          exact hb q e hq

/-- Along a path the depths become less. -/
theorem length_le_depth {depths : Depths} (h : Sound graph depths) (hpos : Positive depths)
    {r : TaskRef} {path : List TaskRef} (hpath : (r :: path).IsChain (Edge graph)) {d : Nat}
    (hd : depths.lookup r = some d) : path.length + 1 ≤ d := by
  induction path generalizing r d with
  | nil => exact hpos r d hd
  | cons q path ih =>
    obtain ⟨hedge, hrest⟩ := List.isChain_cons_cons.mp hpath
    obtain ⟨d', hd', hlt⟩ := h r d hd q hedge
    have hle := ih hrest hd'
    rw [List.length_cons]
    omega

theorem depth_lt_of_transGen {depths : Depths} (h : Sound graph depths) {r q : TaskRef} {d : Nat}
    (hd : depths.lookup r = some d) (hgen : TransGen (Edge graph) r q) :
    ∃ d', depths.lookup q = some d' ∧ d' < d := by
  induction hgen with
  | single hedge => exact h r d hd _ hedge
  | tail _ hedge ih =>
    obtain ⟨d', hd', hlt⟩ := ih
    obtain ⟨d'', hd'', hlt'⟩ := h _ d' hd' _ hedge
    exact ⟨d'', hd'', hlt'.trans hlt⟩

/-! ## Circles -/

theorem maxDepth_eq_error {search : TaskRef → Depths → Except Failure (Nat × Depths)}
    {refs : List TaskRef} {a : Depths} {e : Failure} (h : maxDepth search refs a = .error e) :
    ∃ r ∈ refs, ∃ a', search r a' = .error e := by
  induction refs generalizing a with
  | nil => cases h
  | cons r refs ih =>
    rw [maxDepth, bind_eq_error] at h
    obtain h | ⟨⟨d, a'⟩, -, h⟩ := h
    · exact ⟨r, List.mem_cons_self, a, h⟩
    · rw [bind_eq_error] at h
      obtain h | ⟨p, -, h⟩ := h
      · obtain ⟨q, hq, hsearch⟩ := ih h
        exact ⟨q, List.mem_cons_of_mem r hq, hsearch⟩
      · exact absurd h pure_ne_error

/-- **The search fails at a circle only**, and never for want of fuel: the references that are being
visited are different. -/
theorem depth_eq_error {keys : List TaskRef}
    (hclosed : ∀ r ∈ keys, ∀ q, Edge graph r q → q ∈ keys) (fuel : Nat) :
    ∀ visiting r a e, visiting.Nodup → (∀ v ∈ visiting, v ∈ keys ∧ TransGen (Edge graph) v r) →
      r ∈ keys → keys.length < fuel + visiting.length → depth graph fuel visiting r a = .error e →
      Rejects e ∧ ∃ x, TransGen (Edge graph) x x := by
  induction fuel with
  | zero =>
    intro visiting r a e hnodup hvisiting _ hlength _
    have hle := (hnodup.subperm fun v hv => (hvisiting v hv).1).length_le
    omega
  | succ fuel ih =>
    intro visiting r a e hnodup hvisiting hr hlength h
    rw [depth] at h
    split at h
    · cases h
    · split at h
      · next hmem =>
        obtain rfl := Except.error.inj h
        exact ⟨⟨_, _, rfl⟩, r, (hvisiting r hmem).2⟩
      · next hmem =>
        rw [bind_eq_error] at h
        obtain h | ⟨p, -, h⟩ := h
        · obtain ⟨q, hq, a', hsearch⟩ := maxDepth_eq_error h
          have hedge : Edge graph r q := hq
          refine ih (r :: visiting) q a' e (List.nodup_cons.mpr ⟨hmem, hnodup⟩) ?_
            (hclosed r hr q hedge) ?_ hsearch
          · intro v hv
            obtain rfl | hv := List.mem_cons.mp hv
            · exact ⟨hr, .single hedge⟩
            · exact ⟨(hvisiting v hv).1, (hvisiting v hv).2.tail hedge⟩
          · rw [List.length_cons]
            omega
        · exact absurd h pure_ne_error

end

/-! ## The lists of the tasks -/

theorem checkReferences_eq_ok {refs : List TaskRef} {t : Task} {entry : TaskRef × List TaskRef} :
    checkReferences refs t = .ok entry ↔
      ((declaredRefs t).Nodup ∧ (∀ r ∈ declaredRefs t, r ∈ refs) ∧ t.taskRef ∉ declaredRefs t) ∧
        entry = (t.taskRef, declaredRefs t) := by
  have hknown : (declaredRefs t).filter (fun r => decide (r ∉ refs)) = [] ↔
      ∀ r ∈ declaredRefs t, r ∈ refs := by
    simp [List.filter_eq_nil_iff]
  simp only [checkReferences, bind_eq_ok, ensure_eq_ok, pure_eq_ok]
  rw [← hknown]
  constructor
  · rintro ⟨_, honce, _, hmissing, _, hself, rfl⟩
    exact ⟨⟨honce, hmissing, hself⟩, rfl⟩
  · rintro ⟨⟨honce, hmissing, hself⟩, rfl⟩
    exact ⟨(), honce, (), hmissing, (), hself, rfl⟩

theorem checkReferences_rejects {refs : List TaskRef} {t : Task} {e : Failure}
    (h : checkReferences refs t = .error e) : Rejects e := by
  simp only [checkReferences, bind_eq_error, ensure_eq_error] at h
  obtain ⟨-, rfl⟩ | ⟨_, -, h⟩ := h
  · exact ⟨_, _, rfl⟩
  · obtain ⟨-, rfl⟩ | ⟨_, -, h⟩ := h
    · exact ⟨_, _, rfl⟩
    · obtain ⟨-, rfl⟩ | ⟨_, -, h⟩ := h
      · exact ⟨_, _, rfl⟩
      · exact absurd h pure_ne_error

theorem buildGraph_eq_ok_iff {refs : List TaskRef} {tasks : List Task} {graph : Graph} :
    buildGraph refs tasks = .ok graph ↔
      (∀ t ∈ tasks, (declaredRefs t).Nodup ∧ (∀ r ∈ declaredRefs t, r ∈ refs) ∧
        t.taskRef ∉ declaredRefs t) ∧ graph = tasks.map fun t => (t.taskRef, declaredRefs t) := by
  induction tasks generalizing graph with
  | nil => simp [buildGraph, eq_comm]
  | cons t tasks ih =>
    simp only [buildGraph, bind_eq_ok, pure_eq_ok, checkReferences_eq_ok, ih, List.forall_mem_cons,
      List.map_cons]
    constructor
    · rintro ⟨_, ⟨ht, rfl⟩, _, ⟨htasks, rfl⟩, rfl⟩
      exact ⟨⟨ht, htasks⟩, rfl⟩
    · rintro ⟨⟨ht, htasks⟩, rfl⟩
      exact ⟨_, ⟨ht, rfl⟩, _, ⟨htasks, rfl⟩, rfl⟩

theorem buildGraph_rejects {refs : List TaskRef} {tasks : List Task} {e : Failure}
    (h : buildGraph refs tasks = .error e) : Rejects e := by
  induction tasks with
  | nil => cases h
  | cons t tasks ih =>
    simp only [buildGraph, bind_eq_error] at h
    obtain h | ⟨_, -, h | ⟨_, -, h⟩⟩ := h
    · exact checkReferences_rejects h
    · exact ih h
    · exact absurd h pure_ne_error

/-- The task `r` waits for the task `q`. -/
def DependsOn (tasks : List Task) (r q : TaskRef) : Prop :=
  ∃ t ∈ tasks, t.taskRef = r ∧ q ∈ declaredRefs t

theorem dependsOn_of_edge {tasks : List Task} {r q : TaskRef}
    (h : Edge (tasks.map fun t => (t.taskRef, declaredRefs t)) r q) : DependsOn tasks r q := by
  unfold Edge at h
  cases hlook : (tasks.map fun t => (t.taskRef, declaredRefs t)).lookup r with
  | none =>
    rw [hlook] at h
    cases h
  | some deps =>
    rw [hlook, Option.getD_some] at h
    obtain ⟨l, l', hsplit, -⟩ := List.lookup_eq_some_iff.mp hlook
    have hmem : (r, deps) ∈ tasks.map fun t => (t.taskRef, declaredRefs t) := by
      rw [hsplit]
      simp
    obtain ⟨t, ht, hentry⟩ := List.mem_map.mp hmem
    obtain ⟨rfl, rfl⟩ := Prod.mk.inj hentry
    exact ⟨t, ht, rfl, h⟩

theorem edge_iff {tasks : List Task} (hdistinct : (tasks.map Task.taskRef).Nodup) {r q : TaskRef} :
    Edge (tasks.map fun t => (t.taskRef, declaredRefs t)) r q ↔ DependsOn tasks r q := by
  have hkeys : ((tasks.map fun t => (t.taskRef, declaredRefs t)).map Prod.fst).Nodup := by
    rw [List.map_map]
    exact hdistinct
  refine ⟨dependsOn_of_edge, ?_⟩
  rintro ⟨t, ht, rfl, hq⟩
  have hlook := lookup_of_mem hkeys
    (List.mem_map_of_mem (f := fun t => (t.taskRef, declaredRefs t)) ht)
  rw [Edge, hlook]
  exact hq

/-- A graph of tasks as it is to be. -/
structure WellFormed (tasks : List Task) : Prop where
  distinct : (tasks.map Task.taskRef).Nodup
  once : ∀ t ∈ tasks, (declaredRefs t).Nodup
  known : ∀ t ∈ tasks, ∀ r ∈ declaredRefs t, r ∈ tasks.map Task.taskRef
  notSelf : ∀ t ∈ tasks, t.taskRef ∉ declaredRefs t
  acyclic : ∀ r, ¬ TransGen (DependsOn tasks) r r
  shallow : ∀ path : List TaskRef, path.IsChain (DependsOn tasks) → path.length ≤ maxPlanDagDepth

/-! ## The decision -/

/-- The search from all the tasks. -/
theorem search_eq_ok {tasks : List Task} {graph : Graph} {deepest : Nat} {depths : Depths}
    (hg : buildGraph (tasks.map Task.taskRef) tasks = .ok graph)
    (hd : maxDepth (depth graph (graph.length + 1) []) (graph.map Prod.fst) [] = .ok (deepest, depths)) :
    Sound graph depths ∧ Positive depths ∧
      (∀ r ∈ tasks.map Task.taskRef, ∃ d, depths.lookup r = some d ∧ d ≤ deepest) ∧
      (deepest = 0 ∨ ∃ r, HasPath graph r deepest) := by
  have hsound : Sound graph [] := by
    intro r d hr
    cases hr
  have hpositive : Positive [] := by
    intro r d hr
    cases hr
  have hwitnessed : Witnessed graph [] := by
    intro r d hr
    cases hr
  obtain ⟨hgrows, hall⟩ := maxDepth_grows (depth_grows graph _ []) _ [] deepest depths hd hsound
  refine ⟨hgrows.sound, maxDepth_positive (depth_positive graph _ []) hd hpositive, ?_, ?_⟩
  · rw [buildGraph_keys hg] at hall
    exact hall
  · obtain ⟨-, hzero | ⟨r, -, hpath⟩⟩ := maxDepth_hasPath (depth_hasPath _ []) hd hwitnessed
    · exact .inl hzero
    · exact .inr ⟨r, hpath⟩

/-- The search fails at a circle of the tasks. -/
theorem search_eq_error {tasks : List Task} {graph : Graph} {e : Failure}
    (hg : buildGraph (tasks.map Task.taskRef) tasks = .ok graph)
    (hd : maxDepth (depth graph (graph.length + 1) []) (graph.map Prod.fst) [] = .error e) :
    Rejects e ∧ ∃ x, TransGen (Edge graph) x x := by
  obtain ⟨r, hr, a, hsearch⟩ := maxDepth_eq_error hd
  have hkeys := buildGraph_keys hg
  obtain ⟨hlists, rfl⟩ := buildGraph_eq_ok_iff.mp hg
  have hclosed : ∀ r ∈ tasks.map Task.taskRef, ∀ q,
      Edge (tasks.map fun t => (t.taskRef, declaredRefs t)) r q → q ∈ tasks.map Task.taskRef := by
    intro r _ q hedge
    obtain ⟨t, ht, -, hq⟩ := dependsOn_of_edge hedge
    exact (hlists t ht).2.1 q hq
  exact depth_eq_error hclosed _ [] r a e .nil (by simp) (hkeys ▸ hr) (by simp) hsearch

theorem wellFormed_of_ok {tasks : List Task} {pairs : List (TaskId × TaskId)}
    (h : validateDag tasks = .ok pairs) : WellFormed tasks := by
  simp only [validateDag, bind_eq_ok, ensure_eq_ok, pure_eq_ok, Prod.exists] at h
  obtain ⟨_, hdistinct, graph, hg, deepest, depths, hd, _, hdeepest, -⟩ := h
  obtain ⟨hsound, hpositive, hall, -⟩ := search_eq_ok hg hd
  obtain ⟨hlists, rfl⟩ := buildGraph_eq_ok_iff.mp hg
  have hedges : ∀ r q, DependsOn tasks r q →
      Edge (tasks.map fun t => (t.taskRef, declaredRefs t)) r q := fun r q =>
    (edge_iff hdistinct).mpr
  have hrefs : ∀ {r q}, DependsOn tasks r q → r ∈ tasks.map Task.taskRef := by
    rintro r q ⟨t, ht, rfl, -⟩
    exact List.mem_map_of_mem ht
  refine
    { distinct := hdistinct
      once := fun t ht => (hlists t ht).1
      known := fun t ht => (hlists t ht).2.1
      notSelf := fun t ht => (hlists t ht).2.2
      acyclic := ?_
      shallow := ?_ }
  · intro r hr
    obtain ⟨q, hfirst, -⟩ := TransGen.head'_iff.mp hr
    obtain ⟨d, hd, -⟩ := hall r (hrefs hfirst)
    obtain ⟨d', hd', hlt⟩ := depth_lt_of_transGen hsound hd (TransGen.mono hedges _ _ hr)
    rw [hd] at hd'
    obtain rfl := Option.some.inj hd'
    exact lt_irrefl d hlt
  · intro path hpath
    rcases path with _ | ⟨r, _ | ⟨q, path⟩⟩
    · exact Nat.zero_le _
    · exact (by decide : 1 ≤ maxPlanDagDepth)
    · obtain ⟨d, hd, hle⟩ := hall r (hrefs (List.isChain_cons_cons.mp hpath).1)
      have hlength := length_le_depth hsound hpositive (hpath.imp fun {a b} => hedges a b) hd
      exact hlength.trans (hle.trans hdeepest)

theorem ok_of_wellFormed {tasks : List Task} (h : WellFormed tasks) :
    ∃ pairs, validateDag tasks = .ok pairs := by
  have hg := buildGraph_eq_ok_iff.mpr
    ⟨fun t ht => ⟨h.once t ht, h.known t ht, h.notSelf t ht⟩, rfl⟩
  have hedges : ∀ r q, Edge (tasks.map fun t => (t.taskRef, declaredRefs t)) r q →
      DependsOn tasks r q := fun r q => (edge_iff h.distinct).mp
  cases hd : maxDepth
      (depth (tasks.map fun t => (t.taskRef, declaredRefs t))
        ((tasks.map fun t => (t.taskRef, declaredRefs t)).length + 1) [])
      ((tasks.map fun t => (t.taskRef, declaredRefs t)).map Prod.fst) [] with
  | error e =>
    obtain ⟨-, x, hx⟩ := search_eq_error hg hd
    exact absurd (TransGen.mono hedges _ _ hx) (h.acyclic x)
  | ok p =>
    obtain ⟨deepest, depths⟩ := p
    have hdeepest : deepest ≤ maxPlanDagDepth := by
      obtain ⟨-, -, -, rfl | ⟨r, path, hpath, rfl⟩⟩ := search_eq_ok hg hd
      · exact Nat.zero_le _
      · exact h.shallow (r :: path) (hpath.imp fun {a b} => hedges a b)
    refine ⟨dependencyPairs tasks (tasks.map fun t => (t.taskRef, declaredRefs t)), ?_⟩
    simp only [validateDag, bind_eq_ok, ensure_eq_ok, pure_eq_ok, Prod.exists]
    exact ⟨(), h.distinct, _, hg, deepest, depths, hd, (), hdeepest, rfl⟩

theorem validateDag_rejects {tasks : List Task} {e : Failure} (h : validateDag tasks = .error e) :
    Rejects e := by
  simp only [validateDag, bind_eq_error, ensure_eq_error] at h
  obtain ⟨-, rfl⟩ | ⟨_, -, h⟩ := h
  · exact ⟨_, _, rfl⟩
  · obtain h | ⟨graph, hg, h⟩ := h
    · exact buildGraph_rejects h
    · obtain h | ⟨p, -, h⟩ := h
      · exact (search_eq_error hg h).1
      · obtain ⟨-, rfl⟩ | ⟨_, -, h⟩ := h
        · exact ⟨_, _, rfl⟩
        · exact absurd h pure_ne_error

/-- The pairs that the tasks declare, in their order. -/
def declaredPairs (idOf : TaskRef → TaskId) (tasks : List Task) : List (TaskId × TaskId) :=
  tasks.flatMap fun t => (declaredRefs t).map fun r => (t.taskId, idOf r)

theorem dependencyPairs_eq {tasks : List Task} (h : WellFormed tasks) :
    dependencyPairs tasks (tasks.map fun t => (t.taskRef, declaredRefs t)) =
      declaredPairs (fun r => (idOfRef tasks r).getD 0) tasks := by
  rw [dependencyPairs, List.flatMap_map, declaredPairs]
  refine List.flatMap_congr fun t ht => ?_
  rw [← List.filterMap_eq_map]
  refine List.filterMap_congr fun r hr => ?_
  obtain ⟨t', ht', rfl⟩ := List.mem_map.mp (h.known t ht r hr)
  simp only [Function.comp_apply, idOfRef_of_mem h.distinct ht, idOfRef_of_mem h.distinct ht',
    Option.getD_some]
  rfl

theorem nodup_declaredPairs {tasks : List Task} (h : WellFormed tasks)
    (hids : (tasks.map Task.taskId).Nodup) {idOf : TaskRef → TaskId}
    (hidOf : ∀ t ∈ tasks, idOf t.taskRef = t.taskId) : (declaredPairs idOf tasks).Nodup := by
  rw [declaredPairs, List.nodup_flatMap]
  constructor
  · intro t ht
    refine (h.once t ht).map_on fun r hr q hq heq => ?_
    obtain ⟨a, ha, rfl⟩ := List.mem_map.mp (h.known t ht r hr)
    obtain ⟨b, hb, rfl⟩ := List.mem_map.mp (h.known t ht q hq)
    have hab := (Prod.mk.inj heq).2
    rw [hidOf a ha, hidOf b hb] at hab
    rw [List.inj_on_of_nodup_map hids ha hb hab]
  · rw [List.Nodup, List.pairwise_map] at hids
    refine hids.imp fun {t t'} hne => ?_
    refine List.disjoint_left.mpr ?_
    intro p hp hp'
    obtain ⟨r, -, rfl⟩ := List.mem_map.mp hp
    obtain ⟨r', -, heq⟩ := List.mem_map.mp hp'
    exact hne (Prod.mk.inj heq).1.symm

/-- **`validateDag` accepts exactly the well-formed graphs**, answers with the declared pairs, and
rejects everything else: it always comes to an end. -/
theorem validateDag_exact (tasks : List Task) :
    ((∃ pairs, validateDag tasks = .ok pairs) ↔ WellFormed tasks) ∧
      (∀ pairs, validateDag tasks = .ok pairs → ∃ idOf : TaskRef → TaskId,
        (∀ t ∈ tasks, idOf t.taskRef = t.taskId) ∧ pairs = declaredPairs idOf tasks ∧
          ((tasks.map Task.taskId).Nodup → pairs.Nodup)) ∧
      ∀ e, validateDag tasks = .error e → Rejects e := by
  refine ⟨⟨fun ⟨pairs, h⟩ => wellFormed_of_ok h, ok_of_wellFormed⟩, fun pairs h => ?_,
    fun e => validateDag_rejects⟩
  have hwell := wellFormed_of_ok h
  have hidOf : ∀ t ∈ tasks, (idOfRef tasks t.taskRef).getD 0 = t.taskId := by
    intro t ht
    rw [idOfRef_of_mem hwell.distinct ht, Option.getD_some]
  simp only [validateDag, bind_eq_ok, ensure_eq_ok, pure_eq_ok, Prod.exists] at h
  obtain ⟨_, -, graph, hg, _, _, -, _, -, rfl⟩ := h
  obtain ⟨-, rfl⟩ := buildGraph_eq_ok_iff.mp hg
  rw [dependencyPairs_eq hwell]
  exact ⟨_, hidOf, rfl, fun hids => nodup_declaredPairs hwell hids hidOf⟩

end DocFlow.Planning
