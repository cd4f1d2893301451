import DocFlow.Lib.Listing
import DocFlow.Planning.UseCases

/-!
# What an accepted dependency graph looks like

`validateDag` answers with the pairs of task identifiers that publication stores.
`validateDag_ranked` says that the tasks can be ranked so that every task lies
above the ones it waits for: the depths the search memoises are such a rank, and
the reference being visited is never among them before it is finished.  The rank is a depth from one
to the bound (`validateDag_layered`), and the pairs are the references the tasks have been created
with, each resolved to its task (`validateDag_pairs`).
-/

namespace DocFlow.Planning

/-! ## The memoised depths -/

/-- Every reference with a depth has deeper-set references below it, all with depths. -/
def Sound (graph : Graph) (depths : Depths) : Prop :=
  ∀ r d, depths.lookup r = some d → ∀ q ∈ (graph.lookup r).getD [],
    ∃ d', depths.lookup q = some d' ∧ d' < d

/-- No depth is forgotten or changed. -/
def Extends (depths depths' : Depths) : Prop :=
  ∀ r d, depths.lookup r = some d → depths'.lookup r = some d

theorem Extends.trans {a b c : Depths} (h : Extends a b) (g : Extends b c) : Extends a c :=
  fun r d hr => g r d (h r d hr)

/-- What a search started while `visiting` is open does to the depths. -/
structure Grows (graph : Graph) (visiting : List TaskRef) (depths depths' : Depths) : Prop where
  sound : Sound graph depths'
  extends_ : Extends depths depths'
  untouched : ∀ v ∈ visiting, depths.lookup v = none → depths'.lookup v = none

theorem Grows.refl {graph : Graph} {visiting : List TaskRef} {depths : Depths}
    (h : Sound graph depths) : Grows graph visiting depths depths :=
  ⟨h, fun _ _ h => h, fun _ _ h => h⟩

theorem Grows.trans {graph : Graph} {visiting : List TaskRef} {a b c : Depths}
    (h : Grows graph visiting a b) (g : Grows graph visiting b c) : Grows graph visiting a c :=
  ⟨g.sound, h.extends_.trans g.extends_, fun v hv hn => g.untouched v hv (h.untouched v hv hn)⟩

theorem lookup_cons_ne {depths : Depths} {r q : TaskRef} {d : Nat} (h : q ≠ r) :
    List.lookup q ((r, d) :: depths) = depths.lookup q := by
  have hb : (q == r) = false := by simpa using h
  rw [List.lookup_cons, hb]

/-- A finished reference may be entered once its own references have depths. -/
theorem Grows.finish {graph : Graph} {visiting : List TaskRef} {a b : Depths} {r : TaskRef}
    {m : Nat} (h : Grows graph (r :: visiting) a b) (hr : a.lookup r = none) (hv : r ∉ visiting)
    (hm : ∀ q ∈ (graph.lookup r).getD [], ∃ d, b.lookup q = some d ∧ d ≤ m) :
    Grows graph visiting a ((r, 1 + m) :: b) := by
  have hrb : b.lookup r = none := h.untouched r List.mem_cons_self hr
  have hkeep : Extends b ((r, 1 + m) :: b) := by
    intro q d hq
    have hne : q ≠ r := by
      intro he
      rw [he, hrb] at hq
      cases hq
    rw [lookup_cons_ne hne]
    exact hq
  refine ⟨?_, h.extends_.trans hkeep, ?_⟩
  · intro q d hq p hp
    by_cases hqr : q = r
    · subst hqr
      rw [List.lookup_cons_self] at hq
      obtain ⟨d', hd', hle⟩ := hm p hp
      refine ⟨d', hkeep p d' hd', ?_⟩
      have : 1 + m = d := Option.some.inj hq
      omega
    · rw [lookup_cons_ne hqr] at hq
      obtain ⟨d', hd', hlt⟩ := h.sound q d hq p hp
      exact ⟨d', hkeep p d' hd', hlt⟩
  · intro v hvm hn
    have hne : v ≠ r := fun he => hv (he ▸ hvm)
    rw [lookup_cons_ne hne]
    exact h.untouched v (List.mem_cons_of_mem r hvm) hn

/-- The depths after a maximum over `refs`, given the search behind each of them. -/
theorem maxDepth_grows {graph : Graph} {visiting : List TaskRef}
    {search : TaskRef → Depths → Except Failure (Nat × Depths)}
    (hs : ∀ r a d b, search r a = .ok (d, b) → Sound graph a →
      Grows graph visiting a b ∧ b.lookup r = some d) :
    ∀ refs a m b, maxDepth search refs a = .ok (m, b) → Sound graph a →
      Grows graph visiting a b ∧ ∀ q ∈ refs, ∃ d, b.lookup q = some d ∧ d ≤ m := by
  intro refs
  induction refs with
  | nil =>
    intro a m b h hsound
    obtain ⟨rfl, rfl⟩ := Prod.mk.inj (Except.ok.inj h)
    exact ⟨.refl hsound, by simp⟩
  | cons r refs ih =>
    intro a m b h hsound
    simp only [maxDepth, bind_eq_ok, pure_eq_ok, Prod.exists, Prod.mk.injEq] at h
    obtain ⟨d, a', hr, m', b', hm, rfl, rfl⟩ := h
    obtain ⟨hg, hl⟩ := hs r a d a' hr hsound
    obtain ⟨hg', hl'⟩ := ih a' m' b hm hg.sound
    refine ⟨hg.trans hg', ?_⟩
    intro q hq
    rcases List.mem_cons.mp hq with rfl | hq
    · exact ⟨d, hg'.extends_ q d hl, Nat.le_max_left d m'⟩
    · obtain ⟨d', hd', hle⟩ := hl' q hq
      exact ⟨d', hd', le_trans hle (Nat.le_max_right d m')⟩

theorem depth_grows (graph : Graph) :
    ∀ fuel visiting r a d b, depth graph fuel visiting r a = .ok (d, b) → Sound graph a →
      Grows graph visiting a b ∧ b.lookup r = some d := by
  intro fuel
  induction fuel with
  | zero => intro visiting r a d b h; cases h
  | succ fuel ih =>
    intro visiting r a d b h hsound
    rw [depth] at h
    split at h
    · next d' hd =>
      obtain ⟨rfl, rfl⟩ := Prod.mk.inj (Except.ok.inj h)
      exact ⟨.refl hsound, hd⟩
    · next hnone =>
      split at h
      · cases h
      · next hv =>
        simp only [bind_eq_ok, pure_eq_ok, Prod.exists, Prod.mk.injEq] at h
        obtain ⟨m, b', hm, rfl, rfl⟩ := h
        obtain ⟨hg, hl⟩ := maxDepth_grows (ih (r :: visiting)) _ a m b' hm hsound
        exact ⟨hg.finish hnone hv hl, List.lookup_cons_self⟩

/-! ### Depths count from one -/

def Positive (depths : Depths) : Prop := ∀ r d, depths.lookup r = some d → 1 ≤ d

theorem maxDepth_positive {search : TaskRef → Depths → Except Failure (Nat × Depths)}
    (hs : ∀ r a d b, search r a = .ok (d, b) → Positive a → Positive b) {refs : List TaskRef}
    {a b : Depths} {m : Nat} (h : maxDepth search refs a = .ok (m, b)) (ha : Positive a) :
    Positive b := by
  induction refs generalizing a m b with
  | nil =>
    obtain ⟨rfl, rfl⟩ := Prod.mk.inj (Except.ok.inj h)
    exact ha
  | cons r refs ih =>
    simp only [maxDepth, bind_eq_ok, pure_eq_ok, Prod.exists, Prod.mk.injEq] at h
    obtain ⟨d, a', hr, m', b', hm, rfl, rfl⟩ := h
    exact ih hm (hs r a d a' hr ha)

theorem depth_positive (graph : Graph) (fuel : Nat) :
    ∀ visiting r a d b, depth graph fuel visiting r a = .ok (d, b) → Positive a → Positive b := by
  induction fuel with
  | zero =>
    intro visiting r a d b h
    cases h
  | succ fuel ih =>
    intro visiting r a d b h ha
    rw [depth] at h
    split at h
    · obtain ⟨rfl, rfl⟩ := Prod.mk.inj (Except.ok.inj h)
      exact ha
    · split at h
      · cases h
      · simp only [bind_eq_ok, pure_eq_ok, Prod.exists, Prod.mk.injEq] at h
        obtain ⟨m, b', hm, rfl, rfl⟩ := h
        intro q e hq
        by_cases hqr : q = r
        · subst hqr
          rw [List.lookup_cons_self] at hq
          obtain rfl := Option.some.inj hq
          omega
        · rw [lookup_cons_ne hqr] at hq
          exact maxDepth_positive (ih (r :: visiting)) hm ha q e hq

/-! ## The graph -/

/-- The references a task has been created with. -/
def declaredRefs (t : Task) : List TaskRef := t.inputJson.dependsOnTaskRefs.getD []

theorem buildGraph_eq_ok {refs : List TaskRef} {tasks : List Task} {graph : Graph}
    (h : buildGraph refs tasks = .ok graph) :
    graph = tasks.map (fun t => (t.taskRef, declaredRefs t)) ∧
      ∀ t ∈ tasks, ∀ r ∈ declaredRefs t, r ∈ refs := by
  induction tasks generalizing graph with
  | nil =>
    obtain rfl := Except.ok.inj h
    exact ⟨rfl, by simp⟩
  | cons t tasks ih =>
    simp only [buildGraph, checkReferences, bind_eq_ok, ensure_eq_ok, pure_eq_ok] at h
    obtain ⟨_, ⟨_, -, _, hmissing, _, -, rfl⟩, graph', hg, rfl⟩ := h
    obtain ⟨rfl, hrefs⟩ := ih hg
    refine ⟨rfl, ?_⟩
    intro x hx r hr
    rcases List.mem_cons.mp hx with rfl | hx
    · have hnot := List.filter_eq_nil_iff.mp hmissing r hr
      simpa using hnot
    · exact hrefs x hx r hr

theorem buildGraph_keys {refs : List TaskRef} :
    ∀ {tasks : List Task} {graph : Graph}, buildGraph refs tasks = .ok graph →
      graph.map Prod.fst = tasks.map Task.taskRef := by
  intro tasks graph h
  rw [(buildGraph_eq_ok h).1, List.map_map]
  rfl

theorem idOfRef_eq_some {tasks : List Task} {r : TaskRef} {i : TaskId}
    (h : idOfRef tasks r = some i) : ∃ t ∈ tasks, t.taskRef = r ∧ t.taskId = i := by
  rw [idOfRef, Option.map_eq_some_iff] at h
  obtain ⟨t, ht, rfl⟩ := h
  exact ⟨t, List.mem_of_find?_eq_some ht, by simpa using List.find?_some ht, rfl⟩

theorem idOfRef_of_mem {tasks : List Task} (hn : (tasks.map Task.taskRef).Nodup) {t : Task}
    (ht : t ∈ tasks) : idOfRef tasks t.taskRef = some t.taskId := by
  cases h : tasks.find? (fun x => x.taskRef = t.taskRef) with
  | none => exact absurd (decide_eq_true rfl) (List.find?_eq_none.mp h t ht)
  | some x =>
    have hx : x.taskRef = t.taskRef := by simpa using List.find?_some h
    rw [idOfRef, h, List.inj_on_of_nodup_map hn (List.mem_of_find?_eq_some h) ht hx]
    rfl

theorem mem_dependencyPairs {tasks : List Task} {graph : Graph} {p : TaskId × TaskId}
    (h : p ∈ dependencyPairs tasks graph) : ∃ r deps q, (r, deps) ∈ graph ∧ q ∈ deps ∧
      idOfRef tasks r = some p.1 ∧ idOfRef tasks q = some p.2 := by
  obtain ⟨⟨r, deps⟩, he, hp⟩ := List.mem_flatMap.mp h
  obtain ⟨q, hq, hp⟩ := List.mem_filterMap.mp hp
  simp only [Option.bind_eq_bind, Option.bind_eq_some_iff, Option.pure_def, Option.some.injEq] at hp
  obtain ⟨i, hi, j, hj, rfl⟩ := hp
  exact ⟨r, deps, q, he, hq, hi, hj⟩

/-- The depth of the task with a given identifier. -/
def rankOf (tasks : List Task) (depths : Depths) (i : TaskId) : Nat :=
  match tasks.find? fun t => t.taskId = i with
  | some t => (depths.lookup t.taskRef).getD 0
  | none => 0

theorem rankOf_eq {tasks : List Task} (hn : (tasks.map Task.taskId).Nodup) {depths : Depths}
    {t : Task} (ht : t ∈ tasks) {d : Nat} (hd : depths.lookup t.taskRef = some d) :
    rankOf tasks depths t.taskId = d := by
  have hf : tasks.find? (fun x => x.taskId = t.taskId) = some t := by
    cases h : tasks.find? (fun x => x.taskId = t.taskId) with
    | none => exact absurd (decide_eq_true rfl) (List.find?_eq_none.mp h t ht)
    | some x =>
      have hx : x.taskId = t.taskId := by simpa using List.find?_some h
      rw [List.inj_on_of_nodup_map hn (List.mem_of_find?_eq_some h) ht hx]
  rw [rankOf, hf]
  show (depths.lookup t.taskRef).getD 0 = d
  rw [hd, Option.getD_some]

/-- **The pairs of an accepted graph** are the references of its tasks, and each reference has its
task. -/
theorem validateDag_pairs {tasks : List Task} {pairs : List (TaskId × TaskId)}
    (h : validateDag tasks = .ok pairs) :
    (tasks.map Task.taskRef).Nodup ∧
      (∀ t ∈ tasks, ∀ r ∈ declaredRefs t, ∃ t' ∈ tasks, t'.taskRef = r) ∧
      ∀ p, p ∈ pairs ↔ ∃ t ∈ tasks, ∃ t' ∈ tasks, t'.taskRef ∈ declaredRefs t ∧
        (t.taskId, t'.taskId) = p := by
  simp only [validateDag, bind_eq_ok, ensure_eq_ok, pure_eq_ok, Prod.exists] at h
  obtain ⟨-, hrefs, graph, hg, -, -, -, -, -, rfl⟩ := h
  obtain ⟨rfl, hknown⟩ := buildGraph_eq_ok hg
  refine ⟨hrefs, fun t ht r hr => List.mem_map.mp (hknown t ht r hr), ?_⟩
  intro p
  constructor
  · intro hp
    obtain ⟨r, deps, q, he, hq, hi, hj⟩ := mem_dependencyPairs hp
    obtain ⟨t, ht, hentry⟩ := List.mem_map.mp he
    obtain ⟨rfl, rfl⟩ := Prod.mk.inj hentry
    obtain ⟨t', ht', rfl, htj⟩ := idOfRef_eq_some hj
    rw [idOfRef_of_mem hrefs ht] at hi
    exact ⟨t, ht, t', ht', hq, Prod.ext (Option.some.inj hi) htj⟩
  · rintro ⟨t, ht, t', ht', hdeclared, rfl⟩
    refine List.mem_flatMap.mpr ⟨_, List.mem_map_of_mem ht, List.mem_filterMap.mpr ⟨_, hdeclared, ?_⟩⟩
    simp only [idOfRef_of_mem hrefs ht, idOfRef_of_mem hrefs ht']
    rfl

/-- **An accepted graph is layered**: its tasks have depths from one to the bound, and every task
lies above those it waits for. -/
theorem validateDag_layered {tasks : List Task} {pairs : List (TaskId × TaskId)}
    (h : validateDag tasks = .ok pairs) (hn : (tasks.map Task.taskId).Nodup) :
    ∃ rank : TaskId → Nat, (∀ p ∈ pairs, rank p.2 < rank p.1) ∧
      ∀ t ∈ tasks, 1 ≤ rank t.taskId ∧ rank t.taskId ≤ maxPlanDagDepth := by
  have hpairs := (validateDag_pairs h).2.2
  simp only [validateDag, bind_eq_ok, ensure_eq_ok, pure_eq_ok, Prod.exists] at h
  obtain ⟨-, hrefs, graph, hg, deepest, depths, hd, -, hdeepest, rfl⟩ := h
  have hkeys : (graph.map Prod.fst).Nodup := buildGraph_keys hg ▸ hrefs
  obtain ⟨rfl, -⟩ := buildGraph_eq_ok hg
  have hempty : Sound (tasks.map fun t => (t.taskRef, declaredRefs t)) [] := by
    intro r d hr
    cases hr
  have hnone : Positive [] := by
    intro r d hr
    cases hr
  obtain ⟨hgrow, hall⟩ := maxDepth_grows (depth_grows _ _ []) _ [] deepest depths hd hempty
  have hpositive := maxDepth_positive (depth_positive _ _ []) hd hnone
  -- every task has a depth, which is its rank
  have hdepth : ∀ t ∈ tasks, ∃ d, depths.lookup t.taskRef = some d ∧ d ≤ deepest ∧
      rankOf tasks depths t.taskId = d := by
    intro t ht
    have hkey : t.taskRef ∈ (tasks.map fun t => (t.taskRef, declaredRefs t)).map Prod.fst := by
      rw [List.map_map]
      exact List.mem_map_of_mem ht
    obtain ⟨d, hd, hle⟩ := hall t.taskRef hkey
    exact ⟨d, hd, hle, rankOf_eq hn ht hd⟩
  refine ⟨rankOf tasks depths, ?_, ?_⟩
  · intro p hp
    obtain ⟨t, ht, t', ht', hdeclared, rfl⟩ := (hpairs p).mp hp
    obtain ⟨d, hdt, -, hrank⟩ := hdepth t ht
    have hlook := lookup_of_mem hkeys
      (List.mem_map_of_mem (f := fun t => (t.taskRef, declaredRefs t)) ht)
    obtain ⟨d', hdt', hlt⟩ := hgrow.sound _ d hdt t'.taskRef (by rw [hlook]; exact hdeclared)
    show rankOf tasks depths t'.taskId < rankOf tasks depths t.taskId
    rw [hrank, rankOf_eq hn ht' hdt']
    exact hlt
  · intro t ht
    obtain ⟨d, hdt, hle, hrank⟩ := hdepth t ht
    rw [hrank]
    exact ⟨hpositive _ d hdt, hle.trans hdeepest⟩

/-- **An accepted graph is ranked**: the pairs it answers with join tasks of the
list, and each task ranks above those it waits for. -/
theorem validateDag_ranked {tasks : List Task} {pairs : List (TaskId × TaskId)}
    (h : validateDag tasks = .ok pairs) (hn : (tasks.map Task.taskId).Nodup) :
    (∃ rank : TaskId → Nat, ∀ p ∈ pairs, rank p.2 < rank p.1) ∧
      ∀ p ∈ pairs, (∃ t ∈ tasks, t.taskId = p.1) ∧ ∃ t ∈ tasks, t.taskId = p.2 := by
  obtain ⟨rank, hrank, -⟩ := validateDag_layered h hn
  refine ⟨⟨rank, hrank⟩, ?_⟩
  intro p hp
  obtain ⟨t, ht, t', ht', -, rfl⟩ := ((validateDag_pairs h).2.2 p).mp hp
  exact ⟨⟨t, ht, rfl⟩, t', ht', rfl⟩

end DocFlow.Planning
