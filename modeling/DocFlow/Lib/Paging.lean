import DocFlow.Lib.Listing

/-!
# Reading a listing page by page

A listing is answered in pages, each with the cursor of the next one, if there is a next one
(`follow`).  The store behind it may change between the pages.

Where a page is the next `limit` elements behind the key of the last one (`page`):

* `follow_const`: the pages of a store that does not change are its elements in order;
* `exact_of_follow`: when the store only grows, the elements of its first state are all there, in
  order and once, whatever is added between.

`follow_map`: cursors that are sent as texts give the same listing.
-/

namespace DocFlow.Paging

/-! ## Following cursors -/

section

variable {σ κ ρ σ' κ' ρ' : Type}

/-- The pages from a cursor on, one for each state of the store, up to the page without a cursor; a
request may fail, and the states may be too few. -/
def follow (answer : σ → Option κ → Option (List ρ × Option κ)) :
    Option κ → List σ → Option (List ρ)
  | _, [] => none
  | after, s :: ss =>
    match answer s after with
    | none => none
    | some (out, none) => some out
    | some (out, some k) => (follow answer (some k) ss).map (out ++ ·)

/-- **Another form of the cursors, the elements and the states changes nothing.** -/
theorem follow_map (answer : σ → Option κ → Option (List ρ × Option κ))
    {answer' : σ' → Option κ' → Option (List ρ' × Option κ')} (state : σ' → σ) (cursor : κ → κ')
    (element : ρ → ρ') {ss : List σ'}
    (h : ∀ s ∈ ss, ∀ after, answer' s (after.map cursor) =
      (answer (state s) after).map fun p => (p.1.map element, p.2.map cursor))
    (after : Option κ) :
    follow answer' (after.map cursor) ss =
      (follow answer after (ss.map state)).map (List.map element) := by
  induction ss generalizing after with
  | nil => rfl
  | cons s ss ih =>
    obtain ⟨hs, hss⟩ := List.forall_mem_cons.mp h
    simp only [follow, List.map_cons, hs after]
    cases answer (state s) after with
    | none => rfl
    | some p =>
      obtain ⟨out, next⟩ := p
      cases next with
      | none => rfl
      | some k =>
        have htail := ih hss (some k)
        simp only [Option.map_some] at htail ⊢
        rw [htail, Option.map_map, Option.map_map]
        refine congrArg (fun g => Option.map g _) (funext fun rest => ?_)
        simp

end

/-! ## Lists in strict order -/

variable {ρ κ : Type} [LinearOrder κ] {f : ρ → κ}

theorem sublist_of_subset {l l' : List ρ} (h : l.Pairwise fun a b => f a < f b)
    (h' : l'.Pairwise fun a b => f a < f b) (hsub : l ⊆ l') : l.Sublist l' := by
  induction l' generalizing l with
  | nil => rw [List.subset_nil.mp hsub]
  | cons b l' ih =>
    cases l with
    | nil => exact List.nil_sublist _
    | cons a l =>
      obtain ⟨ha, hl⟩ := List.pairwise_cons.mp h
      obtain ⟨hb, hl'⟩ := List.pairwise_cons.mp h'
      obtain rfl | hmem := List.mem_cons.mp (hsub List.mem_cons_self)
      · refine (ih hl hl' fun r hr => ?_).cons_cons a
        obtain rfl | hr' := List.mem_cons.mp (hsub (List.mem_cons_of_mem _ hr))
        · exact absurd (ha r hr) (lt_irrefl _)
        · exact hr'
      · -- the head is behind `b`, and with it the rest
        refine (ih h hl' fun r hr => ?_).cons b
        obtain rfl | hr' := List.mem_cons.mp (hsub hr)
        · obtain rfl | hr := List.mem_cons.mp hr
          · exact hmem
          · exact absurd ((ha r hr).trans (hb a hmem)) (lt_irrefl _)
        · exact hr'

theorem sortedBy_strict {l : List ρ} (h : (l.map f).Nodup) :
    (sortedBy f l).Pairwise fun a b => f a < f b := by
  have hnodup : ((sortedBy f l).map f).Nodup := ((sortedBy_perm f l).map f).nodup_iff.mpr h
  rw [List.Nodup, List.pairwise_map] at hnodup
  exact (sortedBy_pairwise f l).imp₂ (fun a b hle hne => lt_of_le_of_ne hle hne) hnodup

theorem le_last {l : List ρ} (h : l.Pairwise fun a b => f a < f b) {r : ρ}
    (hlast : l.getLast? = some r) : ∀ a ∈ l, f a ≤ f r := by
  obtain ⟨init, rfl⟩ := List.getLast?_eq_some_iff.mp hlast
  intro a ha
  obtain ha | ha := List.mem_append.mp ha
  · exact ((List.pairwise_append.mp h).2.2 a ha r List.mem_cons_self).le
  · rw [List.mem_singleton.mp ha]

/-! ## Pages -/

/-- The elements behind a key, in order. -/
def behind (f : ρ → κ) (after : Option κ) (l : List ρ) : List ρ :=
  match after with
  | none => sortedBy f l
  | some k => (sortedBy f l).filter fun r => k < f r

/-- The next `limit` elements, and the key of the last one when there are more. -/
def page (f : ρ → κ) (limit : Nat) (l : List ρ) (after : Option κ) : List ρ × Option κ :=
  let rest := behind f after l
  (rest.take limit, if limit < rest.length then (rest.take limit).getLast?.map f else none)

theorem mem_behind {after : Option κ} {l : List ρ} {r : ρ} :
    r ∈ behind f after l ↔ r ∈ l ∧ ∀ k, after = some k → k < f r := by
  cases after with
  | none => simp [behind, mem_sortedBy]
  | some k => simp [behind, mem_sortedBy]

theorem behind_strict {l : List ρ} (h : (l.map f).Nodup) (after : Option κ) :
    (behind f after l).Pairwise fun a b => f a < f b := by
  cases after with
  | none => exact sortedBy_strict h
  | some k => exact (sortedBy_strict h).filter _

theorem behind_sublist {l l' : List ρ} (h : (l.map f).Nodup) (h' : (l'.map f).Nodup) (hsub : l ⊆ l')
    (after : Option κ) : (behind f after l).Sublist (behind f after l') := by
  refine sublist_of_subset (behind_strict h after) (behind_strict h' after) fun r hr => ?_
  obtain ⟨hmem, hafter⟩ := mem_behind.mp hr
  exact mem_behind.mpr ⟨hsub hmem, hafter⟩

/-- **What is behind the last element of a page are the elements that are not on it.** -/
theorem behind_last {l : List ρ} (h : (l.map f).Nodup) {after : Option κ} {limit : Nat} {r : ρ}
    (hlast : ((behind f after l).take limit).getLast? = some r) :
    behind f (some (f r)) l = (behind f after l).drop limit := by
  have hstrict := behind_strict h after
  have hsplit := List.take_append_drop limit (behind f after l)
  have hmem := List.mem_of_getLast? hlast
  obtain ⟨hmeml, hafter⟩ := mem_behind.mp (List.mem_of_mem_take hmem)
  -- the elements behind the page are those after its last one
  have hdrop : ∀ a ∈ (behind f after l).drop limit, f r < f a := by
    rw [← hsplit, List.pairwise_append] at hstrict
    exact fun a ha => hstrict.2.2 r hmem a ha
  have htake : ∀ a ∈ (behind f after l).take limit, ¬ f r < f a := fun a ha =>
    (le_last (hstrict.sublist (List.take_sublist limit _)) hlast a ha).not_gt
  have hsub : ∀ l₁ l₂ : List ρ, (l₁.Pairwise fun a b => f a < f b) →
      (l₂.Pairwise fun a b => f a < f b) → l₁ ⊆ l₂ → l₂ ⊆ l₁ → l₁ = l₂ := fun l₁ l₂ h₁ h₂ h₁₂ h₂₁ =>
    (sublist_of_subset h₁ h₂ h₁₂).antisymm (sublist_of_subset h₂ h₁ h₂₁)
  refine hsub _ _ (behind_strict h _) (hstrict.sublist (List.drop_sublist _ _)) ?_ ?_
  · intro a ha
    obtain ⟨hal, hra⟩ := mem_behind.mp ha
    have hin : a ∈ behind f after l :=
      mem_behind.mpr ⟨hal, fun k hk => (hafter k hk).trans (hra _ rfl)⟩
    rw [← hsplit] at hin
    exact (List.mem_append.mp hin).resolve_left fun hta => htake a hta (hra _ rfl)
  · intro a ha
    refine mem_behind.mpr ⟨(mem_behind.mp (List.mem_of_mem_drop ha)).1, fun k hk => ?_⟩
    rw [← Option.some.inj hk]
    exact hdrop a ha

/-- A page with a cursor ends at the element of the cursor. -/
theorem page_eq_some {limit : Nat} {l out : List ρ} {after : Option κ} {k : κ}
    (h : page f limit l after = (out, some k)) :
    limit < (behind f after l).length ∧ out = (behind f after l).take limit ∧
      ∃ r, out.getLast? = some r ∧ f r = k := by
  unfold page at h
  simp only at h
  split at h
  · next hlt =>
    obtain ⟨rfl, hk⟩ := Prod.mk.inj h
    obtain ⟨r, hr, hrk⟩ := Option.map_eq_some_iff.mp hk
    exact ⟨hlt, rfl, r, hr, hrk⟩
  · cases h

/-- A page without a cursor is the rest. -/
theorem page_eq_none {limit : Nat} (hlimit : 0 < limit) {l out : List ρ} {after : Option κ}
    (h : page f limit l after = (out, none)) : out = behind f after l := by
  unfold page at h
  simp only at h
  split at h
  · next hlt =>
    obtain ⟨rfl, hk⟩ := Prod.mk.inj h
    rw [Option.map_eq_none_iff, List.getLast?_eq_none_iff, List.take_eq_nil_iff] at hk
    obtain hzero | hnil := hk
    · omega
    · rw [hnil] at hlt
      simp at hlt
  · next hle =>
    obtain ⟨rfl, -⟩ := Prod.mk.inj h
    exact List.take_of_length_le (by omega)

/-- **The pages of a store that does not change are its elements in order**, when there are enough
requests. -/
theorem follow_const {limit : Nat} (hlimit : 0 < limit) {l : List ρ} (h : (l.map f).Nodup)
    (after : Option κ) : ∃ m, ∀ n, m ≤ n →
      follow (fun l after => some (page f limit l after)) after (List.replicate n l) =
        some (behind f after l) := by
  induction hlength : (behind f after l).length using Nat.strong_induction_on generalizing after with
  | _ length ih =>
    subst hlength
    cases hpage : page f limit l after with
    | mk out next =>
      cases next with
      | none =>
        refine ⟨1, fun n hn => ?_⟩
        obtain ⟨n, rfl⟩ : ∃ k, n = k + 1 := ⟨n - 1, by omega⟩
        rw [List.replicate_succ]
        simp only [follow, hpage, page_eq_none hlimit hpage]
      | some k =>
        obtain ⟨hlt, hout, r, hr, rfl⟩ := page_eq_some hpage
        have hrest := behind_last h (hout ▸ hr)
        obtain ⟨m, hm⟩ := ih (behind f (some (f r)) l).length (by
          rw [hrest, List.length_drop]
          omega) (some (f r)) rfl
        refine ⟨m + 1, fun n hn => ?_⟩
        obtain ⟨n, rfl⟩ : ∃ k, n = k + 1 := ⟨n - 1, by omega⟩
        rw [List.replicate_succ]
        simp only [follow, hpage, hm n (by omega), Option.map_some, hrest, hout,
          List.take_append_drop]

/-- When the store stops changing, the listing ends. -/
theorem exists_follow {limit : Nat} (hlimit : 0 < limit) (ls : List (List ρ)) {l : List ρ}
    (h : (l.map f).Nodup) (after : Option κ) : ∃ m, ∀ n, m ≤ n → ∃ out,
      follow (fun l after => some (page f limit l after)) after (ls ++ List.replicate n l) =
        some out := by
  induction ls generalizing after with
  | nil =>
    obtain ⟨m, hm⟩ := follow_const hlimit h after
    exact ⟨m, fun n hn => ⟨_, hm n hn⟩⟩
  | cons l' ls ih =>
    cases hpage : page f limit l' after with
    | mk out next =>
      cases next with
      | none =>
        refine ⟨0, fun n _ => ⟨out, ?_⟩⟩
        simp only [List.cons_append, follow, hpage]
      | some k =>
        obtain ⟨m, hm⟩ := ih (some k)
        refine ⟨m, fun n hn => ?_⟩
        obtain ⟨rest, hrest⟩ := hm n hn
        refine ⟨out ++ rest, ?_⟩
        simp only [List.cons_append, follow, hpage, hrest, Option.map_some]

/-- **When the store only grows, nothing of its first state is skipped, and nothing is repeated.** -/
theorem exact_of_follow {limit : Nat} (hlimit : 0 < limit) (l : List ρ) (ls : List (List ρ))
    (hgrow : (l :: ls).IsChain fun a b => a ⊆ b) (h : ∀ l' ∈ l :: ls, (l'.map f).Nodup)
    {after : Option κ} {out : List ρ}
    (hfollow : follow (fun l after => some (page f limit l after)) after (l :: ls) = some out) :
    (out.Pairwise fun a b => f a < f b) ∧ (behind f after l).Sublist out ∧
      ∀ r ∈ out, (∃ l' ∈ l :: ls, r ∈ l') ∧ ∀ k, after = some k → k < f r := by
  induction ls generalizing l after out with
  | nil =>
    have hl := h l List.mem_cons_self
    rw [follow] at hfollow
    split at hfollow
    · cases hfollow
    · next out' hpage =>
      obtain rfl := Option.some.inj hfollow
      have hout := page_eq_none hlimit (Option.some.inj hpage)
      subst hout
      refine ⟨behind_strict hl after, List.Sublist.refl _, fun r hr => ?_⟩
      exact ⟨⟨l, List.mem_cons_self, (mem_behind.mp hr).1⟩, (mem_behind.mp hr).2⟩
    · cases hfollow
  | cons l' ls ih =>
    have hl := h l List.mem_cons_self
    rw [follow] at hfollow
    split at hfollow
    · cases hfollow
    · next out' hpage =>
      obtain rfl := Option.some.inj hfollow
      have hout := page_eq_none hlimit (Option.some.inj hpage)
      subst hout
      refine ⟨behind_strict hl after, List.Sublist.refl _, fun r hr => ?_⟩
      exact ⟨⟨l, List.mem_cons_self, (mem_behind.mp hr).1⟩, (mem_behind.mp hr).2⟩
    · next first k hpage =>
      obtain ⟨rest, hrest, rfl⟩ := Option.map_eq_some_iff.mp hfollow
      obtain ⟨-, rfl, r, hr, rfl⟩ := page_eq_some (Option.some.inj hpage)
      obtain ⟨hsub, hchain⟩ := List.isChain_cons_cons.mp hgrow
      obtain ⟨hpair, hincl, hmem⟩ := ih l' hchain (fun s hs => h s (List.mem_cons_of_mem _ hs)) hrest
      have hstrict := behind_strict hl after
      have hdrop : ((behind f after l).drop limit).Sublist rest := by
        rw [← behind_last hl hr]
        exact (behind_sublist hl (h l' (by simp)) hsub _).trans hincl
      have hle := le_last (hstrict.sublist (List.take_sublist limit _)) hr
      refine ⟨?_, ?_, ?_⟩
      · rw [List.pairwise_append]
        refine ⟨hstrict.sublist (List.take_sublist _ _), hpair, fun a ha b hb => ?_⟩
        exact (hle a ha).trans_lt ((hmem b hb).2 _ rfl)
      · conv_lhs => rw [← List.take_append_drop limit (behind f after l)]
        exact (List.Sublist.refl _).append hdrop
      · intro a ha
        obtain ha | ha := List.mem_append.mp ha
        · obtain ⟨hmeml, hafter⟩ := mem_behind.mp (List.mem_of_mem_take ha)
          exact ⟨⟨l, List.mem_cons_self, hmeml⟩, hafter⟩
        · obtain ⟨⟨s, hs, has⟩, hra⟩ := hmem a ha
          refine ⟨⟨s, List.mem_cons_of_mem _ hs, has⟩, fun k hk => ?_⟩
          exact ((mem_behind.mp (List.mem_of_mem_take (List.mem_of_getLast? hr))).2 k hk).trans
            (hra _ rfl)

end DocFlow.Paging
