import Mathlib.Data.Finset.Lattice.Fold
import Mathlib.Data.List.Range
import Mathlib.Logic.Function.Basic

/-!
# A stream and its group of consumers

The consumers of a group read the entries of a stream.  An entry that has been delivered is pending,
with the consumer that has it and the time, until it is acknowledged; a consumer can claim what has
been pending for long, whoever has it.  Entries stand for themselves by their positions.

* `Stream.HandsOver`: what a reading command does, whichever of the three it is.
* `Settled`: delivered and acknowledged.  Only `ack` settles an entry.
* `hands_unsettled`: if an entry is not settled, then claiming hands over an entry, or else reading
  anew does, as soon as all that is pending has been so for long.
-/

namespace DocFlow

universe u v

structure Delivery (γ : Type v) where
  consumer : γ
  time : Nat
deriving DecidableEq, Repr

structure Stream (α : Type u) (γ : Type v) where
  entries : List α
  /-- how many entries have been delivered -/
  delivered : Nat
  pending : Nat → Option (Delivery γ)
  delivered_le : delivered ≤ entries.length
  pending_lt : ∀ i, (pending i).isSome = true → i < delivered

namespace Stream

variable {α : Type u} {γ : Type v}

/-! ## Commands -/

def empty : Stream α γ where
  entries := []
  delivered := 0
  pending _ := none
  delivered_le := le_rfl
  pending_lt i h := by cases h

/-- An entry is added at the end. -/
def add (s : Stream α γ) (a : α) : Stream α γ where
  entries := s.entries ++ [a]
  delivered := s.delivered
  pending := s.pending
  delivered_le := s.delivered_le.trans (by rw [List.length_append]; omega)
  pending_lt := s.pending_lt

/-- The entries at these positions. -/
def batch (s : Stream α γ) (positions : List Nat) : List (Nat × α) :=
  positions.filterMap fun i => s.entries[i]?.map fun a => (i, a)

/-- The positions of the first pending entries. -/
def scanned (s : Stream α γ) (scan : Nat) : List Nat :=
  ((List.range s.delivered).filter fun i => (s.pending i).isSome).take scan

/-- Among so many pending entries, the first of which the deliveries are so. -/
def found (s : Stream α γ) (p : Delivery γ → Bool) (scan count : Nat) : List Nat :=
  ((s.scanned scan).filter fun i => (s.pending i).any p).take count

/-- The positions behind the delivered ones. -/
def following (s : Stream α γ) (count : Nat) : List Nat :=
  List.range' s.delivered (min count (s.entries.length - s.delivered))

theorem mem_found {s : Stream α γ} {p : Delivery γ → Bool} {scan count i : Nat}
    (h : i ∈ s.found p scan count) : i < s.delivered ∧ ∃ d, s.pending i = some d ∧ p d = true := by
  obtain ⟨-, hany⟩ := List.mem_filter.mp (List.mem_of_mem_take h)
  obtain ⟨d, hd, hp⟩ := (Option.any_eq_true _ _).mp hany
  exact ⟨s.pending_lt i (by rw [hd]; rfl), d, hd, hp⟩

theorem mem_following {s : Stream α γ} {count i : Nat} : i ∈ s.following count ↔
    s.delivered ≤ i ∧ i < s.delivered + min count (s.entries.length - s.delivered) := by
  rw [following, List.mem_range'_1]

/-- The deliveries found are those of a consumer, now. -/
def redeliver (s : Stream α γ) (consumer : γ) (now : Nat) (p : Delivery γ → Bool)
    (scan count : Nat) : Stream α γ where
  entries := s.entries
  delivered := s.delivered
  pending i := if i ∈ s.found p scan count then some ⟨consumer, now⟩ else s.pending i
  delivered_le := s.delivered_le
  pending_lt i h := by
    split at h
    · next hi => exact (mem_found hi).1
    · exact s.pending_lt i h

/-- What has been pending for long is claimed.  Ten times as many entries are looked at as can be
claimed. -/
def claim (s : Stream α γ) (consumer : γ) (now minIdle count : Nat) : List (Nat × α) × Stream α γ :=
  let old (d : Delivery γ) : Bool := d.time + minIdle ≤ now
  (s.batch (s.found old (10 * count) count), s.redeliver consumer now old (10 * count) count)

/-- A consumer reads again what it has not acknowledged. -/
def own [DecidableEq γ] (s : Stream α γ) (consumer : γ) (now count : Nat) :
    List (Nat × α) × Stream α γ :=
  let mine (d : Delivery γ) : Bool := d.consumer = consumer
  (s.batch (s.found mine s.delivered count), s.redeliver consumer now mine s.delivered count)

/-- New entries are delivered. -/
def fresh (s : Stream α γ) (consumer : γ) (now count : Nat) : List (Nat × α) × Stream α γ :=
  (s.batch (s.following count),
    { entries := s.entries
      delivered := s.delivered + min count (s.entries.length - s.delivered)
      pending := fun i => if i ∈ s.following count then some ⟨consumer, now⟩ else s.pending i
      delivered_le := by
        have hle := s.delivered_le
        omega
      pending_lt := by
        intro i h
        split at h
        · next hi => exact (mem_following.mp hi).2
        · exact lt_of_lt_of_le (s.pending_lt i h) (Nat.le_add_right ..) })

def ack (s : Stream α γ) (i : Nat) : Stream α γ where
  entries := s.entries
  delivered := s.delivered
  pending := Function.update s.pending i none
  delivered_le := s.delivered_le
  pending_lt j h := by
    rw [Function.update_apply] at h
    split at h
    · cases h
    · exact s.pending_lt j h

/-! ## What is settled -/

/-- Delivered and acknowledged. -/
def Settled (s : Stream α γ) (i : Nat) : Prop := i < s.delivered ∧ s.pending i = none

instance (s : Stream α γ) (i : Nat) : Decidable (s.Settled i) :=
  inferInstanceAs (Decidable (_ ∧ _))

/-- **What a reading command does**: it hands over entries, which are then delivered and not settled;
it settles none, what was settled stays so, and the other deliveries are not touched. -/
structure HandsOver (s s' : Stream α γ) (given : List (Nat × α)) : Prop where
  entries : s'.entries = s.entries
  delivered : s.delivered ≤ s'.delivered
  new : ∀ e ∈ given, s.entries[e.1]? = some e.2 ∧ e.1 < s'.delivered ∧ ¬ s'.Settled e.1
  settled : ∀ i, s'.Settled i ↔ s.Settled i
  others : ∀ i, i ∉ given.map Prod.fst → s'.pending i = s.pending i

variable {s : Stream α γ}

theorem mem_batch {positions : List Nat} {e : Nat × α} :
    e ∈ s.batch positions ↔ e.1 ∈ positions ∧ s.entries[e.1]? = some e.2 := by
  rw [batch, List.mem_filterMap]
  constructor
  · rintro ⟨i, hi, hmap⟩
    obtain ⟨a, ha, rfl⟩ := Option.map_eq_some_iff.mp hmap
    exact ⟨hi, ha⟩
  · rintro ⟨hi, ha⟩
    exact ⟨e.1, hi, by rw [ha]; rfl⟩

theorem map_fst_batch {positions : List Nat} (h : ∀ i ∈ positions, i < s.entries.length) :
    (s.batch positions).map Prod.fst = positions := by
  induction positions with
  | nil => rfl
  | cons i positions ih =>
    rw [List.forall_mem_cons] at h
    have hlt : i < s.entries.length := h.1
    have hcons : s.batch (i :: positions) = (i, s.entries[i]) :: s.batch positions := by
      rw [batch, List.filterMap_cons, List.getElem?_eq_getElem hlt]
      rfl
    rw [hcons, List.map_cons, ih h.2]

theorem found_lt {p : Delivery γ → Bool} {scan count i : Nat} (h : i ∈ s.found p scan count) :
    i < s.entries.length := lt_of_lt_of_le (mem_found h).1 s.delivered_le

theorem following_lt {count i : Nat} (h : i ∈ s.following count) : i < s.entries.length := by
  have hlt := (mem_following.mp h).2
  have hle := s.delivered_le
  omega

theorem settled_redeliver (consumer : γ) (now : Nat) (p : Delivery γ → Bool) (scan count i : Nat) :
    (s.redeliver consumer now p scan count).Settled i ↔ s.Settled i := by
  have hpending : (s.redeliver consumer now p scan count).pending i =
      if i ∈ s.found p scan count then some ⟨consumer, now⟩ else s.pending i := rfl
  refine and_congr_right fun _ => ?_
  rw [hpending]
  split
  · next hi =>
    obtain ⟨-, d, hd, -⟩ := mem_found hi
    rw [hd]
    constructor <;> intro h <;> cases h
  · exact Iff.rfl

theorem handsOver_redeliver (s : Stream α γ) (consumer : γ) (now : Nat) (p : Delivery γ → Bool)
    (scan count : Nat) :
    HandsOver s (s.redeliver consumer now p scan count) (s.batch (s.found p scan count)) where
  entries := rfl
  delivered := le_rfl
  new e he := by
    obtain ⟨hi, ha⟩ := mem_batch.mp he
    obtain ⟨hlt, d, hd, -⟩ := mem_found hi
    refine ⟨ha, hlt, fun hsettled => ?_⟩
    have hold := (settled_redeliver consumer now p scan count e.1).mp hsettled
    rw [hold.2] at hd
    cases hd
  settled := settled_redeliver consumer now p scan count
  others i hi := by
    rw [map_fst_batch fun i hi => found_lt hi] at hi
    exact if_neg hi

theorem handsOver_claim (s : Stream α γ) (consumer : γ) (now minIdle count : Nat) :
    HandsOver s (s.claim consumer now minIdle count).2 (s.claim consumer now minIdle count).1 :=
  handsOver_redeliver s consumer now _ _ count

theorem handsOver_own [DecidableEq γ] (s : Stream α γ) (consumer : γ) (now count : Nat) :
    HandsOver s (s.own consumer now count).2 (s.own consumer now count).1 :=
  handsOver_redeliver s consumer now _ _ count

theorem handsOver_fresh (s : Stream α γ) (consumer : γ) (now count : Nat) :
    HandsOver s (s.fresh consumer now count).2 (s.fresh consumer now count).1 where
  entries := rfl
  delivered := Nat.le_add_right ..
  new e he := by
    obtain ⟨hi, ha⟩ := mem_batch.mp he
    refine ⟨ha, (mem_following.mp hi).2, fun hsettled => ?_⟩
    have hpending := hsettled.2
    simp only [fresh, if_pos hi] at hpending
    cases hpending
  settled i := by
    simp only [Settled, fresh]
    split
    · next hi =>
      obtain ⟨hge, -⟩ := mem_following.mp hi
      constructor
      · intro h
        cases h.2
      · intro h
        exact absurd h.1 (not_lt.mpr hge)
    · next hi =>
      refine and_congr_left fun _ => ⟨fun h => ?_, fun h => lt_of_lt_of_le h (Nat.le_add_right ..)⟩
      rw [mem_following, not_and, not_lt] at hi
      by_contra hge
      exact absurd h (not_lt.mpr (hi (not_lt.mp hge)))
  others i hi := by
    have hpositions : (s.fresh consumer now count).1.map Prod.fst = s.following count :=
      map_fst_batch fun i hi => following_lt hi
    rw [hpositions] at hi
    exact if_neg hi

theorem settled_ack {i : Nat} (hi : i < s.delivered) (j : Nat) :
    (s.ack i).Settled j ↔ j = i ∨ s.Settled j := by
  have hpending : (s.ack i).pending j = if j = i then none else s.pending j :=
    Function.update_apply ..
  rw [Settled, Settled, hpending]
  by_cases hji : j = i
  · rw [if_pos hji, hji]
    exact ⟨fun _ => .inl rfl, fun _ => ⟨hi, rfl⟩⟩
  · rw [if_neg hji]
    exact ⟨.inr, fun h => h.resolve_left hji⟩

/-! ## Growth -/

/-- The entries stay where they are, and what was delivered stays so. -/
structure Grows (s s' : Stream α γ) : Prop where
  entries : ∀ (i : Nat) (a : α), s.entries[i]? = some a → s'.entries[i]? = some a
  delivered : s.delivered ≤ s'.delivered

theorem grows_refl (s : Stream α γ) : s.Grows s := ⟨fun _ _ h => h, le_rfl⟩

theorem grows_add (s : Stream α γ) (a : α) : s.Grows (s.add a) := by
  refine ⟨fun i b h => ?_, le_rfl⟩
  show (s.entries ++ [a])[i]? = some b
  rw [List.getElem?_append_left (List.getElem?_eq_some_iff.mp h).1, h]

theorem grows_ack (s : Stream α γ) (i : Nat) : s.Grows (s.ack i) := ⟨fun _ _ h => h, le_rfl⟩

theorem HandsOver.grows {s s' : Stream α γ} {given : List (Nat × α)} (h : HandsOver s s' given) :
    s.Grows s' := by
  refine ⟨fun i a hi => ?_, h.delivered⟩
  rw [h.entries]
  exact hi

/-! ## Nothing is out of reach -/

theorem mem_scanned {scan i : Nat} (h : i ∈ s.scanned scan) : ∃ d, s.pending i = some d :=
  Option.isSome_iff_exists.mp (List.mem_filter.mp (List.mem_of_mem_take h)).2

/-- Where all that is pending is so, the first of it is found. -/
theorem exists_found {p : Delivery γ → Bool} {scan count i : Nat} {d : Delivery γ} (hscan : 1 ≤ scan)
    (hcount : 1 ≤ count) (hi : s.pending i = some d)
    (hall : ∀ j d, s.pending j = some d → p d = true) : s.found p scan count ≠ [] := by
  have hsome : (s.pending i).isSome = true := by rw [hi]; rfl
  have hmem : i ∈ (List.range s.delivered).filter fun i => (s.pending i).isSome :=
    List.mem_filter.mpr ⟨List.mem_range.mpr (s.pending_lt i hsome), hsome⟩
  have hfilter : (s.scanned scan).filter (fun i => (s.pending i).any p) = s.scanned scan := by
    refine List.filter_eq_self.mpr fun j hj => ?_
    obtain ⟨d, hd⟩ := mem_scanned hj
    rw [hd, Option.any_some, hall j d hd]
  have hlength := List.length_pos_of_mem hmem
  rw [found, hfilter, scanned, ← List.length_pos_iff, List.length_take, List.length_take]
  omega

theorem batch_ne_nil {positions : List Nat} (h : ∀ i ∈ positions, i < s.entries.length)
    (hne : positions ≠ []) : s.batch positions ≠ [] := by
  obtain ⟨i, hi⟩ := List.exists_mem_of_ne_nil _ hne
  have hlt := h i hi
  have hmem : (i, s.entries[i]) ∈ s.batch positions :=
    mem_batch.mpr ⟨hi, List.getElem?_eq_getElem hlt⟩
  exact List.ne_nil_of_mem hmem

/-- From some time on, all that is pending has been so for long. -/
theorem exists_late (s : Stream α γ) (minIdle : Nat) :
    ∃ now, ∀ i d, s.pending i = some d → d.time + minIdle ≤ now := by
  refine ⟨(Finset.range s.delivered).sup (fun i => ((s.pending i).map (·.time)).getD 0) + minIdle,
    fun i d hd => ?_⟩
  have hi : i ∈ Finset.range s.delivered :=
    Finset.mem_range.mpr (s.pending_lt i (by rw [hd]; rfl))
  have hle := Finset.le_sup (f := fun i => ((s.pending i).map (·.time)).getD 0) hi
  simp only [hd, Option.map_some, Option.getD_some] at hle
  omega

/-- **An entry that is not settled is not out of reach.** -/
theorem hands_unsettled {consumer : γ} {now minIdle count i : Nat} (hcount : 1 ≤ count)
    (hlate : ∀ i d, s.pending i = some d → d.time + minIdle ≤ now) (hi : i < s.entries.length)
    (hnot : ¬ s.Settled i) :
    (s.claim consumer now minIdle count).1 ≠ [] ∨
      ((∀ j, s.pending j = none) ∧ (s.fresh consumer now count).1 ≠ []) := by
  by_cases hpending : ∃ j d, s.pending j = some d
  · obtain ⟨j, d, hd⟩ := hpending
    refine .inl (batch_ne_nil (fun j hj => found_lt hj) ?_)
    exact exists_found (by omega) hcount hd fun j d hd => decide_eq_true (hlate j d hd)
  · have hnone : ∀ j, s.pending j = none := by
      intro j
      by_contra hsome
      obtain ⟨d, hd⟩ := Option.ne_none_iff_exists'.mp hsome
      exact hpending ⟨j, d, hd⟩
    have hbehind : s.delivered ≤ i := by
      by_contra hlt
      exact hnot ⟨not_le.mp hlt, hnone i⟩
    refine .inr ⟨hnone, batch_ne_nil (fun j hj => following_lt hj) ?_⟩
    refine List.ne_nil_of_mem (a := s.delivered) (mem_following.mpr ⟨le_rfl, ?_⟩)
    omega

/-- Where nothing is pending, nothing is found, and nothing is done. -/
theorem redeliver_of_none (h : ∀ j, s.pending j = none) (consumer : γ) (now : Nat)
    (p : Delivery γ → Bool) (scan count : Nat) :
    s.found p scan count = [] ∧ s.redeliver consumer now p scan count = s := by
  have hfound : s.found p scan count = [] := by
    refine List.eq_nil_iff_forall_not_mem.mpr fun j hj => ?_
    obtain ⟨-, d, hd, -⟩ := mem_found hj
    rw [h j] at hd
    cases hd
  have hpending : (s.redeliver consumer now p scan count).pending = s.pending := by
    funext i
    show (if i ∈ s.found p scan count then _ else s.pending i) = s.pending i
    rw [hfound, if_neg List.not_mem_nil]
  refine ⟨hfound, ?_⟩
  cases s
  simp only [redeliver] at hpending ⊢
  simp only [hpending]

theorem claim_of_none (h : ∀ j, s.pending j = none) (consumer : γ) (now minIdle count : Nat) :
    s.claim consumer now minIdle count = ([], s) := by
  obtain ⟨hfound, hsame⟩ := redeliver_of_none h consumer now (fun d => decide (d.time + minIdle ≤ now))
    (10 * count) count
  rw [claim, hfound, hsame]
  rfl

theorem own_of_none [DecidableEq γ] (h : ∀ j, s.pending j = none) (consumer : γ) (now count : Nat) :
    s.own consumer now count = ([], s) := by
  obtain ⟨hfound, hsame⟩ := redeliver_of_none h consumer now (fun d => decide (d.consumer = consumer))
    s.delivered count
  rw [own, hfound, hsame]
  rfl

/-! ## Working off -/

/-- These are acknowledged. -/
def ackAll (s : Stream α γ) (positions : List Nat) : Stream α γ := positions.foldl ack s

theorem ackAll_eq (positions : List Nat) (s : Stream α γ) :
    (s.ackAll positions).entries = s.entries ∧ (s.ackAll positions).delivered = s.delivered ∧
      ∀ i, (s.ackAll positions).pending i = if i ∈ positions then none else s.pending i := by
  induction positions generalizing s with
  | nil => exact ⟨rfl, rfl, fun i => (if_neg List.not_mem_nil).symm⟩
  | cons j positions ih =>
    obtain ⟨hentries, hdelivered, hpending⟩ := ih (s.ack j)
    refine ⟨hentries, hdelivered, fun i => (hpending i).trans ?_⟩
    have hack : (s.ack j).pending i = if i = j then none else s.pending i :=
      Function.update_apply ..
    rw [hack]
    by_cases hij : i = j
    · have hmem : i ∈ j :: positions := by rw [hij]; exact List.mem_cons_self
      rw [if_pos hij, if_pos hmem, ite_self]
    · rw [if_neg hij]
      simp only [List.mem_cons, hij, false_or]

/-- **What is handed over and acknowledged is settled**, and nothing else changes. -/
theorem HandsOver.ackAll {s s' : Stream α γ} {given : List (Nat × α)} (h : HandsOver s s' given) :
    (s'.ackAll (given.map Prod.fst)).entries = s.entries ∧
      (∀ i, (s'.ackAll (given.map Prod.fst)).Settled i ↔
        i ∈ given.map Prod.fst ∨ s.Settled i) ∧
      ∀ i d, (s'.ackAll (given.map Prod.fst)).pending i = some d → s.pending i = some d := by
  obtain ⟨hentries, hdelivered, hpending⟩ := ackAll_eq (given.map Prod.fst) s'
  refine ⟨hentries.trans h.entries, fun i => ?_, fun i d hd => ?_⟩
  · rw [Settled, hdelivered, hpending i]
    by_cases hi : i ∈ given.map Prod.fst
    · obtain ⟨e, he, rfl⟩ := List.mem_map.mp hi
      rw [if_pos hi]
      exact ⟨fun _ => .inl hi, fun _ => ⟨(h.new e he).2.1, rfl⟩⟩
    · rw [if_neg hi, ← h.settled i]
      exact ⟨.inr, fun hor => hor.resolve_left hi⟩
  · rw [hpending i] at hd
    split at hd
    · cases hd
    · next hi =>
      rw [← h.others i hi]
      exact hd

/-! ## How much is not settled -/

/-- How many entries are not settled. -/
def unsettled (s : Stream α γ) : Nat :=
  ((Finset.range s.entries.length).filter fun i => ¬ s.Settled i).card

theorem unsettled_lt {s' : Stream α γ} (hentries : s'.entries = s.entries)
    (hsettled : ∀ i, s.Settled i → s'.Settled i) {i : Nat} (hi : i < s.entries.length)
    (hnot : ¬ s.Settled i) (hnow : s'.Settled i) : s'.unsettled < s.unsettled := by
  refine Finset.card_lt_card (Finset.ssubset_iff_of_subset ?_ |>.mpr ⟨i, ?_, ?_⟩)
  · intro j hj
    rw [Finset.mem_filter, Finset.mem_range] at hj ⊢
    rw [hentries] at hj
    exact ⟨hj.1, fun hold => hj.2 (hsettled j hold)⟩
  · exact Finset.mem_filter.mpr ⟨Finset.mem_range.mpr hi, hnot⟩
  · intro hmem
    exact (Finset.mem_filter.mp hmem).2 hnow

end Stream

end DocFlow
