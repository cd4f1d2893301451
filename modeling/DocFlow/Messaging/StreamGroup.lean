import DocFlow.Lib.ConsumerGroup
import DocFlow.Messaging.StreamWorker

/-!
# The group of one consumer

The worker is modelled twice.  `StreamWorker` has one consumer and keeps the list of its pending
entries; `Transport` has a `Stream`, which keeps who has the entry at each position and since when.
`ofStream` is the list that a `Stream` keeps, and on it the four commands do what they do on the `Stream`
and answer the same messages.  Only the reading of what is pending asks whose the entries are.
-/

namespace DocFlow.Messaging

section OfStream

variable {γ : Type} {s : Stream (List (String × String)) γ}

def messageAt (e : Nat × List (String × String)) : StreamMessage := ⟨e.1, e.2⟩

/-- The pending entry at a position. -/
def pendingAt (s : Stream (List (String × String)) γ) (i : Nat) : Option PendingEntry :=
  (s.pending i).bind fun d => s.entries[i]?.map fun fields => ⟨⟨i, fields⟩, d.time⟩

/-- What a stream keeps of its group, whoever has the entries. -/
def ConsumerGroup.ofStream (s : Stream (List (String × String)) γ) : ConsumerGroup where
  pending := (List.range s.delivered).filterMap (pendingAt s)
  undelivered := (s.batch (List.range' s.delivered (s.entries.length - s.delivered))).map messageAt

theorem pendingAt_eq_some {i : Nat} {e : PendingEntry} : pendingAt s i = some e ↔
    ∃ d, s.pending i = some d ∧ s.entries[i]? = some e.message.fields ∧ e.message.messageId = i ∧
      e.deliveredAt = d.time := by
  simp only [pendingAt, Option.bind_eq_some_iff, Option.map_eq_some_iff]
  constructor
  · rintro ⟨d, hd, fields, hfields, rfl⟩
    exact ⟨d, hd, hfields, rfl, rfl⟩
  · rintro ⟨d, hd, hfields, hid, htime⟩
    refine ⟨d, hd, e.message.fields, hfields, ?_⟩
    rw [← hid, ← htime]

theorem isSome_pendingAt {i : Nat} (h : (s.pending i).isSome = true) :
    (pendingAt s i).isSome = true := by
  obtain ⟨d, hd⟩ := Option.isSome_iff_exists.mp h
  have hlt : i < s.entries.length := lt_of_lt_of_le (s.pending_lt i h) s.delivered_le
  rw [pendingAt, hd, Option.bind_some, List.getElem?_eq_getElem hlt]
  rfl

/-- Where a function is defined on every element, a part of the image is the image of a part. -/
theorem take_filterMap {α β : Type} {f : α → Option β} {l : List α}
    (h : ∀ a ∈ l, (f a).isSome = true) (n : Nat) :
    (l.filterMap f).take n = (l.take n).filterMap f := by
  induction l generalizing n with
  | nil => simp
  | cons a l ih =>
    obtain ⟨b, hb⟩ := Option.isSome_iff_exists.mp (h a List.mem_cons_self)
    cases n with
    | zero => rfl
    | succ n =>
      rw [List.filterMap_cons_some hb, List.take_succ_cons, List.take_succ_cons,
        List.filterMap_cons_some hb, ih fun x hx => h x (List.mem_cons_of_mem _ hx)]

theorem drop_filterMap {α β : Type} {f : α → Option β} {l : List α}
    (h : ∀ a ∈ l, (f a).isSome = true) (n : Nat) :
    (l.filterMap f).drop n = (l.drop n).filterMap f := by
  induction l generalizing n with
  | nil => simp
  | cons a l ih =>
    obtain ⟨b, hb⟩ := Option.isSome_iff_exists.mp (h a List.mem_cons_self)
    cases n with
    | zero => rfl
    | succ n =>
      rw [List.filterMap_cons_some hb, List.drop_succ_cons, List.drop_succ_cons,
        ih fun x hx => h x (List.mem_cons_of_mem _ hx)]

/-! ## What the commands find -/

theorem take_pending (n : Nat) :
    (ConsumerGroup.ofStream s).pending.take n = (s.scanned n).filterMap (pendingAt s) := by
  have hpending : (ConsumerGroup.ofStream s).pending =
      ((List.range s.delivered).filter fun i => (s.pending i).isSome).filterMap (pendingAt s) := by
    rw [List.filterMap_filter]
    refine List.filterMap_congr fun i _ => ?_
    cases hi : s.pending i with
    | none => simp [pendingAt, hi]
    | some d => rfl
  rw [hpending, Stream.scanned, take_filterMap]
  exact fun i hi => isSome_pendingAt (List.mem_filter.mp hi).2

/-- The entries that a command finds. -/
theorem take_filter_pending {p : Delivery γ → Bool} {q : PendingEntry → Bool}
    (hpq : ∀ i e d, pendingAt s i = some e → s.pending i = some d → q e = p d) (scan count : Nat) :
    (((ConsumerGroup.ofStream s).pending.take scan).filter q).take count =
      (s.found p scan count).filterMap (pendingAt s) := by
  have hsome : ∀ i ∈ s.scanned scan, (s.pending i).isSome = true := fun i hi =>
    (List.mem_filter.mp (List.mem_of_mem_take hi)).2
  have hfilter : ((s.scanned scan).filterMap (pendingAt s)).filter q =
      ((s.scanned scan).filter fun i => (s.pending i).any p).filterMap (pendingAt s) := by
    rw [List.filter_filterMap, List.filterMap_filter]
    refine List.filterMap_congr fun i hi => ?_
    obtain ⟨e, he⟩ := Option.isSome_iff_exists.mp (isSome_pendingAt (hsome i hi))
    obtain ⟨d, hd, -⟩ := pendingAt_eq_some.mp he
    rw [he, hd, Option.filter_some, hpq i e d he hd]
    rfl
  rw [take_pending, hfilter, Stream.found, take_filterMap]
  exact fun i hi => isSome_pendingAt (hsome i (List.mem_filter.mp hi).1)

theorem messages_found (p : Delivery γ → Bool) (scan count : Nat) :
    ((s.found p scan count).filterMap (pendingAt s)).map PendingEntry.message =
      (s.batch (s.found p scan count)).map messageAt := by
  rw [Stream.batch, List.map_filterMap, List.map_filterMap]
  refine List.filterMap_congr fun i hi => ?_
  obtain ⟨-, d, hd, -⟩ := Stream.mem_found hi
  rw [pendingAt, hd, Option.bind_some]
  cases s.entries[i]? <;> rfl

theorem mem_messages {positions : List Nat} {m : StreamMessage} :
    m ∈ (s.batch positions).map messageAt ↔
      m.messageId ∈ positions ∧ s.entries[m.messageId]? = some m.fields := by
  rw [List.mem_map]
  constructor
  · rintro ⟨e, he, rfl⟩
    exact Stream.mem_batch.mp he
  · intro h
    exact ⟨(m.messageId, m.fields), Stream.mem_batch.mpr h, rfl⟩

/-! ## The commands -/

theorem pendingAt_redeliver (consumer : γ) (now : Nat) (p : Delivery γ → Bool) (scan count i : Nat) :
    pendingAt (s.redeliver consumer now p scan count) i = (pendingAt s i).map fun e =>
      if i ∈ s.found p scan count then { e with deliveredAt := now } else e := by
  have hpending : (s.redeliver consumer now p scan count).pending i =
      if i ∈ s.found p scan count then some ⟨consumer, now⟩ else s.pending i := rfl
  by_cases hfound : i ∈ s.found p scan count
  · obtain ⟨-, d, hd, -⟩ := Stream.mem_found hfound
    simp only [pendingAt, hpending, hd, if_pos hfound, Option.bind_some, Option.map_map]
    rfl
  · simp only [pendingAt, hpending, if_neg hfound]
    rw [Option.map_id']
    rfl

theorem redeliver_ofStream (consumer : γ) (now : Nat) (p : Delivery γ → Bool) (scan count : Nat) :
    (ConsumerGroup.ofStream s).redeliver now ((s.batch (s.found p scan count)).map messageAt) =
      ConsumerGroup.ofStream (s.redeliver consumer now p scan count) := by
  have hpending : ((ConsumerGroup.ofStream s).redeliver now
      ((s.batch (s.found p scan count)).map messageAt)).pending =
      (ConsumerGroup.ofStream (s.redeliver consumer now p scan count)).pending := by
    simp only [ConsumerGroup.redeliver, ConsumerGroup.ofStream, List.map_filterMap]
    refine List.filterMap_congr fun i _ => ?_
    rw [pendingAt_redeliver]
    refine Option.map_congr fun e he => ?_
    obtain ⟨-, -, hfields, hid, -⟩ := pendingAt_eq_some.mp he
    refine if_congr ?_ rfl rfl
    rw [mem_messages, hid]
    exact and_iff_left hfields
  show ConsumerGroup.mk _ _ = ConsumerGroup.mk _ _
  exact congrArg (ConsumerGroup.mk · _) hpending

/-- `XAUTOCLAIM`, whoever claims. -/
theorem xautoclaim_ofStream (consumer : γ) (now minIdle count : Nat) :
    (ConsumerGroup.ofStream s).xautoclaim now minIdle count =
      ((s.claim consumer now minIdle count).1.map messageAt,
        ConsumerGroup.ofStream (s.claim consumer now minIdle count).2) := by
  have hfound := take_filter_pending (s := s) (p := fun d => d.time + minIdle ≤ now)
    (q := fun e => (minIdle : Time) ≤ now - e.deliveredAt) ?_ (10 * count) count
  · rw [ConsumerGroup.xautoclaim, hfound, messages_found, redeliver_ofStream consumer]
    rfl
  · intro i e d he hd
    obtain ⟨d', hd', -, -, htime⟩ := pendingAt_eq_some.mp he
    cases hd.symm.trans hd'
    rw [htime]
    refine decide_eq_decide.mpr ?_
    show (minIdle : Int) ≤ (now : Int) - (d.time : Int) ↔ d.time + minIdle ≤ now
    omega

/-- `XREADGROUP` with the id `0`, by the only consumer. -/
theorem xreadgroupHistory_ofStream [DecidableEq γ] {consumer : γ}
    (hmine : ∀ i d, s.pending i = some d → d.consumer = consumer) (now count : Nat) :
    (ConsumerGroup.ofStream s).xreadgroupHistory now count =
      ((s.own consumer now count).1.map messageAt,
        ConsumerGroup.ofStream (s.own consumer now count).2) := by
  have hfound := take_filter_pending (s := s) (p := fun d => d.consumer = consumer)
    (q := fun _ => true) ?_ s.delivered count
  · rw [List.filter_true, List.take_of_length_le (i := s.delivered) ?_] at hfound
    · rw [ConsumerGroup.xreadgroupHistory, hfound, messages_found, redeliver_ofStream consumer]
      rfl
    · exact (List.length_filterMap_le _ _).trans_eq List.length_range
  · intro i e d _ hd
    exact (decide_eq_true (hmine i d hd)).symm

theorem isSome_entry {i : Nat}
    (h : i ∈ List.range' s.delivered (s.entries.length - s.delivered)) :
    (s.entries[i]?.map fun fields => (i, fields)).isSome = true := by
  have hlt : i < s.entries.length := by
    have hi := (List.mem_range'_1.mp h).2
    have hle := s.delivered_le
    omega
  rw [List.getElem?_eq_getElem hlt]
  rfl

theorem take_following (count : Nat) :
    (List.range' s.delivered (s.entries.length - s.delivered)).take count = s.following count := by
  rcases le_total count (s.entries.length - s.delivered) with h | h
  · rw [List.take_range'_of_length_ge h, Stream.following, Nat.min_eq_left h]
  · rw [List.take_range'_of_length_le h, Stream.following, Nat.min_eq_right h]

theorem drop_following (count : Nat) :
    (List.range' s.delivered (s.entries.length - s.delivered)).drop count =
      List.range' (s.delivered + min count (s.entries.length - s.delivered))
        (s.entries.length - (s.delivered + min count (s.entries.length - s.delivered))) := by
  have hle := s.delivered_le
  rw [List.drop_range', Nat.mul_one]
  rcases le_total count (s.entries.length - s.delivered) with h | h
  · rw [Nat.min_eq_left h, Nat.sub_sub]
  · rw [Nat.min_eq_right h, Nat.sub_eq_zero_of_le h, Nat.add_sub_cancel' hle, Nat.sub_self]
    rfl

theorem range_following (count : Nat) :
    List.range (s.delivered + min count (s.entries.length - s.delivered)) =
      List.range s.delivered ++ s.following count := by
  rw [List.range_eq_range', List.range_eq_range', Stream.following, ← List.range'_append_1,
    Nat.zero_add]

/-- The new entries are pending behind the others. -/
theorem pending_fresh (consumer : γ) (now count : Nat) :
    (ConsumerGroup.ofStream (s.fresh consumer now count).2).pending =
      (ConsumerGroup.ofStream s).pending ++
        ((s.batch (s.following count)).map messageAt).map (⟨·, now⟩) := by
  have hpendingAt : ∀ i, (s.fresh consumer now count).2.pending i =
      if i ∈ s.following count then some ⟨consumer, now⟩ else s.pending i := fun _ => rfl
  show (List.range (s.delivered + min count (s.entries.length - s.delivered))).filterMap _ = _
  rw [range_following, List.filterMap_append, Stream.batch, List.map_filterMap, List.map_filterMap]
  congr 1
  · refine List.filterMap_congr fun i hi => ?_
    have hnew : i ∉ s.following count := by
      rw [Stream.mem_following]
      have hlt := List.mem_range.mp hi
      omega
    rw [pendingAt, hpendingAt, if_neg hnew]
    rfl
  · refine List.filterMap_congr fun i hi => ?_
    rw [pendingAt, hpendingAt, if_pos hi, Option.bind_some]
    show s.entries[i]?.map _ = _
    cases s.entries[i]? <;> rfl

/-- `XREADGROUP` with the id `>`. -/
theorem xreadgroupNew_ofStream (consumer : γ) (now count : Nat) :
    (ConsumerGroup.ofStream s).xreadgroupNew now count =
      ((s.fresh consumer now count).1.map messageAt,
        ConsumerGroup.ofStream (s.fresh consumer now count).2) := by
  have htaken : (ConsumerGroup.ofStream s).undelivered.take count =
      (s.batch (s.following count)).map messageAt := by
    rw [ConsumerGroup.ofStream, ← List.map_take, Stream.batch,
      take_filterMap fun i hi => isSome_entry hi, take_following]
    rfl
  have hdropped : (ConsumerGroup.ofStream s).undelivered.drop count =
      (ConsumerGroup.ofStream (s.fresh consumer now count).2).undelivered := by
    rw [ConsumerGroup.ofStream, ← List.map_drop, Stream.batch,
      drop_filterMap fun i hi => isSome_entry hi, drop_following]
    rfl
  rw [ConsumerGroup.xreadgroupNew, htaken, hdropped]
  show (_, ConsumerGroup.mk _ _) = (_, ConsumerGroup.mk _ _)
  exact congrArg (fun pending => (_, ConsumerGroup.mk pending _)) (pending_fresh ..).symm

theorem xack_ofStream (i : Nat) :
    (ConsumerGroup.ofStream s).xack i = ConsumerGroup.ofStream (s.ack i) := by
  have hpending : ((ConsumerGroup.ofStream s).xack i).pending =
      (ConsumerGroup.ofStream (s.ack i)).pending := by
    simp only [ConsumerGroup.xack, ConsumerGroup.ofStream, List.filter_filterMap]
    refine List.filterMap_congr fun j _ => ?_
    have hj : (s.ack i).pending j = if j = i then none else s.pending j :=
      Function.update_apply ..
    by_cases hji : j = i
    · rw [if_pos hji] at hj
      rw [pendingAt, pendingAt, hj, hji]
      cases s.pending i <;> cases s.entries[i]? <;> simp
    · rw [if_neg hji] at hj
      rw [pendingAt, pendingAt, hj]
      cases s.pending j <;> cases hentry : s.entries[j]? <;> simp [Stream.ack, hentry, hji]
  show ConsumerGroup.mk _ _ = ConsumerGroup.mk _ _
  exact congrArg (ConsumerGroup.mk · _) hpending

end OfStream

end DocFlow.Messaging
