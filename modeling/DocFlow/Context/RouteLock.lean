import DocFlow.Domain
import DocFlow.Lib.Tenancy
import Mathlib.Logic.Function.Basic

/-!
# The lock of a conversation

`ConversationRouteLockManager.hold` encloses the selection and the completion of a turn.  The lock is
a key of Redis that runs out by itself, so a body that takes too long is no longer alone.

`World` has any number of calls for any conversations; every Redis command is a step of its own, and its
reply may be lost or the command sent again.  A call draws a token of its own (`uuid1`), which is the
number of the call here.

* `World.Fresh`: a call in its body whose lease has not run out.
* `leased_of_reachable`: such a call has the key, so there is one at most.
* `conversation_sections`: and a call that ends without an error was alone throughout.
-/

namespace DocFlow.Context.RouteLock

open Tenancy

/-- `ConversationRouteLockManager`. -/
structure ConversationRouteLockManager where
  lockTimeoutSeconds : Int
  blockingTimeoutSeconds : Int
  lockTimeout_pos : 1 ≤ lockTimeoutSeconds
  blockingTimeout_nonneg : 0 ≤ blockingTimeoutSeconds

/-- `__init__`; the text is that of the `ValueError`. -/
def ConversationRouteLockManager.create (lockTimeoutSeconds blockingTimeoutSeconds : Int) :
    Except String ConversationRouteLockManager :=
  if hlock : lockTimeoutSeconds < 1 then
    .error "Conversation route lock timeout must be positive"
  else if hblocking : blockingTimeoutSeconds < 0 then
    .error "Conversation route blocking timeout cannot be negative"
  else .ok ⟨lockTimeoutSeconds, blockingTimeoutSeconds, by omega, by omega⟩

/-- The lifetime of the key, in milliseconds. -/
def ConversationRouteLockManager.lease (m : ConversationRouteLockManager) : Nat :=
  (m.lockTimeoutSeconds * 1000).toNat

/-- How a call of `hold` ends. -/
inductive HoldExit
  /-- the lock was released; an exception of the body is passed on -/
  | released
  /-- `ConversationRouteLockUnavailable`, before the body -/
  | unavailable
  /-- `ConversationRouteLockUnavailable`, after the body -/
  | expired
  /-- another exception, or the process is gone -/
  | raised
deriving DecidableEq, Repr

def HoldExit.message (conversationId : ConversationId) : HoldExit → Option String
  | .unavailable => some ("Conversation route lock unavailable: " ++ toString conversationId)
  | .expired => some ("Conversation route lock expired: " ++ toString conversationId)
  | _ => none

inductive HoldPhase
  /-- `lock.acquire` tries again and again -/
  | acquiring
  /-- the body runs, since the key was set -/
  | inside (grantedAt : Nat)
  | ended (exit : HoldExit)
deriving DecidableEq, Repr

structure HoldCall where
  conversationId : ConversationId
  phase : HoldPhase
deriving DecidableEq, Repr

/-- The value of the key, and when it runs out. -/
structure Lease where
  token : Nat
  expiresAt : Nat
deriving DecidableEq, Repr

structure World where
  now : Nat
  keys : ConversationId → Option Lease
  calls : Nat → Option HoldCall
  log : ConversationId → List (Event Nat)

/-- Whose token a key has; a key that has run out is not there. -/
def tokenAt (now : Nat) : Option Lease → Option Nat
  | none => none
  | some lease => if now ≤ lease.expiresAt then some lease.token else none

/-- How a Redis command is answered. -/
inductive Reply
  | answered
  /-- the client has sent the command again, and takes the second answer -/
  | answeredAgain
  /-- an exception, and the command was not carried out -/
  | lostBefore
  /-- an exception, but the command was carried out -/
  | lostAfter
deriving DecidableEq, Repr

namespace World

variable (w : World)

def tenant (k : ConversationId) : Option Nat := tokenAt w.now (w.keys k)

def setPhase (c : Nat) (k : ConversationId) (phase : HoldPhase) : World :=
  { w with calls := Function.update w.calls c (some ⟨k, phase⟩) }

def record (k : ConversationId) (e : Event Nat) : World :=
  { w with log := Function.update w.log k (e :: w.log k) }

def setKey (k : ConversationId) (lease : Option Lease) : World :=
  { w with keys := Function.update w.keys k lease }

/-- `SET key token NX PX timeout`. -/
def setIfAbsent (m : ConversationRouteLockManager) (k : ConversationId) (token : Nat) :
    Bool × World :=
  if w.tenant k = none then
    (true, (w.setKey k (some ⟨token, w.now + m.lease⟩)).record k (.granted token))
  else (false, w)

/-- The script of `release`: the key is deleted if it has the token. -/
def deleteIfOwn (k : ConversationId) (token : Nat) : Bool × World :=
  if w.tenant k = some token then (true, w.setKey k none) else (false, w)

/-- What the client gets to know of a command, and what the command has done. -/
def send (command : World → Bool × World) : Reply → Option Bool × World
  | .answered => (some (command w).1, (command w).2)
  | .answeredAgain => (some (command (command w).2).1, (command (command w).2).2)
  | .lostBefore => (none, w)
  | .lostAfter => (none, (command w).2)

/-- An attempt of `lock.acquire`. -/
def attempt (m : ConversationRouteLockManager) (c : Nat) (k : ConversationId) (reply : Reply) : World :=
  match w.send (fun w => w.setIfAbsent m k c) reply with
  | (some true, w') => w'.setPhase c k (.inside w'.now)
  | (some false, w') => w'
  | (none, w') => w'.setPhase c k (.ended .raised)

/-- `lock.release`, after the body. -/
def release (c : Nat) (k : ConversationId) (reply : Reply) : World :=
  match w.send (fun w => w.deleteIfOwn k c) reply with
  | (some true, w') => (w'.record k (.left c true)).setPhase c k (.ended .released)
  | (some false, w') => (w'.record k (.left c false)).setPhase c k (.ended .expired)
  | (none, w') => w'.setPhase c k (.ended .raised)

end World

inductive LockAction
  | pass (milliseconds : Nat)
  | hold (c : Nat) (conversationId : ConversationId)
  | attempt (c : Nat) (reply : Reply)
  /-- the blocking timeout is over -/
  | giveUp (c : Nat)
  /-- the body has ended, in whatever way -/
  | release (c : Nat) (reply : Reply)
  /-- the call is cancelled while it waits, or its process is gone -/
  | stop (c : Nat)
deriving DecidableEq, Repr

def step (m : ConversationRouteLockManager) (w : World) : LockAction → Option World
  | .pass milliseconds => some { w with now := w.now + milliseconds }
  | .hold c conversationId =>
    match w.calls c with
    | none => some (w.setPhase c conversationId .acquiring)
    | some _ => none
  | .attempt c reply =>
    match w.calls c with
    | some ⟨k, .acquiring⟩ => some (w.attempt m c k reply)
    | _ => none
  | .giveUp c =>
    match w.calls c with
    | some ⟨k, .acquiring⟩ => some (w.setPhase c k (.ended .unavailable))
    | _ => none
  | .release c reply =>
    match w.calls c with
    | some ⟨k, .inside _⟩ => some (w.release c k reply)
    | _ => none
  | .stop c =>
    match w.calls c with
    | some ⟨k, .acquiring⟩ | some ⟨k, .inside _⟩ => some (w.setPhase c k (.ended .raised))
    | _ => none

def nothingHeld : World := ⟨0, fun _ => none, fun _ => none, fun _ => []⟩

def machine (m : ConversationRouteLockManager) : Machine World LockAction :=
  ⟨fun w => w = nothingHeld, step m⟩

/-! ## What a step does -/

section Fields

variable {w : World} {c c' : Nat} {k k' : ConversationId}

@[simp] theorem keys_setPhase (phase : HoldPhase) : (w.setPhase c k phase).keys = w.keys := rfl

@[simp] theorem now_setPhase (phase : HoldPhase) : (w.setPhase c k phase).now = w.now := rfl

@[simp] theorem log_setPhase (phase : HoldPhase) : (w.setPhase c k phase).log = w.log := rfl

@[simp] theorem keys_record (e : Event Nat) : (w.record k e).keys = w.keys := rfl

@[simp] theorem now_record (e : Event Nat) : (w.record k e).now = w.now := rfl

@[simp] theorem calls_record (e : Event Nat) : (w.record k e).calls = w.calls := rfl

@[simp] theorem now_setKey (lease : Option Lease) : (w.setKey k lease).now = w.now := rfl

@[simp] theorem calls_setKey (lease : Option Lease) : (w.setKey k lease).calls = w.calls := rfl

@[simp] theorem log_setKey (lease : Option Lease) : (w.setKey k lease).log = w.log := rfl

theorem calls_setPhase (phase : HoldPhase) :
    (w.setPhase c k phase).calls c' = if c' = c then some ⟨k, phase⟩ else w.calls c' :=
  Function.update_apply ..

theorem log_record (e : Event Nat) :
    (w.record k e).log k' = if k' = k then e :: w.log k else w.log k' := Function.update_apply ..

theorem keys_setKey (lease : Option Lease) :
    (w.setKey k lease).keys k' = if k' = k then lease else w.keys k' := Function.update_apply ..

@[simp] theorem tenant_setPhase (phase : HoldPhase) : (w.setPhase c k phase).tenant k' = w.tenant k' :=
  rfl

@[simp] theorem tenant_record (e : Event Nat) : (w.record k e).tenant k' = w.tenant k' := rfl

theorem tenant_setKey (lease : Option Lease) :
    (w.setKey k lease).tenant k' = if k' = k then tokenAt w.now lease else w.tenant k' := by
  rw [World.tenant, keys_setKey, now_setKey]
  split
  · rfl
  · rfl

theorem tokenAt_eq_some {now token : Nat} {lease : Option Lease} :
    tokenAt now lease = some token ↔ ∃ expiresAt, lease = some ⟨token, expiresAt⟩ ∧ now ≤ expiresAt := by
  cases lease with
  | none => simp [tokenAt]
  | some lease =>
    rw [tokenAt]
    constructor
    · intro h
      split at h
      · next hnow =>
        obtain rfl := Option.some.inj h
        exact ⟨lease.expiresAt, rfl, hnow⟩
      · cases h
    · rintro ⟨expiresAt, h, hnow⟩
      obtain rfl := Option.some.inj h
      exact if_pos hnow

end Fields

/-- What a step does. -/
inductive Moves (m : ConversationRouteLockManager) (w : World) : World → Prop
  | passed (milliseconds : Nat) : Moves m w { w with now := w.now + milliseconds }
  | refused : Moves m w w
  | started {c : Nat} {k : ConversationId} : w.calls c = none → Moves m w (w.setPhase c k .acquiring)
  /-- the lock is granted; the call may not get to know of it -/
  | granted {c : Nat} {k : ConversationId} {phase : HoldPhase} : w.calls c = some ⟨k, .acquiring⟩ →
      w.tenant k = none → phase = .acquiring ∨ phase = .inside w.now ∨ phase = .ended .raised →
      Moves m w (((w.setKey k (some ⟨c, w.now + m.lease⟩)).record k (.granted c)).setPhase c k phase)
  | stopped {c : Nat} {call : HoldCall} {exit : HoldExit} : w.calls c = some call →
      (∀ exit, call.phase ≠ .ended exit) → exit ≠ .released →
      Moves m w (w.setPhase c call.conversationId (.ended exit))
  | released {c : Nat} {k : ConversationId} {t : Nat} : w.calls c = some ⟨k, .inside t⟩ →
      w.tenant k = some c →
      Moves m w (((w.setKey k none).record k (.left c true)).setPhase c k (.ended .released))
  /-- the key was deleted by a command that was not answered -/
  | deleted {c : Nat} {k : ConversationId} {t : Nat} : w.calls c = some ⟨k, .inside t⟩ →
      w.tenant k = some c → Moves m w ((w.setKey k none).setPhase c k (.ended .raised))
  | deletedTwice {c : Nat} {k : ConversationId} {t : Nat} : w.calls c = some ⟨k, .inside t⟩ →
      w.tenant k = some c →
      Moves m w (((w.setKey k none).record k (.left c false)).setPhase c k (.ended .expired))
  | expired {c : Nat} {k : ConversationId} {t : Nat} : w.calls c = some ⟨k, .inside t⟩ →
      w.tenant k ≠ some c →
      Moves m w ((w.record k (.left c false)).setPhase c k (.ended .expired))

section Step

variable {m : ConversationRouteLockManager} {w w' : World}

theorem setPhase_eq_self {c : Nat} {k : ConversationId} {phase : HoldPhase}
    (h : w.calls c = some ⟨k, phase⟩) : w.setPhase c k phase = w := by
  rw [World.setPhase, ← h, Function.update_eq_self]

theorem attempt_moves {c : Nat} {k : ConversationId} (hc : w.calls c = some ⟨k, .acquiring⟩)
    (reply : Reply) : Moves m w (w.attempt m c k reply) := by
  by_cases hfree : w.tenant k = none
  · have hset : w.setIfAbsent m k c =
        (true, (w.setKey k (some ⟨c, w.now + m.lease⟩)).record k (.granted c)) := if_pos hfree
    have htaken : ((w.setKey k (some ⟨c, w.now + m.lease⟩)).record k (.granted c)).setIfAbsent m k c =
        (false, (w.setKey k (some ⟨c, w.now + m.lease⟩)).record k (.granted c)) := by
      refine if_neg ?_
      rw [tenant_record, tenant_setKey, if_pos rfl,
        tokenAt_eq_some.mpr ⟨_, rfl, Nat.le_add_right _ _⟩]
      nofun
    cases reply with
    | answered =>
      simp only [World.attempt, World.send, hset]
      exact .granted hc hfree (.inr (.inl rfl))
    | answeredAgain =>
      simp only [World.attempt, World.send, hset, htaken]
      have hself := setPhase_eq_self (w := (w.setKey k (some ⟨c, w.now + m.lease⟩)).record k
        (.granted c)) hc
      rw [← hself]
      exact .granted hc hfree (.inl rfl)
    | lostBefore => exact .stopped hc nofun nofun
    | lostAfter =>
      simp only [World.attempt, World.send, hset]
      exact .granted hc hfree (.inr (.inr rfl))
  · have hset : w.setIfAbsent m k c = (false, w) := if_neg hfree
    cases reply with
    | answered =>
      simp only [World.attempt, World.send, hset]
      exact .refused
    | answeredAgain =>
      simp only [World.attempt, World.send, hset]
      exact .refused
    | lostBefore => exact .stopped hc nofun nofun
    | lostAfter =>
      simp only [World.attempt, World.send, hset]
      exact .stopped hc nofun nofun

theorem release_moves {c t : Nat} {k : ConversationId} (hc : w.calls c = some ⟨k, .inside t⟩)
    (reply : Reply) : Moves m w (w.release c k reply) := by
  by_cases hown : w.tenant k = some c
  · have hdelete : w.deleteIfOwn k c = (true, w.setKey k none) := if_pos hown
    have hgone : (w.setKey k none).deleteIfOwn k c = (false, w.setKey k none) := by
      refine if_neg ?_
      rw [tenant_setKey, if_pos rfl]
      nofun
    cases reply with
    | answered =>
      simp only [World.release, World.send, hdelete]
      exact .released hc hown
    | answeredAgain =>
      simp only [World.release, World.send, hdelete, hgone]
      exact .deletedTwice hc hown
    | lostBefore => exact .stopped hc nofun nofun
    | lostAfter =>
      simp only [World.release, World.send, hdelete]
      exact .deleted hc hown
  · have hkeep : w.deleteIfOwn k c = (false, w) := if_neg hown
    cases reply with
    | answered | answeredAgain =>
      simp only [World.release, World.send, hkeep]
      exact .expired hc hown
    | lostBefore => exact .stopped hc nofun nofun
    | lostAfter =>
      simp only [World.release, World.send, hkeep]
      exact .stopped hc nofun nofun

theorem step_moves {a : LockAction} (h : step m w a = some w') : Moves m w w' := by
  cases a with
  | pass milliseconds =>
    obtain rfl := Option.some.inj h
    exact .passed milliseconds
  | hold c k =>
    cases hc : w.calls c with
    | none =>
      simp only [step, hc] at h
      obtain rfl := Option.some.inj h
      exact .started hc
    | some call =>
      simp only [step, hc] at h
      cases h
  | attempt c reply =>
    rw [step] at h
    split at h
    · next k hc =>
      obtain rfl := Option.some.inj h
      exact attempt_moves hc reply
    · cases h
  | giveUp c =>
    rw [step] at h
    split at h
    · next k hc =>
      obtain rfl := Option.some.inj h
      exact .stopped hc nofun nofun
    · cases h
  | release c reply =>
    rw [step] at h
    split at h
    · next k t hc =>
      obtain rfl := Option.some.inj h
      exact release_moves hc reply
    · cases h
  | stop c =>
    rw [step] at h
    split at h
    · next k hc =>
      obtain rfl := Option.some.inj h
      exact .stopped hc nofun nofun
    · next k t hc =>
      obtain rfl := Option.some.inj h
      exact .stopped hc nofun nofun
    · cases h

end Step

/-! ## The key is a slot -/

variable {m : ConversationRouteLockManager}

/-- The key of a conversation. -/
def World.slot (k : ConversationId) (w : World) : Slot Nat := ⟨w.tenant k, w.log k⟩

theorem slot_ext {w w' : World} {k : ConversationId} (htenant : w'.tenant k = w.tenant k)
    (hlog : w'.log k = w.log k) : w'.slot k = w.slot k := by
  rw [World.slot, htenant, hlog, World.slot]

/-- A key that has run out puts its tenant out. -/
theorem tenant_pass (w : World) (k : ConversationId) (milliseconds : Nat) :
    ({ w with now := w.now + milliseconds } : World).tenant k = w.tenant k ∨
      ({ w with now := w.now + milliseconds } : World).tenant k = none := by
  show tokenAt (w.now + milliseconds) (w.keys k) = tokenAt w.now (w.keys k) ∨
    tokenAt (w.now + milliseconds) (w.keys k) = none
  cases hkey : w.keys k with
  | none => exact .inl rfl
  | some lease =>
    by_cases hnow : w.now + milliseconds ≤ lease.expiresAt
    · refine .inl ?_
      rw [tokenAt, tokenAt, if_pos hnow, if_pos (by omega)]
    · exact .inr (if_neg hnow)

theorem lets (m : ConversationRouteLockManager) (k : ConversationId) :
    Lets (machine m) (World.slot k) where
  init w hw := by
    obtain rfl : w = nothingHeld := hw
    rfl
  step w a w' _ hstep := by
    cases step_moves hstep with
    | passed milliseconds =>
      rcases tenant_pass w k milliseconds with h | h
      · exact slots_nil (slot_ext h rfl)
      · refine slots_evict ?_
        rw [World.slot, h]
        rfl
    | refused => exact slots_nil rfl
    | started => exact slots_nil rfl
    | stopped => exact slots_nil rfl
    | @granted c k' phase hc hfree hphase =>
      by_cases hk : k = k'
      · subst hk
        refine slots_grant (t := c) hfree ?_
        rw [World.slot, tenant_setPhase, tenant_record, tenant_setKey, if_pos rfl, log_setPhase,
          log_record, if_pos rfl, tokenAt_eq_some.mpr ⟨_, rfl, Nat.le_add_right _ _⟩]
        rfl
      · refine slots_nil (slot_ext ?_ ?_)
        · rw [tenant_setPhase, tenant_record, tenant_setKey, if_neg hk]
        · rw [log_setPhase, log_record, if_neg hk, log_setKey]
    | @released c k' t hc hown =>
      by_cases hk : k = k'
      · subst hk
        refine slots_leave (t := c) hown ?_
        rw [World.slot, tenant_setPhase, tenant_record, tenant_setKey, if_pos rfl, log_setPhase,
          log_record, if_pos rfl]
        rfl
      · refine slots_nil (slot_ext ?_ ?_)
        · rw [tenant_setPhase, tenant_record, tenant_setKey, if_neg hk]
        · rw [log_setPhase, log_record, if_neg hk, log_setKey]
    | @deleted c k' t hc hown =>
      by_cases hk : k = k'
      · subst hk
        refine slots_evict ?_
        rw [World.slot, tenant_setPhase, tenant_setKey, if_pos rfl]
        rfl
      · refine slots_nil (slot_ext ?_ rfl)
        rw [tenant_setPhase, tenant_setKey, if_neg hk]
    | @deletedTwice c k' t hc hown =>
      by_cases hk : k = k'
      · subst hk
        refine slots_evict_leave (t := c) ?_
        rw [World.slot, tenant_setPhase, tenant_record, tenant_setKey, if_pos rfl, log_setPhase,
          log_record, if_pos rfl]
        rfl
      · refine slots_nil (slot_ext ?_ ?_)
        · rw [tenant_setPhase, tenant_record, tenant_setKey, if_neg hk]
        · rw [log_setPhase, log_record, if_neg hk, log_setKey]
    | @expired c k' t hc hown =>
      by_cases hk : k = k'
      · subst hk
        refine slots_leave_late (t := c) hown ?_
        rw [World.slot, tenant_setPhase, tenant_record, log_setPhase, log_record, if_pos rfl]
        rfl
      · refine slots_nil (slot_ext rfl ?_)
        rw [log_setPhase, log_record, if_neg hk]

/-! ## What holds in every run -/

/-- As long as the lease of a call in its body has not run out, the key is its own. -/
def Leased (m : ConversationRouteLockManager) (w : World) : Prop :=
  ∀ c k t, w.calls c = some ⟨k, .inside t⟩ → t ≤ w.now ∧
    (w.now ≤ t + m.lease → w.keys k = some ⟨c, t + m.lease⟩)

/-- Who has released the lock has left it undisturbed. -/
def Recorded (w : World) : Prop :=
  ∀ c k, w.calls c = some ⟨k, .ended .released⟩ → Event.left c true ∈ w.log k

section Preserved

variable {w w' : World} {c : Nat} {k : ConversationId}

theorem Leased.setPhase (h : Leased m w) {phase : HoldPhase} (hphase : ∀ t, phase ≠ .inside t) :
    Leased m (w.setPhase c k phase) := by
  intro c' k' t hc'
  rw [calls_setPhase] at hc'
  split at hc'
  · obtain ⟨-, rfl⟩ := HoldCall.mk.inj (Option.some.inj hc')
    exact absurd rfl (hphase t)
  · exact h c' k' t hc'

/-- A key changes hands only when it is free, or when its tenant leaves. -/
theorem Leased.setKey (h : Leased m w) (hother : ∀ c' t, w.calls c' = some ⟨k, .inside t⟩ → c' ≠ c →
    w.tenant k ≠ some c') {lease : Option Lease} {phase : HoldPhase}
    (hphase : ∀ t, phase = .inside t → t = w.now ∧ lease = some ⟨c, w.now + m.lease⟩) :
    Leased m ((w.setKey k lease).setPhase c k phase) := by
  intro c' k' t hc'
  rw [calls_setPhase, calls_setKey] at hc'
  by_cases hcc : c' = c
  · rw [if_pos hcc] at hc'
    obtain ⟨rfl, hin⟩ := HoldCall.mk.inj (Option.some.inj hc')
    obtain ⟨rfl, rfl⟩ := hphase t hin
    refine ⟨Nat.le_refl _, fun _ => ?_⟩
    rw [keys_setPhase, keys_setKey, if_pos rfl, hcc]
  · rw [if_neg hcc] at hc'
    obtain ⟨hle, hkey⟩ := h c' k' t hc'
    refine ⟨hle, fun hnow => ?_⟩
    rw [keys_setPhase, keys_setKey]
    by_cases hk : k' = k
    · subst hk
      have htenant : w.tenant k' = some c' := tokenAt_eq_some.mpr ⟨_, hkey hnow, hnow⟩
      exact absurd htenant (hother c' t hc' hcc)
    · rw [if_neg hk]
      exact hkey hnow

theorem Leased.record (h : Leased m w) (e : Event Nat) : Leased m (w.record k e) := h

theorem Leased.step (h : Leased m w) {a : LockAction} (hs : RouteLock.step m w a = some w') :
    Leased m w' := by
  cases step_moves hs with
  | passed milliseconds =>
    intro c k t hc
    obtain ⟨hle, hkey⟩ := h c k t hc
    exact ⟨Nat.le_trans hle (Nat.le_add_right _ _), fun hnow =>
      hkey (Nat.le_trans (Nat.le_add_right _ _) hnow)⟩
  | refused => exact h
  | started hc => exact h.setPhase nofun
  | stopped hc hlive hexit => exact h.setPhase nofun
  | @granted c k phase hc hfree hphase =>
    refine Leased.setKey (h.record (.granted c)) (fun c' t _ _ htenant => ?_) fun t ht => ?_
    · rw [tenant_record, hfree] at htenant
      cases htenant
    · rcases hphase with rfl | rfl | rfl
      · cases ht
      · exact ⟨(HoldPhase.inside.inj ht).symm, rfl⟩
      · cases ht
  | @released c k t hc hown =>
    refine Leased.setKey (h.record (.left c true)) (fun c' t _ hne htenant => ?_) nofun
    rw [tenant_record, hown] at htenant
    exact hne (Option.some.inj htenant).symm
  | @deleted c k t hc hown =>
    refine Leased.setKey h (fun c' t _ hne htenant => ?_) nofun
    rw [hown] at htenant
    exact hne (Option.some.inj htenant).symm
  | @deletedTwice c k t hc hown =>
    refine Leased.setKey (h.record (.left c false)) (fun c' t _ hne htenant => ?_) nofun
    rw [tenant_record, hown] at htenant
    exact hne (Option.some.inj htenant).symm
  | expired hc hown => exact (h.record _).setPhase nofun

theorem Recorded.of_log (h : Recorded w) (hlog : ∀ k e, e ∈ w.log k → e ∈ w'.log k)
    (hcalls : ∀ c k, w'.calls c = some ⟨k, .ended .released⟩ →
      w.calls c = some ⟨k, .ended .released⟩ ∨ Event.left c true ∈ w'.log k) : Recorded w' := by
  intro c k hc
  rcases hcalls c k hc with hold | hnew
  · exact hlog k _ (h c k hold)
  · exact hnew

theorem mem_log_record {e e' : Event Nat} {k' : ConversationId} (h : e' ∈ w.log k') :
    e' ∈ (w.record k e).log k' := by
  rw [log_record]
  split
  · next hk => exact List.mem_cons_of_mem _ (hk ▸ h)
  · exact h

theorem released_setPhase {phase : HoldPhase} {c' : Nat} {k' : ConversationId}
    (h : (w.setPhase c k phase).calls c' = some ⟨k', .ended .released⟩)
    (hphase : phase ≠ .ended .released) : w.calls c' = some ⟨k', .ended .released⟩ := by
  rw [calls_setPhase] at h
  split at h
  · exact absurd (HoldCall.mk.inj (Option.some.inj h)).2 hphase
  · exact h

theorem Recorded.step (h : Recorded w) {a : LockAction} (hs : RouteLock.step m w a = some w') :
    Recorded w' := by
  cases step_moves hs with
  | passed | refused => exact h
  | started hc => exact h.of_log (fun _ _ he => he) fun c k hc' => .inl (released_setPhase hc' nofun)
  | stopped hc hlive hexit =>
    refine h.of_log (fun _ _ he => he) fun c k hc' => .inl (released_setPhase hc' fun he => ?_)
    exact hexit (HoldPhase.ended.inj he)
  | @granted c k phase hc hfree hphase =>
    refine h.of_log (fun _ _ he => mem_log_record he) fun c' k' hc' => .inl (released_setPhase hc' ?_)
    rcases hphase with rfl | rfl | rfl <;> nofun
  | deleted hc hown =>
    exact h.of_log (fun _ _ he => he) fun c' k' hc' => .inl (released_setPhase hc' nofun)
  | deletedTwice hc hown | expired hc hown =>
    exact h.of_log (fun _ _ he => mem_log_record he) fun c' k' hc' =>
      .inl (released_setPhase hc' nofun)
  | @released c k t hc hown =>
    refine h.of_log (fun _ _ he => mem_log_record he) fun c' k' hc' => ?_
    rw [calls_setPhase] at hc'
    split at hc'
    · next hcc =>
      obtain ⟨rfl, -⟩ := HoldCall.mk.inj (Option.some.inj hc')
      refine .inr ?_
      rw [log_setPhase, log_record, if_pos rfl, hcc]
      exact List.mem_cons_self
    · exact .inl hc'

end Preserved

theorem leased_of_reachable {w : World} (hw : (machine m).Reachable w) : Leased m w := by
  refine Machine.ReachableVia.invariant (P := Leased m) ?_ (fun _ _ _ _ h _ hs => h.step hs) hw
  rintro _ rfl c k t hc
  cases hc

theorem recorded_of_reachable {w : World} (hw : (machine m).Reachable w) : Recorded w := by
  refine Machine.ReachableVia.invariant (P := Recorded) ?_ (fun _ _ _ _ h _ hs => h.step hs) hw
  rintro _ rfl c k hc
  cases hc

/-! ## The sections -/

/-- The call is in its body, and its lease has not run out. -/
def World.Fresh (m : ConversationRouteLockManager) (w : World) (k : ConversationId) (c : Nat) : Prop :=
  ∃ t, w.calls c = some ⟨k, .inside t⟩ ∧ w.now ≤ t + m.lease

/-- A call that is fresh when its release is answered has released the lock. -/
theorem release_fresh {w : World} {k : ConversationId} {c : Nat} (hw : (machine m).Reachable w)
    (h : w.Fresh m k c) :
    ∃ w', step m w (.release c .answered) = some w' ∧ w'.calls c = some ⟨k, .ended .released⟩ := by
  obtain ⟨t, hc, hnow⟩ := h
  have hkey := (leased_of_reachable hw c k t hc).2 hnow
  have hown : w.tenant k = some c := tokenAt_eq_some.mpr ⟨_, hkey, hnow⟩
  have hdelete : w.deleteIfOwn k c = (true, w.setKey k none) := if_pos hown
  refine ⟨_, by rw [step, hc], ?_⟩
  simp only [World.release, World.send, hdelete, calls_setPhase, if_true]

/-- **The sections of a conversation.**  One call at most is in its body with a lease that has not run
out, and its release then succeeds; and between the grant of the lock to a call that ends without an
error and its release the lock was granted to no one. -/
theorem conversation_sections {w : World} (hw : (machine m).Reachable w) (k : ConversationId) :
    (∀ c c', w.Fresh m k c → w.Fresh m k c' → c = c') ∧
    (∀ c, w.Fresh m k c → ∃ w', step m w (.release c .answered) = some w' ∧
      w'.calls c = some ⟨k, .ended .released⟩) ∧
    ∀ c, w.calls c = some ⟨k, .ended .released⟩ →
      ∃ newer between older, w.log k = newer ++ .left c true :: (between ++ .granted c :: older) ∧
        ∀ c', Event.granted c' ∉ between := by
  refine ⟨fun c c' h h' => ?_, fun c h => release_fresh hw h, fun c hc => ?_⟩
  · obtain ⟨t, hc, hnow⟩ := h
    obtain ⟨t', hc', hnow'⟩ := h'
    have hkey := (leased_of_reachable hw c k t hc).2 hnow
    rw [(leased_of_reachable hw c' k t' hc').2 hnow'] at hkey
    exact (Lease.mk.inj (Option.some.inj hkey)).1.symm
  · exact ((lets m k).orderly hw).alone (recorded_of_reachable hw c k hc)

/-- A call is still in its body when its lease runs out, and another one enters. -/
def overrun : List LockAction :=
  [.hold 1 7, .hold 2 7, .attempt 1 .answered, .attempt 2 .answered, .pass 1001,
    .attempt 2 .answered, .release 1 .answered, .release 2 .answered]

def overrunManager : ConversationRouteLockManager := ⟨1, 0, by decide, by decide⟩

def overrunWorld : World := ((machine overrunManager).run nothingHeld overrun).getD nothingHeld

/-- The first call raises, and the second was alone. -/
theorem conversation_sections_overrun :
    overrunWorld.calls 1 = some ⟨7, .ended .expired⟩ ∧
      ∃ newer between older,
        overrunWorld.log 7 = newer ++ .left 2 true :: (between ++ .granted 2 :: older) ∧
        ∀ c', Event.granted c' ∉ between := by
  have hrun : (machine overrunManager).run nothingHeld overrun = some overrunWorld := rfl
  exact ⟨rfl, (conversation_sections (.run (.init rfl) hrun) 7).2.2 2 rfl⟩

end DocFlow.Context.RouteLock
