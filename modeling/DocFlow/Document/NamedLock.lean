import DocFlow.Lib.Tenancy
import Mathlib.Logic.Function.Basic

/-!
# The named locks of the document stages

`MySQLNamedLockManager.hold` encloses the effects of a stage outside the database.  The lock belongs to
a session of the server, and every call has a connection of the pool, and with it a session, to itself.
A session can be killed at any time; its locks are then free, and its connection raises at the next
command.

* `Tidy`: a lock is held once, by a session whose call is in its body or whose connection was given up.
* `fence_sections`: the sessions in the pool hold nothing, of the live calls one at most is inside, and a
  call that ends without an error was alone throughout.
-/

namespace DocFlow.NamedLock

open Tenancy

/-- `MySQLNamedLockManager.__init__`. -/
def createManager (timeoutSeconds : Int) : Except String Int :=
  if timeoutSeconds < 0 then .error "named lock timeout_seconds 不能小于 0" else .ok timeoutSeconds

/-- What `hold` asks of a key. -/
def validKey (resourceKey : String) : Bool := 1 ≤ resourceKey.length && resourceKey.length ≤ 64

/-- How a call of `hold` ends. -/
inductive FenceExit
  /-- the lock was released; an exception of the body is passed on -/
  | released
  | invalidKey
  /-- `ExternalEffectFenceError`, before the body -/
  | refused
  /-- `ExternalEffectFenceError`, after the body -/
  | broken
  /-- another exception, or the process is gone -/
  | raised
deriving DecidableEq, Repr

def FenceExit.message (resourceKey : String) : FenceExit → Option String
  | .invalidKey => some "MySQL named lock key 长度必须为 1 到 64"
  | .refused => some ("外部副作用围栏获取失败: " ++ resourceKey)
  | .broken => some ("外部副作用围栏释放失败: " ++ resourceKey)
  | _ => none

inductive FencePhase
  /-- a connection has been taken from the pool -/
  | connected (session : Nat)
  | inside (session : Nat)
  | ended (exit : FenceExit)
deriving DecidableEq, Repr

/-- The session that a call has to itself. -/
def FencePhase.session? : FencePhase → Option Nat
  | connected session => some session
  | inside session => some session
  | ended _ => none

structure FenceCall where
  resourceKey : String
  phase : FencePhase
deriving DecidableEq, Repr

/-- A lock of the server.  A session that asks for its own lock again has it once more. -/
structure Lock where
  session : Nat
  count : Nat
  /-- the call that asked for it -/
  tenant : Nat
deriving DecidableEq, Repr

/-- A session, as the pool sees it. -/
inductive SessionState
  | unopened | idle | busy
  /-- its connection was invalidated, or its process is gone -/
  | gone
deriving DecidableEq, Repr

structure World where
  locks : String → Option Lock
  sessions : Nat → SessionState
  /-- the server has ended the session -/
  killed : Nat → Bool
  calls : Nat → Option FenceCall
  log : String → List (Event Nat)

/-- How a command is answered. -/
inductive Reply
  | answered
  /-- `NULL` -/
  | null
  /-- an error of the server, which has done nothing; the session stays -/
  | raised
  /-- the connection is lost, before or after the command was carried out -/
  | lost (executed : Bool)
deriving DecidableEq, Repr

namespace World

variable (w : World)

def setCall (c : Nat) (k : String) (phase : FencePhase) : World :=
  { w with calls := Function.update w.calls c (some ⟨k, phase⟩) }

def setSession (s : Nat) (state : SessionState) : World :=
  { w with sessions := Function.update w.sessions s state }

def setLock (k : String) (lock : Option Lock) : World :=
  { w with locks := Function.update w.locks k lock }

def record (k : String) (e : Event Nat) : World :=
  { w with log := Function.update w.log k (e :: w.log k) }

/-- `GET_LOCK(k, timeout)`: whether it is granted before the timeout. -/
def getLock (c : Nat) (k : String) (s : Nat) : Bool × World :=
  match w.locks k with
  | none => (true, (w.setLock k (some ⟨s, 1, c⟩)).record k (.granted c))
  | some lock =>
    if lock.session = s then (true, w.setLock k (some { lock with count := lock.count + 1 }))
    else (false, w)

/-- `RELEASE_LOCK(k)`: whether it was the session's own. -/
def releaseLock (k : String) (s : Nat) : Bool × World :=
  match w.locks k with
  | none => (false, w)
  | some lock =>
    if lock.session = s then
      (true, w.setLock k (if lock.count = 1 then none else some { lock with count := lock.count - 1 }))
    else (false, w)

/-- The connection goes back to the pool, and the call ends. -/
def checkIn (c : Nat) (k : String) (s : Nat) (exit : FenceExit) : World :=
  (w.setSession s .idle).setCall c k (.ended exit)

/-- `connection.invalidate()`, and the call ends. -/
def invalidate (c : Nat) (k : String) (s : Nat) (exit : FenceExit) : World :=
  (w.setSession s .gone).setCall c k (.ended exit)

/-- `SELECT GET_LOCK`. -/
def acquire (c : Nat) (k : String) (s : Nat) : Reply → World
  | .answered =>
    match w.getLock c k s with
    | (true, w') => w'.setCall c k (.inside s)
    | (false, w') => w'.checkIn c k s .refused
  | .null => w.checkIn c k s .refused
  | .raised => w.checkIn c k s .raised
  | .lost true => (w.getLock c k s).2.invalidate c k s .raised
  | .lost false => w.invalidate c k s .raised

/-- `SELECT RELEASE_LOCK`, after the body. -/
def release (c : Nat) (k : String) (s : Nat) : Reply → World
  | .answered =>
    match w.releaseLock k s with
    | (true, w') => (w'.record k (.left c true)).checkIn c k s .released
    | (false, w') => (w'.record k (.left c false)).invalidate c k s .broken
  | .null | .raised | .lost false => w.invalidate c k s .broken
  | .lost true => (w.releaseLock k s).2.invalidate c k s .broken

/-- The server ends a session. -/
def kill (s : Nat) : World :=
  { w with
    killed := Function.update w.killed s true
    locks := fun k => (w.locks k).filter fun lock => lock.session ≠ s }

end World

inductive LockAction
  /-- a call takes this connection of the pool, or opens it; none when it cannot have one -/
  | hold (c : Nat) (resourceKey : String) (session : Option Nat)
  | acquire (c : Nat) (reply : Reply)
  /-- the body has ended, in whatever way -/
  | release (c : Nat) (reply : Reply)
  | kill (session : Nat)
  /-- the process of the call is gone -/
  | crash (c : Nat)
deriving DecidableEq, Repr

/-- A session that was ended answers nothing. -/
def answers (w : World) (s : Nat) (reply : Reply) : Bool :=
  !w.killed s || reply = .lost false

def step (w : World) : LockAction → Option World
  | .hold c k session =>
    match w.calls c, session with
    | none, none => some (w.setCall c k (.ended (if validKey k then .raised else .invalidKey)))
    | none, some s =>
      if validKey k = false then some (w.setCall c k (.ended .invalidKey))
      else if w.sessions s = .idle ∨ w.sessions s = .unopened then
        some ((w.setSession s .busy).setCall c k (.connected s))
      else none
    | some _, _ => none
  | .acquire c reply =>
    match w.calls c with
    | some ⟨k, .connected s⟩ => if answers w s reply then some (w.acquire c k s reply) else none
    | _ => none
  | .release c reply =>
    match w.calls c with
    | some ⟨k, .inside s⟩ => if answers w s reply then some (w.release c k s reply) else none
    | _ => none
  | .kill s => some (w.kill s)
  | .crash c =>
    match w.calls c with
    | some ⟨k, .connected s⟩ | some ⟨k, .inside s⟩ => some (w.invalidate c k s .raised)
    | _ => none

def nothingHeld : World :=
  ⟨fun _ => none, fun _ => .unopened, fun _ => false, fun _ => none, fun _ => []⟩

def machine : Machine World LockAction := ⟨fun w => w = nothingHeld, step⟩

/-! ## What a step does -/

section Fields

variable {w : World} {c c' s s' : Nat} {k k' : String}

theorem calls_setCall (phase : FencePhase) :
    (w.setCall c k phase).calls c' = if c' = c then some ⟨k, phase⟩ else w.calls c' :=
  Function.update_apply ..

theorem sessions_setSession (state : SessionState) :
    (w.setSession s state).sessions s' = if s' = s then state else w.sessions s' :=
  Function.update_apply ..

theorem locks_setLock (lock : Option Lock) :
    (w.setLock k lock).locks k' = if k' = k then lock else w.locks k' := Function.update_apply ..

theorem log_record (e : Event Nat) :
    (w.record k e).log k' = if k' = k then e :: w.log k else w.log k' := Function.update_apply ..

theorem killed_kill : (w.kill s).killed s' = if s' = s then true else w.killed s' :=
  Function.update_apply ..

end Fields

/-- Every lock is held once, by a call in its body or by a session that was given up; and a call has
its session to itself. -/
structure Tidy (w : World) : Prop where
  lock : ∀ k l, w.locks k = some l → l.count = 1 ∧
    (w.calls l.tenant = some ⟨k, .inside l.session⟩ ∨
      w.sessions l.session = .gone ∧ ∃ exit, w.calls l.tenant = some ⟨k, .ended exit⟩)
  inside : ∀ c k s, w.calls c = some ⟨k, .inside s⟩ → w.killed s = false →
    w.locks k = some ⟨s, 1, c⟩
  busy : ∀ c call s, w.calls c = some call → call.phase.session? = some s → w.sessions s = .busy
  own : ∀ c c' call call' s, w.calls c = some call → w.calls c' = some call' →
    call.phase.session? = some s → call'.phase.session? = some s → c = c'

/-- Who has released the lock has left it undisturbed. -/
def Recorded (w : World) : Prop :=
  ∀ c k, w.calls c = some ⟨k, .ended .released⟩ → Event.left c true ∈ w.log k

/-- What a step does. -/
inductive Moves (w : World) : World → Prop
  | refused {c : Nat} {k : String} {exit : FenceExit} : w.calls c = none → exit ≠ .released →
      Moves w (w.setCall c k (.ended exit))
  | connected {c s : Nat} {k : String} : w.calls c = none →
      w.sessions s = .idle ∨ w.sessions s = .unopened →
      Moves w ((w.setSession s .busy).setCall c k (.connected s))
  | granted {c s : Nat} {k : String} : w.calls c = some ⟨k, .connected s⟩ → w.locks k = none →
      Moves w (((w.setLock k (some ⟨s, 1, c⟩)).record k (.granted c)).setCall c k (.inside s))
  | grantedUnknown {c s : Nat} {k : String} : w.calls c = some ⟨k, .connected s⟩ →
      w.locks k = none →
      Moves w (((w.setLock k (some ⟨s, 1, c⟩)).record k (.granted c)).invalidate c k s .raised)
  | checkedIn {c s : Nat} {k : String} {exit : FenceExit} : w.calls c = some ⟨k, .connected s⟩ →
      exit ≠ .released → Moves w (w.checkIn c k s exit)
  | invalidated {c s : Nat} {k : String} {phase : FencePhase} {exit : FenceExit} :
      w.calls c = some ⟨k, phase⟩ → phase.session? = some s → exit ≠ .released →
      Moves w (w.invalidate c k s exit)
  | released {c s : Nat} {k : String} : w.calls c = some ⟨k, .inside s⟩ →
      w.locks k = some ⟨s, 1, c⟩ →
      Moves w (((w.setLock k none).record k (.left c true)).checkIn c k s .released)
  | releasedUnknown {c s : Nat} {k : String} : w.calls c = some ⟨k, .inside s⟩ →
      w.locks k = some ⟨s, 1, c⟩ → Moves w ((w.setLock k none).invalidate c k s .broken)
  | killed (s : Nat) : Moves w (w.kill s)

section Step

variable {w w' : World}

/-- A session that has just been taken from the pool does not have the lock already. -/
theorem Tidy.not_own (h : Tidy w) {c s : Nat} {k : String} {l : Lock}
    (hc : w.calls c = some ⟨k, .connected s⟩) (hl : w.locks k = some l) : l.session ≠ s := by
  rintro rfl
  rcases (h.lock k l hl).2 with hin | ⟨hgone, -⟩
  · obtain rfl := h.own _ _ _ _ _ hc hin rfl rfl
    rw [hc] at hin
    cases hin
  · rw [h.busy c _ _ hc rfl] at hgone
    cases hgone

theorem Tidy.acquire_moves (h : Tidy w) {c s : Nat} {k : String}
    (hc : w.calls c = some ⟨k, .connected s⟩) (reply : Reply) :
    Moves w (w.acquire c k s reply) := by
  cases hl : w.locks k with
  | none =>
    have hget : w.getLock c k s =
        (true, (w.setLock k (some ⟨s, 1, c⟩)).record k (.granted c)) := by rw [World.getLock, hl]
    cases reply with
    | answered =>
      simp only [World.acquire, hget]
      exact .granted hc hl
    | null | raised => exact .checkedIn hc nofun
    | lost executed =>
      cases executed with
      | true =>
        simp only [World.acquire, hget]
        exact .grantedUnknown hc hl
      | false => exact .invalidated hc rfl nofun
  | some l =>
    have hget : w.getLock c k s = (false, w) := by
      rw [World.getLock, hl]
      exact if_neg (h.not_own hc hl)
    cases reply with
    | answered =>
      simp only [World.acquire, hget]
      exact .checkedIn hc nofun
    | null | raised => exact .checkedIn hc nofun
    | lost executed =>
      cases executed with
      | true =>
        simp only [World.acquire, hget]
        exact .invalidated hc rfl nofun
      | false => exact .invalidated hc rfl nofun

theorem releaseLock_own {c s : Nat} {k : String} (hl : w.locks k = some ⟨s, 1, c⟩) :
    w.releaseLock k s = (true, w.setLock k none) := by
  rw [World.releaseLock, hl]
  exact if_pos rfl

theorem Tidy.release_moves (h : Tidy w) {c s : Nat} {k : String}
    (hc : w.calls c = some ⟨k, .inside s⟩) {reply : Reply} (hreply : answers w s reply = true) :
    Moves w (w.release c k s reply) := by
  cases reply with
  | null | raised => exact .invalidated hc rfl nofun
  | answered =>
    have hlive : w.killed s = false := by simpa [answers] using hreply
    have hl := h.inside c k s hc hlive
    simp only [World.release, releaseLock_own hl]
    exact .released hc hl
  | lost executed =>
    cases executed with
    | true =>
      have hlive : w.killed s = false := by simpa [answers] using hreply
      have hl := h.inside c k s hc hlive
      simp only [World.release, releaseLock_own hl]
      exact .releasedUnknown hc hl
    | false => exact .invalidated hc rfl nofun

theorem Tidy.step_moves (h : Tidy w) {a : LockAction} (hs : step w a = some w') : Moves w w' := by
  cases a with
  | hold c k session =>
    cases hc : w.calls c with
    | some call =>
      simp only [step, hc] at hs
      cases hs
    | none =>
      cases session with
      | none =>
        simp only [step, hc] at hs
        obtain rfl := Option.some.inj hs
        refine .refused hc ?_
        split <;> nofun
      | some s =>
        simp only [step, hc] at hs
        split at hs
        · obtain rfl := Option.some.inj hs
          exact .refused hc nofun
        · split at hs
          · next hfree =>
            obtain rfl := Option.some.inj hs
            exact .connected hc hfree
          · cases hs
  | acquire c reply =>
    rw [step] at hs
    split at hs
    · next k s hc =>
      split at hs
      · obtain rfl := Option.some.inj hs
        exact h.acquire_moves hc reply
      · cases hs
    · cases hs
  | release c reply =>
    rw [step] at hs
    split at hs
    · next k s hc =>
      split at hs
      · next hreply =>
        obtain rfl := Option.some.inj hs
        exact h.release_moves hc hreply
      · cases hs
    · cases hs
  | kill s =>
    obtain rfl := Option.some.inj hs
    exact .killed s
  | crash c =>
    rw [step] at hs
    split at hs
    · next k s hc =>
      obtain rfl := Option.some.inj hs
      exact .invalidated hc rfl nofun
    · next k s hc =>
      obtain rfl := Option.some.inj hs
      exact .invalidated hc rfl nofun
    · cases hs

/-! ## What every step keeps -/

/-- The tenant of a lock is in its body or has ended. -/
theorem Tidy.tenant_ne (h : Tidy w) {c : Nat} {k : String} {l : Lock} (hl : w.locks k = some l)
    (hin : ∀ s, w.calls c ≠ some ⟨k, .inside s⟩)
    (hended : ∀ exit, w.calls c ≠ some ⟨k, .ended exit⟩) : l.tenant ≠ c := by
  rintro rfl
  rcases (h.lock k l hl).2 with h' | ⟨-, exit, h'⟩
  · exact hin _ h'
  · exact hended _ h'

theorem Tidy.tenant_ne_of_none (h : Tidy w) {c : Nat} {k : String} {l : Lock}
    (hl : w.locks k = some l) (hc : w.calls c = none) : l.tenant ≠ c :=
  h.tenant_ne hl (fun s => by rw [hc]; nofun) fun exit => by rw [hc]; nofun

theorem Tidy.tenant_ne_of_connected (h : Tidy w) {c s : Nat} {k k' : String} {l : Lock}
    (hl : w.locks k = some l) (hc : w.calls c = some ⟨k', .connected s⟩) : l.tenant ≠ c :=
  h.tenant_ne hl (fun s => by rw [hc]; nofun) fun exit => by rw [hc]; nofun

/-- A call in its body has no lock but its own. -/
theorem Tidy.tenant_ne_of_inside (h : Tidy w) {c s : Nat} {k k' : String} {l : Lock}
    (hl : w.locks k = some l) (hc : w.calls c = some ⟨k', .inside s⟩) (hk : k ≠ k') :
    l.tenant ≠ c := by
  refine h.tenant_ne hl (fun s' => ?_) fun exit => by rw [hc]; nofun
  rw [hc]
  intro heq
  exact hk (FenceCall.mk.inj (Option.some.inj heq)).1.symm

/-- A call ends and gives up its session; it may leave its lock behind only with a session that is
gone. -/
theorem Tidy.ends (h : Tidy w) (state : SessionState) {c s : Nat} {k : String} {phase : FencePhase}
    {exit : FenceExit} (hc : w.calls c = some ⟨k, phase⟩) (hphase : phase.session? = some s)
    (hcalls : ∀ c', w'.calls c' = if c' = c then some ⟨k, .ended exit⟩ else w.calls c')
    (hsessions : ∀ s', w'.sessions s' = if s' = s then state else w.sessions s')
    (hkilled : w'.killed = w.killed)
    (hlocks : ∀ k' l, w'.locks k' = some l →
      w.locks k' = some l ∧ (l.tenant = c → state = .gone) ∨
        k' = k ∧ l = ⟨s, 1, c⟩ ∧ state = .gone)
    (hkept : ∀ k' l, w.locks k' = some l → l.tenant ≠ c → w'.locks k' = some l) : Tidy w' where
  lock k' l hl := by
    rcases hlocks k' l hl with ⟨hold, hgone⟩ | ⟨rfl, rfl, hgone⟩
    · obtain ⟨hcount, hwho⟩ := h.lock k' l hold
      refine ⟨hcount, ?_⟩
      rcases hwho with hin | ⟨hsession, exit', hended⟩
      · by_cases htenant : l.tenant = c
        · rw [htenant, hc] at hin
          obtain ⟨rfl, rfl⟩ := FenceCall.mk.inj (Option.some.inj hin)
          obtain rfl := Option.some.inj hphase
          refine .inr ⟨?_, exit, ?_⟩
          · rw [hsessions, if_pos rfl, hgone htenant]
          · rw [hcalls, if_pos htenant]
        · exact .inl (by rw [hcalls, if_neg htenant, hin])
      · refine .inr ⟨?_, exit', ?_⟩
        · rw [hsessions, if_neg, hsession]
          rintro rfl
          rw [h.busy c _ _ hc hphase] at hsession
          cases hsession
        · rw [hcalls, if_neg, hended]
          rintro heq
          rw [heq, hc] at hended
          obtain ⟨-, rfl⟩ := FenceCall.mk.inj (Option.some.inj hended)
          cases hphase
    · exact ⟨rfl, .inr ⟨by rw [hsessions, if_pos rfl, hgone], exit, by rw [hcalls, if_pos rfl]⟩⟩
  inside c' k' s' hc' hlive := by
    rw [hcalls] at hc'
    by_cases hcc : c' = c
    · rw [if_pos hcc] at hc'
      cases hc'
    · rw [if_neg hcc] at hc'
      rw [hkilled] at hlive
      exact hkept k' _ (h.inside c' k' s' hc' hlive) hcc
  busy c' call s' hc' hs' := by
    rw [hcalls] at hc'
    by_cases hcc : c' = c
    · rw [if_pos hcc] at hc'
      obtain rfl := Option.some.inj hc'
      cases hs'
    · rw [if_neg hcc] at hc'
      rw [hsessions, if_neg, h.busy c' call s' hc' hs']
      rintro rfl
      exact hcc (h.own _ _ _ _ _ hc' hc hs' hphase)
  own c' c'' call call' s' hc' hc'' hs' hs'' := by
    rw [hcalls] at hc' hc''
    by_cases hcc : c' = c
    · rw [if_pos hcc] at hc'
      obtain rfl := Option.some.inj hc'
      cases hs'
    · by_cases hcc' : c'' = c
      · rw [if_pos hcc'] at hc''
        obtain rfl := Option.some.inj hc''
        cases hs''
      · rw [if_neg hcc] at hc'
        rw [if_neg hcc'] at hc''
        exact h.own _ _ _ _ _ hc' hc'' hs' hs''

theorem Tidy.refused (h : Tidy w) {c : Nat} {k : String} {exit : FenceExit} (hc : w.calls c = none) :
    Tidy (w.setCall c k (.ended exit)) where
  lock k' l hl := by
    obtain ⟨hcount, hwho⟩ := h.lock k' l hl
    have hne : l.tenant ≠ c := h.tenant_ne_of_none hl hc
    simp only [calls_setCall, if_neg hne]
    exact ⟨hcount, hwho⟩
  inside c' k' s' hc' hlive := by
    rw [calls_setCall] at hc'
    split at hc'
    · cases hc'
    · exact h.inside c' k' s' hc' hlive
  busy c' call s' hc' hs' := by
    rw [calls_setCall] at hc'
    split at hc'
    · obtain rfl := Option.some.inj hc'
      cases hs'
    · exact h.busy c' call s' hc' hs'
  own c' c'' call call' s' hc' hc'' hs' hs'' := by
    rw [calls_setCall] at hc' hc''
    split at hc'
    · obtain rfl := Option.some.inj hc'
      cases hs'
    · split at hc''
      · obtain rfl := Option.some.inj hc''
        cases hs''
      · exact h.own _ _ _ _ _ hc' hc'' hs' hs''

/-- A session of the pool, or a new one, is no one's yet. -/
theorem Tidy.connected (h : Tidy w) {c s : Nat} {k : String} (hc : w.calls c = none)
    (hs : w.sessions s = .idle ∨ w.sessions s = .unopened) :
    Tidy ((w.setSession s .busy).setCall c k (.connected s)) := by
  have hfree : ∀ c' call, w.calls c' = some call → call.phase.session? ≠ some s := by
    intro c' call hc' hs'
    rw [h.busy c' call s hc' hs'] at hs
    rcases hs with hs | hs <;> cases hs
  have hcalls : ∀ c', ((w.setSession s .busy).setCall c k (.connected s)).calls c' =
      if c' = c then some ⟨k, .connected s⟩ else w.calls c' := fun c' => calls_setCall _
  have hsessions : ∀ s', ((w.setSession s .busy).setCall c k (.connected s)).sessions s' =
      if s' = s then .busy else w.sessions s' := fun s' => sessions_setSession _
  constructor
  · intro k' l hl
    obtain ⟨hcount, hwho⟩ := h.lock k' l hl
    have hne : l.tenant ≠ c := h.tenant_ne_of_none hl hc
    rw [hcalls, if_neg hne]
    refine ⟨hcount, hwho.imp_right fun ⟨hgone, hended⟩ => ⟨?_, hended⟩⟩
    rw [hsessions, if_neg, hgone]
    rintro heq
    rw [heq] at hgone
    rw [hgone] at hs
    rcases hs with hs | hs <;> cases hs
  · intro c' k' s' hc' hlive
    rw [hcalls] at hc'
    split at hc'
    · cases hc'
    · exact h.inside c' k' s' hc' hlive
  · intro c' call s' hc' hs'
    rw [hcalls] at hc'
    rw [hsessions]
    split at hc'
    · obtain rfl := Option.some.inj hc'
      rw [if_pos (Option.some.inj hs').symm]
    · split
      · rfl
      · exact h.busy c' call s' hc' hs'
  · intro c' c'' call call' s' hc' hc'' hs' hs''
    rw [hcalls] at hc' hc''
    split at hc'
    · next hcc =>
      obtain rfl := Option.some.inj hc'
      obtain rfl := Option.some.inj hs'
      split at hc''
      · next hcc' => rw [hcc, hcc']
      · exact absurd hs'' (hfree _ _ hc'')
    · split at hc''
      · obtain rfl := Option.some.inj hc''
        obtain rfl := Option.some.inj hs''
        exact absurd hs' (hfree _ _ hc')
      · exact h.own _ _ _ _ _ hc' hc'' hs' hs''

theorem Tidy.granted (h : Tidy w) {c s : Nat} {k : String} (hc : w.calls c = some ⟨k, .connected s⟩)
    (hl : w.locks k = none) :
    Tidy (((w.setLock k (some ⟨s, 1, c⟩)).record k (.granted c)).setCall c k (.inside s)) := by
  have hcalls : ∀ c', (((w.setLock k (some ⟨s, 1, c⟩)).record k (.granted c)).setCall c k
      (.inside s)).calls c' = if c' = c then some ⟨k, .inside s⟩ else w.calls c' :=
    fun c' => calls_setCall _
  have hlocks : ∀ k', (((w.setLock k (some ⟨s, 1, c⟩)).record k (.granted c)).setCall c k
      (.inside s)).locks k' = if k' = k then some ⟨s, 1, c⟩ else w.locks k' := fun k' => locks_setLock _
  -- the session of a call is what it was
  have hsession : ∀ c' call s', (if c' = c then some (⟨k, .inside s⟩ : FenceCall) else w.calls c') =
      some call → call.phase.session? = some s' →
      ∃ old, w.calls c' = some old ∧ old.phase.session? = some s' := by
    intro c' call s' hc' hs'
    split at hc'
    · next hcc =>
      obtain rfl := Option.some.inj hc'
      exact ⟨⟨k, .connected s⟩, hcc ▸ hc, hs'⟩
    · exact ⟨call, hc', hs'⟩
  constructor
  · intro k' l hl'
    rw [hlocks] at hl'
    split at hl'
    · next hk =>
      obtain rfl := Option.some.inj hl'
      exact ⟨rfl, .inl (by rw [hcalls, if_pos rfl, hk])⟩
    · obtain ⟨hcount, hwho⟩ := h.lock k' l hl'
      have hne : l.tenant ≠ c := h.tenant_ne_of_connected hl' hc
      rw [hcalls, if_neg hne]
      exact ⟨hcount, hwho⟩
  · intro c' k' s' hc' hlive
    rw [hcalls] at hc'
    rw [hlocks]
    split at hc'
    · next hcc =>
      obtain ⟨rfl, hin⟩ := FenceCall.mk.inj (Option.some.inj hc')
      obtain rfl := FencePhase.inside.inj hin
      rw [if_pos rfl, hcc]
    · have hin := h.inside c' k' s' hc' hlive
      rw [if_neg, hin]
      rintro rfl
      rw [hl] at hin
      cases hin
  · intro c' call s' hc' hs'
    rw [hcalls] at hc'
    obtain ⟨old, hold, hs'⟩ := hsession c' call s' hc' hs'
    exact h.busy c' old s' hold hs'
  · intro c' c'' call call' s' hc' hc'' hs' hs''
    rw [hcalls] at hc' hc''
    obtain ⟨old, hold, hs'⟩ := hsession c' call s' hc' hs'
    obtain ⟨old', hold', hs''⟩ := hsession c'' call' s' hc'' hs''
    exact h.own _ _ _ _ _ hold hold' hs' hs''

theorem Tidy.killed (h : Tidy w) (s : Nat) : Tidy (w.kill s) where
  lock k l hl := by
    obtain ⟨hold, -⟩ := Option.filter_eq_some_iff.mp hl
    exact h.lock k l hold
  inside c k s' hc hlive := by
    rw [killed_kill] at hlive
    split at hlive
    · cases hlive
    · next hne =>
      refine Option.filter_eq_some_iff.mpr ⟨h.inside c k s' hc hlive, ?_⟩
      exact decide_eq_true hne
  busy := h.busy
  own := h.own

/-- The locks when a call has given up its own. -/
theorem Tidy.freed (h : Tidy w) {c s : Nat} {k : String} (hc : w.calls c = some ⟨k, .inside s⟩)
    (hl : w.locks k = some ⟨s, 1, c⟩) :
    (∀ k' l, (w.setLock k none).locks k' = some l → w.locks k' = some l ∧ l.tenant ≠ c) ∧
      ∀ k' l, w.locks k' = some l → l.tenant ≠ c → (w.setLock k none).locks k' = some l := by
  refine ⟨fun k' l hl' => ?_, fun k' l hl' htenant => ?_⟩
  · rw [locks_setLock] at hl'
    split at hl'
    · cases hl'
    · next hk => exact ⟨hl', h.tenant_ne_of_inside hl' hc hk⟩
  · rw [locks_setLock, if_neg, hl']
    rintro rfl
    rw [hl] at hl'
    obtain rfl := Option.some.inj hl'
    exact htenant rfl

theorem Tidy.step (h : Tidy w) {a : LockAction} (hs : NamedLock.step w a = some w') : Tidy w' := by
  cases h.step_moves hs with
  | refused hc => exact h.refused hc
  | connected hc hfree => exact h.connected hc hfree
  | granted hc hl => exact h.granted hc hl
  | @grantedUnknown c s k hc hl =>
    refine h.ends .gone hc rfl (fun _ => calls_setCall _) (fun _ => sessions_setSession _)
      rfl (fun k' l hl' => ?_) fun k' l hold htenant => ?_
    · have hl' : (w.setLock k (some ⟨s, 1, c⟩)).locks k' = some l := hl'
      rw [locks_setLock] at hl'
      split at hl'
      · next hk => exact .inr ⟨hk, (Option.some.inj hl').symm, rfl⟩
      · exact .inl ⟨hl', fun _ => rfl⟩
    · show (w.setLock k (some ⟨s, 1, c⟩)).locks k' = some l
      rw [locks_setLock, if_neg, hold]
      rintro rfl
      rw [hl] at hold
      cases hold
  | @checkedIn c s k exit hc hexit =>
    exact h.ends .idle hc rfl (fun _ => calls_setCall _) (fun _ => sessions_setSession _)
      rfl (fun k' l hl => .inl ⟨hl, fun htenant => absurd htenant (h.tenant_ne_of_connected hl hc)⟩)
      fun k' l hold _ => hold
  | @invalidated c s k phase exit hc hphase hexit =>
    exact h.ends .gone hc hphase (fun _ => calls_setCall _) (fun _ => sessions_setSession _)
      rfl (fun k' l hl => .inl ⟨hl, fun _ => rfl⟩) fun k' l hold _ => hold
  | @released c s k hc hl =>
    obtain ⟨hlocks, hkept⟩ := h.freed hc hl
    exact h.ends .idle hc rfl (fun _ => calls_setCall _) (fun _ => sessions_setSession _)
      rfl (fun k' l hl' => .inl ((hlocks k' l hl').imp_right fun hne htenant => absurd htenant hne))
      hkept
  | @releasedUnknown c s k hc hl =>
    obtain ⟨hlocks, hkept⟩ := h.freed hc hl
    exact h.ends .gone hc rfl (fun _ => calls_setCall _) (fun _ => sessions_setSession _)
      rfl (fun k' l hl' => .inl ((hlocks k' l hl').imp_right fun _ _ => rfl)) hkept
  | killed s => exact h.killed s

theorem released_setCall {c c' : Nat} {k k' : String} {phase : FencePhase}
    (h : (w.setCall c k phase).calls c' = some ⟨k', .ended .released⟩)
    (hphase : phase ≠ .ended .released) : w.calls c' = some ⟨k', .ended .released⟩ := by
  rw [calls_setCall] at h
  split at h
  · exact absurd (FenceCall.mk.inj (Option.some.inj h)).2 hphase
  · exact h

theorem mem_log_record {k k' : String} {e e' : Event Nat} (h : e' ∈ w.log k') :
    e' ∈ (w.record k e).log k' := by
  rw [log_record]
  split
  · next hk => exact List.mem_cons_of_mem _ (hk ▸ h)
  · exact h

theorem Recorded.of_ended (h : Recorded w) (w₁ : World) {c : Nat} {k : String} {exit : FenceExit}
    (hcalls : w₁.calls = w.calls) (hlog : ∀ k e, e ∈ w.log k → e ∈ w₁.log k) (hexit : exit ≠ .released) :
    Recorded (w₁.setCall c k (.ended exit)) := by
  intro c' k' hc'
  have hold := released_setCall hc' fun he => hexit (FencePhase.ended.inj he)
  rw [hcalls] at hold
  exact hlog k' _ (h c' k' hold)

theorem Recorded.step (h : Recorded w) (hT : Tidy w) {a : LockAction}
    (hs : NamedLock.step w a = some w') : Recorded w' := by
  cases hT.step_moves hs with
  | refused hc hexit => exact h.of_ended _ rfl (fun _ _ he => he) hexit
  | connected hc hfree => exact fun c' k' hc' => h c' k' (released_setCall hc' nofun)
  | @granted c s k hc hl =>
    exact fun c' k' hc' => mem_log_record (h c' k' (released_setCall hc' nofun))
  | grantedUnknown hc hl =>
    exact h.of_ended ((World.record _ _ _).setSession _ _) rfl (fun _ _ he => mem_log_record he) nofun
  | @checkedIn c s k exit hc hexit =>
    exact h.of_ended (w.setSession s .idle) rfl (fun _ _ he => he) hexit
  | @invalidated c s k phase exit hc hphase hexit =>
    exact h.of_ended (w.setSession s .gone) rfl (fun _ _ he => he) hexit
  | @releasedUnknown c s k hc hl =>
    exact h.of_ended ((w.setLock k none).setSession s .gone) rfl (fun _ _ he => he) nofun
  | @released c s k hc hl =>
    intro c' k' hc'
    have hc' : (((((w.setLock k none).record k (.left c true)).setSession s .idle).setCall c k
      (.ended .released)).calls c') = _ := hc'
    rw [calls_setCall] at hc'
    split at hc'
    · next hcc =>
      obtain ⟨rfl, -⟩ := FenceCall.mk.inj (Option.some.inj hc')
      show Event.left c' true ∈ ((w.setLock k none).record k (.left c true)).log k
      rw [log_record, if_pos rfl, hcc]
      exact List.mem_cons_self
    · exact mem_log_record (h c' k' hc')
  | killed s => exact h

end Step

theorem tidy_of_reachable {w : World} (hw : machine.Reachable w) : Tidy w := by
  refine Machine.ReachableVia.invariant (P := Tidy) ?_ (fun _ _ _ _ h _ hs => h.step hs) hw
  rintro _ rfl
  constructor
  · exact fun k l hl => nomatch hl
  · exact fun c k s hc => nomatch hc
  · exact fun c call s hc => nomatch hc
  · exact fun c c' call call' s hc => nomatch hc

theorem recorded_of_reachable {w : World} (hw : machine.Reachable w) : Recorded w := by
  refine Machine.ReachableVia.invariant (P := Recorded) ?_
    (fun _ _ _ hr h _ hs => h.step (tidy_of_reachable hr) hs) hw
  rintro _ rfl c k hc
  cases hc

/-! ## A lock is a slot -/

def World.slot (k : String) (w : World) : Slot Nat := ⟨(w.locks k).map Lock.tenant, w.log k⟩

theorem lets (k : String) : Lets machine (World.slot k) where
  init w hw := by
    obtain rfl : w = nothingHeld := hw
    rfl
  step w a w' hr hstep := by
    cases (tidy_of_reachable hr).step_moves hstep with
    | refused | connected | checkedIn | invalidated => exact slots_nil rfl
    | @granted c s k' hc hl | @grantedUnknown c s k' hc hl =>
      by_cases hk : k = k'
      · subst hk
        refine slots_grant (t := c) (by rw [World.slot, hl]; rfl) ?_
        show (⟨Option.map Lock.tenant ((w.setLock k _).locks k), (World.record _ k _).log k⟩ : Slot Nat) = _
        rw [locks_setLock, if_pos rfl, log_record, if_pos rfl]
        rfl
      · refine slots_nil ?_
        show (⟨Option.map Lock.tenant ((w.setLock k' _).locks k), (World.record _ k' _).log k⟩ : Slot Nat) = _
        rw [locks_setLock, if_neg hk, log_record, if_neg hk]
        rfl
    | @released c s k' hc hl =>
      by_cases hk : k = k'
      · subst hk
        refine slots_leave (t := c) (by rw [World.slot, hl]; rfl) ?_
        show (⟨Option.map Lock.tenant ((w.setLock k _).locks k), (World.record _ k _).log k⟩ : Slot Nat) = _
        rw [locks_setLock, if_pos rfl, log_record, if_pos rfl]
        rfl
      · refine slots_nil ?_
        show (⟨Option.map Lock.tenant ((w.setLock k' _).locks k), (World.record _ k' _).log k⟩ : Slot Nat) = _
        rw [locks_setLock, if_neg hk, log_record, if_neg hk]
        rfl
    | @releasedUnknown c s k' hc hl =>
      by_cases hk : k = k'
      · subst hk
        refine slots_evict ?_
        show (⟨Option.map Lock.tenant ((w.setLock k _).locks k), w.log k⟩ : Slot Nat) = _
        rw [locks_setLock, if_pos rfl]
        rfl
      · refine slots_nil ?_
        show (⟨Option.map Lock.tenant ((w.setLock k' _).locks k), w.log k⟩ : Slot Nat) = _
        rw [locks_setLock, if_neg hk]
        rfl
    | killed s =>
      cases hlock : (w.locks k).filter (fun lock => lock.session ≠ s) with
      | none =>
        refine slots_evict ?_
        show (⟨Option.map Lock.tenant ((w.locks k).filter _), w.log k⟩ : Slot Nat) = _
        rw [hlock]
        rfl
      | some l =>
        refine slots_nil ?_
        show (⟨Option.map Lock.tenant ((w.locks k).filter _), w.log k⟩ : Slot Nat) = _
        rw [hlock, World.slot, (Option.filter_eq_some_iff.mp hlock).1]

/-! ## The sections -/

/-- The call is in its body, and its session has not been killed. -/
def World.Live (w : World) (k : String) (c : Nat) : Prop :=
  ∃ s, w.calls c = some ⟨k, .inside s⟩ ∧ w.killed s = false

/-- A live call whose release is answered has released the lock. -/
theorem release_live {w : World} {k : String} {c : Nat} (hw : machine.Reachable w)
    (h : w.Live k c) :
    ∃ w', step w (.release c .answered) = some w' ∧ w'.calls c = some ⟨k, .ended .released⟩ := by
  obtain ⟨s, hc, hlive⟩ := h
  have hl := (tidy_of_reachable hw).inside c k s hc hlive
  have hreply : answers w s .answered = true := by rw [answers, hlive]; rfl
  refine ⟨_, by rw [step, hc]; exact if_pos hreply, ?_⟩
  simp only [World.release, releaseLock_own hl, World.checkIn, calls_setCall, if_true]

/-- **The sections of a fence.**  No session of the pool holds a lock; of the calls whose session is
alive one at most is in its body, and its release then succeeds; and between the grant of the lock to a
call that ends without an error and its release the lock was granted to no one. -/
theorem fence_sections {w : World} (hw : machine.Reachable w) (k : String) :
    (∀ s lock, w.sessions s = .idle → w.locks k = some lock → lock.session ≠ s) ∧
    (∀ c c', w.Live k c → w.Live k c' → c = c') ∧
    (∀ c, w.Live k c → ∃ w', step w (.release c .answered) = some w' ∧
      w'.calls c = some ⟨k, .ended .released⟩) ∧
    ∀ c, w.calls c = some ⟨k, .ended .released⟩ →
      ∃ newer between older, w.log k = newer ++ .left c true :: (between ++ .granted c :: older) ∧
        ∀ c', Event.granted c' ∉ between := by
  have hT := tidy_of_reachable hw
  refine ⟨fun s lock hs hl => ?_, fun c c' h h' => ?_, fun c h => release_live hw h, fun c hc => ?_⟩
  · rintro rfl
    rcases (hT.lock k lock hl).2 with hin | ⟨hgone, -⟩
    · rw [hT.busy _ _ _ hin rfl] at hs
      cases hs
    · rw [hgone] at hs
      cases hs
  · obtain ⟨s, hc, hlive⟩ := h
    obtain ⟨s', hc', hlive'⟩ := h'
    have hl := hT.inside c k s hc hlive
    rw [hT.inside c' k s' hc' hlive'] at hl
    exact (Lock.mk.inj (Option.some.inj hl)).2.2.symm
  · exact ((lets k).orderly hw).alone (recorded_of_reachable hw c k hc)

/-- The session of a call is killed in its body, and another call enters. -/
def killedInside : List LockAction :=
  [.hold 1 "document:index:7" (some 1), .hold 2 "document:index:7" (some 2), .acquire 1 .answered,
    .kill 1, .acquire 2 .answered, .release 1 (.lost false), .release 2 .answered]

def killedWorld : World := (machine.run nothingHeld killedInside).getD nothingHeld

/-- The first call raises, and the second was alone. -/
theorem fence_sections_killed :
    killedWorld.calls 1 = some ⟨"document:index:7", .ended .broken⟩ ∧
      ∃ newer between older, killedWorld.log "document:index:7" =
          newer ++ .left 2 true :: (between ++ .granted 2 :: older) ∧
        ∀ c', Event.granted c' ∉ between := by
  have hrun : machine.run nothingHeld killedInside = some killedWorld := rfl
  exact ⟨rfl, (fence_sections (.run (.init rfl) hrun) "document:index:7").2.2.2 2 rfl⟩

end DocFlow.NamedLock
