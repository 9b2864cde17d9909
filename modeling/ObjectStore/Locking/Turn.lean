/-
Lock calls.

A call that waits takes turns.  A turn goes by steps: the call sees whether its locker is still
active, and then makes an attempt; blocked, it parks on a fresh signal, and then sees whether its
deadline has come.  A call that is to fail leaves the queue first.  Other calls may take steps
between any two of these; `turn` takes those of one turn with nothing in between.  The next turn
comes when the signal is given or the deadline comes.

A call that never waits makes one attempt and reports what stood in its way.
-/
import ObjectStore.Locking.Table

namespace ObjectStore

/-- What one turn of a waiting call comes to. -/
inductive LockTurn (L : Type) where
  | granted
  /-- The call is parked on the signal. -/
  | waiting (signal : Signal)
  | failed (error : LockError L)
  deriving DecidableEq, Repr

/-- How far a call has come in its turn. -/
inductive LockStage (L : Type) where
  /-- It is about to see whether its locker is active, -/
  | check
  /-- or to make its attempt. -/
  | attempt
  /-- It is parked, and about to see whether its deadline has come. -/
  | parked (signal : Signal) (holder : L)
  /-- It is about to leave the queue, and to fail. -/
  | leaving (error : LockError L)
  | ended (turn : LockTurn L)
  deriving DecidableEq, Repr

/-- What has come of a turn.  One that has not ended has come to nothing. -/
def LockStage.outcome {L : Type} : LockStage L → LockTurn L
  | ended turn => turn
  | _ => .failed .notActive

/-- A request and what stood in its way, if anything did. -/
structure LockAnswer (K L : Type) where
  key : K
  locker : L
  mode : LockMode
  conflict : Option L
  deriving DecidableEq, Repr

namespace LockAnswer

variable {K L : Type}

/-- Nothing stood in the way. -/
def isGranted (a : LockAnswer K L) : Bool := a.conflict.isNone

/-- The request and the conflict, given how keys and lockers are shown. -/
def text (keyText : K → String) (lockerText : L → String) (a : LockAnswer K L) : String :=
  s!"LockAttemptResult[key:{keyText a.key}, locker:{lockerText a.locker}, " ++
    s!"mode:{a.mode.text}, conflict:{Text.optional lockerText a.conflict}]"

end LockAnswer

namespace LockTable

variable {K L σ : Type} [DecidableEq K] [Hashable K] [DecidableEq L] [Lockers σ L]

/-- One step of a turn of a call by `locker` that waits until `deadline`. -/
def step (now deadline : Nat) (locker : L) (key : K) (mode : LockMode) :
    LockStage L × σ × LockTable K L → LockStage L × σ × LockTable K L
  | (.check, s, t) => (if Lockers.isActive s locker then .attempt else .leaving .notActive, s, t)
  | (.attempt, s, t) =>
    match t.attempt now locker key mode true s with
    | (.granted, s, t) => (.ended .granted, s, { t with parked := t.parked.erase locker })
    | (.blocked holder, s, t) =>
      let (signal, t) := t.park key locker holder
      (.parked signal holder, s, t)
  | (.parked signal holder, s, t) =>
    (if deadline ≤ now then .leaving (.timeout (some holder)) else .ended (.waiting signal), s, t)
  | (.leaving error, s, t) => (.ended (.failed error), s, t.abandon locker key)
  | (.ended turn, s, t) => (.ended turn, s, t)

/-- The steps of a turn with nothing in between.  There are four at most. -/
def allSteps (now deadline : Nat) (locker : L) (key : K) (mode : LockMode) (s : σ)
    (t : LockTable K L) : LockStage L × σ × LockTable K L :=
  let next := step now deadline locker key mode
  next (next (next (next (.check, s, t))))

/-- A turn as a whole. -/
def turn (now deadline : Nat) (locker : L) (key : K) (mode : LockMode) (s : σ)
    (t : LockTable K L) : LockTurn L × σ × LockTable K L :=
  let (stage, s, t) := t.allSteps now deadline locker key mode s
  (stage.outcome, s, t)

/-- A single attempt that neither waits nor queues. -/
def tryLock (now : Nat) (locker : L) (key : K) (mode : LockMode) (s : σ) (t : LockTable K L) :
    Except (LockError L) (LockAnswer K L) × σ × LockTable K L :=
  if Lockers.isActive s locker then
    match t.attempt now locker key mode false s with
    | (.granted, s, t) => (.ok ⟨key, locker, mode, none⟩, s, t)
    | (.blocked holder, s, t) => (.ok ⟨key, locker, mode, some holder⟩, s, t)
  else (.error .notActive, s, t)

/-- Whether a call parked on a signal until a deadline may take its next turn. -/
def isDue (now deadline : Nat) (signal : Signal) (t : LockTable K L) : Bool :=
  t.isNotified signal || decide (deadline ≤ now)

end LockTable

end ObjectStore
