import SbEasy.Schema

/-!
The fence of `proxy_clock.c`.

A process keeps, for each user, the epoch it has last seen and the monotonic time until
which leases of that epoch wait. The table outlives the transactions that fill it: what a
rolled-back reset has recorded stays.
-/

namespace SbEasy

def fenceMs : ℤ := 60000

structure EpochClock where
  user : Bytes
  epoch : ℤ
  untilMs : ℤ
  deriving DecidableEq

structure ProxyClock where
  startupUntil : ℤ
  lastNow : ℤ
  used : Bool
  epochs : List EpochClock
  deriving DecidableEq

namespace ProxyClock

/-- `epoch_find` -/
def epochFind (c : ProxyClock) (user : Bytes) : Option EpochClock :=
  c.epochs.find? fun e => e.user == user

/-- `epoch_add` -/
def epochAdd (c : ProxyClock) (user : Bytes) (epoch untilMs : ℤ) : ProxyClock :=
  { c with epochs := ⟨user, epoch, untilMs⟩ :: c.epochs }

/-- Assign to the entry that `epoch_find` returns. -/
def epochSet (user : Bytes) (epoch untilMs : ℤ) : List EpochClock → List EpochClock
  | [] => []
  | e :: l => if e.user == user then ⟨user, epoch, untilMs⟩ :: l else e :: epochSet user epoch untilMs l

/-- `read_now`, on what the clock source returns. -/
def readNow (c : ProxyClock) (reading : ℤ) : Option ProxyClock :=
  if reading < c.lastNow ∨ reading < 0 ∨ reading > int64Max - fenceMs then none
  else some { c with lastNow := reading }

/-- `observe_epoch` -/
def observeEpoch (c : ProxyClock) (user : Bytes) (epoch now : ℤ) : ProxyClock :=
  match c.epochFind user with
  | none => c.epochAdd user epoch (if epoch = 1 then 0 else now + fenceMs)
  | some entry =>
    if entry.epoch ≠ epoch then { c with epochs := epochSet user epoch (now + fenceMs) c.epochs }
    else c

/-- The end of the user's fence. -/
def untilOf (c : ProxyClock) (user : Bytes) : ℤ := ((c.epochFind user).map EpochClock.untilMs).getD 0

/-- `sb_proxy_clock_wait_ms` -/
def waitMs (c : ProxyClock) (user : Bytes) (epoch reading : ℤ) : ℤ × ProxyClock :=
  match ({ c with used := true } : ProxyClock).readNow reading with
  | none => (fenceMs, { c with used := true })
  | some c =>
    let c := c.observeEpoch user epoch reading
    let untilMs := if c.untilOf user > c.startupUntil then c.untilOf user else c.startupUntil
    (if untilMs > reading then untilMs - reading else 0, c)

/-- `sb_proxy_clock_reset_epoch` -/
def resetEpoch (c : ProxyClock) (user : Bytes) (epoch reading : ℤ) : ProxyClock :=
  match ({ c with used := true } : ProxyClock).readNow reading with
  | none => { c with used := true }
  | some c =>
    let c := c.observeEpoch user epoch reading
    { c with epochs := epochSet user epoch (reading + fenceMs) c.epochs }

/-- What `initialize_snapshot` finds in the database. -/
structure Snapshot where
  tables : ℕ
  outstanding : Bool
  users : List (Bytes × ℤ)

def unavailable : Err := ⟨.generic, "Monotonic clock is unavailable"⟩

/-- `sb_proxy_clock_attach` for a database that has no clock in this process yet, with
`initialize_snapshot`: the first reading, the snapshot and the reading after it. -/
def attach (first : ℤ) (snapshot : Snapshot) (observed : ℤ) : Except Err ProxyClock :=
  if first < 0 ∨ first > int64Max - fenceMs then .error unavailable
  else if snapshot.tables = 0 then .ok ⟨0, first, false, []⟩
  else if snapshot.tables ≠ 2 then .error ⟨.generic, "Incomplete proxy lease schema"⟩
  else if snapshot.users.any fun u => u.1.isEmpty || u.1.length > 128 || u.2 < 1 then
    .error ⟨.generic, "Invalid persisted proxy epoch"⟩
  else if observed < first ∨ observed > int64Max - fenceMs then .error unavailable
  else .ok
    { startupUntil := if snapshot.outstanding then observed + fenceMs else 0
      lastNow := observed
      used := false
      epochs := (snapshot.users.map fun u =>
        ⟨u.1, u.2, if u.2 > 1 then observed + fenceMs else 0⟩).reverse }

end ProxyClock

/-- The reads of `initialize_snapshot`. -/
def Db.snapshot (db : Db) : ProxyClock.Snapshot where
  tables := 2
  outstanding := db.leases.any fun l => l.grantBytes > l.usedBytes
  users := (db.users.filter fun u => !u.deleted).map fun u => (u.id, u.epoch)

end SbEasy
