import SbEasy.Json
import SbEasy.Table

/-!
The tables of `018_proxy_users.sql`, with the columns the proxy-user code reads or writes.

The `CHECK` constraints and foreign keys are left to the code: it validates what it inserts.
Primary keys and `UNIQUE` constraints are tested where a row is inserted.
-/

namespace SbEasy

inductive ErrCode
  | generic | validation | notFound | conflict | auth | forbidden | script | io | upstream
  | unavailable | badJson
  deriving DecidableEq

/-- `sb_err` -/
structure Err where
  code : ErrCode
  msg : String
  deriving DecidableEq

lemma bind_ok {ε α β : Type} {x : Except ε α} {f : α → Except ε β} {b : β}
    (h : (x >>= f) = .ok b) : ∃ a, x = .ok a ∧ f a = .ok b := by
  cases x with
  | error e => cases h
  | ok a => exact ⟨a, rfl, h⟩

structure Host where
  id : Bytes
  enabled : Bool
  deriving DecidableEq

structure RuntimeReport where
  hostId : Bytes
  supported : Bool
  observedAt : ℤ
  deriving DecidableEq

structure IngressNode where
  hostId : Bytes
  enabled : Bool
  server : Bytes
  listen : Bytes
  listenPort : ℤ
  serverKey : Bytes
  updatedAt : ℤ
  deriving DecidableEq

structure ProxyUser where
  id : Bytes
  name : Bytes
  enabled : Bool
  deleted : Bool := false
  quotaBytes : ℤ
  expiresAt : ℤ
  maxDevices : ℤ
  epoch : ℤ := 1
  notBefore : ℤ := 0
  claimHash : Option Bytes := none
  createdAt : ℤ
  updatedAt : ℤ
  deriving DecidableEq

structure UserNode where
  userId : Bytes
  hostId : Bytes
  deriving DecidableEq

structure ProxyDevice where
  id : Bytes
  userId : Bytes
  name : Bytes
  enabled : Bool := true
  password : Bytes
  tokenHash : Bytes
  expiresAt : ℤ
  createdAt : ℤ
  revokedAt : Option ℤ := none
  deriving DecidableEq

structure ProxyLease where
  id : Bytes
  userId : Bytes
  hostId : Bytes
  bootId : Bytes
  epoch : ℤ
  grantBytes : ℤ
  usedBytes : ℤ
  expiresAt : ℤ
  updatedAt : ℤ
  deriving DecidableEq

structure LeaseSession where
  hostId : Bytes
  bootId : Bytes
  requestSeq : ℤ
  requestHash : Bytes
  response : Bytes
  updatedAt : ℤ
  deriving DecidableEq

structure Db where
  hosts : List Host
  reports : List RuntimeReport
  ingress : List IngressNode
  users : List ProxyUser
  userNodes : List UserNode
  devices : List ProxyDevice
  leases : List ProxyLease
  sessions : List LeaseSession
  deriving DecidableEq

namespace Db

/-- A database with some hosts and empty proxy tables. -/
def fresh (hosts : List Host) : Db := ⟨hosts, [], [], [], [], [], [], []⟩

/-- The rows of a user's budget in an epoch, whatever their host and boot. -/
def ofEpoch (user : Bytes) (epoch : ℤ) (l : ProxyLease) : Bool :=
  l.userId == user && l.epoch == epoch

/-- `SELECT SUM(grant_bytes) FROM proxy_leases WHERE user_id=? AND epoch=?` -/
def allocated (db : Db) (user : Bytes) (epoch : ℤ) : ℤ :=
  Table.sum (ofEpoch user epoch) ProxyLease.grantBytes db.leases

/-- `SELECT SUM(used_bytes) FROM proxy_leases WHERE user_id=? AND epoch=?` -/
def reported (db : Db) (user : Bytes) (epoch : ℤ) : ℤ :=
  Table.sum (ofEpoch user epoch) ProxyLease.usedBytes db.leases

/-- A device that is enabled and not expired. -/
def activeDevice (user : Bytes) (now : ℤ) (d : ProxyDevice) : Bool :=
  d.userId == user && d.enabled && (d.expiresAt == 0 || d.expiresAt > now)

def activeDevices (db : Db) (user : Bytes) (now : ℤ) : ℕ := db.devices.countP (activeDevice user now)

/-- `SELECT COUNT(*) FROM proxy_users WHERE deleted=0` -/
def activeUsers (db : Db) : ℕ := db.users.countP fun u => !u.deleted

end Db

section

variable {ρ κ : Type} [Ord κ] {key : ρ → κ} {t : List ρ} {r : ρ}

/-- `ORDER BY` on a column; texts are compared in byte order. -/
def orderBy (key : ρ → κ) (t : List ρ) : List ρ :=
  t.insertionSort fun a b => (compare (key a) (key b)).isLE

lemma orderBy_perm (key : ρ → κ) (t : List ρ) : (orderBy key t).Perm t := List.perm_insertionSort _ _

lemma mem_orderBy : r ∈ orderBy key t ↔ r ∈ t := (orderBy_perm key t).mem_iff

end

end SbEasy
