import SbEasy.Users
import SbEasy.JsonParse

/-!
`sb_proxy_lease_exchange`: one request of a node, applied once.

The reports of the request are written row by row, then every user of the node gets its
lease extended, and the response is stored under the sequence number of the request so
that a retry gets it again.
-/

namespace SbEasy

structure DevicePolicy where
  id : Bytes
  expiresAt : ℤ
  password : Bytes
  deriving DecidableEq

structure LeasePolicy where
  id : Bytes
  grantBytes : ℤ
  usedBytes : ℤ
  expiresAt : ℤ
  deriving DecidableEq

structure UserPolicy where
  id : Bytes
  epoch : ℤ
  lease : LeasePolicy
  devices : List DevicePolicy
  deriving DecidableEq

structure NodePolicy where
  listen : Bytes
  listenPort : ℤ
  password : Bytes
  deriving DecidableEq

structure Policy where
  hostId : Bytes
  bootId : Bytes
  requestSeq : ℤ
  generatedAt : ℤ
  expiresAt : ℤ
  node : Option NodePolicy
  users : List UserPolicy
  deriving DecidableEq

def method : Bytes := lit "2022-blake3-aes-128-gcm"

def DevicePolicy.toSbj (d : DevicePolicy) : Sbj :=
  (((Sbj.obj []).set (lit "id") (.str d.id)).set (lit "expires_at") (.int d.expiresAt)).set
    (lit "password") (.str d.password)

def LeasePolicy.toSbj (l : LeasePolicy) : Sbj :=
  ((((Sbj.obj []).set (lit "id") (.str l.id)).set (lit "grant_bytes") (.int l.grantBytes)).set
    (lit "used_bytes") (.int l.usedBytes)).set (lit "expires_at") (.int l.expiresAt)

def UserPolicy.toSbj (u : UserPolicy) : Sbj :=
  ((((Sbj.obj []).set (lit "id") (.str u.id)).set (lit "epoch") (.int u.epoch)).set
    (lit "lease") u.lease.toSbj).set (lit "devices") (.arr (u.devices.map DevicePolicy.toSbj))

def NodePolicy.toSbj (n : NodePolicy) : Sbj :=
  ((((Sbj.obj []).set (lit "listen") (.str n.listen)).set
    (lit "listen_port") (.int n.listenPort)).set (lit "method") (.str method)).set
    (lit "password") (.str n.password)

def Policy.toSbj (p : Policy) : Sbj :=
  (((((((((Sbj.obj []).set (lit "version") (.int 1)).set (lit "host_id") (.str p.hostId)).set
    (lit "boot_id") (.str p.bootId)).set (lit "request_seq") (.int p.requestSeq)).set
    (lit "generated_at") (.int p.generatedAt)).set (lit "expires_at") (.int p.expiresAt)).set
    (lit "node") .null).set (lit "users") (.arr (p.users.map UserPolicy.toSbj))).set
    (lit "node") ((p.node.map NodePolicy.toSbj).getD .null)

/-! ### The request -/

/-- Whether two neighbours are equal. -/
def adjacentEqual : List Bytes → Bool
  | a :: b :: l => a == b || adjacentEqual (b :: l)
  | _ => false

section
variable [Platform]

/-- The request envelope. -/
def requestOk (request : Sbj) (now : ℤ) : Bool :=
  let reports := Sbj.get (some request) (lit "reports")
  Sbj.isObject (some request) && (Sbj.members (some request)).length == 4 &&
    numberOk (some request) (lit "version") 1 1 &&
    textOk (Sbj.get (some request) (lit "boot_id")) 128 true &&
    numberOk (some request) (lit "request_seq") 1 safeInteger &&
    Sbj.isArray reports && (Sbj.items reports).length ≤ 4096 && !(now < 1 || now > 4102444740)

def reportOk (r : Sbj) : Bool :=
  Sbj.isObject (some r) && (Sbj.members (some r)).length == 2 &&
    textOk (Sbj.get (some r) (lit "lease_id")) 128 true &&
    numberOk (some r) (lit "used_bytes") 0 safeInteger

/-- `qsort` and a comparison of neighbours. -/
def duplicateReports (reports : List Sbj) : Bool :=
  adjacentEqual (orderBy (fun i => i)
    (reports.map fun r => Sbj.getStr (some r) (lit "lease_id") []))

def requestReports (request : Sbj) : List Sbj := Sbj.items (Sbj.get (some request) (lit "reports"))
def requestBoot (request : Sbj) : Bytes := Sbj.getStr (some request) (lit "boot_id") []
def requestSeq (request : Sbj) : ℤ := Sbj.getInt (some request) (lit "request_seq") 0
def requestHash (request : Sbj) : Bytes := Platform.sha256 (dump request (-1))

namespace Center

open Tx

/-- `report_locked` -/
def reportLocked (host boot : Bytes) (report : Sbj) (now : ℤ) : Op Unit := do
  let id := Sbj.getStr (some report) (lit "lease_id") []
  let used := Sbj.getInt (some report) (lit "used_bytes") 0
  let row ← query fun db =>
    db.leases.find? fun l => l.id == id && l.hostId == host && l.bootId == boot
  require (row.any fun l => used ≥ l.usedBytes && used ≤ l.grantBytes)
    ⟨.conflict, "Unknown lease, counter rollback or usage exceeding the grant"⟩
  write fun db => { db with
    leases := Table.update (fun l => l.id == id)
      (fun l => { l with usedBytes := used, updatedAt := now }) db.leases }

def reportsLocked (host boot : Bytes) (now : ℤ) : List Sbj → Op Unit
  | [] => pure ()
  | r :: reports => do
    reportLocked host boot r now
    reportsLocked host boot now reports

/-- `devices_locked` for the policy. -/
def policyDevices (db : Db) (user : Bytes) (now : ℤ) : List DevicePolicy :=
  (orderBy ProxyDevice.id (db.devices.filter (Db.activeDevice user now))).map fun d =>
    ⟨d.id, d.expiresAt, d.password⟩

/-- The nodes that share the user's quota. -/
def hostCount (db : Db) (user : Bytes) (now : ℤ) : ℕ :=
  db.userNodes.countP fun b => b.userId == user &&
    (db.ingress.any fun n => n.hostId == b.hostId && n.enabled) &&
    (db.hosts.any fun h => h.id == b.hostId && h.enabled) &&
    db.reports.any fun r => r.hostId == b.hostId && r.supported &&
      r.observedAt ≥ now - runtimeFreshSeconds && r.observedAt ≤ now

/-- The grant of `lease_locked`: extended when no more than a threshold of it is unused. -/
def nextGrant (quota allocated hosts grant used : ℤ) : ℤ :=
  let available := (if quota ≠ 0 then quota else safeInteger) - allocated
  let half := Int.tdiv grant 2
  let threshold := if half > Int.tdiv grantChunk 2 then Int.tdiv grantChunk 2 else half
  if (grant = 0 ∨ grant - used ≤ threshold) ∧ available > 0 then
    let add := Int.tdiv available hosts + if Int.tmod available hosts ≠ 0 then 1 else 0
    grant + if add > grantChunk then grantChunk else add
  else grant

def sameLease (user host boot : Bytes) (epoch : ℤ) (l : ProxyLease) : Bool :=
  l.userId == user && l.hostId == host && l.bootId == boot && l.epoch == epoch

/-- The `INSERT ... ON CONFLICT` of `lease_locked`; a lease identifier in use fails. -/
def putLease (new : ProxyLease) : Op Unit := do
  let taken ← query fun db =>
    !(db.leases.any (sameLease new.userId new.hostId new.bootId new.epoch)) &&
      db.leases.any fun l => l.id == new.id
  require (!taken) ⟨.generic, "execute SQL failed"⟩
  modify fun s => { s with db := { s.db with
    leases := Table.upsert (sameLease new.userId new.hostId new.bootId new.epoch)
      (fun l => { l with grantBytes := new.grantBytes, expiresAt := new.expiresAt
                         updatedAt := new.updatedAt }) new s.db.leases } }

/-- The identifier of the row, or a new one. -/
def leaseId : Option ProxyLease → Op Bytes
  | some l => pure l.id
  | none => uuidV4

/-- The end of a lease that is issued now. -/
def leaseUntil (u : ProxyUser) (now : ℤ) : ℤ :=
  if u.expiresAt ≠ 0 ∧ u.expiresAt < now + leaseSeconds then u.expiresAt else now + leaseSeconds

/-- `lease_locked`; `none` where the source returns JSON null. -/
def leaseLocked (host boot : Bytes) (user : ProxyUser) (now : ℤ) : Op (Option UserPolicy) := do
  let devices ← query fun db => policyDevices db user.id now
  if devices.isEmpty then pure none
  else
    let row ← query fun db => db.leases.find? (sameLease user.id host boot user.epoch)
    let allocated ← query fun db => db.allocated user.id user.epoch
    let hosts ← query fun db => hostCount db user.id now
    require (hosts ≥ 1) ⟨.generic, ""⟩
    let used := (row.map ProxyLease.usedBytes).getD 0
    let grant := nextGrant user.quotaBytes allocated hosts ((row.map ProxyLease.grantBytes).getD 0) used
    if grant ≤ used then pure none
    else
      let id ← leaseId row
      putLease ⟨id, user.id, host, boot, user.epoch, grant, used, leaseUntil user now, now⟩
      pure (some ⟨user.id, user.epoch, ⟨id, grant, used, leaseUntil user now⟩, devices⟩)

/-- The users a host serves. -/
def hostUsers (db : Db) (host : Bytes) (now : ℤ) : List ProxyUser :=
  orderBy ProxyUser.id (db.users.filter fun u =>
    (db.userNodes.any fun b => b.userId == u.id && b.hostId == host) && u.enabled && !u.deleted &&
      (u.expiresAt == 0 || u.expiresAt > now))

/-- The loop over the users of the host. -/
def leasesLocked (host boot : Bytes) (now : ℤ) : List ProxyUser → Op (List UserPolicy)
  | [] => do
    sql
    pure []
  | u :: users => do
    sql
    let ms ← waitMs u.id u.epoch
    if ms > 0 ∨ u.notBefore > now then leasesLocked host boot now users
    else
      let p ← leaseLocked host boot u now
      let rest ← leasesLocked host boot now users
      pure (p.toList ++ rest)

/-- The node and the leases of a new request. -/
def policyLocked (host boot : Bytes) (seq now : ℤ) : Op Policy := do
  let node ← query fun db => db.ingress.find? fun n => n.hostId == host
  let ready ← query fun db => runtimeReady db host now
  match node with
  | some node =>
    if node.enabled && ready then
      let users ← query fun db => hostUsers db host now
      let leases ← leasesLocked host boot now users
      pure ⟨host, boot, seq, now, now + leaseSeconds,
        some ⟨node.listen, node.listenPort, node.serverKey⟩, leases⟩
    else pure ⟨host, boot, seq, now, now + leaseSeconds, none, []⟩
  | none => pure ⟨host, boot, seq, now, now + leaseSeconds, none, []⟩

def sameSession (host boot : Bytes) (x : LeaseSession) : Bool := x.hostId == host && x.bootId == boot

/-- The `INSERT ... ON CONFLICT` that stores the response. -/
def putSession (new : LeaseSession) : Op Unit :=
  write fun db => { db with
    sessions := Table.upsert (sameSession new.hostId new.bootId) (fun _ => new) new db.sessions }

/-- A request with a new sequence number. -/
def applyRequest (host : Bytes) (request : Sbj) (now : ℤ) : Op Sbj := do
  let boot := requestBoot request
  reportsLocked host boot now (requestReports request)
  let policy ← policyLocked host boot (requestSeq request) now
  putSession ⟨host, boot, requestSeq request, requestHash request, dump policy.toSbj (-1), now⟩
  pure policy.toSbj

/-- The transaction of `sb_proxy_lease_exchange`. -/
def exchangeLocked (host : Bytes) (request : Sbj) (now : ℤ) : Op Sbj := do
  let known ← query fun db => db.hosts.any fun h => h.id == host && h.enabled
  require known ⟨.auth, "Proxy lease host is unknown or disabled"⟩
  let row ← query fun db => db.sessions.find? (sameSession host (requestBoot request))
  let seq := requestSeq request
  let replay := row.any fun x => seq == x.requestSeq && requestHash request == x.requestHash
  require (replay || seq == ((row.map LeaseSession.requestSeq).getD 0) + 1) ⟨.conflict,
    "Proxy lease sequence changed; retry the same request or use the next sequence"⟩
  match replay, row with
  | true, some x =>
    match JsonParse.sbjParse x.response with
    | .ok v => pure v
    | .error _ => throw ⟨.generic, "Stored proxy lease snapshot is invalid"⟩
  | _, _ => applyRequest host request now

/-- `sb_proxy_lease_exchange` -/
def leaseExchange (host : Bytes) (request : Sbj) (now : ℤ) : Op Sbj := do
  require (requestOk request now) ⟨.validation, "Invalid proxy lease exchange"⟩
  require ((requestReports request).all reportOk) ⟨.validation, "Invalid proxy lease report"⟩
  require (!duplicateReports (requestReports request)) ⟨.validation, "Duplicate proxy lease report"⟩
  atomically (exchangeLocked host request now)

end Center
end
end SbEasy
