import SbEasy.Center

/-!
The operations of `proxy_users.c` on users, devices and ingress nodes, and the host
operations of `store.c` they depend on.
-/

namespace SbEasy

def safeInteger : ℤ := 9007199254740991
def grantChunk : ℤ := 67108864
def leaseSeconds : ℤ := 60
def runtimeFreshSeconds : ℤ := 180
def maxTime : ℤ := 4102444800

def identifierByte (c : UInt8) : Bool :=
  (0x61 ≤ c && c ≤ 0x7A) || (0x41 ≤ c && c ≤ 0x5A) || (0x30 ≤ c && c ≤ 0x39) ||
    c == 0x2D || c == 0x5F

/-- `text_ok` -/
def textOk (v : Option Sbj) (limit : ℕ) (identifier : Bool) : Bool :=
  match v with
  | some (.str s) =>
    !s.isEmpty && s.length ≤ limit && (Utf8.check s).isOk &&
      s.all fun c => !(c < 32 || c == 127 || (identifier && !identifierByte c))
  | _ => false

/-- `number_ok` -/
def numberOk (body : Option Sbj) (key : Bytes) (low high : ℤ) : Bool :=
  match Sbj.get body key with
  | some (.int i) => low ≤ i && i ≤ high
  | _ => false

/-- The labels of a host name: `label` bytes of the current one so far, `lastDash` its end. -/
def labelsOk : Bytes → ℕ → Bool → Bool
  | [], label, lastDash => label ≠ 0 && !lastDash
  | c :: s, label, lastDash =>
    if c = 0x2E then
      if label = 0 || lastDash then false else labelsOk s 0 lastDash
    else if !((0x61 ≤ c && c ≤ 0x7A) || (0x41 ≤ c && c ≤ 0x5A) || (0x30 ≤ c && c ≤ 0x39) ||
        c == 0x2D) || (label = 0 && c == 0x2D) || label + 1 > 63 then false
    else labelsOk s (label + 1) (c == 0x2D)

section
variable [Platform]

/-- `server_name` -/
def serverName (v : Option Sbj) : Bool :=
  textOk v 253 false &&
    match v with
    | some (.str s) => Platform.inetPton s || labelsOk s 0 false
    | _ => false

/-- The first check of `sb_proxy_user_save`. -/
def userBodyOk (body : Sbj) : Bool :=
  let hosts := Sbj.get (some body) (lit "host_ids")
  Sbj.isObject (some body) && (Sbj.members (some body)).length == 6 &&
    textOk (Sbj.get (some body) (lit "name")) 128 false &&
    Sbj.isBool (Sbj.get (some body) (lit "enabled")) &&
    numberOk (some body) (lit "quota_bytes") 0 safeInteger &&
    numberOk (some body) (lit "expires_at") 0 maxTime &&
    numberOk (some body) (lit "max_devices") 1 32 &&
    Sbj.isArray hosts && (Sbj.items hosts).length ≤ 32

/-- The check of `sb_proxy_device_create`. -/
def deviceBodyOk (body : Sbj) (now : ℤ) : Bool :=
  let hasExpiry := (Sbj.get (some body) (lit "expires_at")).isSome
  let expiry := Sbj.getInt (some body) (lit "expires_at") 0
  Sbj.isObject (some body) && (Sbj.members (some body)).length == (if hasExpiry then 2 else 1) &&
    textOk (Sbj.get (some body) (lit "name")) 128 false &&
    !(hasExpiry && !numberOk (some body) (lit "expires_at") 0 maxTime) &&
    !(expiry ≠ 0 && expiry ≤ now)

/-- The check of `sb_proxy_ingress_save`. -/
def ingressBodyOk (body : Sbj) : Bool :=
  let listen := Sbj.get (some body) (lit "listen")
  Sbj.isObject (some body) && (Sbj.members (some body)).length == 4 &&
    Sbj.isBool (Sbj.get (some body) (lit "enabled")) &&
    serverName (Sbj.get (some body) (lit "server")) && textOk listen 64 false &&
    Platform.inetPton (Sbj.asStr listen []) && numberOk (some body) (lit "listen_port") 1 65535

end

/-! ### Views -/

structure DeviceView where
  id : Bytes
  name : Bytes
  enabled : Bool
  createdAt : ℤ
  expiresAt : ℤ

def DeviceView.toSbj (d : DeviceView) : Sbj :=
  ((((Sbj.obj []).set (lit "id") (.str d.id)).set (lit "expires_at") (.int d.expiresAt)).set
    (lit "name") (.str d.name)).set (lit "enabled") (.bool d.enabled) |>.set
    (lit "created_at") (.int d.createdAt)

/-- What `user_locked` returns. -/
structure UserView where
  user : ProxyUser
  allocatedBytes : ℤ
  reportedBytes : ℤ
  leaseWaitSeconds : ℤ
  hostIds : List Bytes
  devices : List DeviceView

def UserView.toSbj (v : UserView) : Sbj :=
  let u := v.user
  let out := (((Sbj.obj []).set (lit "id") (.str u.id)).set (lit "name") (.str u.name)).set
    (lit "enabled") (.bool u.enabled)
  let out := [(lit "quota_bytes", u.quotaBytes), (lit "expires_at", u.expiresAt),
    (lit "max_devices", u.maxDevices), (lit "epoch", u.epoch), (lit "not_before", u.notBefore),
    (lit "created_at", u.createdAt), (lit "updated_at", u.updatedAt),
    (lit "allocated_bytes", v.allocatedBytes), (lit "reported_bytes", v.reportedBytes),
    (lit "lease_wait_seconds", v.leaseWaitSeconds)].foldl (fun o p => o.set p.1 (.int p.2)) out
  (out.set (lit "host_ids") (.arr (v.hostIds.map .str))).set (lit "devices")
    (.arr (v.devices.map DeviceView.toSbj))

/-- What `node_locked` returns to an administrator. -/
structure NodeView where
  node : IngressNode
  runtimeSupported : Bool
  runtimeSeenAt : ℤ

def NodeView.toSbj (v : NodeView) : Sbj :=
  (((((((Sbj.obj []).set (lit "listen") (.str v.node.listen)).set
    (lit "listen_port") (.int v.node.listenPort)).set (lit "host_id") (.str v.node.hostId)).set
    (lit "enabled") (.bool v.node.enabled)).set (lit "server") (.str v.node.server)).set
    (lit "updated_at") (.int v.node.updatedAt)).set
    (lit "runtime_supported") (.bool v.runtimeSupported) |>.set
    (lit "runtime_seen_at") (.int v.runtimeSeenAt)

namespace Center

open Tx

/-- The row a `runtime_ready` query finds, if it is recent and supports proxy users. -/
def runtimeReady (db : Db) (host : Bytes) (now : ℤ) : Bool :=
  match db.reports.find? fun r => r.hostId == host with
  | some r => r.supported && r.observedAt ≥ now - runtimeFreshSeconds && r.observedAt ≤ now
  | none => false

/-- `devices_locked` for the administrator. -/
def devicesOf (db : Db) (user : Bytes) : List DeviceView :=
  (((orderBy ProxyDevice.id (db.devices.filter fun d => d.userId == user)).insertionSort
    fun a b => a.createdAt ≤ b.createdAt)).map fun d =>
      ⟨d.id, d.name, d.enabled, d.createdAt, d.expiresAt⟩

/-- `user_locked` -/
def userLocked (id : Bytes) : Op UserView := do
  let row ← query fun db => (db.users.find? fun u => u.id == id && !u.deleted).map fun u =>
    (u, db.allocated u.id u.epoch, db.reported u.id u.epoch)
  match row with
  | none => throw ⟨.notFound, "Proxy user not found"⟩
  | some (u, allocated, reported) =>
    let ms ← waitMs id u.epoch
    let hostIds ← query fun db =>
      orderBy (fun h => h) ((db.userNodes.filter fun b => b.userId == id).map UserNode.hostId)
    let devices ← query fun db => devicesOf db id
    pure ⟨u, allocated, reported, Int.tdiv (ms + 999) 1000, hostIds, devices⟩

/-- `sb_proxy_user_get` -/
def userGet (id : Bytes) : Op UserView := userLocked id

/-- The loop of `sb_proxy_users_list`. -/
def usersListLoop : List Bytes → Op (List UserView)
  | [] => pure []
  | id :: ids => do
    let u ← userLocked id
    let rest ← usersListLoop ids
    pure (u :: rest)

/-- `sb_proxy_users_list` -/
def usersList : Op (List UserView) := do
  let ids ← query fun db => (((orderBy ProxyUser.id (db.users.filter fun u => !u.deleted)).insertionSort
    fun a b => a.createdAt ≤ b.createdAt)).map ProxyUser.id
  usersListLoop ids

/-- The checks of `sb_proxy_runtime_report`; null stands for no capabilities. -/
def checkCapabilities (capabilities : Option Sbj) : Op Unit := do
  require (Sbj.isNull capabilities ||
      (Sbj.isArray capabilities && (Sbj.items capabilities).length ≤ 64))
    ⟨.validation, "Runtime capabilities must be an array of at most 64 identifiers"⟩
  require ((Sbj.items capabilities).all fun c => textOk (some c) 128 true)
    ⟨.validation, "Invalid runtime capability"⟩

/-- `sb_proxy_runtime_report` -/
def runtimeReport (host : Bytes) (capabilities : Option Sbj) (now : ℤ) : Op Unit := do
  checkCapabilities capabilities
  let supported := (Sbj.items capabilities).any fun c => Sbj.stringIs (some c) (lit "proxy_users_v1")
  let known ← query fun db => db.hosts.any fun h => h.id == host && h.enabled
  require known ⟨.auth, "Runtime host is unknown or disabled"⟩
  modify fun s => { s with db := { s.db with
    reports := Table.upsert (fun r => r.hostId == host)
      (fun r => { r with supported := supported, observedAt := now }) ⟨host, supported, now⟩
      s.db.reports } }

section
variable [Platform]

/-- The loop over the requested hosts of a user; the earlier ones are strings. -/
def checkHostIds : List Sbj → List Sbj → Op Unit
  | _, [] => pure ()
  | seen, h :: hosts => do
    require (textOk (some h) 128 true) ⟨.validation, "Invalid proxy host ID"⟩
    require (!seen.any fun g => Sbj.asStr (some g) [] == Sbj.asStr (some h) [])
      ⟨.validation, "Duplicate proxy host ID"⟩
    checkHostIds (seen ++ [h]) hosts

/-- Each requested host has an ingress node. -/
def checkIngress : List Bytes → Op Unit
  | [] => pure ()
  | h :: hosts => do
    let found ← query fun db => db.ingress.any fun n => n.hostId == h
    require found ⟨.validation, "Configure the proxy ingress node before binding a user"⟩
    checkIngress hosts

/-- `INSERT INTO proxy_user_nodes` for each host. -/
def bindHosts (id : Bytes) : List Bytes → Op Unit
  | [] => pure ()
  | h :: hosts => do
    let taken ← query fun db => db.userNodes.any fun b => b.userId == id && b.hostId == h
    require (!taken) ⟨.generic, "execute SQL failed"⟩
    modify fun s => { s with db := { s.db with userNodes := s.db.userNodes ++ [⟨id, h⟩] } }
    bindHosts id hosts

/-- The row an administrator's body describes. -/
def userRow (id : Bytes) (body : Sbj) (now : ℤ) : ProxyUser where
  id := id
  name := Sbj.getStr (some body) (lit "name") []
  enabled := Sbj.getBool (some body) (lit "enabled") true
  quotaBytes := Sbj.getInt (some body) (lit "quota_bytes") 0
  expiresAt := Sbj.getInt (some body) (lit "expires_at") 0
  maxDevices := Sbj.getInt (some body) (lit "max_devices") 3
  createdAt := now
  updatedAt := now

/-- The `DO UPDATE` of `sb_proxy_user_save`. -/
def userUpdate (new old : ProxyUser) : ProxyUser :=
  { old with
    name := new.name, enabled := new.enabled, quotaBytes := new.quotaBytes
    expiresAt := new.expiresAt, maxDevices := new.maxDevices, updatedAt := new.updatedAt }

/-- The conditions under which `sb_proxy_user_save` may change a user. -/
def checkChange (id : Bytes) (body : Sbj) (now : ℤ) : Op Unit := do
  let old ← userLocked id
  let active : ℕ := old.devices.countP fun d => d.enabled && (d.expiresAt == 0 || d.expiresAt > now)
  let quota := Sbj.getInt (some body) (lit "quota_bytes") 0
  require (!((quota ≠ 0 && quota < old.allocatedBytes) ||
      active > Sbj.getInt (some body) (lit "max_devices") 1))
    ⟨.conflict, "Quota cannot fall below allocated bytes; reset the period first. " ++
      "Revoke devices before reducing the device limit."⟩

/-- The condition under which `sb_proxy_user_save` may add a user. -/
def checkRoom : Op Unit := do
  let count ← query Db.activeUsers
  require (count < 256) ⟨.conflict, "At most 256 active proxy users are supported"⟩

def checkSave (id : Bytes) (generated : Bool) (body : Sbj) (now : ℤ) : Op Unit :=
  if generated then checkRoom else checkChange id body now

/-- The transaction of `sb_proxy_user_save`. -/
def saveUser (id : Bytes) (generated : Bool) (body : Sbj) (now : ℤ) : Op UserView := do
  let hosts := (Sbj.items (Sbj.get (some body) (lit "host_ids"))).map fun h => Sbj.asStr (some h) []
  checkSave id generated body now
  checkIngress hosts
  write fun db => { db with
    users := Table.upsert (fun u => u.id == id) (userUpdate (userRow id body now))
      (userRow id body now) db.users }
  write fun db => { db with userNodes := db.userNodes.filter fun b => !(b.userId == id) }
  bindHosts id hosts
  userLocked id

/-- `sb_proxy_user_save` -/
def userSave (id : Option Bytes) (body : Sbj) (now : ℤ) : Op UserView := do
  require (userBodyOk body) ⟨.validation, "Proxy user requires name, enabled, quota_bytes, " ++
    "expires_at, max_devices and up to 32 host_ids"⟩
  checkHostIds [] (Sbj.items (Sbj.get (some body) (lit "host_ids")))
  match id with
  | some id => atomically (saveUser id false body now)
  | none => do
    let id ← uuidV4
    atomically (saveUser id true body now)

/-- `sb_proxy_user_remove` -/
def userRemove (id : Bytes) (now : ℤ) : Op Unit :=
  atomically do
    let changes ← query fun db => db.users.countP fun u => u.id == id && !u.deleted
    modify fun s => { s with db := { s.db with
      users := Table.update (fun u => u.id == id && !u.deleted) (fun u =>
        { u with enabled := false, deleted := true, claimHash := none, updatedAt := now })
        s.db.users } }
    require (changes == 1) ⟨.notFound, "Proxy user not found"⟩
    write fun db => { db with
      devices := Table.update (fun d => d.userId == id) (fun d => { d with enabled := false })
        db.devices }

/-- `COALESCE((SELECT MAX(expires_at) FROM proxy_leases WHERE user_id=?),0)` -/
def lastExpiry (db : Db) (user : Bytes) : ℤ :=
  (((db.leases.filter fun l => l.userId == user).map ProxyLease.expiresAt).max?).getD 0

/-- The `UPDATE` of `sb_proxy_user_reset`. -/
def resetUser (db : Db) (id : Bytes) (now : ℤ) : Db :=
  { db with
    users := Table.update (fun u => u.id == id && !u.deleted && u.epoch < safeInteger) (fun u =>
      { u with
        epoch := u.epoch + 1
        notBefore := max (now + leaseSeconds) (lastExpiry db u.id)
        updatedAt := now }) db.users }

/-- `sb_proxy_user_reset` -/
def userReset (id : Bytes) (now : ℤ) : Op UserView := do
  require (1 ≤ now && now ≤ 4102444740) ⟨.validation, "Invalid proxy reset time"⟩
  atomically do
    let changes ← query fun db =>
      db.users.countP fun u => u.id == id && !u.deleted && u.epoch < safeInteger
    modify fun s => { s with db := resetUser s.db id now }
    require (changes == 1) ⟨.notFound, "Proxy user not found"⟩
    let out ← userLocked id
    resetEpoch id out.user.epoch
    pure { out with leaseWaitSeconds := leaseSeconds }

/-- `sb_proxy_claim_rotate` -/
def claimRotate (id : Bytes) (now : ℤ) : Op Sbj := do
  let token ← newSecret false
  let hash := Platform.sha256 token
  let (changes, taken) ← query fun db =>
    (db.users.countP fun u => u.id == id && !u.deleted,
      db.users.any fun u => !(u.id == id) && u.claimHash == some hash)
  require (changes == 1) ⟨.notFound, "Proxy user not found"⟩
  require (!taken) ⟨.generic, "execute SQL failed"⟩
  modify fun s => { s with db := { s.db with
    users := Table.update (fun u => u.id == id && !u.deleted)
      (fun u => { u with claimHash := some hash, updatedAt := now }) s.db.users } }
  pure ((Sbj.obj []).set (lit "claim_token") (.str token))

/-- `sb_proxy_device_create` -/
def deviceCreate (userId : Bytes) (body : Sbj) (now : ℤ) : Op Sbj := do
  require (deviceBodyOk body now) ⟨.validation,
    "Device requires a name and an optional future expires_at (0 means no device expiry)"⟩
  let id ← uuidV4
  let password ← newSecret true
  let token ← newSecret false
  let hash := Platform.sha256 token
  let name := Sbj.getStr (some body) (lit "name") []
  let expiry := Sbj.getInt (some body) (lit "expires_at") 0
  atomically do
    let row ← query fun db =>
      (db.users.find? fun u => u.id == userId && u.enabled && !u.deleted &&
        (u.expiresAt == 0 || u.expiresAt > now)).map fun u =>
          (u.maxDevices, db.activeDevices u.id now)
    match row with
    | none => throw ⟨.forbidden, "Proxy user is disabled or expired"⟩
    | some (limit, count) =>
      require ((count : ℤ) < limit) ⟨.conflict, "Proxy device limit reached"⟩
      let taken ← query fun db => db.devices.any fun d => d.id == id || d.tokenHash == hash
      require (!taken) ⟨.generic, "execute SQL failed"⟩
      modify fun s => { s with db := { s.db with
        devices := s.db.devices ++ [{ id := id, userId := userId, name := name
                                      password := password, tokenHash := hash
                                      expiresAt := expiry, createdAt := now }] } }
      pure ((((Sbj.obj []).set (lit "id") (.str id)).set (lit "name") (.str name)).set
        (lit "subscription_token") (.str token) |>.set (lit "expires_at") (.int expiry))

/-- `sb_proxy_device_revoke` -/
def deviceRevoke (userId deviceId : Bytes) (now : ℤ) : Op Unit := do
  let changes ← query fun db => db.devices.countP fun d => d.id == deviceId && d.userId == userId
  require (changes == 1) ⟨.notFound, "Proxy device not found"⟩
  modify fun s => { s with db := { s.db with
    devices := Table.update (fun d => d.id == deviceId && d.userId == userId)
      (fun d => { d with enabled := false, revokedAt := some now }) s.db.devices } }

/-- `node_locked` for the administrator. -/
def nodeLocked (host : Bytes) (now : ℤ) : Op NodeView := do
  let row ← query fun db => db.ingress.find? fun n => n.hostId == host
  match row with
  | none => throw ⟨.notFound, "Proxy ingress node not found"⟩
  | some node =>
    query fun db => ⟨node, runtimeReady db host now,
      ((db.reports.find? fun r => r.hostId == host).map RuntimeReport.observedAt).getD 0⟩

/-- An ingress that is to be enabled needs a recent runtime. -/
def checkReady (host : Bytes) (enabled : Bool) (now : ℤ) : Op Unit := do
  let ready ← query fun db => runtimeReady db host now
  require (!enabled || ready) ⟨.conflict,
    "Host must report proxy_users_v1 support within the last 180 seconds before enabling ingress"⟩

/-- `sb_proxy_ingress_save` -/
def ingressSave (host : Bytes) (body : Sbj) (now : ℤ) : Op NodeView := do
  require (ingressBodyOk body) ⟨.validation,
    "Ingress requires enabled, a public server hostname/IP, a listen IP and listen_port 1..65535"⟩
  let key ← newSecret true
  let enabled := Sbj.getBool (some body) (lit "enabled") false
  let server := Sbj.getStr (some body) (lit "server") []
  let listen := Sbj.getStr (some body) (lit "listen") []
  let port := Sbj.getInt (some body) (lit "listen_port") 0
  atomically do
    let known ← query fun db => db.hosts.any fun h => h.id == host && h.enabled
    require known ⟨.validation, "Ingress requires an enabled host"⟩
    checkReady host enabled now
    write fun db => { db with
      ingress := Table.upsert (fun n => n.hostId == host)
        (fun n => { n with enabled := enabled, server := server, listen := listen
                           listenPort := port, updatedAt := now })
        ⟨host, enabled, server, listen, port, key, now⟩ db.ingress }
    nodeLocked host now

/-- The identifier of a new host. -/
def hostId (id : Bytes) : Op Bytes := if id.isEmpty then uuidV4 else pure id

/-- `sb_store_create_host`, for the columns used here. -/
def createHost (id : Bytes) (enabled : Bool) : Op Unit := do
  let id ← hostId id
  let taken ← query fun db => db.hosts.any fun h => h.id == id
  require (!taken) ⟨.generic, "execute SQL failed"⟩
  modify fun s => { s with db := { s.db with hosts := s.db.hosts ++ [⟨id, enabled⟩] } }

/-- `sb_store_update_host`, for the columns used here. -/
def updateHost (id : Bytes) (enabled : Bool) : Op Unit := do
  let known ← query fun db => db.hosts.any fun h => h.id == id
  require known ⟨.notFound, "Host not found"⟩
  modify fun s => { s with db := { s.db with
    hosts := Table.update (fun h => h.id == id) (fun h => { h with enabled := enabled })
      s.db.hosts } }

/-- `DELETE FROM hosts`, with the rows that cascade. -/
def dropHost (db : Db) (id : Bytes) : Db :=
  { db with
    hosts := db.hosts.filter fun h => !(h.id == id)
    reports := db.reports.filter fun r => !(r.hostId == id)
    ingress := db.ingress.filter fun n => !(n.hostId == id)
    userNodes := db.userNodes.filter fun b => !(b.hostId == id) }

/-- `sb_store_delete_host` -/
def deleteHost (id : Bytes) : Op Unit := do
  require (!(id == lit "self")) ⟨.validation, "Cannot delete the built-in self host"⟩
  atomically do
    sql
    let known ← query fun db => db.hosts.any fun h => h.id == id
    require known ⟨.notFound, "Host not found"⟩
    modify fun s => { s with db := dropHost s.db id }

end

end Center
end SbEasy
