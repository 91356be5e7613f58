import SbEasy.Base64Exact
import SbEasy.GoJson

/-!
The engine's side of the exchange as data: the structs of `proxy_policy.go`, their decoders,
and the checks `begin`, `apply` and `acknowledge` make before they touch the manager.
-/

namespace SbEasy

open JsonParse GoVal

/-- `proxyMaxInteger` -/
def proxyMaxInteger : ℤ := 9007199254740991

structure ProxyReport where
  leaseId : Bytes
  used : ℤ
  deriving DecidableEq

structure ProxyRequest where
  version : ℤ
  boot : Bytes
  seq : ℤ
  reports : Option (List ProxyReport)
  deriving DecidableEq

structure GoNode where
  listen : Bytes
  port : ℤ
  method : Bytes
  password : Bytes
  deriving DecidableEq

structure GoLease where
  id : Bytes
  grant : ℤ
  used : ℤ
  expires : ℤ
  deriving DecidableEq

structure GoDevice where
  id : Bytes
  password : Bytes
  expires : Option ℤ
  deriving DecidableEq

structure GoUser where
  id : Bytes
  epoch : ℤ
  lease : GoLease
  devices : Option (List GoDevice)
  deriving DecidableEq

/-- `proxyPolicy` -/
structure GoPolicy where
  version : ℤ
  host : Bytes
  boot : Bytes
  seq : ℤ
  generated : ℤ
  expires : ℤ
  node : Option GoNode
  users : Option (List GoUser)
  deriving DecidableEq

def reportShape : GoType := .struct [(lit "lease_id", .scalar), (lit "used_bytes", .scalar)]

def decodeReport (v : GoVal) : Option ProxyReport := do
  let m ← fields [lit "lease_id", lit "used_bytes"] v
  pure ⟨← field [] string m (lit "lease_id"), ← field 0 int m (lit "used_bytes")⟩

def requestShape : GoType :=
  .struct [(lit "version", .scalar), (lit "boot_id", .scalar), (lit "request_seq", .scalar),
    (lit "reports", .slice reportShape)]

def decodeRequest (v : GoVal) : Option ProxyRequest := do
  let m ← fields [lit "version", lit "boot_id", lit "request_seq", lit "reports"] v
  pure ⟨← field 0 int m (lit "version"), ← field [] string m (lit "boot_id"),
    ← field 0 int m (lit "request_seq"), ← field none (slice decodeReport) m (lit "reports")⟩

def nodeShape : GoType :=
  .struct [(lit "listen", .scalar), (lit "listen_port", .scalar), (lit "method", .scalar),
    (lit "password", .scalar)]

def decodeNode (v : GoVal) : Option GoNode := do
  let m ← fields [lit "listen", lit "listen_port", lit "method", lit "password"] v
  pure ⟨← field [] string m (lit "listen"), ← field 0 int m (lit "listen_port"),
    ← field [] string m (lit "method"), ← field [] string m (lit "password")⟩

def leaseShape : GoType :=
  .struct [(lit "id", .scalar), (lit "grant_bytes", .scalar), (lit "used_bytes", .scalar),
    (lit "expires_at", .scalar)]

def decodeLease (v : GoVal) : Option GoLease := do
  let m ← fields [lit "id", lit "grant_bytes", lit "used_bytes", lit "expires_at"] v
  pure ⟨← field [] string m (lit "id"), ← field 0 int m (lit "grant_bytes"),
    ← field 0 int m (lit "used_bytes"), ← field 0 int m (lit "expires_at")⟩

def deviceShape : GoType :=
  .struct [(lit "id", .scalar), (lit "password", .scalar), (lit "expires_at", .pointer .scalar)]

def decodeDevice (v : GoVal) : Option GoDevice := do
  let m ← fields [lit "id", lit "password", lit "expires_at"] v
  pure ⟨← field [] string m (lit "id"), ← field [] string m (lit "password"),
    ← field none (pointer int) m (lit "expires_at")⟩

def userShape : GoType :=
  .struct [(lit "id", .scalar), (lit "epoch", .scalar), (lit "lease", leaseShape),
    (lit "devices", .slice deviceShape)]

def decodeUser (v : GoVal) : Option GoUser := do
  let m ← fields [lit "id", lit "epoch", lit "lease", lit "devices"] v
  pure ⟨← field [] string m (lit "id"), ← field 0 int m (lit "epoch"),
    ← field ⟨[], 0, 0, 0⟩ decodeLease m (lit "lease"),
    ← field none (slice decodeDevice) m (lit "devices")⟩

def policyShape : GoType :=
  .struct [(lit "version", .scalar), (lit "host_id", .scalar), (lit "boot_id", .scalar),
    (lit "request_seq", .scalar), (lit "generated_at", .scalar), (lit "expires_at", .scalar),
    (lit "node", .pointer nodeShape), (lit "users", .slice userShape)]

def decodePolicy (v : GoVal) : Option GoPolicy := do
  let m ← fields [lit "version", lit "host_id", lit "boot_id", lit "request_seq",
    lit "generated_at", lit "expires_at", lit "node", lit "users"] v
  pure ⟨← field 0 int m (lit "version"), ← field [] string m (lit "host_id"),
    ← field [] string m (lit "boot_id"), ← field 0 int m (lit "request_seq"),
    ← field 0 int m (lit "generated_at"), ← field 0 int m (lit "expires_at"),
    ← field none (pointer decodeNode) m (lit "node"),
    ← field none (slice decodeUser) m (lit "users")⟩

/-- A letter, a digit, or one of `-_.` -/
def proxyIdByte (c : UInt8) : Bool :=
  (0x61 ≤ c && c ≤ 0x7A) || (0x41 ≤ c && c ≤ 0x5A) || (0x30 ≤ c && c ≤ 0x39) ||
    c == 0x2D || c == 0x5F || c == 0x2E

/-- `proxyID`; a rune beyond ASCII is none of the characters it allows, so bytes will do. -/
def proxyID (s : Bytes) : Bool := !(s.length < 1 || s.length > 128) && s.all proxyIdByte

/-- `proxyKey` -/
def proxyKey (s : Bytes) : Bool :=
  match decodeString s with
  | none => false
  | some b => b.length == 16 && b64Encode b64 true b == s

/-- The loop of `proxyReportsValid`, with the identifiers seen so far. -/
def reportsLoop : List Bytes → List ProxyReport → Bool
  | _, [] => true
  | seen, x :: r =>
    if !proxyID x.leaseId || x.used < 0 || x.used > proxyMaxInteger || seen.contains x.leaseId then false
    else reportsLoop (x.leaseId :: seen) r

/-- `proxyReportsValid` -/
def proxyReportsValid : Option (List ProxyReport) → Bool
  | none => false
  | some r => !(r.length > 4096) && reportsLoop [] r

/-- What `validateProxyPolicy` has seen: users, leases, devices and keys. -/
structure Seen where
  users : List Bytes := []
  leases : List Bytes := []
  devices : List Bytes := []
  keys : List Bytes := []

variable (p : GoPolicy) (node : GoNode)

def deviceFault (seen : Seen) (d : GoDevice) : Bool :=
  !proxyID d.id || seen.devices.contains d.id || !proxyKey d.password ||
    seen.keys.contains d.password || d.password == node.password ||
    match d.expires with
    | none => true
    | some e => e < 0 || e > 4102444800 || (e != 0 && e ≤ p.generated)

def devicesLoop : Seen → List GoDevice → Option Seen
  | seen, [] => some seen
  | seen, d :: l =>
    if deviceFault p node seen d then none
    else devicesLoop { seen with devices := d.id :: seen.devices, keys := d.password :: seen.keys } l

def userFault (seen : Seen) (u : GoUser) : Bool :=
  let devices := (u.devices.getD []).length
  !proxyID u.id || seen.users.contains u.id || u.epoch < 1 || u.epoch > proxyMaxInteger ||
    !proxyID u.lease.id || seen.leases.contains u.lease.id || u.lease.grant < 1 ||
    u.lease.grant > proxyMaxInteger || u.lease.used < 0 || u.lease.used > u.lease.grant ||
    u.lease.expires ≤ p.generated || u.lease.expires > p.expires || devices < 1 || devices > 32

def usersLoop : Seen → List GoUser → Bool
  | _, [] => true
  | seen, u :: l =>
    if userFault p seen u then false
    else
      match devicesLoop p node
          { seen with users := u.id :: seen.users, leases := u.lease.id :: seen.leases }
          (u.devices.getD []) with
      | none => false
      | some seen => usersLoop seen l

/-- `validateProxyPolicy` -/
def validateProxyPolicy [Platform] (p : GoPolicy) : Bool :=
  if p.version ≠ 1 || !proxyID p.host || !proxyID p.boot || p.seq < 1 || p.seq > proxyMaxInteger ||
      p.generated < 1 || p.generated > 4102444800 || p.expires ≤ p.generated ||
      p.expires - p.generated > 60 || p.users.isNone || (p.users.getD []).length > 256 then false
  else
    match p.node with
    | none => (p.users.getD []).length == 0
    | some node =>
      if Platform.parseAddr node.listen ≠ some [] then false
      else if node.port < 1 || node.port > 65535 || node.method != lit "2022-blake3-aes-128-gcm" ||
          !proxyKey node.password then false
      else usersLoop p node {} (p.users.getD [])

end SbEasy
