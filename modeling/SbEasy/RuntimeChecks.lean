import SbEasy.Base64Exact
import SbEasy.Exchange

/-!
What the node's C runtime checks: the counters of its engine, and the policy of the center
(`identifier` to `policy_valid` of `proxy_runtime.c`).
-/

namespace SbEasy

/-- A request that is not answered yet: its text, and the reports in it. -/
structure Pending where
  request : Bytes
  reports : Bytes
  deriving DecidableEq

/-- `sb_proxy_runtime`, without its threads and its status. -/
structure Runtime where
  host : Bytes
  boot : Bytes
  pending : Option Pending := none
  sequence : ℤ := 1
  beganMs : ℤ := 0
  begun : Bool := false
  deriving DecidableEq

def allowed : Bytes := lit "abcdefghijklmnopqrstuvwxyzABCDEFGHIJKLMNOPQRSTUVWXYZ0123456789-_."

/-- `identifier` -/
def identifier : Option Sbj → Bool
  | some (.str s) => !(s.length == 0 || s.length > 128) && s.all fun c => allowed.contains c
  | _ => false

/-- `key_valid` -/
def keyValid : Option Sbj → Bool
  | some (.str s) =>
    s.length == 24 &&
      match b64DecodeStrict s with
      | some key => key.length == 16 && b64Encode b64 true key == Sbj.cstr s
      | none => false
  | _ => false

/-- `sbj_equal`, where both values are strings. -/
def sameString : Option Sbj → Option Sbj → Bool
  | some (.str a), some (.str b) => a == b
  | _, _ => false

/-- `distinct`: `qsort` and a comparison of neighbours. -/
def distinct (items : List Bytes) : Bool := !adjacentEqual (orderBy (fun i => i) items)

section
variable [Platform]

/-- `integer` -/
def integer (object : Option Sbj) (key : Bytes) (minimum maximum : ℤ) : Bool :=
  let value := Sbj.get object key
  Sbj.isInteger value && Sbj.asInt value (-1) ≥ minimum && Sbj.asInt value (-1) ≤ maximum

def reportValid (r : Sbj) : Bool :=
  Sbj.isObject (some r) && (Sbj.members (some r)).length == 2 &&
    identifier (Sbj.get (some r) (lit "lease_id")) &&
    integer (some r) (lit "used_bytes") 0 safeInteger

/-- `reports_valid` -/
def reportsValid (reports : Option Sbj) : Bool :=
  Sbj.isArray reports && !((Sbj.items reports).length > 4096) &&
    (Sbj.items reports).all reportValid &&
    distinct ((Sbj.items reports).map fun r => Sbj.getStr (some r) (lit "lease_id") [])

def deviceValid (generated : ℤ) (node : Option Sbj) (device : Sbj) : Bool :=
  let expires := Sbj.getInt (some device) (lit "expires_at") (-1)
  Sbj.isObject (some device) && (Sbj.members (some device)).length == 3 &&
    identifier (Sbj.get (some device) (lit "id")) &&
    keyValid (Sbj.get (some device) (lit "password")) &&
    integer (some device) (lit "expires_at") 0 4102444800 &&
    !(expires != 0 && expires ≤ generated) &&
    !sameString (Sbj.get (some device) (lit "password")) (Sbj.get node (lit "password"))

def userValid (policy : Option Sbj) (generated : ℤ) (node : Option Sbj) (user : Sbj) : Bool :=
  let lease := Sbj.get (some user) (lit "lease")
  let devices := Sbj.get (some user) (lit "devices")
  Sbj.isObject (some user) && (Sbj.members (some user)).length == 4 &&
    identifier (Sbj.get (some user) (lit "id")) &&
    integer (some user) (lit "epoch") 1 safeInteger &&
    Sbj.isObject lease && (Sbj.members lease).length == 4 &&
    identifier (Sbj.get lease (lit "id")) && integer lease (lit "grant_bytes") 1 safeInteger &&
    integer lease (lit "used_bytes") 0 (Sbj.getInt lease (lit "grant_bytes") (-1)) &&
    integer lease (lit "expires_at") (generated + 1) (Sbj.getInt policy (lit "expires_at") 0) &&
    Sbj.isArray devices && (Sbj.items devices).length ≥ 1 && (Sbj.items devices).length ≤ 32 &&
    (Sbj.items devices).all (deviceValid generated node)

def nodeValid (node : Option Sbj) : Bool :=
  Sbj.isObject node && (Sbj.members node).length == 4 &&
    (match Sbj.get node (lit "listen") with
      | some (.str s) => s.length == (Sbj.cstr s).length && Platform.inetPton (Sbj.cstr s)
      | _ => false) &&
    integer node (lit "listen_port") 1 65535 &&
    Sbj.stringIs (Sbj.get node (lit "method")) (lit "2022-blake3-aes-128-gcm") &&
    keyValid (Sbj.get node (lit "password"))

/-- The identifiers that have to be distinct: of users, leases, devices, and their keys. -/
def namesDistinct (users : List Sbj) : Bool :=
  let devices := users.flatMap fun u => Sbj.items (Sbj.get (some u) (lit "devices"))
  distinct (users.map fun u => Sbj.getStr (some u) (lit "id") []) &&
    distinct (users.map fun u => Sbj.getStr (Sbj.get (some u) (lit "lease")) (lit "id") []) &&
    distinct (devices.map fun d => Sbj.getStr (some d) (lit "id") []) &&
    distinct (devices.map fun d => Sbj.getStr (some d) (lit "password") [])

/-- `policy_valid` -/
def policyValid (runtime : Runtime) (policy : Option Sbj) : Bool :=
  let node := Sbj.get policy (lit "node")
  let users := Sbj.get policy (lit "users")
  let generated := Sbj.getInt policy (lit "generated_at") 0
  Sbj.isObject policy && (Sbj.members policy).length == 8 && integer policy (lit "version") 1 1 &&
    identifier (Sbj.get policy (lit "host_id")) &&
    Sbj.stringIs (Sbj.get policy (lit "boot_id")) runtime.boot &&
    integer policy (lit "request_seq") runtime.sequence runtime.sequence &&
    !(!runtime.host.isEmpty && !Sbj.stringIs (Sbj.get policy (lit "host_id")) runtime.host) &&
    integer policy (lit "generated_at") 1 4102444800 &&
    Sbj.isArray users && !((Sbj.items users).length > 256) &&
    integer policy (lit "expires_at") (generated + 1) (generated + 60) && node.isSome &&
    if Sbj.isNull node then (Sbj.items users).length == 0
    else
      nodeValid node && (Sbj.items users).all (userValid policy generated node) &&
        namesDistinct (Sbj.items users)

end

end SbEasy
