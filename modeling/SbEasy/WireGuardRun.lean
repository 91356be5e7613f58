import SbEasy.WireGuardImport

/-!
Requests that change WireGuard peers, interleaved: creation, provisioning of a host, import
and deletion.

A request is cut at its calls into the store. Each call runs under the lock of the store;
between two calls of one request others may run.
-/

namespace SbEasy.WireGuard

open JsonParse

/-- `sb_host`, as far as provisioning needs it. -/
structure HostRef where
  id : Bytes
  name : Bytes

/-- Where the address of a new peer comes from. -/
inductive Origin
  | explicit
  | allocated

/-- What a request has still to do. -/
inductive Task
  /-- `handle_wireguard_peers_create`: the options, the address, the insertion. -/
  | create (body : Json)
  | chooseAddress (body : Json) (runtime : WireguardOptions)
  | insert (peer : WireguardPeer) (origin : Origin)
  /-- `sb_wireguard_provision_host`: the list of peers, the options, and either a peer of the
  host's name or a new one. -/
  | provision (host : HostRef)
  | matchName (host : HostRef) (existing : List WireguardPeer)
  | link (candidate : WireguardPeer)
  | allocate (host : HostRef) (runtime : WireguardOptions)
  /-- `handle_migrate_wg_easy`: the options for the batch, the import. -/
  | migrate (body : Json)
  | runImport (batch : Batch) (apply : Bool) (previewDigest : Option Bytes)
  /-- `handle_wireguard_peer_delete` and `sb_wireguard_deprovision_host`: the peer is looked up
  first. -/
  | delete (id : Bytes)
  | deprovision (hostId : Bytes)
  | remove (id : Bytes)

inductive Request
  | create (body : Json)
  | provision (host : HostRef)
  | migrate (body : Json)
  | delete (id : Bytes)
  | deprovision (hostId : Bytes)

def Request.task : Request → Task
  | .create body => .create body
  | .provision host => .provision host
  | .migrate body => .migrate body
  | .delete id => .delete id
  | .deprovision hostId => .deprovision hostId

/-- What the server is started with. -/
structure Service where
  options : WireguardOptions := {}
  wireguardEnabled : Bool
  tools : MigrationTools

/-- Keys, identifiers and the time, as a call finds them. -/
structure World where
  privateKey : Bytes
  publicKey : Bytes
  presharedKey : Bytes
  uuid : Bytes
  now : Bytes

/-- `json_value_string` -/
def jsonValueString (body : Sbj) (field fallback : Bytes) : Except Err Bytes :=
  (Store.jvStr body field fallback).map Sbj.cstr

/-- `json_get_i32` of a member, if it is there. -/
def jsonGetI32 [Platform] (body : Sbj) (field : Bytes) (fallback : ℤ) : Except Err ℤ :=
  match Sbj.get (some body) field with
  | none => .ok fallback
  | some (.int i) => .ok (Int.bmod i (2 ^ 32))
  | some (.uint u) => .ok (Int.bmod u (2 ^ 32))
  | some (.float f) =>
    match Platform.truncate f with
    | some i => .ok (if -2 ^ 31 ≤ i ∧ i < 2 ^ 31 then i else -2 ^ 31)
    | none => .ok (-2 ^ 31)
  | some (.bool b) => .ok (if b then 1 else 0)
  | v => .error (Store.typeError "number" v)

/-- `sb_json_required_string` -/
def jsonRequiredString (body : Sbj) (field : Bytes) : Except Err Bytes :=
  match Sbj.get (some body) field with
  | some (.str s) =>
    if s.isEmpty then .error ⟨.validation, shown field ++ " must be a non-empty string"⟩ else .ok s
  | _ => .error ⟨.validation, shown field ++ " must be a non-empty string"⟩

/-- The peer that a body asks for, at an address. -/
def peerOfBody [Platform] (w : World) (runtime : WireguardOptions) (body : Sbj) (address : Bytes) :
    Except Err WireguardPeer := do
  let name ← jsonRequiredString body (lit "name")
  let dns ← jsonValueString body (lit "dns") runtime.dns
  let keepalive ← jsonGetI32 body (lit "persistent_keepalive") 25
  let allowedIps ← jsonValueString body (lit "allowed_ips") (lit "0.0.0.0/0, ::/0")
  let quota ← jsonGetI32 body (lit "quota_bytes") 0
  .ok {
    name := trim name, privateKey := w.privateKey, publicKey := w.publicKey
    presharedKey := some w.presharedKey, address := address, dns := dns
    persistentKeepalive := keepalive, allowedIps := allowedIps
    expireAt := (Store.jvOptStr body (lit "expire_at")).map Sbj.cstr, quotaBytes := quota
    notes := Store.jvOptStr body (lit "notes") }

/-- `find_host_peer` -/
def findHostPeer (peers : List WireguardPeer) (hostId : Bytes) : Option WireguardPeer :=
  peers.find? fun p => p.hostId == some hostId

/-- The new peer of a host, at an address that the store proposed. -/
def hostPeer (w : World) (runtime : WireguardOptions) (host : HostRef) (allocated : Bytes) :
    WireguardPeer where
  name := lit "host: " ++ host.name
  privateKey := w.privateKey
  publicKey := w.publicKey
  presharedKey := some w.presharedKey
  address := peerIp allocated ++ lit "/32"
  dns := []
  allowedIps := subnetCidr runtime.address
  hostId := some host.id

/-- The host addresses of the peers. -/
def hosts (s : Store) : List Bytes := s.peers.map fun p => peerIp p.address

variable [Platform]

/-- The batch and the parameters of `handle_migrate_wg_easy`; a rollback is another request. -/
def migration (service : Service) (runtime : WireguardOptions) (body : Sbj) : Except Err Task := do
  let action := Sbj.getStr (some body) (lit "action") (lit "preview")
  if ((Sbj.get (some body) (lit "action")).isSome &&
      !Sbj.isString (Sbj.get (some body) (lit "action"))) ||
      (action != lit "apply" && action != lit "preview") then
    .error ⟨.validation, "Migration action must be preview, apply or rollback"⟩
  else if action == lit "apply" && service.wireguardEnabled then
    .error ⟨.conflict, "Stop WireGuard with WG_ENABLED=false and restart the panel before applying or rolling back a migration"⟩
  else if !Sbj.stringIs (Sbj.get (some body) (lit "format")) (lit "wg-easy-v14") then
    .error ⟨.validation, "Supported migration format is wg-easy-v14 (wg0.json); v15 SQLite backups require conversion"⟩
  else
    let batch ← wgEasyV14Normalize service.tools (Sbj.get (some body) (lit "configuration"))
      (Sbj.get (some body) (lit "options")) runtime.dns
    .ok (.runImport batch (action == lit "apply")
      ((Store.jvOptStr body (lit "preview_digest")).map Sbj.cstr))

/-- A request goes on until its next call into the store has returned. Without a task left it
is answered; an error leaves the store as it is. -/
def Task.call (service : Service) (w : World) (s : Store) : Task → Except Err (Option Task × Store)
  | .create body => do
    if !Sbj.isObject (some body.1) then
      .error ⟨.validation, "Request body must be a JSON object"⟩
    else
      let runtime ← runtimeOptions service.options s
      .ok (some (.chooseAddress body runtime), s)
  | .chooseAddress body runtime =>
    match Sbj.get (some body.1) (lit "address") with
    | some (.str a) => do
      let peer ← peerOfBody w runtime body.1 (Sbj.cstr a)
      .ok (some (.insert peer .explicit), s)
    | _ => do
      let address ← nextWireguardAddress runtime.address s
      let peer ← peerOfBody w runtime body.1 address
      .ok (some (.insert peer .allocated), s)
  | .insert peer _ => do
    let (_, s') ← createWireguardPeer w.uuid w.now peer s
    .ok (none, s')
  | .provision host =>
    let existing := s.listWireguardPeers
    match findHostPeer existing host.id with
    | some _ => .ok (none, s)
    | none => .ok (some (.matchName host existing), s)
  | .matchName host existing => do
    let runtime ← runtimeOptions service.options s
    match existing.find? fun p => p.hostId.isNone && p.name == host.name with
    | some p => .ok (some (.link { p with
        hostId := some host.id, allowedIps := subnetCidr runtime.address, enabled := true }), s)
    | none => .ok (some (.allocate host runtime), s)
  | .link candidate => do
    let s' ← updateWireguardPeer w.now candidate s
    .ok (none, s')
  | .allocate host runtime => do
    let allocated ← nextWireguardAddress runtime.address s
    .ok (some (.insert (hostPeer w runtime host allocated) .allocated), s)
  | .migrate body => do
    let runtime ← runtimeOptions service.options s
    let task ← migration service runtime body.1
    .ok (some task, s)
  | .runImport batch apply previewDigest => do
    let (_, s') ← wgImport w.now batch apply previewDigest s
    .ok (none, s')
  | .delete id =>
    if !s.peers.any (·.id == id) then .error ⟨.notFound, "Peer not found"⟩
    else .ok (some (.remove id), s)
  | .deprovision hostId =>
    match findHostPeer s.listWireguardPeers hostId with
    | some p => .ok (some (.remove p.id), s)
    | none => .ok (none, s)
  | .remove id => do
    let s' ← deleteWireguardPeer id s
    .ok (none, s')

/-- The store and the requests in flight. -/
structure Panel where
  store : Store
  tasks : List Task := []

inductive Event
  | arrive (r : Request)
  /-- The next call of a request. -/
  | call (i : ℕ) (w : World)
  /-- A request ends without its next call: keys could not be made, or the storage failed. -/
  | abandon (i : ℕ)

namespace Panel

/-- The request with a number goes on. -/
def advance (p : Panel) (i : ℕ) (next : Option Task) (s : Store) : Panel where
  store := s
  tasks := match next with
    | some t => p.tasks.set i t
    | none => p.tasks.eraseIdx i

def step (service : Service) (p : Panel) : Event → Panel
  | .arrive r => { p with tasks := p.tasks ++ [r.task] }
  | .call i w =>
    match p.tasks[i]? with
    | none => p
    | some t =>
      match t.call service w p.store with
      | .ok (next, s) => p.advance i next s
      | .error _ => p.advance i none p.store
  | .abandon i => p.advance i none p.store

def run (service : Service) (p : Panel) (events : List Event) : Panel :=
  events.foldl (step service) p

end Panel
end SbEasy.WireGuard
