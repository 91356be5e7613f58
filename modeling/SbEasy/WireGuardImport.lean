import SbEasy.WireGuard

/-!
The import of clients from wg-easy: `wg_migration.c` turns its configuration into a batch of
peers, and `sb_store_wg_import` compares the batch with the store and applies it in one
transaction.
-/

namespace SbEasy

open JsonParse

/-- What the migration takes from the C library, OpenSSL and `wg`. -/
structure MigrationTools where
  /-- `inet_pton(AF_INET)`: the address as a number in host order. -/
  inet4 : Bytes → Option ℕ
  /-- `inet_pton(AF_INET6)` -/
  inet6 : Bytes → Bool
  /-- `EVP_DecodeBlock`, unless it fails. -/
  decodeBlock : Bytes → Option Bytes
  /-- `EVP_EncodeBlock` -/
  encodeBlock : Bytes → Bytes
  /-- `sb_wireguard_public_key_from_private` -/
  publicKeyFromPrivate : Bytes → Option Bytes
  /-- An address has no prefix length. -/
  inet4_slash : ∀ {s n}, inet4 s = some n → 0x2F ∉ s

namespace WireGuard

/-- `text_field` -/
def textField (value : Sbj) (key : Bytes) (optional : Bool) (max : ℕ) :
    Except Err (Option Bytes) :=
  let field := Sbj.get (some value) key
  if Sbj.isNull field && optional then .ok none
  else
    match field with
    | some (.str s) =>
      if s.isEmpty || max < s.length || s.contains 0 then
        .error ⟨.validation, "wg-easy field " ++ shown key ++ " must be a bounded nonempty string"⟩
      else if s.any fun c => c < 32 || c == 127 then
        .error ⟨.validation, "wg-easy field " ++ shown key ++ " contains a control character"⟩
      else .ok (some s)
    | _ =>
      .error ⟨.validation, "wg-easy field " ++ shown key ++ " must be a bounded nonempty string"⟩

/-- All fields are read before any is looked at: the error of the last one wins. -/
def readFields : List (Except Err (Option Bytes)) → Except Err (List (Option Bytes))
  | [] => .ok []
  | field :: fields => do
    let rest ← readFields fields
    .ok ((← field) :: rest)

/-- `valid_key` -/
def validKey (tools : MigrationTools) (key : Bytes) : Bool :=
  key.length == 44 && key.getLast? == some 0x3D &&
    match tools.decodeBlock key with
    | some decoded =>
      decoded.length == 33 && (decoded.take 32).any (· != 0) &&
        tools.encodeBlock (decoded.take 32) == key
    | none => false

/-- The digits of a prefix length. -/
def prefixLength : ℕ → Bytes → Option ℕ
  | n, [] => some n
  | n, c :: s => if isDigit c && n ≤ 128 then prefixLength (n * 10 + (c - 0x30).toNat) s else none

/-- `valid_ip_or_cidr` -/
def validIpOrCidr (tools : MigrationTools) (value : Bytes) (requireLength : Bool) : Bool :=
  let ip := peerIp value
  match value.dropWhile (· != 0x2F) with
  | [] => !requireLength && ((tools.inet4 ip).isSome || tools.inet6 ip)
  | _ :: digits =>
    !digits.isEmpty &&
      match prefixLength 0 digits with
      | some n => ((tools.inet4 ip).isSome && n ≤ 32) || (tools.inet6 ip && n ≤ 128)
      | none => false

/-- `sb_trim_dup` -/
def trim (s : Bytes) : Bytes := ((s.dropWhile isSpace).reverse.dropWhile isSpace).reverse

/-- `valid_ip_list` -/
def validIpList (tools : MigrationTools) (input : Bytes) (cidr : Bool) : Bool :=
  !input.isEmpty && input.length ≤ 2048 &&
    (input.splitOn 0x2C).all fun raw => validIpOrCidr tools (trim raw) cidr

/-- What every imported client gets. -/
structure ClientDefaults where
  dns : Bytes
  allowed : Bytes
  keepalive : ℤ

/-- A client of wg-easy whose fields have been checked. -/
structure WgClient where
  id : Bytes
  name : Bytes
  ip : Bytes
  pub : Bytes
  priv : Option Bytes
  psk : Option Bytes
  enabled : Bool

/-- The peer in the batch. -/
def WgClient.peerJson (defaults : ClientDefaults) (c : WgClient) : Sbj :=
  .build [(lit "id", .str (lit "wg-easy-" ++ c.id)), (lit "name", .str c.name),
    (lit "address", .str (c.ip ++ lit "/24")), (lit "private_key", .str (c.priv.getD [])),
    (lit "public_key", .str c.pub), (lit "preshared_key", Store.optStr c.psk),
    (lit "enabled", .bool c.enabled), (lit "dns", .str defaults.dns),
    (lit "allowed_ips", .str defaults.allowed), (lit "persistent_keepalive", .int defaults.keepalive),
    (lit "quota_bytes", .int 0), (lit "notes", .str (lit "Imported from wg-easy v14"))]

/-- The checks on one client, the `index`-th, with the clients before it. -/
def readClient (tools : MigrationTools) (server : ℕ) (seen : List WgClient) (index : ℕ)
    (id : Bytes) (client : Sbj) : Except Err WgClient := do
  if id.isEmpty || 128 < id.length || id.contains 0 || !Sbj.isObject (some client) then
    .error ⟨.validation, "Invalid wg-easy client identifier"⟩
  else if !id.all fun c => isAlnum c || c == 0x2D then
    .error ⟨.validation, "Invalid wg-easy client identifier"⟩
  else
    let fields ← readFields [textField client (lit "name") false 256,
      textField client (lit "address") false 15, textField client (lit "publicKey") false 44,
      textField client (lit "privateKey") true 44, textField client (lit "preSharedKey") true 44]
    match fields with
    | [some name, some ip, some pub, priv, psk] =>
      match tools.inet4 ip with
      | none => .error ⟨.validation,
          "Invalid wg-easy client key or IPv4 address at entry " ++ toString (index + 1)⟩
      | some number =>
        if !validKey tools pub || !priv.all (validKey tools) || !psk.all (validKey tools) then
          .error ⟨.validation,
            "Invalid wg-easy client key or IPv4 address at entry " ++ toString (index + 1)⟩
        else if number / 256 ≠ server / 256 ∨ number = server ∨ number % 256 = 0 ∨
            number % 256 = 255 ∨ ip ∈ seen.map (·.ip) ∨ pub ∈ seen.map (·.pub) then
          .error ⟨.validation,
            "Duplicate or out-of-subnet wg-easy client at entry " ++ toString (index + 1)⟩
        else if !priv.all fun k => tools.publicKeyFromPrivate k == some pub then
          .error ⟨.validation,
            "wg-easy client public and private keys do not match at entry " ++ toString (index + 1)⟩
        else
          match Sbj.get (some client) (lit "enabled") with
          | none => .ok ⟨id, name, ip, pub, priv, psk, true⟩
          | some (.bool enabled) => .ok ⟨id, name, ip, pub, priv, psk, enabled⟩
          | some _ => .error ⟨.validation, "wg-easy client enabled must be boolean"⟩
    -- The required fields are strings, or reading them has failed.
    | _ => .error ⟨.validation, "Invalid wg-easy client identifier"⟩

/-- The loop over the clients; `seen` are those before. -/
def readClients (tools : MigrationTools) (server : ℕ) :
    List WgClient → List (Bytes × Sbj) → Except Err (List WgClient)
  | seen, [] => .ok seen
  | seen, (id, client) :: rest => do
    let c ← readClient tools server seen seen.length id client
    readClients tools server (seen ++ [c]) rest

/-! ### The batch -/

/-- What a batch holds besides the peers. -/
structure WgServer where
  privateKey : Bytes
  publicKey : Bytes
  address : Bytes
  number : ℕ

/-- The checks on the server of wg-easy. -/
def readServer (tools : MigrationTools) (server : Sbj) : Except Err WgServer := do
  let fields ← readFields [textField server (lit "privateKey") false 44,
    textField server (lit "publicKey") false 44, textField server (lit "address") false 15]
  match fields with
  | [some privateKey, some publicKey, some address] =>
    if !validKey tools privateKey || !validKey tools publicKey then
      .error ⟨.validation, "Invalid wg-easy server key or IPv4 address"⟩
    else
      match tools.inet4 address with
      | none => .error ⟨.validation, "Invalid wg-easy server key or IPv4 address"⟩
      | some number =>
        if number % 256 = 0 ∨ number % 256 = 255 ∨ number / 2 ^ 24 = 0 ∨ number / 2 ^ 24 = 127 ∨
            224 ≤ number / 2 ^ 24 then
          .error ⟨.validation,
            "wg-easy server address must be a usable IPv4 host in a /24 subnet"⟩
        else if tools.publicKeyFromPrivate privateKey ≠ some publicKey then
          .error ⟨.validation, "wg-easy server public and private keys do not match"⟩
        else .ok ⟨privateKey, publicKey, address, number⟩
  | _ => .error ⟨.validation, "Invalid wg-easy server key or IPv4 address"⟩

/-- The options of a migration. -/
def readDefaults [Platform] (tools : MigrationTools) (options : Option Sbj) (defaultDns : Bytes) :
    Except Err ClientDefaults :=
  let dns := Sbj.getStr options (lit "dns")
    (if defaultDns.isEmpty then lit "1.1.1.1" else defaultDns)
  let allowed := Sbj.getStr options (lit "allowed_ips") (lit "0.0.0.0/0, ::/0")
  let keepalive := Sbj.getInt options (lit "persistent_keepalive") 25
  let bad (key : Bytes) : Bool :=
    match options with
    | some o => (Sbj.get options key).isSome && (textField o key false 2048).toOption.isNone
    | none => false
  if bad (lit "dns") || bad (lit "allowed_ips") ||
      ((Sbj.get options (lit "persistent_keepalive")).isSome &&
        !Sbj.isInteger (Sbj.get options (lit "persistent_keepalive"))) ||
      decide (keepalive < 0) || decide (65535 < keepalive) || !validIpList tools dns false ||
      !validIpList tools allowed true then
    .error ⟨.validation, "Migration DNS must be IP addresses, allowed_ips must be CIDRs, and keepalive must be 0..65535"⟩
  else .ok ⟨dns, allowed, keepalive⟩

/-- The batch of `sb_wg_easy_v14_normalize`. -/
structure Batch where
  server : WgServer
  defaults : ClientDefaults
  clients : List WgClient

/-- `app_settings.wg_server_key` of a batch. -/
def Batch.serverKey (b : Batch) : Sbj :=
  .build [(lit "private_key", .str b.server.privateKey), (lit "public_key", .str b.server.publicKey)]

/-- `app_settings.wireguard_interface.address` of a batch. -/
def Batch.address (b : Batch) : Bytes := b.server.address ++ lit "/24"

/-- `wireguard_peers` of a batch. -/
def Batch.peers (b : Batch) : List Sbj := b.clients.map (·.peerJson b.defaults)

/-- A batch as JSON. -/
def Batch.toJson (b : Batch) : Sbj :=
  .build [(lit "app_settings", .build [(lit "wg_server_key", b.serverKey),
      (lit "wireguard_interface", .build [(lit "address", .str b.address)])]),
    (lit "client_defaults", .build [(lit "dns", .str b.defaults.dns),
      (lit "allowed_ips", .str b.defaults.allowed),
      (lit "persistent_keepalive", .int b.defaults.keepalive)]),
    (lit "wireguard_peers", .arr b.peers)]

/-- `sb_wg_easy_v14_normalize` -/
def wgEasyV14Normalize [Platform] (tools : MigrationTools) (configuration options : Option Sbj)
    (defaultDns : Bytes) : Except Err Batch :=
  match Sbj.get configuration (lit "server"), Sbj.get configuration (lit "clients") with
  | some (.obj server), some (.obj clients) =>
    if 4096 < clients.length || (options.isSome && !Sbj.isObject options) then
      .error ⟨.validation, "Expected wg-easy v14 wg0.json with server and clients objects (maximum 4096 clients)"⟩
    else do
      let server ← readServer tools (.obj server)
      let defaults ← readDefaults tools options defaultDns
      let clients ← readClients tools server.number [] clients
      .ok ⟨server, defaults, clients⟩
  | _, _ =>
    .error ⟨.validation, "Expected wg-easy v14 wg0.json with server and clients objects (maximum 4096 clients)"⟩

/-! ### Import -/

variable [Platform]

/-- One of the two settings in a snapshot: it has to be an object. -/
def snapshotSetting (s : Store) (key : Bytes) : Except Err (List (Bytes × Sbj)) :=
  match (s.appSetting key).map Subtype.val with
  | none => .ok []
  | some (.obj m) => .ok [(key, .obj m)]
  | some _ => .error ⟨.generic, "WireGuard settings must contain a JSON object"⟩

/-- `wg_snapshot_locked` -/
def wgSnapshot (s : Store) : Except Err Sbj := do
  let key ← snapshotSetting s (lit "wg_server_key")
  let interface ← snapshotSetting s (lit "wireguard_interface")
  .ok (.build [(lit "app_settings", .build (key ++ interface)),
    (lit "wireguard_peers", .arr ((orderBy (·.id) s.peers).map fun p =>
      Store.wireguardPeerToJson (Store.readWireguardPeer p)))])

/-- What an import does with a client. -/
inductive ImportAction
  | add | alreadyPresent | conflict
  deriving DecidableEq

/-- `wg_import_same_ip` -/
def wgImportSameIp (left right : Bytes) : Bool := peerIp left == peerIp right

/-- A client of the batch against the peers that are there. -/
def importAction (existing : List WireguardPeer) (peer : Sbj) : ImportAction :=
  let id := Sbj.getStr (some peer) (lit "id") []
  let pub := Sbj.getStr (some peer) (lit "public_key") []
  let address := Sbj.getStr (some peer) (lit "address") []
  let sameKey (old : WireguardPeer) := pub == Sbj.cstr old.publicKey
  let sameAddress (old : WireguardPeer) := wgImportSameIp address (Sbj.cstr old.address)
  let sameId (old : WireguardPeer) := id == Sbj.cstr old.id
  if existing.any fun old =>
      !(sameKey old && sameAddress old) && (sameKey old || sameAddress old || sameId old) then
    .conflict
  else if existing.any fun old => sameKey old && sameAddress old then .alreadyPresent
  else .add

/-- A line of the report. -/
structure ImportRow where
  id : Bytes
  name : Bytes
  address : Bytes
  enabled : Bool
  hasPrivateKey : Bool
  action : ImportAction

structure ImportReport where
  conflicts : List String
  clients : List ImportRow
  imported : Bool
  previewDigest : Bytes
  added : ℕ
  skipped : ℕ
  serverAddress : Bytes
  serverPublicKey : Bytes

def importRow (existing : List WireguardPeer) (peer : Sbj) : ImportRow where
  id := Sbj.getStr (some peer) (lit "id") []
  name := Sbj.getStr (some peer) (lit "name") []
  address := Sbj.getStr (some peer) (lit "address") []
  enabled := Sbj.getBool (some peer) (lit "enabled") false
  hasPrivateKey := !(Sbj.getStr (some peer) (lit "private_key") []).isEmpty
  action := importAction existing peer

/-- The identity and the subnet of a server with peers have to stay. -/
def serverConflicts (b : Batch) (s : Store) : List String :=
  let oldKey := Sbj.getStr ((s.appSetting (lit "wg_server_key")).map Subtype.val)
    (lit "public_key") []
  let oldAddress := Sbj.getStr (savedInterface s) (lit "address") []
  if s.peers.isEmpty then []
  else
    (if oldKey == Sbj.cstr b.server.publicKey then []
      else ["Existing WireGuard peers use a different or unknown server identity"]) ++
    (if oldAddress == Sbj.cstr b.address then []
      else ["Existing WireGuard peers use a different server subnet"])

def clientConflicts (b : Batch) (s : Store) : List String :=
  b.peers.zipIdx.filterMap fun (peer, index) =>
    if importAction s.peers peer = .conflict then
      some ("Client " ++ toString (index + 1) ++
        " conflicts with an existing identifier, address or public key")
    else none

/-- The peers that an import adds. -/
def additions (b : Batch) (s : Store) : List Sbj :=
  b.peers.filter fun peer => importAction s.peers peer = .add

/-- The digest of the state and the batch that a preview shows. -/
def importDigest (b : Batch) (s : Store) : Except Err Bytes := do
  let before ← wgSnapshot s
  let material := Sbj.build [(lit "before", before), (lit "incoming", b.toJson)]
  match material.validateUtf8 with
  | .error fault => .error ⟨.badJson, fault.text⟩
  | .ok () => .ok (Platform.sha256 (dump material (-1)))

/-- The interface settings after an import: only the address is new. -/
def mergedInterface (b : Batch) (s : Store) : Json :=
  match s.appSetting (lit "wireguard_interface") with
  | some old =>
    ⟨old.1.set (lit "address") (.str (Sbj.cstr b.address)), old.2.set (by trivial) _⟩
  | none =>
    ⟨.build [(lit "address", .str (Sbj.cstr b.address))], Sbj.ordered_build (by simp [Sbj.Ordered])⟩

omit [Platform] in
lemma ordered_serverKey (b : Batch) : b.serverKey.Ordered :=
  Sbj.ordered_build (by simp [Sbj.Ordered])

/-- The rows that an import inserts. -/
def restorePeers (now : Bytes) : List Sbj → List WireguardPeer × ℕ →
    Except Err (List WireguardPeer × ℕ)
  | [], t => .ok t
  | peer :: rest, t => do restorePeers now rest (← Store.restorePeer now peer t)

/-- The writes of `sb_store_wg_import`, inside its transaction. -/
def applyImport (now : Bytes) (b : Batch) (s : Store) : Except Err Store := do
  let s₁ ← s.putSetting (lit "wg_server_key") ⟨b.serverKey, ordered_serverKey b⟩
  let s₂ ← s₁.putSetting (lit "wireguard_interface") (mergedInterface b s)
  let t ← restorePeers now (additions b s) (s₂.peers, 0)
  let s₃ := { s₂ with peers := t.1 }
  let after ← wgSnapshot s₃
  match after.validateUtf8 with
  | .error fault => .error ⟨.badJson, fault.text⟩
  | .ok () => .ok s₃

/-- `sb_store_wg_import` -/
def wgImport (now : Bytes) (b : Batch) (apply : Bool) (previewDigest : Option Bytes) (s : Store) :
    Except Err (ImportReport × Store) := do
  let digest ← importDigest b s
  let conflicts := serverConflicts b s ++ clientConflicts b s
  let report : ImportReport := {
    conflicts := conflicts, clients := b.peers.map (importRow s.peers), imported := apply
    previewDigest := digest, added := (additions b s).length
    skipped := b.peers.countP fun peer => importAction s.peers peer = .alreadyPresent
    serverAddress := b.address, serverPublicKey := b.server.publicKey }
  if !apply then .ok (report, s)
  else if !conflicts.isEmpty then
    .error ⟨.conflict, "Migration has conflicts; no changes applied"⟩
  else if previewDigest ≠ some digest then
    .error ⟨.conflict, "Migration input or WireGuard state changed; preview again before importing"⟩
  else
    let s' ← applyImport now b s
    .ok (report, s')

end WireGuard
end SbEasy
