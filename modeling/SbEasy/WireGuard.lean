import SbEasy.Backup

/-!
WireGuard peers: their rows in `store.c`, the addresses they are given, and the server
configuration that `wireguard.c` writes for them.
-/

namespace SbEasy

open JsonParse

/-- `sb_wireguard_options`, as far as addresses and the server configuration need it. -/
structure WireguardOptions where
  interface : Bytes := lit "wg0"
  port : ℕ := 51820
  address : Bytes := lit "10.59.32.1/24"
  dns : Bytes := lit "10.59.32.1"
  mtu : ℕ := 1420

namespace WireGuard

/-- `peer_ip`: the address, a C string, without its prefix length. -/
def peerIp (address : Bytes) : Bytes := address.takeWhile fun c => c != 0 && c != 0x2F

/-- `strrchr(s, '.')`: what is before the last dot and what is behind it. -/
def splitLastDot : Bytes → Option (Bytes × Bytes)
  | [] => none
  | c :: s =>
    match splitLastDot s with
    | some (a, b) => some (c :: a, b)
    | none => if c = 0x2E then some ([], s) else none

/-- `strtoul` in base ten, if it finds digits and does not overflow. -/
def strtoul (s : Bytes) : Option ℕ :=
  let s := s.dropWhile isSpace
  let negative := s.head? == some 0x2D
  let s := if negative || s.head? == some 0x2B then s.tail else s
  let digits := s.takeWhile isDigit
  let value := digitsValue digits
  if digits.isEmpty || uint64Max < (value : ℤ) then none
  else some (if negative then (2 ^ 64 - value) % 2 ^ 64 else value)

/-- `subnet_cidr` -/
def subnetCidr (address : Bytes) : Bytes :=
  match address.dropWhile (· != 0x2F) with
  | [] => address
  | _ :: length =>
    match length == lit "24", splitLastDot (peerIp address) with
    | true, some (network, _) => network ++ lit ".0/" ++ length
    | _, _ => peerIp address ++ 0x2F :: length

/-- `saved_string` -/
def savedString (saved : Sbj) (key slot : Bytes) : Except Err Bytes :=
  match Sbj.get (some saved) key with
  | none => .ok slot
  | some (.str s) => .ok (Sbj.cstr s)
  | v => .error (Store.typeError "string" v)

/-- `double_to_u64`, on x86-64. -/
def doubleToU64 [Platform] (f : UInt64) : ℕ :=
  match Platform.truncate f with
  | some i =>
    if i < -2 ^ 63 then 2 ^ 63 else if i < 2 ^ 64 then (i % 2 ^ 64).toNat else 0
  | none => if f = 0x7FF0000000000000 then 0 else 2 ^ 63

/-- `saved_u64` -/
def savedU64 [Platform] (saved : Sbj) (key : Bytes) (fallback : ℕ) : Except Err ℕ :=
  match Sbj.get (some saved) key with
  | none => .ok fallback
  | some (.int i) => .ok (i % 2 ^ 64).toNat
  | some (.uint u) => .ok u
  | some (.float f) => .ok (doubleToU64 f)
  | v => .error (Store.typeError "number" v)

/-- The saved interface settings. -/
def savedInterface (s : Store) : Option Sbj :=
  (s.appSetting (lit "wireguard_interface")).map Subtype.val

/-- `sb_wireguard_runtime_options`: the saved interface overrides the options of the service. -/
def runtimeOptions [Platform] (options : WireguardOptions) (s : Store) :
    Except Err WireguardOptions :=
  match savedInterface s with
  | some (.obj m) => do
    let interface ← savedString (.obj m) (lit "interface") options.interface
    let address ← savedString (.obj m) (lit "address") options.address
    let dns ← savedString (.obj m) (lit "dns") options.dns
    let port ← savedU64 (.obj m) (lit "listen_port") options.port
    let mtu ← savedU64 (.obj m) (lit "mtu") options.mtu
    .ok {
      interface := interface, address := address, dns := dns
      port := if 0 < port ∧ port ≤ 65535 then port else options.port
      mtu := if mtu ≤ 65535 then mtu else options.mtu }
  | _ => .ok options

/-- The server's own address, as the options give it. -/
def serverAddress (options : WireguardOptions) (s : Store) : Bytes :=
  match Sbj.get (savedInterface s) (lit "address") with
  | some (.str a) => Sbj.cstr a
  | _ => options.address

/-- `sb_store_create_wireguard_peer` -/
def createWireguardPeer (uuid now : Bytes) (peer : WireguardPeer) (s : Store) :
    Except Err (WireguardPeer × Store) :=
  if peer.name.isEmpty || peer.privateKey.isEmpty || peer.publicKey.isEmpty ||
      peer.address.isEmpty then
    .error ⟨.validation, "WireGuard name, keys, and address are required"⟩
  else if peer.persistentKeepalive < 0 ∨ 65535 < peer.persistentKeepalive ∨ peer.quotaBytes < 0 then
    .error ⟨.validation, "Invalid WireGuard keepalive or quota"⟩
  else
    let id := if peer.id.isEmpty then uuid else peer.id
    if s.peers.any (·.address == peer.address) then
      .error ⟨.conflict, "WireGuard address already exists"⟩
    else if s.peers.any (·.id == id) then .error (Store.uniqueFailed "wireguard_peers.id")
    else
      let row := { peer with id := id, createdAt := now, updatedAt := now }
      .ok (Store.readWireguardPeer row, { s with peers := s.peers ++ [row] })

/-- `sb_store_update_wireguard_peer` -/
def updateWireguardPeer (now : Bytes) (peer : WireguardPeer) (s : Store) : Except Err Store :=
  if peer.id.isEmpty || peer.name.isEmpty || peer.persistentKeepalive < 0 ||
      65535 < peer.persistentKeepalive || peer.quotaBytes < 0 then
    .error ⟨.validation, "Invalid WireGuard peer"⟩
  else if !s.peers.any (·.id == peer.id) then .error ⟨.notFound, "Peer not found"⟩
  else .ok { s with
    peers := Table.update (·.id == peer.id) (fun r => { r with
      name := peer.name, enabled := peer.enabled, dns := peer.dns
      persistentKeepalive := peer.persistentKeepalive, allowedIps := peer.allowedIps
      expireAt := peer.expireAt, quotaBytes := peer.quotaBytes, updatedAt := now
      notes := peer.notes, hostId := peer.hostId }) s.peers }

/-- `sb_store_delete_wireguard_peer` -/
def deleteWireguardPeer (id : Bytes) (s : Store) : Except Err Store :=
  if !s.peers.any (·.id == id) then .error ⟨.notFound, "Peer not found"⟩
  else .ok { s with peers := s.peers.filter (·.id != id) }

/-- The last octet of an address in the network `base`, if it is one that can be taken. -/
def takenOctet (base address : Bytes) : Option ℕ :=
  match splitLastDot (peerIp address) with
  | some (network, digits) =>
    if network = base then (strtoul digits).filter (· < 255) else none
  | none => none

/-- The network in which a server gives out addresses. -/
def network (server : Bytes) : Bytes :=
  match splitLastDot (peerIp server) with
  | some (base, _) => base
  | none => lit "10.59.32"

/-- `sb_store_next_wireguard_address` -/
def nextWireguardAddress (server : Bytes) (s : Store) : Except Err Bytes :=
  let base := network server
  let taken := s.peers.filterMap fun p => takenOctet base p.address
  match (List.range' 2 253).find? fun octet => !taken.contains octet with
  | some octet => .ok (base ++ 0x2E :: decimal octet ++ lit "/24")
  | none => .error ⟨.conflict, "No available IPs in subnet"⟩

/-- `sb_wireguard_peer_stats`, as far as quotas need them. -/
structure PeerStats where
  publicKey : Bytes
  transferRx : ℤ
  transferTx : ℤ

/-- Whether a peer is in the server configuration. -/
def served (expired : WireguardPeer → Bool) (stats : List PeerStats) (p : WireguardPeer) : Bool :=
  p.enabled && !expired p &&
    match stats.find? (·.publicKey == p.publicKey) with
    | some found =>
      !(decide (0 < p.quotaBytes) &&
        decide (p.quotaBytes ≤ Int.bmod (found.transferRx + found.transferTx) (2 ^ 64)))
    | none => true

/-- The one address that the server routes to a peer. -/
def allowedIp (p : WireguardPeer) : Bytes := peerIp p.address ++ lit "/32"

def peerSection (p : WireguardPeer) : Bytes :=
  lit "\n# Client: " ++ p.name ++ lit "\n[Peer]\nPublicKey = " ++ p.publicKey ++ lit "\n" ++
    (match p.presharedKey with
      | some k => if k.isEmpty then [] else lit "PresharedKey = " ++ k ++ lit "\n"
      | none => []) ++
    lit "AllowedIPs = " ++ allowedIp p ++ lit "\n" ++
    if 0 < p.persistentKeepalive then
      lit "PersistentKeepalive = " ++ decimalInt p.persistentKeepalive ++ lit "\n"
    else []

/-- The peers of the server configuration. -/
def servedPeers (expired : WireguardPeer → Bool) (stats : List PeerStats) (s : Store) :
    List WireguardPeer :=
  s.listWireguardPeers.filter (served expired stats)

/-- `sb_wireguard_server_config` -/
def serverConfig (runtime : WireguardOptions) (privateKey : Bytes)
    (expired : WireguardPeer → Bool) (stats : List PeerStats) (s : Store) : Bytes :=
  lit "# Generated by sb-easy\n\n[Interface]\nPrivateKey = " ++ privateKey ++ lit "\n" ++
    lit "ListenPort = " ++ decimal runtime.port ++ lit "\n" ++
    (servedPeers expired stats s).flatMap peerSection

end WireGuard
end SbEasy
