import SbEasy.Store
import SbEasy.Tx

/-!
Peers as JSON: a backup of the panel writes a row as an object, and restoring one puts the row
of an object into the table in place of the rows it clashes with.
-/

namespace SbEasy

open JsonParse

namespace Store

variable [Platform]

/-- `read_wireguard_peer`: the keepalive is read as 32 bits. -/
def readWireguardPeer (p : WireguardPeer) : WireguardPeer :=
  { p with persistentKeepalive := Int.bmod p.persistentKeepalive (2 ^ 32) }

/-- `sb_wireguard_peer_to_json` -/
def wireguardPeerToJson (p : WireguardPeer) : Sbj :=
  .build [(lit "id", strOf p.id), (lit "name", .str p.name),
    (lit "private_key", strOf p.privateKey), (lit "public_key", strOf p.publicKey),
    (lit "preshared_key", optStr (p.presharedKey.map Sbj.cstr)), (lit "address", strOf p.address),
    (lit "dns", strOf p.dns), (lit "enabled", .bool p.enabled),
    (lit "persistent_keepalive", .int p.persistentKeepalive), (lit "allowed_ips", strOf p.allowedIps),
    (lit "expire_at", optStr (p.expireAt.map Sbj.cstr)), (lit "quota_bytes", .int p.quotaBytes),
    (lit "created_at", strOf p.createdAt), (lit "updated_at", strOf p.updatedAt),
    (lit "notes", optStr p.notes), (lit "host_id", optStr (p.hostId.map Sbj.cstr))]

def listWireguardPeers (s : Store) : List WireguardPeer :=
  (orderBy (·.address) s.peers).map readWireguardPeer

/-- `COALESCE(NULLIF(text, ''), datetime('now'))` -/
def orNow (now text : Bytes) : Bytes := if text.isEmpty then now else text

/-- The row that `restore_peer` inserts, if it inserts one. -/
def peerOfBackup (now : Bytes) (value : Sbj) : Except Err (Option WireguardPeer) := do
  let id ← jvStr value (lit "id") []
  let address ← jvStr value (lit "address") []
  if (Sbj.cstr id).isEmpty || (Sbj.cstr address).isEmpty then .ok none
  else
    let name ← jvStr value (lit "name") []
    let privateKey ← jvStr value (lit "private_key") []
    let publicKey ← jvStr value (lit "public_key") []
    let dns ← jvStr value (lit "dns") (lit "10.59.32.1")
    let enabled ← jvBool value (lit "enabled") true
    let keepalive ← jvInt value (lit "persistent_keepalive") 25
    let allowedIps ← jvStr value (lit "allowed_ips") (lit "0.0.0.0/0, ::/0")
    let quota ← jvInt value (lit "quota_bytes") 0
    let createdAt ← jvStr value (lit "created_at") []
    .ok (some {
      id := Sbj.cstr id, name := name, privateKey := Sbj.cstr privateKey
      publicKey := Sbj.cstr publicKey
      presharedKey := (jvOptStr value (lit "preshared_key")).map Sbj.cstr
      address := Sbj.cstr address, dns := Sbj.cstr dns, enabled := enabled
      persistentKeepalive := keepalive, allowedIps := Sbj.cstr allowedIps
      expireAt := (jvOptStr value (lit "expire_at")).map Sbj.cstr, quotaBytes := quota
      createdAt := orNow now (Sbj.cstr createdAt), updatedAt := now
      notes := jvOptStr value (lit "notes")
      hostId := (jvOptStr value (lit "host_id")).map Sbj.cstr })

def clashingPeer (a b : WireguardPeer) : Bool := a.id == b.id || a.address == b.address

/-- `INSERT OR REPLACE` of a row, if there is one, and the count of such rows. -/
def insertOrReplace {ρ : Type} (clashing : ρ → ρ → Bool) (row : Option ρ) (t : List ρ × ℕ) :
    List ρ × ℕ :=
  match row with
  | none => t
  | some r => (Table.replace clashing r t.1, t.2 + 1)

def restorePeer (now : Bytes) (value : Sbj) (t : List WireguardPeer × ℕ) :
    Except Err (List WireguardPeer × ℕ) := do
  .ok (insertOrReplace clashingPeer (← peerOfBackup now value) t)

end Store
end SbEasy
