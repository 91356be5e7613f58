import SbEasy.Store
import SbEasy.Tx

/-!
The refresh of a subscription: `sb_store_apply_subscription_fetch` checks that the source is
still the one that was fetched, puts every node of the response into `proxy_nodes` and records
the fetch, all in one transaction.
-/

namespace SbEasy

open JsonParse

/-- `sb_parsed_node` -/
structure ParsedNode where
  nodeType : Bytes
  tag : Bytes
  server : Bytes
  serverPort : ℕ
  protocolConfig : Json

/-- Which of several rows a `SELECT ... LIMIT 1` returns. -/
structure Query where
  pick : List ProxyRecord → Option ProxyRecord
  pick_mem : ∀ {l r}, pick l = some r → r ∈ l
  pick_some : ∀ {l}, l ≠ [] → ∃ r, pick l = some r

/-- Where the storage may fail; for a node, up to its `UPDATE` or `INSERT` and in it. -/
inductive RefreshStmt
  | begin | source | find (i : ℕ) | write (i : ℕ) | record | commit

/-- Identifiers, times and storage errors, as the statements of one transaction find them. -/
structure RefreshWorld where
  /-- `sb_uuid_v4` and `datetime('now')`, for the node with a number. -/
  uuid : ℕ → Bytes
  clock : ℕ → Bytes
  /-- `datetime(t, 'unixepoch')` -/
  datetime : ℤ → Bytes
  fault : RefreshStmt → Option Err := fun _ => none

/-- `sb_subscription_fetch_result`, as the caller fills it in. -/
structure FetchResult where
  skipped : ℕ
  errors : List Bytes
  usage : Json

/-- A row that was written for a node. -/
structure Written where
  id : Bytes
  added : Bool
  deriving DecidableEq

namespace Refresh

/-- `supported_proxy_type` -/
def supportedProxyType (type : Bytes) : Bool :=
  [lit "shadowsocks", lit "vmess", lit "vless", lit "trojan", lit "hysteria2", lit "tuic",
    lit "http", lit "socks"].contains type

/-- `validate_proxy` -/
def validateProxy (node : ParsedNode) : Except Err Unit :=
  if node.tag.isEmpty || node.server.isEmpty || node.serverPort == 0 ||
      !Sbj.isObject (some node.protocolConfig.1) then
    .error ⟨.validation, "Proxy tag, server, port, and object protocol_config are required"⟩
  else if !supportedProxyType node.nodeType then
    .error ⟨.validation, "Unsupported proxy type: " ++ shown (Sbj.cstr node.nodeType)⟩
  else .ok ()

/-- The members of a configuration that tell nodes at one address apart. -/
def credentialKeys (type : Bytes) : List Bytes :=
  if type = lit "shadowsocks" ∨ type = lit "trojan" ∨ type = lit "hysteria2" then [lit "password"]
  else if type = lit "vmess" ∨ type = lit "vless" then [lit "uuid"]
  else if type = lit "tuic" then [lit "uuid", lit "password"]
  else if type = lit "http" ∨ type = lit "socks" then [lit "username", lit "password"]
  else []

/-- A credential, if it is a string. -/
def credential (config : Sbj) (key : Bytes) : Bytes :=
  match Sbj.get (some config) key with
  | some (.str s) => s
  | _ => []

variable [Platform]

/-- `sb_parsed_node_fingerprint` -/
def parsedNodeFingerprint (node : ParsedNode) : Bytes :=
  let credentials := (credentialKeys node.nodeType).map (credential node.protocolConfig.1)
  Platform.sha256 (node.server ++ 0x3A :: decimal node.serverPort ++ 0x3A :: node.nodeType ++
    0x3A :: [0x3A].intercalate credentials)

/-- `fingerprint_of`: the credentials have to be strings. -/
def fingerprintOf (node : ParsedNode) : Except Err Bytes := do
  (credentialKeys node.nodeType).forM fun key =>
    (Store.jvStr node.protocolConfig.1 key []).map fun _ => ()
  .ok (parsedNodeFingerprint node)

/-- The fingerprint inside a subscription. -/
def scopedFingerprint (subscription : Option Bytes) (fingerprint : Bytes) : Bytes :=
  match subscription with
  | some id => Platform.sha256 (id ++ 0x3A :: fingerprint)
  | none => fingerprint

/-- The row a node belongs to: one with its fingerprint, or one under its name. -/
def existing (q : Query) (subscription : Option Bytes) (fingerprint legacy name : Bytes)
    (t : List ProxyRecord) : Option ProxyRecord :=
  let rows := t.filter (·.subscriptionId == subscription)
  (q.pick (rows.filter fun r => r.fingerprint == fingerprint || r.fingerprint == legacy)).or
    (q.pick (rows.filter fun r =>
      (r.tag == name || r.sourceTag == some name) && r.fingerprint != fingerprint))

/-- The names that `import_display_tag` tries, in this order. -/
def displayTag (name : Bytes) : ℕ → Bytes
  | 0 => name
  | n + 1 => name ++ lit " [" ++ decimal (n + 2) ++ lit "]"

/-- A tag is in use by another row than `own`. -/
def tagTaken (t : List ProxyRecord) (own : Option Bytes) (tag : Bytes) : Bool :=
  t.any fun r => r.tag == tag && own != some r.id

/-- `import_display_tag` -/
def importDisplayTag (t : List ProxyRecord) (name : Bytes) (own : Option Bytes) : Bytes :=
  displayTag name
    (FreshName.search (fun n => tagTaken t own (displayTag name n)) (· + 1) t.length 0)

/-- The tag was changed by the user since the provider's name was recorded. -/
def renamed (r : ProxyRecord) : Bool :=
  match r.sourceTag with
  | some source => r.tag != source
  | none => false

/-- The `UPDATE` of `upsert_one`. -/
def updatedRow (subscription : Option Bytes) (node : ParsedNode) (config : Sbj)
    (fingerprint display now : Bytes) (r : ProxyRecord) : ProxyRecord :=
  { r with
    tag := if subscription.isSome && renamed r then r.tag else display
    sourceTag := subscription.map fun _ => node.tag
    nodeType := node.nodeType, server := node.server, serverPort := node.serverPort
    protocolConfig := some config, fingerprint := fingerprint, subscriptionId := subscription
    updatedAt := now }

/-- The `INSERT` of `upsert_one`. -/
def insertedRow (subscription : Option Bytes) (node : ParsedNode) (config : Sbj)
    (fingerprint display id now : Bytes) : ProxyRecord where
  id := id
  tag := display
  nodeType := node.nodeType
  server := node.server
  serverPort := node.serverPort
  protocolConfig := some config
  subscriptionId := subscription
  fingerprint := fingerprint
  createdAt := now
  updatedAt := now
  sourceTag := subscription.map fun _ => node.tag

/-- `upsert_one` -/
def upsertOne (q : Query) (subscription : Option Bytes) (uuid now : Bytes) (fault : Option Err)
    (node : ParsedNode) (t : List ProxyRecord) : Except Err (Written × List ProxyRecord) := do
  validateProxy node
  let legacy ← fingerprintOf node
  fault.forM Except.error
  let fingerprint := scopedFingerprint subscription legacy
  match existing q subscription fingerprint legacy node.tag t with
  | some r =>
    let display := importDisplayTag t node.tag (some r.id)
    let config ← dumpChecked node.protocolConfig
    let row := updatedRow subscription node config.1 fingerprint display now r
    if t.any fun x => x.id != r.id && x.tag == row.tag then
      .error (Store.uniqueFailed "proxy_nodes.tag")
    else if t.any fun x => x.id != r.id && x.fingerprint == fingerprint then
      .error (Store.uniqueFailed "proxy_nodes.fingerprint")
    else .ok (⟨r.id, false⟩, Table.update (·.id == r.id)
      (updatedRow subscription node config.1 fingerprint display now) t)
  | none =>
    let display := importDisplayTag t node.tag none
    let config ← dumpChecked node.protocolConfig
    if t.any fun x => x.id == uuid then .error (Store.uniqueFailed "proxy_nodes.id")
    else if t.any fun x => x.tag == display then .error (Store.uniqueFailed "proxy_nodes.tag")
    else if t.any fun x => x.fingerprint == fingerprint then
      .error (Store.uniqueFailed "proxy_nodes.fingerprint")
    else .ok (⟨uuid, true⟩,
      t ++ [insertedRow subscription node config.1 fingerprint display uuid now])

/-- A statement that may fail. -/
def meets (w : RefreshWorld) (x : RefreshStmt) : Tx Store Err Unit :=
  (w.fault x).forM throw

/-- One node, as a statement of the transaction. -/
def upsertNode (q : Query) (w : RefreshWorld) (subscription : Bytes) (i : ℕ) (node : ParsedNode) :
    Tx Store Err Written := do
  let s ← get
  match upsertOne q (some subscription) (w.uuid i) (w.clock i) (w.fault (.find i)) node s.nodes with
  | .error e => throw e
  | .ok (x, t) => do
    meets w (.write i)
    modify fun s => { s with nodes := t }
    pure x

/-- The loop over the nodes, from the number `i` on. -/
def upsertNodes (q : Query) (w : RefreshWorld) (subscription : Bytes) :
    ℕ → List ParsedNode → Tx Store Err (List Written)
  | _, [] => pure []
  | i, node :: nodes => do
    let x ← upsertNode q w subscription i node
    let xs ← upsertNodes q w subscription (i + 1) nodes
    pure (x :: xs)

/-- What is recorded of a fetch. -/
def fetchMetadata (result : FetchResult) (written : List Written) : Json :=
  ⟨.build [(lit "added", .ofUint (written.countP (·.added))),
      (lit "updated", .ofUint (written.countP (!·.added))), (lit "skipped", .ofUint result.skipped),
      (lit "total", .ofUint written.length), (lit "errors", .arr (result.errors.map Store.strOf))],
    by
      refine Sbj.ordered_build fun p hp => ?_
      have huint : ∀ u, (Sbj.ofUint u).Ordered := fun u => by
        unfold Sbj.ofUint
        split_ifs <;> trivial
      have herrors : (Sbj.arr (result.errors.map Store.strOf)).Ordered :=
        Sbj.orderedItems_iff.mpr fun v hv => by
          obtain ⟨e, -, rfl⟩ := List.mem_map.mp hv
          trivial
      simp only [List.mem_cons, List.not_mem_nil, or_false] at hp
      rcases hp with rfl | rfl | rfl | rfl | rfl <;> simp only [huint, herrors]⟩

/-- The row of the subscription after a fetch. -/
def recordFetch (w : RefreshWorld) (now : ℤ) (interval : ℤ) (metadata usage : Json)
    (sub : Subscription) : Subscription :=
  { sub with
    lastFetchedAt := some (w.datetime now), lastAttemptAt := some (w.datetime now)
    lastFetchResult := some (dump metadata.1 (-1)), usage := usage.1, lastError := none
    failureCount := 0
    nextRefreshAt :=
      if int64Max - now < max interval 60 then int64Max else now + max interval 60 }

end Refresh
end SbEasy
