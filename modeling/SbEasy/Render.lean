import SbEasy.JsonEdit
import SbEasy.Schema
import SbEasy.FreshName

/-!
The renderer of `config_renderer.c`: from a profile and its proxy nodes to the sing-box
configuration of a host.

The configuration is edited in place in the source. Here every pass returns the edited
value, and a pass that fails returns the error alone, as the caller then frees the value.
-/

namespace SbEasy

open JsonParse

/-- Bytes in an error message. -/
def shown (s : Bytes) : String := String.ofList (s.map fun c => Char.ofNat c.toNat)

/-- `sb_proxy_node` -/
structure ProxyNode where
  tag : Bytes
  type : Bytes
  enabled : Bool
  server : Bytes
  serverPort : ℕ
  protocolConfig : Sbj

/-- `sb_profile_mode` -/
inductive ProfileMode
  | managed | full
  deriving DecidableEq

/-- A network transport of the server: a direct outbound under a name of its own. -/
structure Transport where
  tag : Bytes
  named : lit "sb-easy-tailscale-direct" <+: tag

/-- `sb_render_request` -/
structure RenderRequest where
  mode : ProfileMode
  profile : Sbj
  nodes : List ProxyNode
  hostContext : Sbj
  externalRouteTags : List Sbj
  priorityRouteRules : List Sbj
  networkOutbounds : List Transport
  controlPlaneServer : Bytes
  ruleScript : Option Bytes
  clashController : Bytes
  clashSecret : Bytes
  ordered : profile.Ordered

/-- `sb_script_limits`, as far as the renderer itself reads them. -/
structure ScriptLimits where
  sourceBytes : ℕ := 128 * 1024
  outputBytes : ℕ := 2 * 1024 * 1024

/-- `sb_config_renderer`, with what it takes from QuickJS and the C library. -/
structure Renderer where
  limits : ScriptLimits := {}
  /-- The JSON text of what `buildRules` returns, for a script and the text of its context. -/
  evaluate : Bytes → Bytes → Except Err Bytes
  /-- `inet_pton` for `AF_INET` and `AF_INET6` -/
  inet4 : Bytes → Bool
  inet6 : Bytes → Bool

namespace Render

def typeErrorValue (object : Option Sbj) : Err :=
  ⟨.generic, "[json.exception.type_error.306] cannot use value() with " ++ Sbj.typeName object⟩

def typeErrorKind (kind : String) (found : Option Sbj) : Err :=
  ⟨.generic, "[json.exception.type_error.302] type must be " ++ kind ++ ", but is " ++
    Sbj.typeName found⟩

def valueStr (object : Option Sbj) (key fallback : Bytes) : Except Err Bytes :=
  if !Sbj.isObject object then .error (typeErrorValue object)
  else
    match Sbj.get object key with
    | none => .ok fallback
    | some (.str s) => .ok (Sbj.cstr s)
    | found => .error (typeErrorKind "string" found)

def valueBool (object : Option Sbj) (key : Bytes) (fallback : Bool) : Except Err Bool :=
  if !Sbj.isObject object then .error (typeErrorValue object)
  else
    match Sbj.get object key with
    | none => .ok fallback
    | some (.bool b) => .ok b
    | found => .error (typeErrorKind "boolean" found)

/-- The conversion to `int` keeps 32 bits. -/
def valueInt [Platform] (object : Option Sbj) (key : Bytes) (fallback : ℤ) : Except Err ℤ :=
  if !Sbj.isObject object then .error (typeErrorValue object)
  else
    match Sbj.get object key with
    | none => .ok fallback
    | some (.int i) => .ok (Int.bmod i (2 ^ 32))
    | some (.uint u) => .ok (Int.bmod u (2 ^ 32))
    | some (.float f) => .ok (Int.bmod ((Platform.truncate f).getD 0) (2 ^ 32))
    | some (.bool b) => .ok (if b then 1 else 0)
    | found => .error (typeErrorKind "number" found)

def valueOrNull (value : Sbj) (key : Bytes) : Sbj := (Sbj.get (some value) key).getD .null

def copyIfPresent (destination source : Sbj) (key : Bytes) : Sbj :=
  match Sbj.get (some source) key with
  | none => destination
  | some found => destination.set key found

def stringOr (value : Sbj) (key fallback : Bytes) : Sbj :=
  match Sbj.get (some value) key with
  | some (.str s) => .str s
  | _ => .str fallback

/-- A slot that `index_or_null` and `set_get` have turned into an object or an array. -/
def orObject (slot : Option Sbj) : Sbj := if Sbj.isNull slot then .obj [] else slot.getD .null
def orArray (slot : Option Sbj) : Sbj := if Sbj.isNull slot then .arr [] else slot.getD .null

/-- The tags a rule may name, as the object the source keeps them in. -/
def tagAllowed (allowed : Sbj) (t : Bytes) : Bool := (Sbj.get (some allowed) t).isSome

mutual
/-- One rule of `validate_rule_tags`. -/
def validateRule (allowed : Sbj) : Sbj → Except Err Unit
  | .obj m => do
    match Sbj.get (some (.obj m)) (lit "outbound") with
    | some (.str t) =>
      if !tagAllowed allowed t then
        throw ⟨.script, "generated rule references unknown outbound tag: " ++ shown (Sbj.cstr t)⟩
    | _ => pure ()
    validateNested allowed m
  | _ => .ok ()
/-- The nested rules of a rule, found among its members. -/
def validateNested (allowed : Sbj) : List (Bytes × Sbj) → Except Err Unit
  | [] => .ok ()
  | (k, v) :: m => if k = lit "rules" then validateArray allowed v else validateNested allowed m
def validateArray (allowed : Sbj) : Sbj → Except Err Unit
  | .arr rules => validateRuleTags allowed rules
  | _ => .ok ()
def validateRuleTags (allowed : Sbj) : List Sbj → Except Err Unit
  | [] => .ok ()
  | rule :: rules => do validateRule allowed rule; validateRuleTags allowed rules
end

def injectClashApi (config : Sbj) (request : RenderRequest) : Sbj :=
  if request.clashController.isEmpty || !Sbj.isObject (some config) then config
  else
    let existing := Sbj.get (some config) (lit "experimental")
    let api := (Sbj.obj []).set (lit "external_controller") (.str request.clashController)
    let api := if request.clashSecret.isEmpty then api
      else api.set (lit "secret") (.str request.clashSecret)
    if Sbj.isObject existing && (Sbj.get existing (lit "clash_api")).isSome then config
    else if Sbj.isObject (some (orObject existing)) then
      config.set (lit "experimental") ((orObject existing).set (lit "clash_api") api)
    else config

def disableClashDashboard (config : Sbj) : Sbj :=
  match Sbj.get (some config) (lit "experimental") with
  | some (.obj experimental) =>
    match Sbj.get (some (.obj experimental)) (lit "clash_api") with
    | some (.obj api) =>
      let api := (((Sbj.obj api).del (lit "external_ui")).del
        (lit "external_ui_download_url")).del (lit "external_ui_download_detour")
      config.set (lit "experimental") ((Sbj.obj experimental).set (lit "clash_api") api)
    | _ => config
  | _ => config

/-- What follows the first `://`, or everything (`strstr`). -/
def afterScheme : Bytes → Option Bytes
  | [] => none
  | c :: s => if lit "://" <+: c :: s then some (s.drop 2) else afterScheme s

def urlHost (input : Bytes) : Bytes :=
  let value := (afterScheme (Sbj.cstr input)).getD (Sbj.cstr input)
  let host := value.takeWhile fun c => c != 0x2F && c != 0x3F && c != 0x23
  if host.head? = some 0x5B then
    if (0x5D : UInt8) ∈ host then (host.drop 1).takeWhile (· != 0x5D) else []
  else if host.count 0x3A = 1 then host.takeWhile (· != 0x3A)
  else host

def directRule (key value : Bytes) : Sbj :=
  ((Sbj.obj []).set key (.arr [.str value])).set (lit "outbound") (.str (lit "direct"))

/-- `NULL` when the server has no usable host. -/
def controlPlaneRoute (renderer : Renderer) (server : Bytes) : Option Sbj :=
  let host := urlHost server
  if host.isEmpty then none
  else if renderer.inet4 host then some (directRule (lit "ip_cidr") (host ++ lit "/32"))
  else if renderer.inet6 host then some (directRule (lit "ip_cidr") (host ++ lit "/128"))
  else some (directRule (lit "domain") host)

/-! ### Managed DNS and geo policy -/

/-- What a server's detour to the old proxy groups is rewritten to. -/
def detourTarget (hasAuto : Bool) (proxySelector : Option Bytes) : Bytes :=
  if !hasAuto then lit "direct" else proxySelector.getD (lit "auto")

def normalizeServer (target : Bytes) (server : Sbj) : Sbj :=
  let detour := Sbj.get (some server) (lit "detour")
  if !Sbj.isObject (some server) || !Sbj.isString detour then server
  else if Sbj.stringIs detour (lit "Proxy") || Sbj.stringIs detour (lit "Auto") then
    server.set (lit "detour") (.str target)
  else server

def normalizeManagedDnsDetours (config : Sbj) (hasAuto : Bool) (proxySelector : Option Bytes) :
    Sbj :=
  match Sbj.get (some config) (lit "dns") with
  | some (.obj dns) =>
    match Sbj.get (some (.obj dns)) (lit "servers") with
    | none => config.set (lit "dns") ((Sbj.obj dns).set (lit "servers") .null)
    | some (.arr servers) =>
      config.set (lit "dns") ((Sbj.obj dns).set (lit "servers")
        (.arr (servers.map (normalizeServer (detourTarget hasAuto proxySelector)))))
    | some _ => config
  | _ => config

def metaRulesBase : Bytes :=
  lit "https://cdn.jsdelivr.net/gh/MetaCubeX/meta-rules-dat@sing/geo/"

def ruleSetTagMatches (value : Sbj) (tag : Bytes) : Bool :=
  match value with
  | .str s => s == tag
  | .arr items => items.any fun item => Sbj.stringIs (some item) tag
  | _ => false

def hasRuleForSet (rules : List Sbj) (tag : Bytes) : Bool :=
  rules.any fun rule =>
    match Sbj.get (some rule) (lit "rule_set") with
    | some found => ruleSetTagMatches found tag
    | none => false

def hasPrivateIpRule : List Sbj → Except Err Bool
  | [] => .ok false
  | rule :: rules =>
    if !Sbj.isObject (some rule) then hasPrivateIpRule rules
    else do
      let flag ← valueBool (some rule) (lit "ip_is_private") false
      if flag then pure true else hasPrivateIpRule rules

def remoteRuleSet (tag relativeUrl : Bytes) : Sbj :=
  ((((((Sbj.obj []).set (lit "type") (.str (lit "remote"))).set (lit "tag") (.str tag)).set
    (lit "format") (.str (lit "binary"))).set (lit "url") (.str (metaRulesBase ++ relativeUrl))).set
    (lit "download_detour") (.str (lit "direct"))).set (lit "update_interval") (.str (lit "7d"))

/-- Whether the loop of `add_remote_rule_set` meets the tag. -/
def ruleSetPresent (tag : Bytes) : List Sbj → Except Err Bool
  | [] => .ok false
  | item :: items =>
    if !Sbj.isObject (some item) then ruleSetPresent tag items
    else do
      let _ ← valueStr (some item) (lit "tag") []
      if Sbj.stringIs (Sbj.get (some item) (lit "tag")) tag then pure true
      else ruleSetPresent tag items

def addRemoteRuleSet (ruleSets : List Sbj) (tag relativeUrl : Bytes) : Except Err (List Sbj) := do
  let present ← ruleSetPresent tag ruleSets
  pure (if present then ruleSets else ruleSets ++ [remoteRuleSet tag relativeUrl])

def ruleSetRule (tag : Bytes) : Sbj :=
  ((Sbj.obj []).set (lit "rule_set") (.arr [.str tag])).set (lit "outbound") (.str (lit "direct"))

def privateIpRule : Sbj :=
  ((Sbj.obj []).set (lit "ip_is_private") (.bool true)).set (lit "outbound") (.str (lit "direct"))

/-- A default rule for a rule set, unless a rule has it already. -/
def withRuleForSet (rules : List Sbj) (tag : Bytes) : List Sbj :=
  if hasRuleForSet rules tag then rules else rules ++ [ruleSetRule tag]

/-- The rules with the managed defaults behind them. -/
def geoRules (rules : List Sbj) : Except Err (List Sbj) := do
  let rules := withRuleForSet rules (lit "geosite-private")
  let hasPrivate ← hasPrivateIpRule rules
  let rules := if hasPrivate then rules else rules ++ [privateIpRule]
  pure (withRuleForSet (withRuleForSet rules (lit "geosite-cn")) (lit "geoip-cn"))

def geoRuleSets (ruleSets : List Sbj) : Except Err (List Sbj) := do
  let ruleSets ← addRemoteRuleSet ruleSets (lit "geosite-private") (lit "geosite/private.srs")
  let ruleSets ← addRemoteRuleSet ruleSets (lit "geosite-cn") (lit "geosite/cn.srs")
  addRemoteRuleSet ruleSets (lit "geoip-cn") (lit "geoip/cn.srs")

/-- The end of `inject_managed_geo_policy`: the cache file is on. -/
def enableCacheFile (config : Sbj) : Sbj :=
  let experimental := orObject (Sbj.get (some config) (lit "experimental"))
  if !Sbj.isObject (some experimental) then config
  else
    let cache := orObject (Sbj.get (some experimental) (lit "cache_file"))
    config.set (lit "experimental") (experimental.set (lit "cache_file")
      (if Sbj.isObject (some cache) then cache.set (lit "enabled") (.bool true) else cache))

def injectManagedGeoPolicy (config : Sbj) : Except Err Sbj := do
  let route := orObject (Sbj.get (some config) (lit "route"))
  if !Sbj.isObject (some route) then
    throw ⟨.validation, "managed route must be a JSON object"⟩
  match orArray (Sbj.get (some route) (lit "rules")),
      orArray (Sbj.get (some route) (lit "rule_set")) with
  | .arr rules, .arr ruleSets =>
    let ruleSets ← geoRuleSets ruleSets
    let rules ← geoRules rules
    pure (enableCacheFile (config.set (lit "route")
      ((route.set (lit "rules") (.arr rules)).set (lit "rule_set") (.arr ruleSets))))
  | .arr _, _ => throw ⟨.validation, "managed route rule_set must be an array"⟩
  | _, _ => throw ⟨.validation, "managed route rules must be an array"⟩

/-! ### Outbounds -/

def outboundBase (type : Bytes) (node : ProxyNode) : Sbj :=
  ((((Sbj.obj []).set (lit "type") (.str type)).set (lit "tag") (.str node.tag)).set
    (lit "server") (.str node.server)).set (lit "server_port") (.int node.serverPort)

/-- Copy the members of these names that the source has. -/
def copyAll (destination source : Sbj) (keys : List Bytes) : Sbj :=
  keys.foldl (fun o k => copyIfPresent o source k) destination

def generateOutbound [Platform] (node : ProxyNode) : Except Err Sbj :=
  let config := node.protocolConfig
  let base := outboundBase node.type node
  if node.type = lit "shadowsocks" then
    .ok ((base.set (lit "method") (valueOrNull config (lit "method"))).set
      (lit "password") (valueOrNull config (lit "password")))
  else if node.type = lit "vmess" then do
    let alterId ← valueInt (some config) (lit "alter_id") 0
    pure (copyAll (((base.set (lit "uuid") (valueOrNull config (lit "uuid"))).set
      (lit "alter_id") (.int alterId)).set
      (lit "security") (stringOr config (lit "security") (lit "auto")))
      config [lit "transport", lit "tls"])
  else if node.type = lit "trojan" then
    .ok (copyAll (base.set (lit "password") (valueOrNull config (lit "password")))
      config [lit "transport", lit "tls"])
  else if node.type = lit "vless" then
    .ok (copyAll (((base.set (lit "uuid") (valueOrNull config (lit "uuid"))).set
      (lit "flow") (stringOr config (lit "flow") [])).set
      (lit "packet_encoding") (stringOr config (lit "packet_encoding") (lit "xudp")))
      config [lit "transport", lit "tls"])
  else if node.type = lit "hysteria2" then
    .ok (copyAll (base.set (lit "password") (valueOrNull config (lit "password")))
      config [lit "tls", lit "obfs"])
  else if node.type = lit "tuic" then
    .ok (copyAll ((((base.set (lit "uuid") (valueOrNull config (lit "uuid"))).set
      (lit "password") (valueOrNull config (lit "password"))).set
      (lit "congestion_control") (stringOr config (lit "congestion_control") (lit "bbr"))).set
      (lit "udp_relay_mode") (stringOr config (lit "udp_relay_mode") (lit "native")))
      config [lit "tls"])
  else if node.type = lit "http" then
    .ok (copyAll base config [lit "username", lit "password", lit "tls"])
  else if node.type = lit "socks" then
    .ok (copyAll base config [lit "username", lit "password", lit "version", lit "network",
      lit "udp_over_tcp"])
  else
    .ok (((Sbj.obj []).set (lit "type") (.str (lit "direct"))).set (lit "tag") (.str node.tag))

/-- The tag of the n-th node with one name. -/
def numberedTag (tag : Bytes) (occurrence : ℕ) : Bytes :=
  if occurrence > 1 then tag ++ lit " #" ++ decimal occurrence else tag

/-- The number of a node among those with its name; the counter is an `unsigned`. -/
def nextOccurrence (seen : List (Bytes × ℕ)) (tag : Bytes) : ℕ :=
  match SortedAssoc.get seen tag with
  | some previous => (previous + 1) % 2 ^ 32
  | none => 1

/-- The loop of `sb_config_generate_outbounds`: the entries of the enabled nodes and their
tags. -/
def nodeOutbounds [Platform] : List ProxyNode → List (Bytes × ℕ) →
    Except Err (List Sbj × List Bytes)
  | [], _ => .ok ([], [])
  | node :: nodes, seen =>
    if !node.enabled then nodeOutbounds nodes seen
    else do
      let outbound ← generateOutbound node
      let occurrence := nextOccurrence seen node.tag
      let tag := numberedTag node.tag occurrence
      let (outbounds, tags) ← nodeOutbounds nodes (SortedAssoc.set seen node.tag occurrence)
      pure (outbound.set (lit "tag") (.str tag) :: outbounds, tag :: tags)

def urltest (tags : List Bytes) : Sbj :=
  ((((((Sbj.obj []).set (lit "type") (.str (lit "urltest"))).set
    (lit "tag") (.str (lit "auto"))).set (lit "outbounds") (.arr (tags.map Sbj.str))).set
    (lit "url") (.str (lit "https://www.gstatic.com/generate_204"))).set
    (lit "interval") (.str (lit "24h"))).set (lit "idle_timeout") (.str (lit "24h"))

def withUrltest (outbounds : List Sbj) (tags : List Bytes) : List Sbj :=
  if tags.isEmpty then outbounds else outbounds ++ [urltest tags]

def generateOutbounds [Platform] (nodes : List ProxyNode) : Except Err (List Sbj) := do
  let (outbounds, tags) ← nodeOutbounds nodes []
  pure (withUrltest outbounds tags)

def outboundsHaveTag (outbounds : List Sbj) (tag : Bytes) : Bool :=
  outbounds.any fun o => Sbj.stringIs (Sbj.get (some o) (lit "tag")) tag

def directOutbound (tag : Bytes) : Sbj :=
  ((Sbj.obj []).set (lit "type") (.str (lit "direct"))).set (lit "tag") (.str tag)

def withDirect (outbounds : List Sbj) : List Sbj :=
  if outboundsHaveTag outbounds (lit "direct") then outbounds
  else outbounds ++ [directOutbound (lit "direct")]

/-- The first of `Proxy`, `Proxy group`, `Proxy group group`, … that no outbound has. The
number of outbounds bounds the loop. -/
def selectorTag (outbounds : List Sbj) : Bytes :=
  FreshName.search (outboundsHaveTag outbounds) (· ++ lit " group") outbounds.length (lit "Proxy")

/-- The tags of the outbounds that the selector offers besides `auto`. -/
def selectable (outbounds : List Sbj) : List Sbj :=
  outbounds.filterMap fun o =>
    match Sbj.get (some o) (lit "tag") with
    | some (.str t) => if t.isEmpty || t == lit "auto" then none else some (.str t)
    | _ => none

def selector (tag : Bytes) (outbounds : List Sbj) : Sbj :=
  ((((Sbj.obj []).set (lit "type") (.str (lit "selector"))).set (lit "tag") (.str tag)).set
    (lit "outbounds") (.arr (.str (lit "auto") :: selectable outbounds))).set
    (lit "default") (.str (lit "auto"))

def withSelector (outbounds : List Sbj) (proxySelector : Option Bytes) : List Sbj :=
  match proxySelector with
  | some tag => outbounds ++ [selector tag outbounds]
  | none => outbounds

/-- Whether the host says that it can select a proxy. -/
def supportsProxySelection (hostContext : Sbj) : Except Err Bool := do
  if !Sbj.isObject (some hostContext) then throw (typeErrorValue (some hostContext))
  let capabilities := Sbj.get (some hostContext) (lit "capabilities")
  if Sbj.isObject capabilities then
    let _ ← valueStr capabilities (lit "platform") []
  let isAndroid := Sbj.isObject capabilities &&
    Sbj.stringIs (Sbj.get capabilities (lit "platform")) (lit "android")
  pure (isAndroid || Sbj.getBool capabilities (lit "supports_proxy_selection") false)

/-- Where the default route goes after the old names of the proxy groups are rewritten. -/
def managedFinal (hasAuto : Bool) (proxySelector : Option Bytes) (final : Bytes) : Bytes :=
  let legacy := final = lit "Proxy" ∨ final = lit "Auto"
  if !hasAuto then lit "direct"
  else
    match proxySelector with
    | some tag => if legacy ∨ final = lit "auto" then tag else final
    | none => if legacy then lit "auto" else final

def rewriteFinal (config : Sbj) (hasAuto : Bool) (proxySelector : Option Bytes) : Sbj :=
  match Sbj.get (some config) (lit "route") with
  | some (.obj route) =>
    match Sbj.get (some (.obj route)) (lit "final") with
    | some (.str final) =>
      config.set (lit "route") ((Sbj.obj route).set (lit "final")
        (.str (managedFinal hasAuto proxySelector final)))
    | _ => config
  | _ => config

/-- `render_managed`: the configuration, and whether there is a proxy. -/
def renderManaged [Platform] (request : RenderRequest) (config : Sbj) : Except Err (Sbj × Bool) := do
  let outbounds ← generateOutbounds request.nodes
  let hasAuto := outboundsHaveTag outbounds (lit "auto")
  let selection ← supportsProxySelection request.hostContext
  let outbounds := withDirect outbounds
  let proxySelector := if hasAuto && selection then some (selectorTag outbounds) else none
  let config := config.set (lit "outbounds") (.arr (withSelector outbounds proxySelector))
  let config := normalizeManagedDnsDetours config hasAuto proxySelector
  pure (rewriteFinal config hasAuto proxySelector, hasAuto)

/-! ### Transports and the rule script -/

/-- `tag_in_use` -/
def tagInUse (request : RenderRequest) (tag : Bytes) : Bool :=
  (outboundsHaveTag (Sbj.items (Sbj.get (some request.profile) (lit "endpoints"))) tag ||
    outboundsHaveTag (Sbj.items (Sbj.get (some request.profile) (lit "outbounds"))) tag) ||
    request.nodes.any fun node => node.tag == tag

/-- `free_tag`; the number of tags there are bounds the loop. -/
def freeTag (request : RenderRequest) (base : Bytes) : Bytes :=
  FreshName.search (tagInUse request) (· ++ lit "-next")
    ((Sbj.items (Sbj.get (some request.profile) (lit "endpoints"))).length +
      (Sbj.items (Sbj.get (some request.profile) (lit "outbounds"))).length +
      request.nodes.length) base

lemma freeTag_base (request : RenderRequest) (base : Bytes) : base <+: freeTag request base := by
  obtain ⟨n, -, he, -⟩ := FreshName.search_eq (tagInUse request) (fun t : Bytes => t ++ lit "-next")
    ((Sbj.items (Sbj.get (some request.profile) (lit "endpoints"))).length +
      (Sbj.items (Sbj.get (some request.profile) (lit "outbounds"))).length +
      request.nodes.length) base
  rw [freeTag, he]
  clear he
  induction n with
  | zero => exact List.prefix_rfl
  | succ n ih =>
    rw [Function.iterate_succ_apply']
    exact ih.trans (List.prefix_append _ _)

/-- The transport that `sb_tailscale_render` adds to a request. -/
def tailscaleTransport (request : RenderRequest) : Transport :=
  ⟨freeTag request (lit "sb-easy-tailscale-direct"), freeTag_base request _⟩

def appendTransports (request : RenderRequest) (config : Sbj) : Except Err Sbj :=
  let transports := request.networkOutbounds.map fun t => directOutbound t.tag
  if transports.isEmpty then .ok config
  else
    match Sbj.get (some config) (lit "outbounds") with
    | none => .ok (config.set (lit "outbounds") (.arr transports))
    | some (.arr outbounds) => .ok (config.set (lit "outbounds") (.arr (outbounds ++ transports)))
    | some _ => .error ⟨.validation, "Network transports require profile.outbounds to be an array"⟩

/-- The rules in what a script returned. -/
def readRules [Platform] (output : Bytes) : Except Err (List Sbj) :=
  match sbjParse output with
  | .error _ => .error ⟨.script, "buildRules(context) did not return valid JSON"⟩
  | .ok (.arr rules) =>
    if rules.all fun rule => Sbj.isObject (some rule) then .ok rules
    else .error ⟨.script, "each generated rule must be a JSON object"⟩
  | .ok _ => .error ⟨.script, "buildRules(context) must return an array"⟩

/-- `sb_rule_script_engine_build_rules_n` around the evaluation itself. -/
def buildRules [Platform] (renderer : Renderer) (source : Bytes) (context : Sbj) :
    Except Err (List Sbj) :=
  if source.isEmpty then .error ⟨.script, "rule script is empty"⟩
  else if source.length > renderer.limits.sourceBytes then
    .error ⟨.script, "rule script exceeds the configured source limit"⟩
  else do
    let output ← renderer.evaluate source (dump context (-1))
    if output.length > renderer.limits.outputBytes then
      .error ⟨.script, "rule script output exceeds the configured limit"⟩
    else readRules output

/-- The tags among these values. -/
def stringTags (values : List (Option Sbj)) : List Bytes :=
  values.filterMap fun v =>
    match v with
    | some (.str t) => some t
    | _ => none

/-- The tags that a script may use. -/
def allowedTags (request : RenderRequest) (config : Sbj) : Sbj :=
  let outbounds := Sbj.items (Sbj.get (some config) (lit "outbounds"))
  ([lit "direct", lit "block", lit "dns", lit "reject"] ++
    stringTags (outbounds.map fun o => Sbj.get (some o) (lit "tag")) ++
    stringTags (request.externalRouteTags.map some)).foldl
      (fun allowed t => allowed.set t (.bool true)) (.obj [])

def scriptContext (request : RenderRequest) (config : Sbj) : Sbj :=
  let tags := (Sbj.members (some (allowedTags request config))).map fun p => Sbj.str p.1
  let rules := Sbj.get (Sbj.get (some config) (lit "route")) (lit "rules")
  (((Sbj.obj []).set (lit "host") request.hostContext).set (lit "outboundTags") (.arr tags)).set
    (lit "currentRules") (rules.getD (.arr []))

/-- The route of a configuration, or an empty one. -/
def routeOrEmpty (config : Sbj) : Sbj :=
  match Sbj.get (some config) (lit "route") with
  | some (.obj route) => .obj route
  | _ => .obj []

def renderRuleScript [Platform] (renderer : Renderer) (request : RenderRequest) (script : Bytes)
    (config : Sbj) : Except Err Sbj := do
  let rules ← buildRules renderer script (scriptContext request config)
  validateRuleTags (allowedTags request config) rules
  pure (config.set (lit "route") ((routeOrEmpty config).set (lit "rules") (.arr rules)))

def protectedRules (renderer : Renderer) (request : RenderRequest) : List Sbj :=
  (controlPlaneRoute renderer request.controlPlaneServer).toList ++ request.priorityRouteRules

/-- The rules that the script cannot move, in front of all others. -/
def insertProtected (renderer : Renderer) (request : RenderRequest) (config : Sbj) : Sbj :=
  let rules := protectedRules renderer request
  if rules.isEmpty then config
  else
    let route := routeOrEmpty config
    config.set (lit "route") (route.set (lit "rules")
      (.arr (rules ++ Sbj.items (Sbj.get (some route) (lit "rules")))))

/-- The first half: outbounds and transports. -/
def renderOutbounds [Platform] (request : RenderRequest) : Except Err (Sbj × Bool) := do
  if !Sbj.isObject (some request.profile) then
    throw ⟨.validation, "profile template must be a JSON object"⟩
  let (config, hasProxy) ← match request.mode with
    | .managed => renderManaged request request.profile
    | .full => pure (request.profile, false)
  let config ← appendTransports request config
  pure (config, hasProxy)

/-- The rule script of a request, if it has one. -/
def runScript [Platform] (renderer : Renderer) (request : RenderRequest) (config : Sbj) :
    Except Err Sbj :=
  match request.ruleScript with
  | none => .ok config
  | some script =>
    if script.isEmpty then .ok config else renderRuleScript renderer request script config

def geoPolicy (hasProxy : Bool) (config : Sbj) : Except Err Sbj :=
  if hasProxy then injectManagedGeoPolicy config else .ok config

/-- The end: protected rules, and the fields that stay under the control of the server. -/
def finish (renderer : Renderer) (request : RenderRequest) (config : Sbj) : Sbj :=
  disableClashDashboard (injectClashApi (insertProtected renderer request config) request)

/-- `sb_config_renderer_render` -/
def render [Platform] (renderer : Renderer) (request : RenderRequest) : Except Err Sbj := do
  let (config, hasProxy) ← renderOutbounds request
  let config ← runScript renderer request config
  let config ← geoPolicy hasProxy config
  pure (finish renderer request config)

end Render
end SbEasy
