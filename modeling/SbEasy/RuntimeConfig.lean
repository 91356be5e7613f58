import SbEasy.JsonTree
import SbEasy.Base64Url

/-!
`runtime_config.c` of the Windows service: the configuration that the server supplies is adapted
to this machine before the privileged core reads it.

The source edits one tree in place. Here every pass returns the edited value, and a pass that fails
returns the error alone, as `sbw_runtime_config_prepare` then frees everything.
-/

namespace SbEasy.WinRuntime

open JsonParse

/-- What `fail` reports in this file before the core runs. -/
inductive RuntimeError
  | invalid | unsupported | resource
  deriving DecidableEq

def RuntimeError.code : RuntimeError → String
  | .invalid => "RUNTIME_CONFIG_INVALID"
  | .unsupported => "RUNTIME_CONFIG_UNSUPPORTED"
  | .resource => "RUNTIME_RESOURCE_ERROR"

def RuntimeError.message : RuntimeError → String
  | .invalid => "The candidate cannot be adapted to a Windows runtime configuration."
  | .unsupported => "The candidate contains an unsupported Windows runtime option."
  | .resource => "Private local core resources could not be allocated."

/-- What one call of `choose_local_api` gets from the machine. -/
structure ApiDraw where
  /-- `BCryptGenRandom` -/
  entropy : Option (List.Vector UInt8 32)
  /-- The port of a socket that could be bound. -/
  port : Option UInt16

/-- The machine: `InetPtonA`, `BCryptHash`, and what the calls of `choose_local_api` get in turn. -/
structure Machine where
  inetPton4 : Bytes → Bool
  inetPton6 : Bytes → Bool
  sha256 : Bytes → Option (List.Vector UInt8 32)
  draw : ℕ → ApiDraw

/-- `sbw_runtime_config` -/
structure RuntimeConfig where
  json : Bytes := []
  secret : Bytes := []
  port : UInt16 := 0
  probePort : UInt16 := 0
  probeSecret : Bytes := []
  hasTun : Bool := false
  autoRoute : Bool := false
  remoteRuleSets : Bool := false
  interfaceName : Option Bytes := none

/-- The scan of `sbw_json_parse` for the depth of a text. -/
def depthBounded (maxDepth : ℕ) : ℕ → Bool → Bool → Bytes → Bool
  | depth, quoted, _, [] => !quoted && depth == 0
  | depth, true, true, _ :: s => depthBounded maxDepth depth true false s
  | depth, true, false, c :: s =>
    if c == 0x5C then depthBounded maxDepth depth true true s
    else depthBounded maxDepth depth (c != 0x22) false s
  | depth, false, escaped, c :: s =>
    if c == 0x22 then depthBounded maxDepth depth true escaped s
    else if c == 0x7B || c == 0x5B then
      decide (depth + 1 ≤ maxDepth) && depthBounded maxDepth (depth + 1) false escaped s
    else if c == 0x7D || c == 0x5D then
      decide (depth ≠ 0) && depthBounded maxDepth (depth - 1) false escaped s
    else depthBounded maxDepth depth false escaped s

/-- `sbw_json_parse` -/
def sbwJsonParse [Platform] (text : Bytes) (maxDepth : ℕ) : Option Sbj :=
  if text.isEmpty || decide (text.length > 16 * 1024 * 1024) || maxDepth == 0 ||
      !depthBounded maxDepth 0 false false text then none
  else (sbjParse text).toOption.filter fun v => v.validateUtf8.toBool

/-- `sbw_json_string` -/
def sbwJsonString (v : Option Sbj) (limit : ℕ) (emptyAllowed : Bool) : Bool :=
  match v with
  | some (.str s) => decide (s.length ≤ limit) && (emptyAllowed || !s.isEmpty) && !s.contains 0
  | _ => false

mutual
/-- `safe_strings` -/
def safeStrings : Sbj → Bool
  | .str s => !s.contains 0
  | .arr l => safeItems l
  | .obj m => safeMembers m
  | _ => true
def safeItems : List Sbj → Bool
  | [] => true
  | v :: l => safeStrings v && safeItems l
def safeMembers : List (Bytes × Sbj) → Bool
  | [] => true
  | (k, v) :: m => (!k.contains 0 && safeStrings v) && safeMembers m
end

def unsafeKeys : List Bytes :=
  ["certificate_path", "key_path", "client_certificate_path", "client_key_path",
    "certificate_directory_path", "private_key_path", "known_hosts_path", "config_path", "acme",
    "plugin", "plugin_opts"].map lit

mutual
/-- `unsafe_files` -/
def unsafeFiles : Sbj → Bool
  | .arr l => unsafeItems l
  | .obj m => unsafeKeys.any (Sbj.has (some (.obj m))) || unsafeMembers m
  | _ => false
def unsafeItems : List Sbj → Bool
  | [] => false
  | v :: l => unsafeFiles v || unsafeItems l
def unsafeMembers : List (Bytes × Sbj) → Bool
  | [] => false
  | (_, v) :: m => unsafeFiles v || unsafeMembers m
end

def dialerKeys : List Bytes :=
  ["bind_interface", "inet4_bind_address", "inet6_bind_address", "bind_address_no_port",
    "routing_mark", "netns", "network_namespace", "protect_path"].map lit

mutual
/-- `adapt_dialers`. The source erases before it goes into the members; what becomes of a member
that is erased does not matter. -/
def adaptDialers : Sbj → Sbj
  | .arr l => .arr (adaptDialerItems l)
  | .obj m => Sbj.eraseKeys dialerKeys (.obj (adaptDialerMembers m))
  | v => v
def adaptDialerItems : List Sbj → List Sbj
  | [] => []
  | v :: l => adaptDialers v :: adaptDialerItems l
def adaptDialerMembers : List (Bytes × Sbj) → List (Bytes × Sbj)
  | [] => []
  | (k, v) :: m => (k, adaptDialers v) :: adaptDialerMembers m
end

/-- The part of a URL between the scheme and the path, for the two schemes there are. -/
def authority (server : Bytes) : Option Bytes :=
  let rest :=
    if lit "https://" <+: server then some (server.drop 8)
    else if lit "http://" <+: server then some (server.drop 7)
    else none
  rest.map fun s => s.takeWhile fun c => c != 0x2F && c != 0x3F && c != 0x23

/-- The digits of a port, and the bound that is checked after each. -/
def portValue : ℕ → Bytes → Option ℕ
  | value, [] => some value
  | value, c :: s =>
    if c < 0x30 || 0x39 < c then none
    else
      let value := value * 10 + (c - 0x30).toNat
      if value > 65535 then none else portValue value s

/-- A port that a URL names. -/
def portValid (port : Bytes) : Bool := !port.isEmpty && (portValue 0 port).any (· ≠ 0)

/-- The host of an authority and the text of its port. -/
def splitHost (w : Machine) (text : Bytes) : Option (Bytes × Option Bytes) :=
  match text with
  | 0x5B :: s =>
    let host := s.takeWhile (· != 0x5D)
    match s.drop host.length with
    | [] => none
    | _ :: rest =>
      if host.isEmpty || !w.inetPton6 host then none
      else
        match rest with
        | [] => some (host, none)
        | 0x3A :: port => some (host, some port)
        | _ => none
  | s =>
    let host := s.takeWhile (· != 0x3A)
    match s.drop host.length with
    | [] => some (host, none)
    | _ :: port => some (host, some port)

/-- `server_host` -/
def serverHost (w : Machine) (server : Bytes) : Option Bytes := do
  let text ← authority server
  if text.isEmpty || text.any (fun c => c ≤ 32 || c == 127 || c == 0x40 || c == 0x5C || c == 0x25) then none
  else
    let (host, port) ← splitHost w text
    if port.any fun p => !portValid p then none
    else if host.isEmpty || decide (host.length > 253) then none
    else some host

/-- `choose_local_api`: the secret and the port. -/
def chooseLocalApi (d : ApiDraw) : Except RuntimeError (Bytes × UInt16) :=
  match d.entropy, d.port with
  | some entropy, some port =>
    if port = 0 then .error .resource else .ok (hexEncode entropy.toList, port)
  | _, _ => .error .resource

def linuxKeys : List Bytes :=
  ["iproute2_table_index", "iproute2_rule_index", "auto_redirect", "auto_redirect_input_mark",
    "auto_redirect_output_mark", "auto_redirect_reset_mark", "auto_redirect_nfqueue",
    "auto_redirect_iproute2_fallback_rule_index", "exclude_mptcp", "loopback_address",
    "include_interface", "exclude_interface", "include_uid", "include_uid_range", "exclude_uid",
    "exclude_uid_range", "include_android_user", "include_package", "exclude_package", "gso"].map lit

/-- A character that the name of an interface may have. -/
def nameChar (c : UInt8) : Bool :=
  (0x61 ≤ c && c ≤ 0x7A) || (0x41 ≤ c && c ≤ 0x5A) || (0x30 ≤ c && c ≤ 0x39) || c == 0x2D || c == 0x5F

def tunName (inbound : Sbj) : Bytes := Sbj.getStr (some inbound) (lit "interface_name") (lit "sb-easy")

/-- The inbound of a tunnel. -/
def adaptTun (inbound : Sbj) (out : RuntimeConfig) : Except RuntimeError (Sbj × RuntimeConfig) :=
  let autoRoute := Sbj.get (some inbound) (lit "auto_route")
  let provided := Sbj.get (some inbound) (lit "interface_name")
  if out.hasTun || Sbj.has (some inbound) (lit "platform") then .error .unsupported
  else if autoRoute.isSome && !Sbj.isBool autoRoute then .error .invalid
  else if provided.isSome && !sbwJsonString provided 48 false then .error .unsupported
  else if !(tunName inbound).all nameChar then .error .unsupported
  else
    let named :=
      if provided.isSome then inbound else inbound.set (lit "interface_name") (.str (tunName inbound))
    .ok (named.eraseKeys linuxKeys,
      { out with hasTun := true, autoRoute := Sbj.asBool autoRoute false,
                 interfaceName := some (tunName inbound) })

/-- A step of the loop of `adapt_inbounds`. -/
def adaptInbound (inbound : Sbj) (out : RuntimeConfig) : Except RuntimeError (Sbj × RuntimeConfig) :=
  let type := Sbj.getStr (some inbound) (lit "type") []
  if !Sbj.isObject (some inbound) then .error .invalid
  else if type == lit "tun" then adaptTun inbound out
  else if type == lit "mixed" || type == lit "http" || type == lit "socks" then
    .ok ((inbound.set (lit "listen") (.str (lit "127.0.0.1"))).del (lit "set_system_proxy"), out)
  else .error .unsupported

/-- The loop of `adapt_inbounds`. -/
def adaptInboundList : List Sbj → RuntimeConfig → Except RuntimeError (List Sbj × RuntimeConfig)
  | [], out => .ok ([], out)
  | inbound :: l, out => do
    let (inbound, out) ← adaptInbound inbound out
    let (l, out) ← adaptInboundList l out
    .ok (inbound :: l, out)

/-- `adapt_inbounds` -/
def adaptInbounds (candidate : Sbj) (out : RuntimeConfig) :
    Except RuntimeError (Sbj × RuntimeConfig) :=
  match Sbj.get (some candidate) (lit "inbounds") with
  | none => .ok (candidate, out)
  | some (.arr l) => do
    let (l, out) ← adaptInboundList l out
    .ok (candidate.set (lit "inbounds") (.arr l), out)
  | some _ => .error .invalid

/-- The members of a Tailscale endpoint that are removed. -/
def tailscaleKeys : List Bytes :=
  ["system_interface_name", "system_interface_mtu", "taildrop_directory", "ssh_server"].map lit

/-- Where the identity of a Tailscale endpoint is kept. -/
def stateDirectory (hash : List.Vector UInt8 32) : Sbj :=
  .str (lit "tailscale/" ++ hexEncode hash.toList)

def isTailscale (endpoint : Sbj) : Bool :=
  Sbj.stringIs (Sbj.get (some endpoint) (lit "type")) (lit "tailscale")

def isWireguard (endpoint : Sbj) : Bool :=
  Sbj.stringIs (Sbj.get (some endpoint) (lit "type")) (lit "wireguard")

def adaptTailscale (w : Machine) (endpoint : Sbj) : Except RuntimeError Sbj :=
  let tag := Sbj.getStr (some endpoint) (lit "tag") []
  if tag.isEmpty || decide (tag.length > 512) then .error .unsupported
  else
    match w.sha256 tag with
    | none => .error .resource
    | some hash =>
      .ok (adaptDialers (((endpoint.set (lit "state_directory") (stateDirectory hash)).set
        (lit "system_interface") (.bool false)).eraseKeys tailscaleKeys))

/-- A step of the loop of `adapt_endpoints`. -/
def adaptEndpoint (w : Machine) (endpoint : Sbj) : Except RuntimeError Sbj :=
  if !Sbj.isObject (some endpoint) then .error .unsupported
  else if isTailscale endpoint then adaptTailscale w endpoint
  else if isWireguard endpoint then
    .ok (adaptDialers ((endpoint.set (lit "system") (.bool false)).del (lit "name")))
  else .error .unsupported

/-- `adapt_endpoints` -/
def adaptEndpoints (w : Machine) (candidate : Sbj) : Except RuntimeError Sbj :=
  match Sbj.get (some candidate) (lit "endpoints") with
  | none => .ok candidate
  | some (.arr l) => do
    let l ← l.mapM (adaptEndpoint w)
    .ok (candidate.set (lit "endpoints") (.arr l))
  | some _ => .error .invalid

def directTag : Bytes := lit "sb-easy-control-direct"
def probeInbound : Bytes := lit "sb-easy-diagnostic"

/-- A step of the loop of `adapt_routes` over the outbounds. -/
def adaptOutbound (outbound : Sbj) : Except RuntimeError Sbj :=
  if !Sbj.isObject (some outbound) then .error .invalid
  else if Sbj.getStr (some outbound) (lit "tag") [] == directTag then .error .unsupported
  else .ok (outbound.eraseKeys (["bind_interface", "routing_mark", "netns", "network_namespace"].map lit))

def directOutbound : Sbj := .build [(lit "type", .str (lit "direct")), (lit "tag", .str directTag)]

/-- The rule by which the processes of the product go out directly, but for what comes in by the
diagnostic listener. -/
def gateRule : Sbj :=
  let processes := ["sb-easy-service.exe", "sb-easy.exe", "sing-box.exe"].map fun p => Sbj.str (lit p)
  let ingress := Sbj.build [(lit "inbound", .str probeInbound), (lit "invert", .bool true)]
  .build [(lit "type", .str (lit "logical")), (lit "mode", .str (lit "and")),
    (lit "rules", .arr [.build [(lit "process_name", .arr processes)], ingress]),
    (lit "action", .str (lit "route")), (lit "outbound", .str directTag)]

/-- The rule by which the control host is reached directly. -/
def controlRule (w : Machine) (host : Bytes) : Sbj :=
  let condition : Bytes × Sbj :=
    if w.inetPton4 host || w.inetPton6 host then
      (lit "ip_cidr", .arr [.str (host ++ if host.contains 0x3A then lit "/128" else lit "/32")])
    else (lit "domain", .arr [.str host])
  .build [condition, (lit "action", .str (lit "route")), (lit "outbound", .str directTag)]

/-- A rule set that does not come from a file. -/
def ruleSetValid (set : Sbj) : Bool :=
  Sbj.isObject (some set) && !Sbj.has (some set) (lit "path") &&
    Sbj.getStr (some set) (lit "type") [] != lit "local"

/-- The outbounds of `adapt_routes`. -/
def adaptOutbounds (candidate : Sbj) : Except RuntimeError Sbj :=
  match (Sbj.get (some candidate) (lit "outbounds")).getD (.arr []) with
  | .arr l => do
    let l ← l.mapM adaptOutbound
    .ok (candidate.set (lit "outbounds") (.arr (l ++ [directOutbound])))
  | _ => .error .invalid

/-- The `route` of a configuration, with its rules behind those of this machine. -/
def adaptRoute (w : Machine) (host : Option Bytes) (route : Sbj) : Except RuntimeError Sbj :=
  let sets := Sbj.get (some route) (lit "rule_set")
  if !Sbj.isObject (some route) then .error .invalid
  else if Sbj.has (some route) (lit "geoip") || Sbj.has (some route) (lit "geosite") then
    .error .unsupported
  else if sets.isSome && !Sbj.isArray sets then .error .invalid
  else if !(Sbj.items sets).all ruleSetValid then .error .unsupported
  else
    let route := route.eraseKeys (["default_interface", "default_mark", "override_android_vpn"].map lit)
    let route := (route.set (lit "auto_detect_interface") (.bool true)).set (lit "find_process") (.bool true)
    match (Sbj.get (some route) (lit "rules")).getD (.arr []) with
    | .arr rules =>
      .ok (route.set (lit "rules") (.arr (gateRule :: ((host.map (controlRule w)).toList ++ rules))))
    | _ => .error .invalid

/-- `adapt_routes` -/
def adaptRoutes (w : Machine) (candidate : Sbj) (host : Option Bytes) : Except RuntimeError Sbj := do
  let candidate ← adaptOutbounds candidate
  let route ← adaptRoute w host ((Sbj.get (some candidate) (lit "route")).getD (.obj []))
  .ok (candidate.set (lit "route") route)

/-- The loop of `diagnostic_inbound`: a port of its own, in so many attempts. -/
def privateProxy (w : Machine) (port : UInt16) : ℕ → ℕ → Except RuntimeError (Bytes × UInt16)
  | 0, _ => .error .resource
  | n + 1, i => do
    let (secret, own) ← chooseLocalApi (w.draw i)
    if own ≠ port then .ok (secret, own) else privateProxy w port n (i + 1)

def probeListener (secret : Bytes) (port : UInt16) : Sbj :=
  .build [(lit "type", .str (lit "http")), (lit "tag", .str probeInbound),
    (lit "listen", .str (lit "127.0.0.1")), (lit "listen_port", .int port.toNat),
    (lit "users", .arr [.build [(lit "username", .str (lit "sb-easy-probe")),
      (lit "password", .str secret)]])]

/-- `diagnostic_inbound` -/
def diagnosticInbound (w : Machine) (candidate : Sbj) (out : RuntimeConfig) :
    Except RuntimeError (Sbj × RuntimeConfig) := do
  let inbounds := Sbj.items (Sbj.get (some candidate) (lit "inbounds"))
  if inbounds.any fun i => Sbj.stringIs (Sbj.get (some i) (lit "tag")) probeInbound then
    .error .unsupported
  else
    let (secret, port) ← privateProxy w out.port 8 1
    .ok (candidate.set (lit "inbounds") (.arr (inbounds ++ [probeListener secret port])),
      { out with probePort := port, probeSecret := secret })

/-- A DNS server that reads a file of hosts. -/
def hostsFile (server : Sbj) : Bool :=
  Sbj.getStr (some server) (lit "type") [] == lit "hosts" && Sbj.has (some server) (lit "path")

/-- What refuses a candidate that could be read. -/
def unsupportedCandidate (candidate : Sbj) : Bool :=
  unsafeFiles candidate || Sbj.size (Sbj.get (some candidate) (lit "services")) != 0 ||
    Sbj.has (some candidate) (lit "certificate") ||
    (Sbj.items (Sbj.get (Sbj.get (some candidate) (lit "dns")) (lit "servers"))).any hostsFile

def logSection : Sbj := .build [(lit "level", .str (lit "debug")), (lit "timestamp", .bool true)]

/-- The edits of the candidate before the passes that may fail. -/
def adaptTop (candidate : Sbj) : Sbj :=
  let candidate := (candidate.modify (lit "outbounds") adaptDialers).modify (lit "dns") adaptDialers
  (candidate.del (lit "ntp")).set (lit "log") logSection

/-- Whether a rule set is to be downloaded. -/
def remoteRuleSets (candidate : Sbj) : Bool :=
  (Sbj.items (Sbj.get (Sbj.get (some candidate) (lit "route")) (lit "rule_set"))).any fun set =>
    Sbj.stringIs (Sbj.get (some set) (lit "type")) (lit "remote")

/-- The mode that the Clash API starts in. -/
def clashMode (candidate : Sbj) : Bytes :=
  Sbj.getStr (Sbj.get (Sbj.get (some candidate) (lit "experimental")) (lit "clash_api"))
    (lit "default_mode") (lit "Rule")

/-- The section `experimental`, which nothing of the candidate enters but the mode. -/
def experimentalSection (mode secret : Bytes) (port : UInt16) (remote : Bool) : Sbj :=
  let cache := Sbj.build [(lit "enabled", .bool true), (lit "path", .str (lit "rule-set-cache.db"))]
  let clash := Sbj.build [(lit "default_mode", .str mode),
    (lit "external_controller", .str (lit "127.0.0.1:" ++ decimal port.toNat)),
    (lit "secret", .str secret),
    (lit "access_control_allow_origin", .arr [.str (lit "http://127.0.0.1")]),
    (lit "access_control_allow_private_network", .bool false)]
  .build ((if remote then [(lit "cache_file", cache)] else []) ++ [(lit "clash_api", clash)])

/-- The passes over a candidate that is accepted. -/
def adapt (w : Machine) (candidate : Sbj) (host : Option Bytes) :
    Except RuntimeError (Sbj × RuntimeConfig) := do
  let candidate ← adaptEndpoints w (adaptTop candidate)
  let (candidate, out) ← adaptInbounds candidate {}
  let candidate ← adaptRoutes w candidate host
  let (secret, port) ← chooseLocalApi (w.draw 0)
  let (candidate, out) ← diagnosticInbound w candidate { out with secret, port }
  let remote := remoteRuleSets candidate
  let experimental := experimentalSection (clashMode candidate) secret port remote
  .ok (candidate.set (lit "experimental") experimental, { out with remoteRuleSets := remote })

/-- `sbw_runtime_config_prepare`, with the tree that is written to `json`. -/
def prepareTree [Platform] (w : Machine) (json server : Bytes) :
    Except RuntimeError (Sbj × RuntimeConfig) :=
  if json.isEmpty || decide (json.length > 8 * 1024 * 1024) then .error .invalid
  else
    let host := serverHost w server
    match sbwJsonParse json 40 with
    | none => .error .invalid
    | some candidate =>
      if !Sbj.isObject (some candidate) || !safeStrings candidate || (!server.isEmpty && host.isNone) then
        .error .invalid
      else if unsupportedCandidate candidate then .error .unsupported
      else adapt w candidate host

/-- `sbw_runtime_config_prepare` -/
def runtimeConfigPrepare [Platform] (w : Machine) (json server : Bytes) :
    Except RuntimeError RuntimeConfig := do
  let (candidate, out) ← prepareTree w json server
  .ok { out with json := dump candidate (-1) }

end SbEasy.WinRuntime
