import SbEasy.RuntimePasses

/-!
The configuration that `sbw_runtime_config_prepare` writes, as a whole: what it takes from the
candidate and what it adds.
-/

namespace SbEasy.WinRuntime

open Sbj JsonParse

lemma asStr_without (v : Option Sbj) (drop : Bytes → Bool) (fallback : Bytes) :
    asStr (v.map (Sbj.without drop)) fallback = asStr v fallback := by
  rcases v with _ | v
  · rfl
  · cases v <;> rfl

lemma getStr_without {o : Sbj} (h : o.IsObj) {k : Bytes} (hk : isDialerKey k = false)
    (fallback : Bytes) :
    getStr (some (o.without isDialerKey)) k fallback = getStr (some o) k fallback := by
  rw [getStr, getStr, h.get_without, hk]
  exact asStr_without _ _ _

/-! ### The sections -/

variable {c : Sbj} {w : Machine}

lemma get_adaptTop (ho : c.IsObj) (k : Bytes) : Sbj.get (some (adaptTop c)) k =
      if k = lit "log" then some logSection else if k = lit "ntp" then none
      else if k = lit "dns" then (Sbj.get (some c) k).map adaptDialers
      else if k = lit "outbounds" then (Sbj.get (some c) k).map adaptDialers
      else Sbj.get (some c) k := by
  have h1 := ho.modify (lit "outbounds") adaptDialers
  have h2 := h1.modify (lit "dns") adaptDialers
  rw [adaptTop, (h2.del _).get_set_eq, h2.get_del, h1.get_modify_eq, ho.get_modify_eq, ho.get_modify_eq]
  by_cases hdns : k = lit "dns"
  · rw [hdns]
    rfl
  by_cases hout : k = lit "outbounds"
  · rw [hout]
    rfl
  · simp [hdns, hout]

lemma isObj_adaptTop (ho : c.IsObj) : (adaptTop c).IsObj :=
  (((ho.modify _ _).modify _ _).del _).set _ _

lemma adaptOutbound_ok {o o' : Sbj} (ho : o.Ordered) (h : adaptOutbound (adaptDialers o) = .ok o') :
    o' = o.without isDialerKey ∧ getStr (some o) (lit "tag") [] ≠ directTag := by
  unfold adaptOutbound at h
  rw [adaptDialers_eq o ho, isObject_without] at h
  split_ifs at h with hobj htag
  cases h
  have hisObj := ho.isObj (by simpa using hobj)
  have hwithout := hisObj.without isDialerKey
  rw [getStr_without hisObj (by decide)] at htag
  refine ⟨?_, by simpa using htag⟩
  refine (hwithout.eraseKeys _).ext hwithout fun k => ?_
  rw [hwithout.get_eraseKeys]
  split_ifs with hk
  · have hdialer : isDialerKey k = true := by
      revert hk
      revert k
      decide
    rw [hisObj.get_without, hdialer]
    rfl
  · rfl

variable {l l' : List Sbj} {c' : Sbj} {v : Option Sbj} {host : Option Bytes} {out : RuntimeConfig}

lemma adaptOutbound_list (hl : ∀ o ∈ l, o.Ordered)
    (h : List.Forall₂ (fun o o' => adaptOutbound (adaptDialers o) = .ok o') l l') :
    l' = l.map (Sbj.without isDialerKey) ∧ ∀ o ∈ l, getStr (some o) (lit "tag") [] ≠ directTag := by
  induction h with
  | nil => exact ⟨rfl, by simp⟩
  | cons hab _ ih =>
    obtain ⟨rfl, hfresh⟩ := adaptOutbound_ok (hl _ (by simp)) hab
    obtain ⟨rfl, hrest⟩ := ih fun o ho => hl o (by simp [ho])
    exact ⟨rfl, List.forall_mem_cons.mpr ⟨hfresh, hrest⟩⟩

lemma adaptOutbounds_ok (hv : ∀ x, v = some x → x.Ordered) (ho : c.IsObj)
    (hget : Sbj.get (some c) (lit "outbounds") = v.map adaptDialers) (h : adaptOutbounds c = .ok c') :
    Frame [lit "outbounds"] c c' ∧ Sbj.get (some c') (lit "outbounds") =
        some (.arr ((items v).map (Sbj.without isDialerKey) ++ [directOutbound])) ∧
      ∀ o ∈ items v, getStr (some o) (lit "tag") [] ≠ directTag := by
  unfold adaptOutbounds at h
  rw [hget] at h
  rcases v with _ | v
  · cases h
    exact ⟨Frame.set ho _ _, ho.get_set, by simp [items]⟩
  cases v with
  | arr l =>
    simp only [Option.map_some, Option.getD_some, adaptDialers, adaptDialerItems_eq, List.mapM_map] at h
    obtain ⟨l', hl, h⟩ := bind_ok h
    cases h
    obtain ⟨hl', hfresh⟩ := adaptOutbound_list (fun o ho => (hv _ rfl).items ho) (forall₂_of_mapM hl)
    refine ⟨Frame.set ho _ _, ?_, hfresh⟩
    rw [ho.get_set, hl']
    rfl
  | obj m =>
    rw [Option.map_some, Option.getD_some, adaptDialers_eq _ (hv _ rfl)] at h
    cases h
  | _ => cases h

/-! ### What is added, member by member -/

/-- The tag of the direct outbound of the product. -/
def ownTag : Sbj := .str (lit "sb-easy-control-direct")

/-- The processes of the product go out directly, but for the diagnostic listener. -/
def processGate : Sbj :=
  .build [(lit "type", .str (lit "logical")), (lit "mode", .str (lit "and")),
    (lit "rules", .arr [
      .build [(lit "process_name", .arr [.str (lit "sb-easy-service.exe"), .str (lit "sb-easy.exe"),
        .str (lit "sing-box.exe")])],
      .build [(lit "inbound", .str (lit "sb-easy-diagnostic")), (lit "invert", .bool true)]]),
    (lit "action", .str (lit "route")), (lit "outbound", ownTag)]

/-- The control host is reached directly. -/
def controlHost (w : Machine) (host : Bytes) : Sbj :=
  if w.inetPton4 host || w.inetPton6 host then
    .build [(lit "ip_cidr", .arr [.str (host ++ if host.contains 0x3A then lit "/128" else lit "/32")]),
      (lit "action", .str (lit "route")), (lit "outbound", ownTag)]
  else
    .build [(lit "domain", .arr [.str host]), (lit "action", .str (lit "route")),
      (lit "outbound", ownTag)]

def ownOutbound : Sbj := .build [(lit "type", .str (lit "direct")), (lit "tag", ownTag)]

/-- The diagnostic listener on the loopback address. -/
def diagnosticListener (secret : Bytes) (port : UInt16) : Sbj :=
  .build [(lit "type", .str (lit "http")), (lit "tag", .str (lit "sb-easy-diagnostic")),
    (lit "listen", .str (lit "127.0.0.1")), (lit "listen_port", .int port.toNat),
    (lit "users", .arr [.build [(lit "username", .str (lit "sb-easy-probe")),
      (lit "password", .str secret)]])]

/-- The Clash API on the loopback address. -/
def loopbackApi (mode secret : Bytes) (port : UInt16) : Sbj :=
  .build [(lit "default_mode", .str mode),
    (lit "external_controller", .str (lit "127.0.0.1:" ++ decimal port.toNat)),
    (lit "secret", .str secret),
    (lit "access_control_allow_origin", .arr [.str (lit "http://127.0.0.1")]),
    (lit "access_control_allow_private_network", .bool false)]

lemma controlRule_eq (w : Machine) (host : Bytes) : controlRule w host = controlHost w host := by
  unfold controlRule controlHost
  simp only
  split_ifs <;> rfl

/-- The member of the route after the pass. -/
def routeMember (w : Machine) (host : Option Bytes) (route : Option Sbj) (k : Bytes) : Option Sbj :=
  if k = lit "rules" then
    some (.arr (processGate :: ((host.map (controlHost w)).toList ++ items (Sbj.get route k))))
  else if k = lit "find_process" ∨ k = lit "auto_detect_interface" then some (.bool true)
  else if k ∈ ["default_interface", "default_mark", "override_android_vpn"].map lit then none
  else Sbj.get route k

lemma adaptRoute_ok {r r' : Sbj} (hordered : r.Ordered) (h : adaptRoute w host r = .ok r') :
    r'.IsObj ∧ ∀ k, Sbj.get (some r') k = routeMember w host (some r) k := by
  unfold adaptRoute at h
  rw [funext (controlRule_eq w)] at h
  dsimp only at h
  split_ifs at h with hobj
  have hr := hordered.isObj (by simpa using hobj)
  split at h
  · next rules hrules =>
    cases h
    have h1 := hr.eraseKeys (["default_interface", "default_mark", "override_android_vpn"].map lit)
    have h2 := h1.set (lit "auto_detect_interface") (.bool true)
    have h3 := h2.set (lit "find_process") (.bool true)
    rw [h2.get_set_ne (by decide), h1.get_set_ne (by decide), hr.get_eraseKeys,
      if_neg (by decide)] at hrules
    refine ⟨h3.set _ _, fun k => ?_⟩
    rw [h3.get_set_eq, h2.get_set_eq, h1.get_set_eq, hr.get_eraseKeys, routeMember]
    by_cases hk : k = lit "rules"
    · rw [hk, if_pos rfl, if_pos rfl]
      rcases hget : Sbj.get (some r) (lit "rules") with _ | v
      · rw [hget] at hrules
        cases hrules
        rfl
      · rw [hget] at hrules
        rw [show v = .arr rules from hrules]
        rfl
    · rw [if_neg hk, if_neg hk]
      by_cases hfind : k = lit "find_process" <;>
        by_cases hauto : k = lit "auto_detect_interface" <;> simp [hfind, hauto]
  · cases h

lemma adaptRoutes_ok (hc : c.IsObj)
    (hv : ∀ x, v = some x → x.Ordered) (hroute : ∀ x, Sbj.get (some c) (lit "route") = some x → x.Ordered)
    (hget : Sbj.get (some c) (lit "outbounds") = v.map adaptDialers)
    (h : adaptRoutes w c host = .ok c') : Frame [lit "outbounds", lit "route"] c c' ∧
      Sbj.get (some c') (lit "outbounds") =
        some (.arr ((items v).map (Sbj.without isDialerKey) ++ [directOutbound])) ∧
      (∀ o ∈ items v, getStr (some o) (lit "tag") [] ≠ directTag) ∧
      ∀ k, Sbj.get (Sbj.get (some c') (lit "route")) k =
        routeMember w host (Sbj.get (some c) (lit "route")) k := by
  obtain ⟨c₁, h₁, h⟩ := bind_ok h
  obtain ⟨r, hr, h⟩ := bind_ok h
  cases h
  obtain ⟨hframe, hout, hfresh⟩ := adaptOutbounds_ok hv hc hget h₁
  have hsame : Sbj.get (some c₁) (lit "route") = Sbj.get (some c) (lit "route") :=
    hframe.get _ (by decide)
  rw [hsame] at hr
  refine ⟨⟨hframe.obj.set _ _, fun k hk => ?_⟩, ?_, hfresh, fun k => ?_⟩
  · simp only [List.mem_cons, List.not_mem_nil, or_false, not_or] at hk
    rw [hframe.obj.get_set_ne hk.2, hframe.get k (by simpa using hk.1)]
  · rw [hframe.obj.get_set_ne (by decide), hout]
  · rw [hframe.obj.get_set]
    rcases hget' : Sbj.get (some c) (lit "route") with _ | x
    · rw [hget'] at hr
      rw [(adaptRoute_ok Sbj.ordered_nil hr).2 k]
      simp [routeMember, Sbj.get, members, SortedAssoc.get_nil]
    · rw [hget'] at hr
      exact (adaptRoute_ok (hroute x hget') hr).2 k

lemma chooseLocalApi_ok {d : ApiDraw} {secret : Bytes} {port : UInt16}
    (h : chooseLocalApi d = .ok (secret, port)) :
    ∃ entropy, d.entropy = some entropy ∧ secret = hexEncode entropy.toList ∧ d.port = some port := by
  unfold chooseLocalApi at h
  split at h
  · next entropy own hentropy hport =>
    split_ifs at h
    cases h
    exact ⟨entropy, hentropy, rfl, hport⟩
  · cases h

lemma diagnosticInbound_ok {out out' : RuntimeConfig} (ho : c.IsObj)
    (h : diagnosticInbound w c out = .ok (c', out')) :
    Frame [lit "inbounds"] c c' ∧ out'.secret = out.secret ∧ out'.port = out.port ∧
      Sbj.get (some c') (lit "inbounds") = some (.arr (items (Sbj.get (some c) (lit "inbounds")) ++
        [probeListener out'.probeSecret out'.probePort])) := by
  unfold diagnosticInbound at h
  dsimp only at h
  split_ifs at h
  obtain ⟨⟨secret, port⟩, -, h⟩ := bind_ok h
  cases h
  exact ⟨Frame.set ho _ _, rfl, rfl, ho.get_set⟩

/-! ### The whole -/

/-- The sections that the passes touch. -/
def touched : List Bytes :=
  ["inbounds", "experimental", "outbounds", "route", "dns", "endpoints", "ntp", "log"].map lit

/-- The written configuration, compared with the candidate. -/
structure Exact (w : Machine) (host : Option Bytes) (input c : Sbj) (out : RuntimeConfig) : Prop where
  /-- The inbounds are the candidate's, adapted, and the diagnostic listener. -/
  inbounds : ∃ own, Sbj.get (some c) (lit "inbounds") =
      some (.arr (own ++ [diagnosticListener out.probeSecret out.probePort])) ∧
    List.Forall₂ InboundAdapted (items (Sbj.get (some input) (lit "inbounds"))) own
  oneTun : (items (Sbj.get (some c) (lit "inbounds"))).countP isTun ≤ 1
  loopback : ∀ i ∈ items (Sbj.get (some c) (lit "inbounds")), isTun i = false →
    Sbj.get (some i) (lit "listen") = some (.str (lit "127.0.0.1"))
  /-- The generated API, in the candidate's mode, and the cache file if a rule set is remote. -/
  experimental : ∃ api, api = loopbackApi (getStr (Sbj.get (Sbj.get (some input)
      (lit "experimental")) (lit "clash_api")) (lit "default_mode") (lit "Rule")) out.secret out.port ∧
    if (items (Sbj.get (Sbj.get (some input) (lit "route")) (lit "rule_set"))).any fun set =>
        stringIs (Sbj.get (some set) (lit "type")) (lit "remote") then
      Sbj.get (some c) (lit "experimental") = some (.build [
        (lit "cache_file", .build [(lit "enabled", .bool true),
          (lit "path", .str (lit "rule-set-cache.db"))]), (lit "clash_api", api)])
    else Sbj.get (some c) (lit "experimental") = some (.build [(lit "clash_api", api)])
  secret : ∃ entropy, (w.draw 0).entropy = some entropy ∧ out.secret = hexEncode entropy.toList
  outbounds : Sbj.get (some c) (lit "outbounds") =
    some (.arr ((items (Sbj.get (some input) (lit "outbounds"))).map (Sbj.without isDialerKey) ++
      [ownOutbound]))
  fresh : ∀ o ∈ items (Sbj.get (some input) (lit "outbounds")),
    .str (getStr (some o) (lit "tag") []) ≠ ownTag
  route : ∀ k, Sbj.get (Sbj.get (some c) (lit "route")) k =
    routeMember w host (Sbj.get (some input) (lit "route")) k
  dns : Sbj.get (some c) (lit "dns") =
    (Sbj.get (some input) (lit "dns")).map (Sbj.without isDialerKey)
  hasEndpoints : has (some c) (lit "endpoints") = has (some input) (lit "endpoints")
  endpoints : List.Forall₂ (EndpointAdapted w) (items (Sbj.get (some input) (lit "endpoints")))
    (items (Sbj.get (some c) (lit "endpoints")))
  log : Sbj.get (some c) (lit "log") =
    some (.build [(lit "level", .str (lit "debug")), (lit "timestamp", .bool true)])
  ntp : Sbj.get (some c) (lit "ntp") = none
  untouched : ∀ k ∉ touched, Sbj.get (some c) k = Sbj.get (some input) k

lemma remoteRuleSets_congr (h : Sbj.get (Sbj.get (some c) (lit "route")) (lit "rule_set") =
      Sbj.get (Sbj.get (some c') (lit "route")) (lit "rule_set")) :
    remoteRuleSets c = remoteRuleSets c' := by
  rw [remoteRuleSets, remoteRuleSets, h]

lemma countP_isTun (h : List.Forall₂ InboundAdapted l l') : l'.countP isTun = l.countP isTun := by
  induction h with
  | nil => rfl
  | cons hab _ ih => rw [List.countP_cons, List.countP_cons, ih, hab.isTun]

lemma loopback_of_adapted (h : List.Forall₂ InboundAdapted l l') {i : Sbj} (hi : i ∈ l')
    (ht : isTun i = false) : Sbj.get (some i) (lit "listen") = some (.str (lit "127.0.0.1")) := by
  induction h with
  | nil => cases hi
  | cons hab _ ih =>
    rcases List.mem_cons.mp hi with rfl | hi
    · exact hab.loopback ht
    · exact ih hi

lemma get_probeListener (secret : Bytes) (port : UInt16) :
    Sbj.get (some (probeListener secret port)) (lit "type") = some (.str (lit "http")) ∧
      Sbj.get (some (probeListener secret port)) (lit "listen") = some (.str (lit "127.0.0.1")) := by
  refine ⟨get_build ?_ (by simp), get_build ?_ (by simp)⟩
  all_goals
    simp only [List.map_cons, List.map_nil]
    decide

lemma isTun_probeListener (secret : Bytes) (port : UInt16) :
    isTun (probeListener secret port) = false := by
  rw [isTun, getStr, (get_probeListener secret port).1]
  rfl

lemma adapt_exact {input : Sbj} (hinput : input.Ordered) (hobject : isObject (some input) = true)
    (h : adapt w input host = .ok (c, out)) : Exact w host input c out := by
  have ho := hinput.isObj hobject
  have htop := isObj_adaptTop ho
  obtain ⟨c₁, h₁, h⟩ := bind_ok h
  obtain ⟨⟨c₂, out₂⟩, h₂, h⟩ := bind_ok h
  obtain ⟨c₃, h₃, h⟩ := bind_ok h
  obtain ⟨⟨secret, port⟩, h₄, h⟩ := bind_ok h
  obtain ⟨⟨c₅, out₅⟩, h₅, h⟩ := bind_ok h
  cases h
  -- The passes one after the other, each with the section it reads as the candidate has it.
  have hread : ∀ k, k ∉ ["log", "ntp", "dns", "outbounds"].map lit →
      Sbj.get (some (adaptTop input)) k = Sbj.get (some input) k := by
    intro k hk
    simp only [List.map_cons, List.map_nil, List.mem_cons, List.not_mem_nil, or_false, not_or] at hk
    simp [get_adaptTop ho, hk]
  have hsub : ∀ k v, Sbj.get (some input) k = some v → v.Ordered := fun k v hv => hinput.get hv
  have hend : Sbj.get (some (adaptTop input)) (lit "endpoints") = Sbj.get (some input) (lit "endpoints") :=
    hread _ (by decide)
  obtain ⟨f₁, hhas, hendpoints⟩ := adaptEndpoints_ok htop (by rw [hend]; exact hsub _) h₁
  have hin : Sbj.get (some c₁) (lit "inbounds") = Sbj.get (some input) (lit "inbounds") := by
    rw [f₁.get _ (by decide), hread _ (by decide)]
  obtain ⟨f₂, hinbounds, hcount⟩ := adaptInbounds_ok f₁.obj (by rw [hin]; exact hsub _) h₂
  have hroute₂ : Sbj.get (some c₂) (lit "route") = Sbj.get (some input) (lit "route") := by
    rw [f₂.get _ (by decide), f₁.get _ (by decide), hread _ (by decide)]
  have hout₂ : Sbj.get (some c₂) (lit "outbounds") =
      (Sbj.get (some input) (lit "outbounds")).map adaptDialers := by
    rw [f₂.get _ (by decide), f₁.get _ (by decide), get_adaptTop ho]
    rfl
  obtain ⟨f₃, hout, hfresh, hroute⟩ := adaptRoutes_ok f₂.obj (hsub _) (by rw [hroute₂]; exact hsub _)
    hout₂ h₃
  obtain ⟨entropy, hentropy, hsecret, -⟩ := chooseLocalApi_ok h₄
  obtain ⟨f₅, hsecret₅, hport₅, hlisten⟩ := diagnosticInbound_ok f₃.obj h₅
  rw [hin] at hinbounds hcount
  rw [hroute₂] at hroute
  rw [f₃.get _ (by decide)] at hlisten
  have hroute₅ : Sbj.get (some c₅) (lit "route") = Sbj.get (some c₃) (lit "route") :=
    f₅.get _ (by decide)
  have hkeep : ∀ k, k ∉ ["experimental", "inbounds", "outbounds", "route", "endpoints"].map lit →
      Sbj.get (some (c₅.set (lit "experimental")
        (experimentalSection (clashMode c₅) secret port (remoteRuleSets c₅)))) k =
        Sbj.get (some (adaptTop input)) k := by
    intro k hk
    simp only [List.map_cons, List.map_nil, List.mem_cons, List.not_mem_nil, or_false, not_or] at hk
    rw [f₅.obj.get_set_ne hk.1, f₅.get k (by simp [hk]), f₃.get k (by simp [hk]),
      f₂.get k (by simp [hk]), f₁.get k (by simp [hk])]
  have hlist : Sbj.get (some (c₅.set (lit "experimental")
      (experimentalSection (clashMode c₅) secret port (remoteRuleSets c₅)))) (lit "inbounds") =
      some (.arr (items (Sbj.get (some c₂) (lit "inbounds")) ++
        [probeListener out₅.probeSecret out₅.probePort])) := by
    rw [f₅.obj.get_set_ne (by decide), hlisten]
  refine
    { inbounds := ⟨_, hlist, hinbounds⟩, oneTun := ?_, loopback := ?_, experimental := ?_
      secret := ⟨entropy, hentropy, hsecret₅.trans hsecret⟩, outbounds := ?_
      fresh := fun o ho he => hfresh o ho (Sbj.str.inj he), route := ?_, dns := ?_
      hasEndpoints := ?_, endpoints := ?_
      log := by rw [hkeep _ (by decide), get_adaptTop ho]; rfl
      ntp := by rw [hkeep _ (by decide), get_adaptTop ho]; rfl
      untouched := ?_ }
  · rw [hlist, items, List.countP_append, countP_isTun hinbounds, List.countP_singleton,
      isTun_probeListener]
    exact hcount
  · rw [hlist, items]
    intro i hi ht
    rcases List.mem_append.mp hi with hi | hi
    · exact loopback_of_adapted hinbounds hi ht
    · rw [List.mem_singleton.mp hi]
      exact (get_probeListener _ _).2
  · have hmode : Sbj.get (some c₅) (lit "experimental") = Sbj.get (some input) (lit "experimental") := by
      rw [f₅.get _ (by decide), f₃.get _ (by decide), f₂.get _ (by decide), f₁.get _ (by decide),
        hread _ (by decide)]
    have hremote : remoteRuleSets c₅ = remoteRuleSets input := by
      refine remoteRuleSets_congr ?_
      rw [hroute₅, hroute]
      rfl
    refine ⟨_, rfl, ?_⟩
    rw [f₅.obj.get_set, hremote, clashMode, hmode, hsecret₅, hport₅, ← remoteRuleSets]
    cases remoteRuleSets input <;> rfl
  · rw [f₅.obj.get_set_ne (by decide), f₅.get _ (by decide)]
    exact hout
  · intro k
    rw [f₅.obj.get_set_ne (by decide), hroute₅, hroute]
  · rw [hkeep _ (by decide), get_adaptTop ho]
    rcases hdns : Sbj.get (some input) (lit "dns") with _ | v
    · rfl
    · change some (adaptDialers v) = _
      rw [adaptDialers_eq v (hsub _ _ hdns)]
      rfl
  · rw [has, has, f₅.obj.get_set_ne (by decide), f₅.get _ (by decide), f₃.get _ (by decide),
      f₂.get _ (by decide)]
    rw [has, has, hend] at hhas
    exact hhas
  · rw [f₅.obj.get_set_ne (by decide), f₅.get _ (by decide), f₃.get _ (by decide),
      f₂.get _ (by decide)]
    rw [hend] at hendpoints
    exact hendpoints
  · intro k hk
    simp only [touched, List.map_cons, List.map_nil, List.mem_cons, List.not_mem_nil, or_false, not_or] at hk
    rw [hkeep k (by simp [hk]), hread k (by simp [hk])]

variable [Platform]

lemma sbwJsonParse_ordered {text : Bytes} {depth : ℕ} {v : Sbj} (h : sbwJsonParse text depth = some v) :
    v.Ordered := by
  unfold sbwJsonParse at h
  split_ifs at h
  rw [Option.filter_eq_some_iff] at h
  cases hparse : sbjParse text with
  | error e =>
    rw [hparse] at h
    cases h.1
  | ok u =>
    rw [hparse] at h
    cases h.1
    exact Wf.ordered _ (sbjParse_fits hparse).1

lemma prepareTree_ok {json server : Bytes} {out : RuntimeConfig}
    (h : prepareTree w json server = .ok (c, out)) :
    ∃ input, sbwJsonParse json 40 = some input ∧ input.Ordered ∧
      Exact w (serverHost w server) input c out := by
  unfold prepareTree at h
  split_ifs at h
  dsimp only at h
  split at h
  · cases h
  · next input hinput =>
    split_ifs at h with hread
    simp only [Bool.or_eq_true, Bool.not_eq_true', not_or, Bool.not_eq_false] at hread
    have hordered := sbwJsonParse_ordered hinput
    exact ⟨input, hinput, hordered, adapt_exact hordered hread.1.1 h⟩

/-- **Exactness**: whatever text is prepared, the configuration that is written has at most one
tunnel, and listens for the rest on 127.0.0.1; its `experimental` section is the generated one with
the secret just drawn; its outbounds are the candidate's and one more with a name of its own; its
rules are the gate, the control host if there is one, and the candidate's; and all else is as the
candidate has it, but for the members that bind to a device and the rewritten endpoints. -/
theorem prepare_exact (w : Machine) (json server : Bytes) (out : RuntimeConfig)
    (h : runtimeConfigPrepare w json server = .ok out) :
    ∃ input c, sbwJsonParse json 40 = some input ∧ out.json = dump c (-1) ∧
      Exact w (serverHost w server) input c out := by
  obtain ⟨⟨c, out'⟩, htree, h⟩ := bind_ok h
  cases h
  obtain ⟨input, hinput, -, hexact⟩ := prepareTree_ok htree
  exact ⟨input, c, hinput, rfl, { hexact with }⟩

omit [Platform]

/-- A small machine, to run the code on. -/
def Machine.sample : Machine where
  inetPton4 _ := false
  inetPton6 _ := false
  sha256 _ := some (.replicate 32 7)
  draw i := ⟨some (.replicate 32 i.toUInt8), some (i.toUInt16 + 9000)⟩

def exampleCandidate : Bytes :=
  ["\x7b\"inbounds\":[\x7b\"type\":\"tun\"\x7d,", "\x7b\"type\":\"mixed\"\x7d],",
   "\"outbounds\":[\x7b\"tag\":\"a\",",
    "\"netns\":\"n\"\x7d]\x7d"].flatMap lit

lemma exampleCandidate_ok :
    ∃ out, @runtimeConfigPrepare .sample .sample exampleCandidate (lit "https://c") = .ok out := by
  have hok : (@runtimeConfigPrepare .sample .sample exampleCandidate (lit "https://c")).toBool = true := by
    decide +kernel
  cases h : @runtimeConfigPrepare .sample .sample exampleCandidate (lit "https://c") with
  | ok out => exact ⟨out, rfl⟩
  | error e =>
    rw [h] at hok
    cases hok

theorem prepare_exact_example :
    ∃ out, @runtimeConfigPrepare .sample .sample exampleCandidate (lit "https://c") = .ok out ∧
      ∃ input c, @sbwJsonParse .sample exampleCandidate 40 = some input ∧
        out.json = @dump .sample c (-1) ∧
        Exact .sample (serverHost .sample (lit "https://c")) input c out := by
  obtain ⟨out, h⟩ := exampleCandidate_ok
  exact ⟨out, h, @prepare_exact .sample .sample _ _ out h⟩

end SbEasy.WinRuntime
