import SbEasy.RenderFrame

/-!
A whole run of the renderer: the stages it goes through, and what the configuration holds
after each of them.
-/

namespace SbEasy.Render

open Sbj (IsObj Has)

/-! ### Managed defaults -/

/-- The rules that `inject_managed_geo_policy` may append, in their order. -/
def managedDefaults : List Sbj :=
  [ruleSetRule (lit "geosite-private"), privateIpRule, ruleSetRule (lit "geosite-cn"),
    ruleSetRule (lit "geoip-cn")]

/-- A managed default: straight out, for private addresses or one of three rule sets. -/
def IsDefault (rule : Sbj) : Prop :=
  Sbj.get (some rule) (lit "outbound") = some (.str (lit "direct")) ∧
    (Sbj.get (some rule) (lit "ip_is_private") = some (.bool true) ∨
      ∃ tag ∈ [lit "geosite-private", lit "geosite-cn", lit "geoip-cn"],
        Sbj.get (some rule) (lit "rule_set") = some (.arr [.str tag]))

lemma isDefault_of_mem {rule : Sbj} (h : rule ∈ managedDefaults) : IsDefault rule := by
  have hset : ∀ tag ∈ [lit "geosite-private", lit "geosite-cn", lit "geoip-cn"],
      IsDefault (ruleSetRule tag) := fun tag ht =>
    ⟨(Has.set_self (Sbj.isObj_nil.set _ _) _ _).get,
      Or.inr ⟨tag, ht, ((Has.set_self Sbj.isObj_nil _ _).set (by decide) _).get⟩⟩
  simp only [managedDefaults, List.mem_cons, List.not_mem_nil, or_false] at h
  rcases h with rfl | rfl | rfl | rfl
  · exact hset _ (by simp)
  · exact ⟨(Has.set_self (Sbj.isObj_nil.set _ _) _ _).get,
      Or.inl ((Has.set_self Sbj.isObj_nil _ _).set (by decide) _).get⟩
  · exact hset _ (by simp)
  · exact hset _ (by simp)

/-- The rules for the server: one straight out to its host, if it has one. -/
def ControlRules (renderer : Renderer) (server : Bytes) (control : List Sbj) : Prop :=
  if (urlHost server).isEmpty then control = []
  else ∃ rule, control = [rule] ∧
    Sbj.get (some rule) (lit "outbound") = some (.str (lit "direct")) ∧
    if renderer.inet4 (urlHost server) then
      Sbj.get (some rule) (lit "ip_cidr") = some (.arr [.str (urlHost server ++ lit "/32")])
    else if renderer.inet6 (urlHost server) then
      Sbj.get (some rule) (lit "ip_cidr") = some (.arr [.str (urlHost server ++ lit "/128")])
    else Sbj.get (some rule) (lit "domain") = some (.arr [.str (urlHost server)])

lemma controlRules (renderer : Renderer) (server : Bytes) :
    ControlRules renderer server (controlPlaneRoute renderer server).toList := by
  have hdirect : ∀ key value, Sbj.get (some (directRule key value)) (lit "outbound") =
      some (.str (lit "direct")) := fun _ _ => (Has.set_self (Sbj.isObj_nil.set _ _) _ _).get
  have hkey : ∀ {key} value, key ≠ lit "outbound" →
      Sbj.get (some (directRule key value)) key = some (.arr [.str value]) :=
    fun _ hne => ((Has.set_self Sbj.isObj_nil _ _).set hne _).get
  unfold ControlRules controlPlaneRoute
  simp only
  split_ifs
  · rfl
  all_goals exact ⟨_, rfl, hdirect _ _, hkey _ (by decide)⟩

lemma withRuleForSet_eq (rules : List Sbj) (tag : Bytes) :
    ∃ added, withRuleForSet rules tag = rules ++ added ∧ added.Sublist [ruleSetRule tag] := by
  unfold withRuleForSet
  split_ifs
  · exact ⟨[], by simp, by simp⟩
  · exact ⟨_, rfl, .refl _⟩

lemma geoRules_ok {rules rules' : List Sbj} (h : geoRules rules = .ok rules') :
    ∃ added, rules' = rules ++ added ∧ added.Sublist managedDefaults := by
  simp only [geoRules, bind, Except.bind, pure, Except.pure] at h
  obtain ⟨a1, h1, s1⟩ := withRuleForSet_eq rules (lit "geosite-private")
  rw [h1] at h
  cases hp : hasPrivateIpRule (rules ++ a1) with
  | error e => rw [hp] at h; cases h
  | ok flag =>
    simp only [hp, Except.ok.injEq] at h
    obtain ⟨a2, h2, s2⟩ : ∃ a2, (if flag = true then rules ++ a1 else rules ++ a1 ++ [privateIpRule]) =
        rules ++ a1 ++ a2 ∧ a2.Sublist [privateIpRule] := by
      cases flag with
      | true => exact ⟨[], by simp, by simp⟩
      | false => exact ⟨_, rfl, .refl _⟩
    rw [h2] at h
    obtain ⟨a3, h3, s3⟩ := withRuleForSet_eq (rules ++ a1 ++ a2) (lit "geosite-cn")
    rw [h3] at h
    obtain ⟨a4, h4, s4⟩ := withRuleForSet_eq (rules ++ a1 ++ a2 ++ a3) (lit "geoip-cn")
    rw [h4] at h
    exact ⟨a1 ++ (a2 ++ (a3 ++ a4)), by rw [← h]; simp, s1.append (s2.append (s3.append s4))⟩

/-- A rule set that the renderer adds. -/
def AddedRuleSet (item : Sbj) : Prop := ∃ tag url, item = remoteRuleSet tag url

lemma AddedRuleSet.detour {item : Sbj} (h : AddedRuleSet item) :
    Sbj.get (some item) (lit "download_detour") = some (.str (lit "direct")) := by
  obtain ⟨tag, url, rfl⟩ := h
  have hbase : IsObj (((((Sbj.obj []).set (lit "type") (.str (lit "remote"))).set (lit "tag")
      (.str tag)).set (lit "format") (.str (lit "binary"))).set (lit "url")
      (.str (metaRulesBase ++ url))) :=
    (((Sbj.isObj_nil.set _ _).set _ _).set _ _).set _ _
  exact ((Has.set_self hbase _ _).set (by decide) _).get

lemma addRemoteRuleSet_ok {sets sets' : List Sbj} {tag url : Bytes}
    (h : addRemoteRuleSet sets tag url = .ok sets') :
    ∃ added, sets' = sets ++ added ∧ ∀ a ∈ added, AddedRuleSet a := by
  simp only [addRemoteRuleSet, bind, Except.bind, pure, Except.pure] at h
  cases hp : ruleSetPresent tag sets with
  | error e => rw [hp] at h; cases h
  | ok present =>
    simp only [hp, Except.ok.injEq] at h
    subst h
    cases present with
    | true => exact ⟨[], by simp, by simp⟩
    | false => exact ⟨_, rfl, by simpa using ⟨tag, url, rfl⟩⟩

lemma geoRuleSets_ok {sets sets' : List Sbj} (h : geoRuleSets sets = .ok sets') :
    ∃ added, sets' = sets ++ added ∧ ∀ a ∈ added, AddedRuleSet a := by
  simp only [geoRuleSets, bind, Except.bind] at h
  cases h1 : addRemoteRuleSet sets (lit "geosite-private") (lit "geosite/private.srs") with
  | error e => rw [h1] at h; cases h
  | ok s1 =>
  simp only [h1] at h
  cases h2 : addRemoteRuleSet s1 (lit "geosite-cn") (lit "geosite/cn.srs") with
  | error e => rw [h2] at h; cases h
  | ok s2 =>
  simp only [h2] at h
  obtain ⟨a1, rfl, p1⟩ := addRemoteRuleSet_ok h1
  obtain ⟨a2, rfl, p2⟩ := addRemoteRuleSet_ok h2
  obtain ⟨a3, rfl, p3⟩ := addRemoteRuleSet_ok h
  refine ⟨a1 ++ (a2 ++ a3), by simp, fun a ha => ?_⟩
  simp only [List.mem_append] at ha
  rcases ha with ha | ha | ha
  · exact p1 a ha
  · exact p2 a ha
  · exact p3 a ha

lemma items_orArray {slot : Option Sbj} {l : List Sbj} (h : orArray slot = .arr l) :
    Sbj.items slot = l := by
  cases slot with
  | none =>
    simp only [orArray, Sbj.isNull, if_true, Sbj.arr.injEq] at h
    exact h
  | some v =>
    cases v with
    | null =>
      simp only [orArray, Sbj.isNull, if_true, Sbj.arr.injEq] at h
      exact h
    | arr m =>
      simp only [orArray, Sbj.isNull, Bool.false_eq_true, if_false, Option.getD_some,
        Sbj.arr.injEq] at h
      exact h
    | _ => simp [orArray, Sbj.isNull] at h

variable {config config' : Sbj} {request : RenderRequest} {renderer : Renderer}

lemma orObject_route
    (h : Sbj.isObject (some (orObject (Sbj.get (some config) (lit "route")))) = true) :
    orObject (Sbj.get (some config) (lit "route")) = routeOrEmpty config := by
  unfold routeOrEmpty
  cases hr : Sbj.get (some config) (lit "route") with
  | none => rfl
  | some r =>
    rw [hr] at h
    cases r with
    | null => rfl
    | obj m => rfl
    | _ => cases h

/-- What `inject_managed_geo_policy` does to a configuration. -/
structure GeoStep (config config' : Sbj) : Prop where
  frame : ∀ {k v}, k ≠ lit "route" → k ≠ lit "experimental" → Has config k v → Has config' k v
  shape : Shape config'
  key : ∀ k, k ≠ lit "rules" → k ≠ lit "rule_set" → routeKey config' k = routeKey config k
  rules : ∃ added, routeKey config' (lit "rules") =
      some (.arr (Sbj.items (routeKey config (lit "rules")) ++ added)) ∧
    added.Sublist managedDefaults
  sets : ∃ added, routeKey config' (lit "rule_set") =
      some (.arr (Sbj.items (routeKey config (lit "rule_set")) ++ added)) ∧
    ∀ a ∈ added, AddedRuleSet a

/-- The edit that `inject_managed_geo_policy` makes. -/
lemma geo_edit (h : injectManagedGeoPolicy config = .ok config') :
    ∃ rules sets, geoRules (Sbj.items (routeKey config (lit "rules"))) = .ok rules ∧
      geoRuleSets (Sbj.items (routeKey config (lit "rule_set"))) = .ok sets ∧
      config' = enableCacheFile (config.set (lit "route") (((routeOrEmpty config).set (lit "rules")
        (.arr rules)).set (lit "rule_set") (.arr sets))) := by
  simp only [injectManagedGeoPolicy, bind, Except.bind, pure, Except.pure, throw, throwThe,
    MonadExceptOf.throw] at h
  split_ifs at h with hobj
  rw [Bool.not_eq_true', Bool.not_eq_false] at hobj
  rw [orObject_route hobj] at h
  cases hrules : orArray (Sbj.get (some (routeOrEmpty config)) (lit "rules")) with
  | arr rules =>
    cases hsets : orArray (Sbj.get (some (routeOrEmpty config)) (lit "rule_set")) with
    | arr sets =>
      rw [hrules, hsets] at h
      simp only at h
      cases hs' : geoRuleSets sets with
      | error e => rw [hs'] at h; cases h
      | ok sets' =>
      simp only [hs'] at h
      cases hr' : geoRules rules with
      | error e => rw [hr'] at h; cases h
      | ok rules' =>
      simp only [hr', Except.ok.injEq] at h
      rw [← routeOrEmpty_get, ← routeOrEmpty_get, items_orArray hrules, items_orArray hsets]
      exact ⟨rules', sets', hr', hs', h.symm⟩
    | _ => rw [hrules, hsets] at h; cases h
  | _ => rw [hrules] at h; cases h

lemma geo_ok (hs : Shape config)
    (h : injectManagedGeoPolicy config = .ok config') : GeoStep config config' := by
  obtain ⟨rules, sets, hrules, hsets, rfl⟩ := geo_edit h
  have hro := hs.routeOrEmpty
  have hedit := Shape.setRoute hs.obj ((hro.set (lit "rules") (.arr rules)).set
    (lit "rule_set") (.arr sets))
  have hroute : ∀ k, routeKey (enableCacheFile (config.set (lit "route")
      (((routeOrEmpty config).set (lit "rules") (.arr rules)).set (lit "rule_set")
        (.arr sets)))) k = Sbj.get (some (((routeOrEmpty config).set (lit "rules")
        (.arr rules)).set (lit "rule_set") (.arr sets))) k := by
    intro k
    rw [routeKey, (has_enableCacheFile ⟨hedit.obj, rfl⟩ (by decide)).get, hs.obj.get_set]
  obtain ⟨ar, rfl, har⟩ := geoRules_ok hrules
  obtain ⟨as, rfl, has⟩ := geoRuleSets_ok hsets
  refine ⟨?_, ?_, ?_, ?_, ?_⟩
  · intro k v hk hk' hhas
    exact has_enableCacheFile (hhas.set hk _) hk'
  · refine ⟨(has_enableCacheFile ⟨hedit.obj, rfl⟩ (k := lit "route") (by decide)).obj, ?_⟩
    intro m hm
    rw [(has_enableCacheFile ⟨hedit.obj, rfl⟩ (by decide)).get] at hm
    exact hedit.route m hm
  · intro k hk hk'
    rw [hroute, (hro.set _ _).get_set_ne hk', hro.get_set_ne hk, routeOrEmpty_get]
  · refine ⟨ar, ?_, har⟩
    rw [hroute, (hro.set _ _).get_set_ne (by decide), hro.get_set]
  · refine ⟨as, ?_, has⟩
    rw [hroute, (hro.set _ _).get_set]

/-- The geo policy, which is only there for a configuration with a proxy. -/
structure PolicyStep (config config' : Sbj) : Prop where
  frame : ∀ {k v}, k ≠ lit "route" → k ≠ lit "experimental" → Has config k v → Has config' k v
  shape : Shape config'
  key : ∀ k, k ≠ lit "rules" → k ≠ lit "rule_set" → routeKey config' k = routeKey config k
  rules : ∃ added, Sbj.items (routeKey config' (lit "rules")) =
    Sbj.items (routeKey config (lit "rules")) ++ added ∧ added.Sublist managedDefaults
  sets : ∃ added, Sbj.items (routeKey config' (lit "rule_set")) =
    Sbj.items (routeKey config (lit "rule_set")) ++ added ∧ ∀ a ∈ added, AddedRuleSet a

lemma policy_ok {hasProxy : Bool} (hs : Shape config)
    (h : geoPolicy hasProxy config = .ok config') : PolicyStep config config' := by
  unfold geoPolicy at h
  split_ifs at h
  · have geo := geo_ok hs h
    obtain ⟨rules, hrules, hsub⟩ := geo.rules
    obtain ⟨sets, hsets, hadd⟩ := geo.sets
    exact ⟨geo.frame, geo.shape, geo.key, ⟨rules, by rw [hrules]; rfl, hsub⟩,
      ⟨sets, by rw [hsets]; rfl, hadd⟩⟩
  · cases h
    exact ⟨fun _ _ hh => hh, hs, fun _ _ _ => rfl, ⟨[], by simp, by simp⟩, ⟨[], by simp, by simp⟩⟩

/-! ### The stages -/

lemma shape_profile (h : Sbj.isObject (some request.profile) = true) : Shape request.profile := by
  refine ⟨request.ordered.isObj h, fun m hm => ?_⟩
  exact (request.ordered.get hm).1

/-- The outbounds of the nodes and the groups that every managed configuration has. -/
def generated (request : RenderRequest) (entries : List Sbj) : List Sbj :=
  withDirect (withUrltest entries (nodeTags request.nodes))

variable [Platform]

/-- What `render_managed` does to a configuration. -/
structure ManagedStep (request : RenderRequest) (config config' : Sbj) (hasProxy : Bool)
    (entries : List Sbj) (sel : Option Bytes) : Prop where
  nodes : List.Forall₂ EntryOf (taggedNodes request.nodes []) entries
  proxy : hasProxy = !(nodeTags request.nodes).isEmpty
  offered : sel = none ∨ hasProxy = true ∧ sel = some (selectorTag (generated request entries))
  edit : config' = rewriteFinal (normalizeManagedDnsDetours (config.set (lit "outbounds")
    (.arr (withSelector (generated request entries) sel))) hasProxy sel) hasProxy sel

/-- There is an outbound called `auto` exactly when some node is enabled. -/
lemma has_auto {ps : List (ProxyNode × Bytes)} {entries : List Sbj}
    (h : List.Forall₂ EntryOf ps entries) :
    outboundsHaveTag (withUrltest entries (ps.map Prod.snd)) (lit "auto") =
      !(ps.map Prod.snd).isEmpty := by
  rw [Bool.eq_iff_iff, outboundsHaveTag_iff, (tagged_entries h).withUrltest.mem]
  unfold urltestTags
  split_ifs with he
  · simp [List.isEmpty_iff.mp he]
  · simp only [List.mem_append, List.mem_singleton, or_true, Bool.not_eq_true', true_iff]
    simpa using he

lemma managed_ok {hasProxy : Bool} (h : renderManaged request config = .ok (config', hasProxy)) :
    ∃ entries sel, ManagedStep request config config' hasProxy entries sel := by
  unfold renderManaged at h
  obtain ⟨obs, hobs, h⟩ := bind_ok h
  obtain ⟨selection, -, h⟩ := bind_ok h
  unfold generateOutbounds at hobs
  obtain ⟨⟨entries, tags⟩, hnodes, hobs⟩ := bind_ok hobs
  simp only [pure, Except.pure, Except.ok.injEq, Prod.mk.injEq] at hobs h
  obtain ⟨hall, htags⟩ := nodeOutbounds_ok hnodes
  obtain ⟨hconfig, hproxy⟩ := h
  have htags' : tags = nodeTags request.nodes := htags
  subst hobs
  have hauto : hasProxy = !(nodeTags request.nodes).isEmpty := by
    rw [← hproxy, htags]
    exact has_auto hall
  rw [htags', show outboundsHaveTag (withUrltest entries (nodeTags request.nodes)) (lit "auto") =
    hasProxy by rw [← htags', hproxy]] at hconfig
  cases hsel : (hasProxy && selection) with
  | false =>
    rw [hsel] at hconfig
    exact ⟨entries, none, hall, hauto, Or.inl rfl, hconfig.symm⟩
  | true =>
    rw [hsel] at hconfig
    rw [Bool.and_eq_true] at hsel
    exact ⟨entries, _, hall, hauto, Or.inr ⟨hsel.1, rfl⟩, hconfig.symm⟩

section Managed

variable {request : RenderRequest} {config config' : Sbj} {hasProxy : Bool} {entries : List Sbj}
  {sel : Option Bytes}

lemma ManagedStep.outbounds (h : ManagedStep request config config' hasProxy entries sel)
    (hs : Shape config) : Has config' (lit "outbounds")
      (some (.arr (withSelector (generated request entries) sel))) := by
  have hset := Has.set_self hs.obj (lit "outbounds")
    (.arr (withSelector (generated request entries) sel))
  rw [h.edit]
  exact has_rewriteFinal (has_normalizeDns hset (by decide) _ _) (by decide) _ _

lemma ManagedStep.shape (h : ManagedStep request config config' hasProxy entries sel)
    (hs : Shape config) : Shape config' := by
  rw [h.edit]
  exact shape_rewriteFinal (shape_normalizeDns (hs.setOther (by decide) _) _ _) _ _

lemma ManagedStep.key (h : ManagedStep request config config' hasProxy entries sel)
    (hs : Shape config) {k : Bytes} (hk : k ≠ lit "final") :
    routeKey config' k = routeKey config k := by
  have hout := hs.setOther (k := lit "outbounds") (by decide)
    (.arr (withSelector (generated request entries) sel))
  rw [h.edit, routeKey_rewriteFinal (shape_normalizeDns hout _ _) hk,
    routeKey_normalizeDns hout.obj, routeKey_setOther hs.obj (by decide)]

lemma ManagedStep.final (h : ManagedStep request config config' hasProxy entries sel)
    (hs : Shape config) : routeKey config' (lit "final") =
      (routeKey config (lit "final")).map (finalValue hasProxy sel) := by
  have hout := hs.setOther (k := lit "outbounds") (by decide)
    (.arr (withSelector (generated request entries) sel))
  rw [h.edit, routeFinal_rewriteFinal (shape_normalizeDns hout _ _),
    routeKey_normalizeDns hout.obj, routeKey_setOther hs.obj (by decide)]

end Managed

/-- The outbounds of the transports of a request. -/
def transports (request : RenderRequest) : List Sbj :=
  request.networkOutbounds.map fun t => directOutbound t.tag

omit [Platform] in
lemma append_ok {outbounds : List Sbj}
    (hs : Shape config) (ho : Sbj.get (some config) (lit "outbounds") = some (.arr outbounds))
    (h : appendTransports request config = .ok config') :
    Shape config' ∧ (∀ k, routeKey config' k = routeKey config k) ∧
      (∀ {k v}, k ≠ lit "outbounds" → Has config k v → Has config' k v) ∧
      Sbj.get (some config') (lit "outbounds") = some (.arr (outbounds ++ transports request)) := by
  unfold appendTransports at h
  simp only [ho] at h
  split_ifs at h with he
  · cases h
    have hnil : transports request = [] := List.isEmpty_iff.mp he
    refine ⟨hs, fun _ => rfl, fun _ hh => hh, ?_⟩
    rw [ho, hnil, List.append_nil]
  · cases h
    refine ⟨hs.setOther (by decide) _, routeKey_setOther hs.obj (by decide) _, ?_, hs.obj.get_set⟩
    intro k v hk hh
    exact hh.set hk _

/-- The rules of the script on a configuration, or its own where there is no script. -/
def ScriptRules (renderer : Renderer) (request : RenderRequest) (config : Sbj)
    (rules : List Sbj) : Prop :=
  if (request.ruleScript.getD []).isEmpty then rules = Sbj.items (routeKey config (lit "rules"))
  else buildRules renderer (request.ruleScript.getD []) (scriptContext request config) = .ok rules

/-- What the script does: it replaces the rules of the route. -/
structure ScriptStep (renderer : Renderer) (request : RenderRequest) (config config' : Sbj) :
    Prop where
  frame : ∀ {k v}, k ≠ lit "route" → Has config k v → Has config' k v
  shape : Shape config'
  key : ∀ k, k ≠ lit "rules" → routeKey config' k = routeKey config k
  rules : ScriptRules renderer request config (Sbj.items (routeKey config' (lit "rules")))

lemma script_ok (hs : Shape config) (h : runScript renderer request config = .ok config') :
    ScriptStep renderer request config config' := by
  have hsame (he : (request.ruleScript.getD []).isEmpty = true) :
      ScriptStep renderer request config config :=
    ⟨fun _ hh => hh, hs, fun _ _ => rfl, by rw [ScriptRules, if_pos he]⟩
  unfold runScript at h
  cases hscript : request.ruleScript with
  | none =>
    rw [hscript] at h
    cases h
    exact hsame (by rw [hscript]; rfl)
  | some script =>
    simp only [hscript] at h
    split_ifs at h with he
    · cases h
      exact hsame (by rw [hscript]; exact he)
    · unfold renderRuleScript at h
      obtain ⟨rules, hrules, h⟩ := bind_ok h
      obtain ⟨-, -, h⟩ := bind_ok h
      cases h
      have hro := hs.routeOrEmpty
      refine ⟨fun hk hh => hh.set hk _, .setRoute hs.obj (hro.set _ _), fun k hk => ?_, ?_⟩
      · rw [routeKey_setRoute hs.obj, hro.get_set_ne hk, routeOrEmpty_get]
      · rw [ScriptRules, hscript, Option.getD_some, if_neg he, routeKey_setRoute hs.obj,
          hro.get_set]
        exact hrules

omit [Platform] in
lemma finish_has {k : Bytes}
    {v : Option Sbj} (h : Has config k v) (hr : k ≠ lit "route") (he : k ≠ lit "experimental") :
    Has (finish renderer request config) k v :=
  has_disableClashDashboard (has_injectClashApi (has_insertProtected h hr _ _) he _) he

omit [Platform] in
lemma finish_route (hs : Shape config) (k : Bytes) : routeKey (finish renderer request config) k =
      routeKey (insertProtected renderer request config) k := by
  have hobj : (insertProtected renderer request config).IsObj :=
    (has_insertProtected ⟨hs.obj, rfl⟩ (show lit "outbounds" ≠ lit "route" by decide) _ _).obj
  unfold routeKey finish
  rw [(has_disableClashDashboard (has_injectClashApi ⟨hobj, rfl⟩ (by decide) _) (by decide)).get]

lemma render_ok {final : Sbj} (h : render renderer request = .ok final) :
    ∃ config hasProxy scripted governed, renderOutbounds request = .ok (config, hasProxy) ∧
      runScript renderer request config = .ok scripted ∧
      geoPolicy hasProxy scripted = .ok governed ∧ final = finish renderer request governed := by
  unfold render at h
  obtain ⟨⟨config, hasProxy⟩, h0, h⟩ := bind_ok h
  obtain ⟨scripted, h1, h⟩ := bind_ok h
  obtain ⟨governed, h2, h⟩ := bind_ok h
  cases h
  exact ⟨config, hasProxy, scripted, governed, h0, h1, h2, rfl⟩

end SbEasy.Render
