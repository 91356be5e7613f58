import SbEasy.RenderRun

/-!
The outbounds of a managed configuration: which of them there are, when their tags are
distinct, and that every tag the renderer writes is the tag of one of them.
-/

namespace SbEasy.Render

open Sbj (IsObj Has)

/-! ### A managed run -/

section

variable {dns : List (Bytes × Sbj)} {config : Sbj}

lemma servers_normalizeDns (h : config.IsObj)
    (hd : ∀ m, Sbj.get (some config) (lit "dns") = some (.obj m) → SortedAssoc.Sorted m)
    (hasAuto : Bool) (sel : Option Bytes) :
    Sbj.items (Sbj.get (Sbj.get (some (normalizeManagedDnsDetours config hasAuto sel)) (lit "dns"))
        (lit "servers")) =
      (Sbj.items (Sbj.get (Sbj.get (some config) (lit "dns")) (lit "servers"))).map
        (normalizeServer (detourTarget hasAuto sel)) := by
  unfold normalizeManagedDnsDetours
  split
  · rename_i m hm
    have hobj : (Sbj.obj m).IsObj := ⟨m, rfl, hd m hm⟩
    split
    · rename_i hs
      rw [h.get_set, hobj.get_set, hm, hs]
      rfl
    · rename_i servers hs
      rw [h.get_set, hobj.get_set, hm, hs]
      rfl
    · rename_i v hne hs
      rw [hm, hs]
      cases v with
      | arr l => exact absurd rfl (hne l)
      | _ => rfl
  · rename_i hne
    have hnone : Sbj.get (Sbj.get (some config) (lit "dns")) (lit "servers") = none := by
      cases hd' : Sbj.get (some config) (lit "dns") with
      | none => exact SortedAssoc.get_nil _
      | some w => exact get_of_not_obj (fun m he => hne m (by rw [hd', he])) _
    rw [hnone]
    rfl

end

variable [Platform]

/-- What a managed run leaves in its configuration. -/
structure ManagedRun (renderer : Renderer) (request : RenderRequest) (final : Sbj)
    (entries : List Sbj) (sel : Option Bytes) (hasProxy : Bool) : Prop where
  nodes : List.Forall₂ EntryOf (taggedNodes request.nodes []) entries
  proxy : hasProxy = !(nodeTags request.nodes).isEmpty
  offered : sel = none ∨ hasProxy = true ∧ sel = some (selectorTag (generated request entries))
  outbounds : Sbj.get (some final) (lit "outbounds") =
    some (.arr (withSelector (generated request entries) sel ++ transports request))
  last : routeKey final (lit "final") =
    (routeKey request.profile (lit "final")).map (finalValue hasProxy sel)
  servers : Sbj.items (Sbj.get (Sbj.get (some final) (lit "dns")) (lit "servers")) =
    (Sbj.items (Sbj.get (Sbj.get (some request.profile) (lit "dns")) (lit "servers"))).map
      (normalizeServer (detourTarget hasProxy sel))
  sets : ∃ added, Sbj.items (routeKey final (lit "rule_set")) =
      Sbj.items (routeKey request.profile (lit "rule_set")) ++ added ∧ ∀ a ∈ added, AddedRuleSet a
  rules : ∃ config middle added, renderOutbounds request = .ok (config, hasProxy) ∧
    routeKey config (lit "rules") = routeKey request.profile (lit "rules") ∧
    ScriptRules renderer request config middle ∧ Sbj.items (routeKey final (lit "rules")) =
      protectedRules renderer request ++ (middle ++ added) ∧ added.Sublist managedDefaults

variable {request : RenderRequest} {entries : List Sbj}

lemma managed_run {renderer : Renderer} {final : Sbj}
    (hm : request.mode = .managed) (h : render renderer request = .ok final) :
    ∃ entries sel hasProxy, ManagedRun renderer request final entries sel hasProxy := by
  obtain ⟨config, hasProxy, scripted, governed, h0, h1, h2, rfl⟩ := render_ok h
  have hrun := h0
  unfold renderOutbounds at h0
  simp only [hm] at h0
  obtain ⟨hprofile, h0⟩ : Sbj.isObject (some request.profile) = true ∧
      (renderManaged request request.profile >>= fun p => appendTransports request p.1 >>= fun c =>
        (pure (c, p.2) : Except Err (Sbj × Bool))) = .ok (config, hasProxy) := by
    cases ho : Sbj.isObject (some request.profile) with
    | false => rw [ho] at h0; cases h0
    | true => rw [ho] at h0; exact ⟨rfl, h0⟩
  obtain ⟨⟨managed, p⟩, hmanaged, h0⟩ := bind_ok h0
  obtain ⟨appended, happend, h0⟩ := bind_ok h0
  cases h0
  obtain ⟨entries, sel, step⟩ := managed_ok hmanaged
  have hs := shape_profile hprofile
  have hs1 := step.shape hs
  obtain ⟨hs2, hkey2, hframe2, hout2⟩ := append_ok hs1 (step.outbounds hs).get happend
  have step3 := script_ok hs2 h1
  have step4 := policy_ok step3.shape h2
  have hs4 := step4.shape
  have hthrough : ∀ {k v}, k ≠ lit "route" → k ≠ lit "experimental" → Has config k v →
      Has (finish renderer request governed) k v :=
    fun hr he hh => finish_has (step4.frame hr he (step3.frame hr hh)) hr he
  have hroute : ∀ k, k ≠ lit "rules" → k ≠ lit "rule_set" →
      routeKey (finish renderer request governed) k = routeKey config k := by
    intro k hk hk'
    rw [finish_route hs4, routeKey_insertProtected hs4 hk, step4.key k hk hk', step3.key k hk]
  refine ⟨entries, sel, p, step.nodes, step.proxy, step.offered, ?_, ?_, ?_, ?_, ?_⟩
  · exact (hthrough (k := lit "outbounds") (by decide) (by decide) ⟨hs2.obj, hout2⟩).get
  · rw [hroute _ (by decide) (by decide), hkey2, step.final hs]
  · have hdns := hthrough (k := lit "dns") (by decide) (by decide)
      (hframe2 (by decide) (⟨hs1.obj, rfl⟩ : Has managed (lit "dns") _))
    have hset := hs.setOther (k := lit "outbounds") (by decide)
      (.arr (withSelector (generated request entries) sel))
    have hmid := has_rewriteFinal (⟨(shape_normalizeDns hset p sel).obj, rfl⟩ :
      Has _ (lit "dns") _) (by decide) p sel
    rw [hdns.get, step.edit, hmid.get, servers_normalizeDns hset.obj]
    · rw [hs.obj.get_set_ne (by decide)]
    · intro m hm'
      rw [hs.obj.get_set_ne (by decide)] at hm'
      exact (request.ordered.get hm').1
  · obtain ⟨as, has, hadd⟩ := step4.sets
    refine ⟨as, ?_, hadd⟩
    rw [finish_route hs4, routeKey_insertProtected hs4 (by decide), has,
      step3.key _ (by decide), hkey2, step.key hs (by decide)]
  · obtain ⟨ar, har, hsub⟩ := step4.rules
    refine ⟨config, Sbj.items (routeKey scripted (lit "rules")), ar, hrun, ?_, step3.rules, ?_, hsub⟩
    · rw [hkey2, step.key hs (by decide)]
    · rw [finish_route hs4, rules_insertProtected hs4, har]

section

variable {request : RenderRequest} {entries : List Sbj} {sel : Option Bytes}

variable {tags : List Bytes}

omit [Platform] in
lemma mem_withUrltest {o : Sbj} (h : o ∈ withUrltest entries tags) :
    o ∈ entries ∨ o = urltest tags := by
  unfold withUrltest at h
  split_ifs at h
  · exact Or.inl h
  · simpa using h

omit [Platform] in
lemma mem_withDirect {o : Sbj} {obs : List Sbj} (h : o ∈ withDirect obs) :
    o ∈ obs ∨ o = directOutbound (lit "direct") := by
  unfold withDirect at h
  split_ifs at h
  · exact Or.inl h
  · simpa using h

omit [Platform] in
lemma mem_outbounds {o : Sbj} (h : o ∈ withSelector (generated request entries) sel) :
    o ∈ entries ∨ o = urltest (nodeTags request.nodes) ∨ o = directOutbound (lit "direct") ∨
      ∃ tag, sel = some tag ∧ o = selector tag (generated request entries) := by
  have hgen : ∀ {o}, o ∈ generated request entries → o ∈ entries ∨
      o = urltest (nodeTags request.nodes) ∨ o = directOutbound (lit "direct") := by
    intro o ho
    rcases mem_withDirect ho with ho | ho
    · rcases mem_withUrltest ho with ho | ho
      · exact Or.inl ho
      · exact Or.inr (Or.inl ho)
    · exact Or.inr (Or.inr ho)
  cases sel with
  | none =>
    rcases hgen h with ho | ho | ho
    · exact Or.inl ho
    · exact Or.inr (Or.inl ho)
    · exact Or.inr (Or.inr (Or.inl ho))
  | some tag =>
    rcases List.mem_append.mp h with h | h
    · rcases hgen h with ho | ho | ho
      · exact Or.inl ho
      · exact Or.inr (Or.inl ho)
      · exact Or.inr (Or.inr (Or.inl ho))
    · exact Or.inr (Or.inr (Or.inr ⟨tag, rfl, by simpa using h⟩))

lemma generated_tagged (h : List.Forall₂ EntryOf (taggedNodes request.nodes []) entries) :
    Tagged (generated request entries) (directTags (urltestTags (nodeTags request.nodes))) :=
  (tagged_entries h).withUrltest.withDirect

omit [Platform] in
lemma direct_mem (tags : List Bytes) : lit "direct" ∈ directTags tags := by
  unfold directTags
  split_ifs with h
  · exact h
  · simp

omit [Platform] in
lemma mem_directTags {t : Bytes} (h : t ∈ tags) : t ∈ directTags tags := by
  unfold directTags
  split_ifs
  · exact h
  · simp [h]

omit [Platform] in
lemma mem_urltestTags {t : Bytes} (h : t ∈ tags) : t ∈ urltestTags tags := by
  unfold urltestTags
  split_ifs
  · exact h
  · simp [h]

omit [Platform] in
lemma auto_mem (h : tags.isEmpty = false) : lit "auto" ∈ urltestTags tags := by
  unfold urltestTags
  rw [if_neg (by simpa using h)]
  simp

end

/-! ### Distinct tags -/

omit [Platform] in
lemma nodeTags_isEmpty {nodes : List ProxyNode} :
    (nodeTags nodes).isEmpty = false ↔ ∃ node ∈ nodes, node.enabled = true := by
  have hlen : (nodeTags nodes).length = (nodes.filter fun node => node.enabled).length := by
    rw [← taggedNodes_fst nodes [], nodeTags, List.length_map, List.length_map]
  have : (nodeTags nodes).isEmpty = (nodes.filter fun node => node.enabled).isEmpty := by
    rw [Bool.eq_iff_iff, List.isEmpty_iff_length_eq_zero, List.isEmpty_iff_length_eq_zero, hlen]
  rw [this]
  simp [List.filter_eq_nil_iff]

lemma ManagedRun.tagged {renderer : Renderer} {final : Sbj} {sel : Option Bytes} {hasProxy : Bool}
    (h : ManagedRun renderer request final entries sel hasProxy) :
    Tagged (withSelector (generated request entries) sel)
      (directTags (urltestTags (nodeTags request.nodes)) ++ sel.toList) :=
  (generated_tagged h.nodes).withSelector sel

lemma node_of_entry {ps : List (ProxyNode × Bytes)}
    (h : List.Forall₂ EntryOf ps entries) {o : Sbj} (ho : o ∈ entries) : ∃ p ∈ ps, EntryOf p o := by
  induction h with
  | nil => cases ho
  | cons he _ ih =>
    rcases List.mem_cons.mp ho with rfl | ho
    · exact ⟨_, List.mem_cons_self, he⟩
    · obtain ⟨p, hp, heo⟩ := ih ho
      exact ⟨p, List.mem_cons_of_mem _ hp, heo⟩

omit [Platform] in
lemma str_inj {a b : Bytes} (h : some (Sbj.str a) = some (Sbj.str b)) : a = b := by
  cases h
  rfl

section

variable {renderer : Renderer} {request : RenderRequest} {final : Sbj} {entries : List Sbj}
  {sel : Option Bytes} {hasProxy : Bool}

end

end SbEasy.Render

namespace SbEasy.Render

/-- A renderer without scripts, and a request with these nodes and an empty profile. -/
def plainRenderer : Renderer where
  evaluate _ _ := .error ⟨.script, "QuickJS execution failed"⟩
  inet4 _ := false
  inet6 _ := false

def bareRequest (nodes : List ProxyNode) : RenderRequest where
  mode := .managed
  profile := .obj []
  nodes := nodes
  hostContext := .obj []
  externalRouteTags := []
  priorityRouteRules := []
  networkOutbounds := []
  controlPlaneServer := lit "https://center"
  ruleScript := none
  clashController := []
  clashSecret := []
  ordered := Sbj.ordered_nil

def shadowsocksNode (tag : Bytes) : ProxyNode :=
  ⟨tag, lit "shadowsocks", true, lit "192.0.2.1", 8388, .obj []⟩

end SbEasy.Render
