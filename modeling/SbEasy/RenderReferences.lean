import SbEasy.RenderGroups

/-!
Every outbound tag that the renderer writes into a managed configuration is the tag of an
outbound of that configuration.
-/

namespace SbEasy.Render

open Sbj (IsObj Has)

/-- A value is the tag of an outbound. -/
def Named (outbounds : List Sbj) (v : Sbj) : Prop := ∃ o ∈ outbounds, tagOf o = some v

def IsGroup (o : Sbj) : Prop :=
  typeOf o = some (.str (lit "urltest")) ∨ typeOf o = some (.str (lit "selector"))

/-- The tags in a configuration that the renderer wrote. -/
structure References [Platform] (renderer : Renderer) (request : RenderRequest) (final : Sbj)
    (outbounds : List Sbj) : Prop where
  /-- Members and defaults of the groups. -/
  members : ∀ o ∈ outbounds, IsGroup o →
    ∀ m ∈ Sbj.items (Sbj.get (some o) (lit "outbounds")), Named outbounds m
  default : ∀ o ∈ outbounds, IsGroup o →
    ∀ d, Sbj.get (some o) (lit "default") = some d → Named outbounds d
  /-- The selector is the only outbound with its tag. -/
  selector : ∀ o ∈ outbounds, typeOf o = some (.str (lit "selector")) →
    ∃ before behind, outbounds = before ++ o :: behind ∧
      ∀ o' ∈ before ++ behind, tagOf o' ≠ tagOf o
  /-- The default route. -/
  last : ∀ s, routeKey request.profile (lit "final") = some (.str s) →
    ∃ s', routeKey final (lit "final") = some (.str s') ∧ (s' = s ∨ Named outbounds (.str s')) ∧
      ((∀ node ∈ request.nodes, node.enabled = false) → s' = lit "direct")
  lastOther : (∀ s, routeKey request.profile (lit "final") ≠ some (.str s)) →
    routeKey final (lit "final") = routeKey request.profile (lit "final")
  /-- The detours of the DNS servers. -/
  detours : List.Forall₂ (fun server server' => server' = server ∨ ∃ t,
      server' = server.set (lit "detour") (.str t) ∧ Named outbounds (.str t) ∧
      ((∀ node ∈ request.nodes, node.enabled = false) → t = lit "direct"))
    (Sbj.items (Sbj.get (Sbj.get (some request.profile) (lit "dns")) (lit "servers")))
    (Sbj.items (Sbj.get (Sbj.get (some final) (lit "dns")) (lit "servers")))
  /-- The rule sets behind those of the profile. -/
  sets : ∃ added, Sbj.items (routeKey final (lit "rule_set")) =
      Sbj.items (routeKey request.profile (lit "rule_set")) ++ added ∧
    ∀ a ∈ added, ∃ t, Sbj.get (some a) (lit "download_detour") = some t ∧ Named outbounds t
  /-- The control-plane rule and the managed defaults around the priority rules and those of the
  script or the profile. -/
  rules : ∃ config hasProxy control middle added, renderOutbounds request = .ok (config, hasProxy) ∧
    routeKey config (lit "rules") = routeKey request.profile (lit "rules") ∧
    ScriptRules renderer request config middle ∧
    ControlRules renderer request.controlPlaneServer control ∧
    Sbj.items (routeKey final (lit "rules")) =
      control ++ request.priorityRouteRules ++ (middle ++ added) ∧
    (∀ rule ∈ added, IsDefault rule) ∧
    ∀ rule ∈ control ++ added,
      ∃ t, Sbj.get (some rule) (lit "outbound") = some t ∧ Named outbounds t

/-! ### The tags there are -/

lemma transports_tagged (request : RenderRequest) :
    Tagged (transports request) (request.networkOutbounds.map Transport.tag) := by
  unfold transports
  induction request.networkOutbounds with
  | nil => rfl
  | cons t ts ih => exact Tagged.append (.one (direct_tag _)) ih

lemma selectorTag_head (obs : List Sbj) : (selectorTag obs).head? = some 0x50 := by
  obtain ⟨n, -, he, -⟩ := FreshName.search_eq (outboundsHaveTag obs)
    (fun t : Bytes => t ++ lit " group") obs.length (lit "Proxy")
  rw [selectorTag, he]
  clear he
  induction n with
  | zero => rfl
  | succ n ih =>
    rw [Function.iterate_succ_apply', List.head?_append, ih]
    rfl

lemma selectorTag_not_transport (obs : List Sbj) (transport : Transport) :
    transport.tag ≠ selectorTag obs := by
  intro h
  obtain ⟨rest, hrest⟩ := transport.named
  have hhead := congrArg List.head? h
  have hfirst : (lit "sb-easy-tailscale-direct").head? = some 0x73 := rfl
  rw [selectorTag_head, ← hrest, List.head?_append, hfirst, Option.some_or] at hhead
  exact absurd hhead (by decide)

lemma controlPlane_outbound {renderer : Renderer} {server : Bytes} {rule : Sbj}
    (h : controlPlaneRoute renderer server = some rule) :
    Sbj.get (some rule) (lit "outbound") = some (.str (lit "direct")) := by
  have hdirect : ∀ key value, Sbj.get (some (directRule key value)) (lit "outbound") =
      some (.str (lit "direct")) := fun _ _ => (Has.set_self (Sbj.isObj_nil.set _ _) _ _).get
  unfold controlPlaneRoute at h
  simp only at h
  split_ifs at h <;> cases h <;> exact hdirect _ _

lemma managedFinal_cases (hasAuto : Bool) (sel : Option Bytes) (s : Bytes) :
    managedFinal hasAuto sel s = s ∨ hasAuto = false ∧ managedFinal hasAuto sel s = lit "direct" ∨
      hasAuto = true ∧ managedFinal hasAuto sel s = sel.getD (lit "auto") := by
  unfold managedFinal
  cases hasAuto with
  | false => exact Or.inr (Or.inl ⟨rfl, rfl⟩)
  | true =>
    cases sel with
    | none =>
      simp only [Bool.not_true, Bool.false_eq_true, if_false]
      split_ifs
      · exact Or.inr (Or.inr ⟨trivial, rfl⟩)
      · exact Or.inl rfl
    | some tag =>
      simp only [Bool.not_true, Bool.false_eq_true, if_false]
      split_ifs
      · exact Or.inr (Or.inr ⟨trivial, rfl⟩)
      · exact Or.inl rfl

lemma normalizeServer_cases (target : Bytes) (server : Sbj) :
    normalizeServer target server = server ∨
      normalizeServer target server = server.set (lit "detour") (.str target) := by
  unfold normalizeServer
  simp only
  split_ifs
  · exact Or.inl rfl
  · exact Or.inr rfl
  · exact Or.inl rfl

lemma urltest_default (tags : List Bytes) : Sbj.get (some (urltest tags)) (lit "default") = none :=
  ((((((Has.nil _).set (by decide) _).set (by decide) _).set (by decide) _).set
    (by decide) _).set (by decide) _ |>.set (by decide) _).get

lemma selector_members (tag : Bytes) (obs : List Sbj) :
    Sbj.get (some (selector tag obs)) (lit "outbounds") =
      some (.arr (.str (lit "auto") :: selectable obs)) :=
  ((Has.set_self ((Sbj.isObj_nil.set _ _).set _ _) _ _).set (by decide) _).get

lemma selector_default (tag : Bytes) (obs : List Sbj) :
    Sbj.get (some (selector tag obs)) (lit "default") = some (.str (lit "auto")) :=
  (Has.set_self (((Sbj.isObj_nil.set _ _).set _ _).set _ _) _ _).get

lemma mem_selectable {obs : List Sbj} {m : Sbj} (h : m ∈ selectable obs) : Named obs m := by
  obtain ⟨o, ho, hm⟩ := List.mem_filterMap.mp h
  refine ⟨o, ho, ?_⟩
  unfold tagOf
  split at hm
  · rename_i t ht
    split_ifs at hm
    cases hm
    exact ht
  · cases hm

variable [Platform]

section

variable {renderer : Renderer} {request : RenderRequest} {final : Sbj} {entries : List Sbj}
  {sel : Option Bytes} {hasProxy : Bool}

/-- All outbounds of the configuration. -/
def allOutbounds (request : RenderRequest) (entries : List Sbj) (sel : Option Bytes) : List Sbj :=
  withSelector (generated request entries) sel ++ transports request

variable (run : ManagedRun renderer request final entries sel hasProxy)

include run

lemma ManagedRun.allTagged :
    Tagged (allOutbounds request entries sel)
      (directTags (urltestTags (nodeTags request.nodes)) ++ sel.toList ++
        request.networkOutbounds.map Transport.tag) :=
  run.tagged.append (transports_tagged request)

lemma ManagedRun.namedDirect :
    Named (allOutbounds request entries sel) (.str (lit "direct")) :=
  run.allTagged.mem.mpr (List.mem_append_left _ (List.mem_append_left _ (direct_mem _)))

lemma ManagedRun.namedAuto
    (hp : hasProxy = true) : Named (allOutbounds request entries sel) (.str (lit "auto")) := by
  rw [run.proxy, Bool.not_eq_true'] at hp
  exact run.allTagged.mem.mpr
    (List.mem_append_left _ (List.mem_append_left _ (mem_directTags (auto_mem hp))))

lemma ManagedRun.namedGroup
    (hp : hasProxy = true) :
    Named (allOutbounds request entries sel) (.str (sel.getD (lit "auto"))) := by
  cases sel with
  | none => exact run.namedAuto hp
  | some tag =>
    refine run.allTagged.mem.mpr (List.mem_append_left _ (List.mem_append_right _ ?_))
    simp

lemma ManagedRun.noNode
    (h : ∀ node ∈ request.nodes, node.enabled = false) : hasProxy = false := by
  rw [run.proxy, Bool.not_eq_false']
  by_contra hne
  rw [Bool.not_eq_true] at hne
  obtain ⟨node, hn, he⟩ := nodeTags_isEmpty.mp hne
  rw [h node hn] at he
  cases he

lemma ManagedRun.group {o : Sbj}
    (ho : o ∈ allOutbounds request entries sel) (hg : IsGroup o) :
    o = urltest (nodeTags request.nodes) ∨
      ∃ tag, sel = some tag ∧ o = selector tag (generated request entries) := by
  have hnot : ∀ t, typeOf o = some (.str t) → t ∈ lit "direct" :: proxyTypes → False := by
    intro t ht hmem
    have hfree : lit "urltest" ∉ lit "direct" :: proxyTypes ∧
        lit "selector" ∉ lit "direct" :: proxyTypes := by decide
    rcases hg with hg | hg
    · rw [ht] at hg
      exact hfree.1 (str_inj hg ▸ hmem)
    · rw [ht] at hg
      exact hfree.2 (str_inj hg ▸ hmem)
  rcases List.mem_append.mp ho with ho | ho
  · rcases mem_outbounds ho with ho | ho | rfl | ho
    · obtain ⟨p, -, he⟩ := node_of_entry run.nodes ho
      refine absurd ?_ (hnot _ he.type)
      unfold outboundType
      split_ifs with hp
      · exact List.mem_cons_of_mem _ hp
      · exact List.mem_cons_self
    · exact Or.inl ho
    · exact absurd List.mem_cons_self (hnot _ (direct_type _))
    · exact Or.inr ho
  · obtain ⟨t, -, rfl⟩ := List.mem_map.mp ho
    exact absurd List.mem_cons_self (hnot _ (direct_type _))

lemma ManagedRun.references :
    References renderer request final (allOutbounds request entries sel) := by
  have hsel : ∀ tag, sel = some tag → hasProxy = true ∧
      tag = selectorTag (generated request entries) := by
    intro tag htag
    rcases run.offered with hn | ⟨hp, hs⟩
    · rw [hn] at htag
      cases htag
    · rw [hs] at htag
      cases htag
      exact ⟨hp, rfl⟩
  refine ⟨?_, ?_, ?_, ?_, ?_, ?_, ?_, ?_⟩
  · intro o ho hg m hm
    rcases run.group ho hg with rfl | ⟨tag, htag, rfl⟩
    · rw [urltest_members] at hm
      obtain ⟨t, ht, rfl⟩ := List.mem_map.mp hm
      exact run.allTagged.mem.mpr (List.mem_append_left _
        (List.mem_append_left _ (mem_directTags (mem_urltestTags ht))))
    · rw [selector_members] at hm
      rcases List.mem_cons.mp hm with rfl | hm
      · exact run.namedAuto (hsel tag htag).1
      · obtain ⟨o', ho', htag'⟩ := mem_selectable hm
        refine ⟨o', List.mem_append_left _ ?_, htag'⟩
        rw [htag]
        exact List.mem_append_left _ ho'
  · intro o ho hg d hd
    rcases run.group ho hg with rfl | ⟨tag, htag, rfl⟩
    · rw [urltest_default] at hd
      cases hd
    · rw [selector_default] at hd
      cases hd
      exact run.namedAuto (hsel tag htag).1
  · intro o ho ht
    rcases run.group ho (Or.inr ht) with rfl | ⟨tag, htag, rfl⟩
    · rw [urltest_type] at ht
      exact absurd (str_inj ht) (by decide)
    · obtain ⟨-, rfl⟩ := hsel tag htag
      refine ⟨generated request entries, transports request, ?_, fun o' ho' he => ?_⟩
      · rw [allOutbounds, htag, withSelector, List.append_assoc]
        rfl
      · rw [selector_tag] at he
        rcases List.mem_append.mp ho' with ho' | ho'
        · have hgen := generated_tagged run.nodes
          exact selectorTag_free hgen (hgen.mem.mp ⟨o', ho', he⟩)
        · obtain ⟨t, ht', rfl⟩ := List.mem_map.mp ho'
          rw [direct_tag] at he
          exact selectorTag_not_transport _ t (str_inj he)
  · intro s hs
    refine ⟨managedFinal hasProxy sel s, by rw [run.last, hs]; rfl, ?_, ?_⟩
    · rcases managedFinal_cases hasProxy sel s with he | ⟨-, he⟩ | ⟨hp, he⟩
      · exact Or.inl he
      · exact Or.inr (he ▸ run.namedDirect)
      · exact Or.inr (he ▸ run.namedGroup hp)
    · intro hnone
      rw [run.noNode hnone]
      rfl
  · intro hne
    rw [run.last]
    cases hf : routeKey request.profile (lit "final") with
    | none => rfl
    | some v =>
      cases v with
      | str s => exact absurd hf (hne s)
      | _ => rfl
  · rw [run.servers]
    refine List.forall₂_map_right_iff.mpr (List.forall₂_same.mpr fun server _ => ?_)
    rcases normalizeServer_cases (detourTarget hasProxy sel) server with he | he
    · exact Or.inl he
    · refine Or.inr ⟨_, he, ?_, fun hnone => by rw [run.noNode hnone]; rfl⟩
      cases hp : hasProxy with
      | false => exact run.namedDirect
      | true => exact run.namedGroup hp
  · obtain ⟨added, heq, hadd⟩ := run.sets
    exact ⟨added, heq, fun a ha => ⟨_, (hadd a ha).detour, run.namedDirect⟩⟩
  · obtain ⟨config, middle, added, hrun, hprofile, hmiddle, heq, hsub⟩ := run.rules
    have hdefault : ∀ rule ∈ added, IsDefault rule := fun rule hr => isDefault_of_mem (hsub.subset hr)
    refine ⟨config, hasProxy, _, middle, added, hrun, hprofile, hmiddle, controlRules _ _, heq,
      hdefault, fun rule hrule => ⟨_, ?_, run.namedDirect⟩⟩
    rcases List.mem_append.mp hrule with hr | hr
    · exact controlPlane_outbound (Option.mem_toList.mp hr)
    · exact (hdefault rule hr).1

end

/-- **References of a managed configuration**: the outbounds of a rendered configuration have
every tag that the renderer wrote, the selector's tag only once. -/
theorem written_tags_exist {renderer : Renderer} {request : RenderRequest} {final : Sbj}
    (hm : request.mode = .managed) (h : render renderer request = .ok final) :
    ∃ outbounds, Sbj.get (some final) (lit "outbounds") = some (.arr outbounds) ∧
      References renderer request final outbounds := by
  obtain ⟨entries, sel, hasProxy, run⟩ := managed_run hm h
  exact ⟨_, run.outbounds, run.references⟩

end SbEasy.Render

namespace SbEasy.Render

/-- An Android host whose nodes are called like the candidates for the selector. -/
def selectingRequest : RenderRequest where
  mode := .managed
  profile := .obj [
    (lit "dns", .obj [(lit "servers", .arr [.obj [(lit "detour", .str (lit "Proxy"))]])]),
    (lit "route", .obj [(lit "final", .str (lit "Proxy"))])]
  nodes := [shadowsocksNode (lit "Proxy"), shadowsocksNode (lit "Proxy group")]
  hostContext := .obj [(lit "capabilities", .obj [(lit "platform", .str (lit "android"))])]
  externalRouteTags := []
  priorityRouteRules := []
  networkOutbounds := [tailscaleTransport (bareRequest [])]
  controlPlaneServer := lit "https://center"
  ruleScript := none
  clashController := []
  clashSecret := []
  ordered := by
    simp only [Sbj.Ordered, Sbj.OrderedMembers, Sbj.OrderedItems, and_true]
    decide

theorem written_tags_exist_selecting : ∃ final,
    @render .sample plainRenderer selectingRequest = .ok final ∧
    ∃ outbounds, Sbj.get (some final) (lit "outbounds") = some (.arr outbounds) ∧
      @References .sample plainRenderer selectingRequest final outbounds := by
  have hok : (@render .sample plainRenderer selectingRequest).toOption.isSome = true := by
    decide +kernel
  cases h : @render .sample plainRenderer selectingRequest with
  | error e => rw [h] at hok; cases hok
  | ok final =>
    exact ⟨final, rfl, @written_tags_exist .sample _ _ _ rfl h⟩

end SbEasy.Render
