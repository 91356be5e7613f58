import SbEasy.RenderReferences

/-!
What a rule script can do to a configuration: it chooses the rules between the protected
ones and the managed defaults, and nothing else.

Two runs that differ in the script's result are followed side by side. After every pass
their configurations differ in `route.rules` alone.
-/

namespace SbEasy.Render

open Sbj (IsObj Has)

/-- A rule names an outbound, itself or in a rule nested in it. -/
inductive Names : Sbj → Bytes → Prop
  | here {rule : Sbj} {t : Bytes} :
      Sbj.get (some rule) (lit "outbound") = some (.str t) → Names rule t
  | nested {rule inner : Sbj} {rules : List Sbj} {t : Bytes} :
      Sbj.get (some rule) (lit "rules") = some (.arr rules) → inner ∈ rules → Names inner t →
      Names rule t

variable {allowed rule : Sbj} {m : List (Bytes × Sbj)} {t : Bytes}

lemma validateRuleTags_mem {rules : List Sbj}
    (h : validateRuleTags allowed rules = .ok ()) (hr : rule ∈ rules) :
    validateRule allowed rule = .ok () := by
  induction rules with
  | nil => cases hr
  | cons r rules ih =>
    rw [validateRuleTags] at h
    obtain ⟨⟨⟩, hfirst, hrest⟩ := bind_ok h
    rcases List.mem_cons.mp hr with rfl | hr
    · exact hfirst
    · exact ih hrest hr

lemma validateNested_mem {allowed v : Sbj} (hs : SortedAssoc.Sorted m)
    (h : validateNested allowed m = .ok ()) (hv : (lit "rules", v) ∈ m) :
    validateArray allowed v = .ok () := by
  induction m with
  | nil => cases hv
  | cons p m ih =>
    obtain ⟨k, w⟩ := p
    obtain ⟨hlt, hs'⟩ := List.pairwise_cons.mp hs
    rw [validateNested] at h
    split_ifs at h with hk
    · rcases List.mem_cons.mp hv with he | hv
      · cases he
        exact h
      · -- The key occurs once, as the keys are in order.
        have := hlt _ hv
        rw [hk] at this
        simp at this
    · rcases List.mem_cons.mp hv with he | hv
      · cases he
        exact absurd rfl hk
      · exact ih hs' h hv

lemma validateRule_nested
    (h : validateRule allowed (.obj m) = .ok ()) : validateNested allowed m = .ok () := by
  rw [validateRule] at h
  split at h
  · split_ifs at h
    · cases h
    · exact h
  · exact h

lemma validateRule_names (hn : Names rule t) :
    rule.Ordered → validateRule allowed rule = .ok () → tagAllowed allowed t = true := by
  induction hn with
  | @here rule t hget =>
    intro _ h
    cases rule with
    | obj m =>
      rw [validateRule, hget] at h
      by_contra hne
      rw [Bool.not_eq_true] at hne
      simp only [hne, Bool.not_false, if_true] at h
      cases h
    | _ => simp [Sbj.get, Sbj.members] at hget
  | @nested rule inner rules t hget hmem _ ih =>
    intro hord h
    cases rule with
    | obj m =>
      have hin := (SortedAssoc.get_eq_some_iff hord.1).mp hget
      have harr := validateNested_mem hord.1 (validateRule_nested h) hin
      exact ih ((hord.get hget).items hmem) (validateRuleTags_mem harr hmem)
    | _ => simp [Sbj.get, Sbj.members] at hget

lemma tagAllowed_foldl {tags : List Bytes} {o : Sbj} (ho : o.IsObj) (t : Bytes) :
    tagAllowed (tags.foldl (fun allowed t => allowed.set t (.bool true)) o) t = true ↔
      t ∈ tags ∨ tagAllowed o t = true := by
  induction tags generalizing o with
  | nil => simp
  | cons t' tags ih =>
    rw [List.foldl_cons, ih (ho.set _ _), List.mem_cons, or_assoc]
    unfold tagAllowed
    by_cases he : t = t'
    · subst he
      simp [ho.get_set]
    · simp [ho.get_set_ne he, he]

lemma mem_stringTags {values : List (Option Sbj)} :
    t ∈ stringTags values ↔ some (Sbj.str t) ∈ values := by
  rw [stringTags, List.mem_filterMap]
  constructor
  · rintro ⟨v, hv, he⟩
    split at he
    · cases he
      exact hv
    · cases he
  · intro h
    exact ⟨_, h, rfl⟩

/-- The tags a script may use: four fixed ones, those of the outbounds and those the request
adds. -/
def MayUse (request : RenderRequest) (outbounds : List Sbj) (t : Bytes) : Prop :=
  t ∈ [lit "direct", lit "block", lit "dns", lit "reject"] ∨
    Named outbounds (.str t) ∨ .str t ∈ request.externalRouteTags

lemma tagAllowed_iff {request : RenderRequest} {config : Sbj} :
    tagAllowed (allowedTags request config) t = true ↔
      MayUse request (Sbj.items (Sbj.get (some config) (lit "outbounds"))) t := by
  rw [allowedTags, tagAllowed_foldl Sbj.isObj_nil, List.mem_append, List.mem_append,
    mem_stringTags, mem_stringTags, List.mem_map, List.mem_map]
  simp [MayUse, Named, tagOf, tagAllowed, or_assoc]

/-! ### Two runs side by side -/

/-- A machine with another script engine. -/
def withEngine (renderer : Renderer) (evaluate : Bytes → Bytes → Except Err Bytes) : Renderer :=
  { renderer with evaluate := evaluate }

/-- Configurations that differ in `route.rules` at most. -/
structure SameBut (c c' : Sbj) : Prop where
  left : Shape c
  right : Shape c'
  other : ∀ k, k ≠ lit "route" → Sbj.get (some c) k = Sbj.get (some c') k
  key : ∀ k, k ≠ lit "rules" → routeKey c k = routeKey c' k

namespace SameBut

variable {c c' : Sbj}

lemma setOther (h : SameBut c c') {k : Bytes} (hk : k ≠ lit "route") (v : Sbj) :
    SameBut (c.set k v) (c'.set k v) := by
  refine ⟨h.left.setOther hk v, h.right.setOther hk v, fun k' hk' => ?_, fun k' hk' => ?_⟩
  · by_cases he : k' = k
    · subst he
      rw [h.left.obj.get_set, h.right.obj.get_set]
    · rw [h.left.obj.get_set_ne he, h.right.obj.get_set_ne he, h.other k' hk']
  · rw [routeKey_setOther h.left.obj hk, routeKey_setOther h.right.obj hk, h.key k' hk']

lemma setRoute (h : SameBut c c') {r r' : Sbj} (hr : r.IsObj) (hr' : r'.IsObj)
    (hkey : ∀ k, k ≠ lit "rules" → Sbj.get (some r) k = Sbj.get (some r') k) :
    SameBut (c.set (lit "route") r) (c'.set (lit "route") r') := by
  refine ⟨.setRoute h.left.obj hr, .setRoute h.right.obj hr', fun k hk => ?_, fun k hk => ?_⟩
  · rw [h.left.obj.get_set_ne hk, h.right.obj.get_set_ne hk, h.other k hk]
  · rw [routeKey_setRoute h.left.obj, routeKey_setRoute h.right.obj, hkey k hk]

lemma setRules (h : SameBut c c') (v v' : Sbj) :
    SameBut (c.set (lit "route") ((routeOrEmpty c).set (lit "rules") v))
      (c'.set (lit "route") ((routeOrEmpty c').set (lit "rules") v')) := by
  have hl := h.left.routeOrEmpty
  have hr := h.right.routeOrEmpty
  refine h.setRoute (hl.set _ _) (hr.set _ _) fun k hk => ?_
  rw [hl.get_set_ne hk, hr.get_set_ne hk, routeOrEmpty_get, routeOrEmpty_get, h.key k hk]

lemma enableCacheFile (h : SameBut c c') :
    SameBut (Render.enableCacheFile c) (Render.enableCacheFile c') := by
  unfold Render.enableCacheFile
  simp only [h.other (lit "experimental") (by decide)]
  split_ifs
  · exact h
  all_goals exact h.setOther (by decide) _

lemma geo (h : SameBut c c') {d d' : Sbj} (hd : injectManagedGeoPolicy c = .ok d)
    (hd' : injectManagedGeoPolicy c' = .ok d') : SameBut d d' := by
  obtain ⟨rules, sets, -, hsets, rfl⟩ := geo_edit hd
  obtain ⟨rules', sets', -, hsets', rfl⟩ := geo_edit hd'
  rw [h.key (lit "rule_set") (by decide), hsets'] at hsets
  cases hsets
  have hl := h.left.routeOrEmpty
  have hr := h.right.routeOrEmpty
  refine (h.setRoute ((hl.set _ _).set _ _) ((hr.set _ _).set _ _) fun k hk => ?_).enableCacheFile
  by_cases he : k = lit "rule_set"
  · subst he
    rw [(hl.set _ _).get_set, (hr.set _ _).get_set]
  · rw [(hl.set _ _).get_set_ne he, (hr.set _ _).get_set_ne he, hl.get_set_ne hk, hr.get_set_ne hk,
      routeOrEmpty_get, routeOrEmpty_get, h.key k hk]

lemma injectClashApi (h : SameBut c c') (request : RenderRequest) :
    SameBut (Render.injectClashApi c request) (Render.injectClashApi c' request) := by
  unfold Render.injectClashApi
  simp only [h.other (lit "experimental") (by decide), h.left.obj.isObject, h.right.obj.isObject]
  split
  · exact h
  · split
    · exact h
    · split
      · exact h.setOther (by decide) _
      · exact h

lemma disableClashDashboard (h : SameBut c c') :
    SameBut (Render.disableClashDashboard c) (Render.disableClashDashboard c') := by
  unfold Render.disableClashDashboard
  rw [h.other (lit "experimental") (by decide)]
  split
  · split
    · exact h.setOther (by decide) _
    · exact h
  · exact h

lemma finish (h : SameBut c c') (renderer : Renderer) (e e' : Bytes → Bytes → Except Err Bytes)
    (request : RenderRequest) : SameBut (Render.finish (withEngine renderer e) request c)
      (Render.finish (withEngine renderer e') request c') := by
  have hprot : SameBut (insertProtected (withEngine renderer e) request c)
      (insertProtected (withEngine renderer e') request c') := by
    have hsame : protectedRules (withEngine renderer e) request =
        protectedRules (withEngine renderer e') request := rfl
    unfold insertProtected
    simp only [hsame]
    split_ifs
    · exact h
    · exact h.setRules _ _
  exact (hprot.injectClashApi request).disableClashDashboard

end SameBut

/-! ### The rules of a run -/

section Confined

variable [Platform]

lemma buildRules_ordered {renderer : Renderer} {source : Bytes} {context : Sbj} {rules : List Sbj}
    (h : buildRules renderer source context = .ok rules) : ∀ rule ∈ rules, rule.Ordered := by
  unfold buildRules at h
  split_ifs at h
  obtain ⟨output, -, h⟩ := bind_ok h
  split_ifs at h
  unfold readRules at h
  cases hparse : JsonParse.sbjParse output with
  | error e => rw [hparse] at h; cases h
  | ok v =>
    rw [hparse] at h
    cases v with
    | arr l =>
      simp only at h
      split_ifs at h
      cases h
      have hord := Sbj.Wf.ordered _ (JsonParse.sbjParse_fits hparse).1
      exact fun rule hr => hord.items hr
    | _ => cases h

/-- What a configuration with a script looks like. -/
structure ScriptedRun (renderer : Renderer) (request : RenderRequest) (final : Sbj)
    (script : Bytes) (scripted : List Sbj) : Prop where
  /-- The script returned these rules for the configuration without them. -/
  built : ∃ config hasProxy, renderOutbounds request = .ok (config, hasProxy) ∧
    buildRules renderer script (scriptContext request config) = .ok scripted
  /-- They stand between the rule for the server and the priority rules, and managed defaults. -/
  rules : ∃ control added, ControlRules renderer request.controlPlaneServer control ∧
    routeKey final (lit "rules") =
      some (.arr (control ++ request.priorityRouteRules ++ (scripted ++ added))) ∧
    ∀ rule ∈ added, IsDefault rule
  /-- They name allowed outbounds only. -/
  names : ∀ rule ∈ scripted, ∀ t, Names rule t →
    MayUse request (Sbj.items (Sbj.get (some final) (lit "outbounds"))) t

variable {request : RenderRequest}

variable {config : Sbj} {hasProxy : Bool} {renderer : Renderer} {script : Bytes}

lemma shape_renderOutbounds
    (h : renderOutbounds request = .ok (config, hasProxy)) : Shape config := by
  unfold renderOutbounds at h
  cases ho : Sbj.isObject (some request.profile) with
  | false => rw [ho] at h; cases h
  | true =>
    rw [ho] at h
    have hs := shape_profile ho
    have happend : ∀ {c c' : Sbj}, Shape c → appendTransports request c = .ok c' → Shape c' := by
      intro c c' hc h'
      unfold appendTransports at h'
      simp only at h'
      split_ifs at h'
      · cases h'
        exact hc
      · split at h' <;> cases h' <;> exact hc.setOther (by decide) _
    cases hm : request.mode with
    | full =>
      simp only [hm] at h
      obtain ⟨⟨c, p⟩, hfull, h⟩ := bind_ok h
      cases hfull
      obtain ⟨c', hc, h⟩ := bind_ok h
      cases h
      exact happend hs hc
    | managed =>
      simp only [hm] at h
      obtain ⟨⟨c, p⟩, hmanaged, h⟩ := bind_ok h
      obtain ⟨c', hc, h⟩ := bind_ok h
      cases h
      obtain ⟨entries, sel, step⟩ := managed_ok hmanaged
      exact happend (step.shape hs) hc

lemma scripted_stages {final : Sbj}
    (hscript : request.ruleScript = some script) (hne : script.isEmpty = false)
    (h : render renderer request = .ok final) :
    ∃ config hasProxy scripted governed, renderOutbounds request = .ok (config, hasProxy) ∧
      buildRules renderer script (scriptContext request config) = .ok scripted ∧
      validateRuleTags (allowedTags request config) scripted = .ok () ∧
      geoPolicy hasProxy (config.set (lit "route")
        ((routeOrEmpty config).set (lit "rules") (.arr scripted))) = .ok governed ∧
      final = finish renderer request governed := by
  obtain ⟨config, hasProxy, scripted, governed, h0, h1, h2, rfl⟩ := render_ok h
  unfold runScript at h1
  simp only [hscript, hne, Bool.false_eq_true, if_false] at h1
  unfold renderRuleScript at h1
  obtain ⟨rules, hrules, h1⟩ := bind_ok h1
  obtain ⟨⟨⟩, hvalid, h1⟩ := bind_ok h1
  cases h1
  exact ⟨config, hasProxy, rules, governed, h0, hrules, hvalid, h2, rfl⟩

lemma scripted_run {config governed : Sbj} {scripted : List Sbj}
    (hrun : renderOutbounds request = .ok (config, hasProxy)) (hs : Shape config)
    (hrules : buildRules renderer script (scriptContext request config) = .ok scripted)
    (hvalid : validateRuleTags (allowedTags request config) scripted = .ok ())
    (hgeo : geoPolicy hasProxy (config.set (lit "route")
      ((routeOrEmpty config).set (lit "rules") (.arr scripted))) = .ok governed) :
    ScriptedRun renderer request (finish renderer request governed) script scripted := by
  have hro := hs.routeOrEmpty
  have hs1 : Shape (config.set (lit "route") ((routeOrEmpty config).set (lit "rules")
      (.arr scripted))) := .setRoute hs.obj (hro.set _ _)
  have hkey1 : routeKey (config.set (lit "route") ((routeOrEmpty config).set (lit "rules")
      (.arr scripted))) (lit "rules") = some (.arr scripted) := by
    rw [routeKey_setRoute hs.obj, hro.get_set]
  have step := policy_ok hs1 hgeo
  obtain ⟨added, hadded, hsub⟩ : ∃ added, routeKey governed (lit "rules") =
      some (.arr (scripted ++ added)) ∧ added.Sublist managedDefaults := by
    unfold geoPolicy at hgeo
    split_ifs at hgeo
    · obtain ⟨added, hadded, hsub⟩ := (geo_ok hs1 hgeo).rules
      rw [hkey1] at hadded
      exact ⟨added, hadded, hsub⟩
    · cases hgeo
      exact ⟨[], by rw [hkey1, List.append_nil], by simp⟩
  refine ⟨⟨_, _, hrun, hrules⟩, ⟨_, added, controlRules _ _, ?_,
    fun rule hr => isDefault_of_mem (hsub.subset hr)⟩, fun rule hrule t ht => ?_⟩
  · rw [finish_route step.shape]
    change routeKey _ _ = some (.arr (protectedRules renderer request ++ (scripted ++ added)))
    unfold insertProtected
    simp only
    split_ifs with he
    · rw [List.isEmpty_iff.mp he, List.nil_append, hadded]
    · rw [routeKey_setRoute step.shape.obj, step.shape.routeOrEmpty.get_set, routeOrEmpty_get,
        hadded]
      rfl
  · have hout : Has (finish renderer request governed) (lit "outbounds")
        (Sbj.get (some config) (lit "outbounds")) :=
      finish_has (step.frame (by decide) (by decide)
        ((⟨hs.obj, rfl⟩ : Has config (lit "outbounds") _).set (by decide) _))
        (by decide) (by decide)
    rw [hout.get, ← tagAllowed_iff]
    exact validateRule_names ht (buildRules_ordered hrules rule hrule)
      (validateRuleTags_mem hvalid hrule)

/-- **A script is confined to its rules**: of two runs on one machine with different results of
the script, one configuration is the other with its own rules in the route. In both, the rules
of the script stand between the protected rules and managed defaults, and name allowed
outbounds only. -/
theorem script_confined {renderer : Renderer} {request : RenderRequest} {script : Bytes}
    {e₁ e₂ : Bytes → Bytes → Except Err Bytes} {c₁ c₂ : Sbj}
    (hscript : request.ruleScript = some script) (hne : script.isEmpty = false)
    (h₁ : render (withEngine renderer e₁) request = .ok c₁)
    (h₂ : render (withEngine renderer e₂) request = .ok c₂) :
    (∃ rules₁, ScriptedRun (withEngine renderer e₁) request c₁ script rules₁) ∧
    (∃ rules₂, ScriptedRun (withEngine renderer e₂) request c₂ script rules₂) ∧
    (∀ k, k ≠ lit "route" → Sbj.get (some c₁) k = Sbj.get (some c₂) k) ∧
    ∃ route rules, Sbj.get (some c₁) (lit "route") = some route ∧
      routeKey c₂ (lit "rules") = some rules ∧
      c₂ = c₁.set (lit "route") (route.set (lit "rules") rules) := by
  obtain ⟨config, hasProxy, l₁, g₁, h0, hb₁, hv₁, hg₁, rfl⟩ := scripted_stages hscript hne h₁
  obtain ⟨config', hasProxy', l₂, g₂, h0', hb₂, hv₂, hg₂, rfl⟩ := scripted_stages hscript hne h₂
  rw [h0] at h0'
  cases h0'
  have hs := shape_renderOutbounds h0
  have run₁ := scripted_run h0 hs hb₁ hv₁ hg₁
  have run₂ := scripted_run h0 hs hb₂ hv₂ hg₂
  have hsame0 : SameBut config config := ⟨hs, hs, fun _ _ => rfl, fun _ _ => rfl⟩
  have hsame1 := hsame0.setRules (.arr l₁) (.arr l₂)
  have hsame2 : SameBut g₁ g₂ := by
    unfold geoPolicy at hg₁ hg₂
    split_ifs at hg₁ hg₂
    · exact hsame1.geo hg₁ hg₂
    · cases hg₁
      cases hg₂
      exact hsame1
  have hsame := hsame2.finish renderer e₁ e₂ request
  refine ⟨⟨l₁, run₁⟩, ⟨l₂, run₂⟩, hsame.other, ?_⟩
  obtain ⟨_, _, -, hr₁, -⟩ := run₁.rules
  obtain ⟨_, _, -, hr₂, -⟩ := run₂.rules
  -- Both routes are objects, as they have rules.
  have hobj : ∀ {c : Sbj} {v : Sbj}, Shape c → routeKey c (lit "rules") = some v →
      ∃ r, Sbj.get (some c) (lit "route") = some r ∧ r.IsObj := by
    intro c v hc hv
    by_contra hnone
    rw [routeKey_of_not_obj (fun m hm => hnone ⟨_, hm, m, rfl, hc.route m hm⟩)] at hv
    cases hv
  obtain ⟨r₁, hg₁', hr₁'⟩ := hobj hsame.left hr₁
  obtain ⟨r₂, hg₂', hr₂'⟩ := hobj hsame.right hr₂
  refine ⟨r₁, _, hg₁', hr₂, hsame.right.obj.ext (hsame.left.obj.set _ _) fun k => ?_⟩
  by_cases hk : k = lit "route"
  · subst hk
    rw [hsame.left.obj.get_set, hg₂']
    refine congrArg some (hr₂'.ext (hr₁'.set _ _) fun k' => ?_)
    by_cases hk' : k' = lit "rules"
    · subst hk'
      rw [hr₁'.get_set, ← hr₂, routeKey, hg₂']
    · have hkey := hsame.key k' hk'
      rw [routeKey, routeKey, hg₁', hg₂'] at hkey
      rw [hr₁'.get_set_ne hk', hkey]
  · rw [hsame.left.obj.get_set_ne hk, hsame.other k hk]

end Confined

/-- One node, and a script. -/
def scriptedRequest : RenderRequest :=
  { bareRequest [shadowsocksNode (lit "a")] with ruleScript := some (lit "build") }

/-- An engine whose script returns this text. -/
def returning (text : Bytes) (_ _ : Bytes) : Except Err Bytes := .ok text

theorem script_confined_one_node :
    let r₁ := withEngine plainRenderer (returning (lit "[]"))
    let r₂ := withEngine plainRenderer (returning (lit "[\x7b\"outbound\":\"a\"\x7d]"))
    ∃ c₁ c₂, @render .sample r₁ scriptedRequest = .ok c₁ ∧
      @render .sample r₂ scriptedRequest = .ok c₂ ∧
      (∃ rules₁, @ScriptedRun .sample r₁ scriptedRequest c₁ (lit "build") rules₁) ∧
      (∃ rules₂, @ScriptedRun .sample r₂ scriptedRequest c₂ (lit "build") rules₂) ∧
      ∃ route rules, Sbj.get (some c₁) (lit "route") = some route ∧
        routeKey c₂ (lit "rules") = some rules ∧
        c₂ = c₁.set (lit "route") (route.set (lit "rules") rules) := by
  intro r₁ r₂
  have hok₁ : (@render .sample r₁ scriptedRequest).toOption.isSome = true := by decide +kernel
  have hok₂ : (@render .sample r₂ scriptedRequest).toOption.isSome = true := by decide +kernel
  cases h₁ : @render .sample r₁ scriptedRequest with
  | error e => rw [h₁] at hok₁; cases hok₁
  | ok c₁ =>
    cases h₂ : @render .sample r₂ scriptedRequest with
    | error e => rw [h₂] at hok₂; cases hok₂
    | ok c₂ =>
      obtain ⟨run₁, run₂, -, hroute⟩ := @script_confined .sample _ _ (lit "build") _ _ _ _ rfl
        (by decide) h₁ h₂
      exact ⟨c₁, c₂, rfl, rfl, run₁, run₂, hroute⟩

end SbEasy.Render
