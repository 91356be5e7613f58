import SbEasy.RenderTags

/-!
What each pass of the renderer leaves alone: the top-level members it does not edit, and
inside `route` everything but the member it is about.
-/

namespace SbEasy.Render

open Sbj (IsObj Has)

/-- A member of the route of a configuration. -/
def routeKey (config : Sbj) (k : Bytes) : Option Sbj :=
  Sbj.get (Sbj.get (some config) (lit "route")) k

/-- A configuration object whose route, if it is an object, has its keys in order. -/
structure Shape (config : Sbj) : Prop where
  obj : config.IsObj
  route : ∀ m, Sbj.get (some config) (lit "route") = some (.obj m) → SortedAssoc.Sorted m

section

variable {config : Sbj} {k : Bytes} {v : Option Sbj}

lemma Shape.setRoute {route : Sbj} (h : config.IsObj) (hr : route.IsObj) :
    Shape (config.set (lit "route") route) := by
  refine ⟨h.set _ _, fun m hm => ?_⟩
  rw [h.get_set] at hm
  cases hm
  obtain ⟨m', he, hs⟩ := hr
  cases he
  exact hs

lemma Shape.setOther (h : Shape config) (hk : k ≠ lit "route") (w : Sbj) :
    Shape (config.set k w) := by
  refine ⟨h.obj.set _ _, fun m hm => h.route m ?_⟩
  rw [← h.obj.get_set_ne (Ne.symm hk)]
  exact hm

lemma routeKey_setRoute (h : config.IsObj) (route : Sbj) (k : Bytes) :
    routeKey (config.set (lit "route") route) k = Sbj.get (some route) k := by
  rw [routeKey, h.get_set]

lemma routeKey_setOther (h : config.IsObj) {k' : Bytes} (hk : k' ≠ lit "route") (w : Sbj)
    (k : Bytes) : routeKey (config.set k' w) k = routeKey config k := by
  rw [routeKey, h.get_set_ne (Ne.symm hk), routeKey]

lemma get_of_not_obj {w : Sbj} (h : ∀ m, w ≠ .obj m) (k : Bytes) : Sbj.get (some w) k = none := by
  cases w with
  | obj m => exact absurd rfl (h m)
  | _ => exact SortedAssoc.get_nil k

lemma routeKey_of_not_obj (h : ∀ m, Sbj.get (some config) (lit "route") ≠ some (.obj m))
    (k : Bytes) : routeKey config k = none := by
  unfold routeKey
  cases hr : Sbj.get (some config) (lit "route") with
  | none => exact SortedAssoc.get_nil k
  | some w => exact get_of_not_obj (fun m he => h m (by rw [hr, he])) k

lemma routeOrEmpty_get (config : Sbj) (k : Bytes) :
    Sbj.get (some (routeOrEmpty config)) k = routeKey config k := by
  unfold routeOrEmpty
  split
  · rename_i m hm
    rw [routeKey, hm]
  · rename_i hne
    rw [Sbj.get_obj_nil, routeKey_of_not_obj hne]

lemma Shape.routeOrEmpty (h : Shape config) : (routeOrEmpty config).IsObj := by
  unfold Render.routeOrEmpty
  split
  · rename_i m hm
    exact ⟨m, rfl, h.route m hm⟩
  · exact Sbj.isObj_nil

lemma has_normalizeDns (h : Has config k v) (hk : k ≠ lit "dns") (hasAuto : Bool)
    (sel : Option Bytes) : Has (normalizeManagedDnsDetours config hasAuto sel) k v := by
  unfold normalizeManagedDnsDetours
  split
  · split
    · exact h.set hk _
    · exact h.set hk _
    · exact h
  · exact h

lemma shape_normalizeDns (h : Shape config) (hasAuto : Bool) (sel : Option Bytes) :
    Shape (normalizeManagedDnsDetours config hasAuto sel) := by
  unfold normalizeManagedDnsDetours
  split
  · split
    · exact h.setOther (by decide) _
    · exact h.setOther (by decide) _
    · exact h
  · exact h

lemma routeKey_normalizeDns (h : config.IsObj) (hasAuto : Bool) (sel : Option Bytes) (k : Bytes) :
    routeKey (normalizeManagedDnsDetours config hasAuto sel) k = routeKey config k := by
  unfold routeKey
  rw [(has_normalizeDns ⟨h, rfl⟩ (by decide) hasAuto sel).get]

lemma has_rewriteFinal (h : Has config k v) (hk : k ≠ lit "route") (hasAuto : Bool)
    (sel : Option Bytes) : Has (rewriteFinal config hasAuto sel) k v := by
  unfold rewriteFinal
  split
  · split
    · exact h.set hk _
    · exact h
  · exact h

lemma shape_rewriteFinal (h : Shape config) (hasAuto : Bool) (sel : Option Bytes) :
    Shape (rewriteFinal config hasAuto sel) := by
  unfold rewriteFinal
  split
  · rename_i m hm
    split
    · exact .setRoute h.obj (IsObj.set ⟨m, rfl, h.route m hm⟩ _ _)
    · exact h
  · exact h

lemma routeKey_rewriteFinal (h : Shape config) (hk : k ≠ lit "final") (hasAuto : Bool)
    (sel : Option Bytes) : routeKey (rewriteFinal config hasAuto sel) k = routeKey config k := by
  unfold rewriteFinal
  split
  · rename_i m hm
    split
    · have hobj : (Sbj.obj m).IsObj := ⟨m, rfl, h.route m hm⟩
      rw [routeKey_setRoute h.obj, hobj.get_set_ne hk, routeKey, hm]
    · rfl
  · rfl

/-- The default route after the rewrite; what is no string stays. -/
def finalValue (hasAuto : Bool) (sel : Option Bytes) : Sbj → Sbj
  | .str s => .str (managedFinal hasAuto sel s)
  | other => other

lemma routeFinal_rewriteFinal (h : Shape config) (hasAuto : Bool) (sel : Option Bytes) :
    routeKey (rewriteFinal config hasAuto sel) (lit "final") =
      (routeKey config (lit "final")).map (finalValue hasAuto sel) := by
  unfold rewriteFinal
  split
  · rename_i m hm
    have hkey : routeKey config (lit "final") = Sbj.get (some (.obj m)) (lit "final") := by
      rw [routeKey, hm]
    have hobj : (Sbj.obj m).IsObj := ⟨m, rfl, h.route m hm⟩
    split
    · rename_i s hs
      rw [routeKey_setRoute h.obj, hobj.get_set, hkey, hs]
      rfl
    · rename_i hne
      rw [hkey]
      cases hf : Sbj.get (some (.obj m)) (lit "final") with
      | none => rfl
      | some w =>
        cases w with
        | str s => exact absurd hf (hne s)
        | _ => rfl
  · rename_i hne
    rw [routeKey_of_not_obj hne]
    rfl

lemma has_enableCacheFile (h : Has config k v) (hk : k ≠ lit "experimental") :
    Has (enableCacheFile config) k v := by
  unfold enableCacheFile
  simp only
  split_ifs
  · exact h
  all_goals exact h.set hk _

lemma has_injectClashApi (h : Has config k v) (hk : k ≠ lit "experimental")
    (request : RenderRequest) : Has (injectClashApi config request) k v := by
  unfold injectClashApi
  simp only
  split
  · exact h
  · split
    · exact h
    · split
      · exact h.set hk _
      · exact h

lemma has_disableClashDashboard (h : Has config k v) (hk : k ≠ lit "experimental") :
    Has (disableClashDashboard config) k v := by
  unfold disableClashDashboard
  split
  · split
    · exact h.set hk _
    · exact h
  · exact h

lemma has_insertProtected (h : Has config k v) (hk : k ≠ lit "route") (renderer : Renderer)
    (request : RenderRequest) : Has (insertProtected renderer request config) k v := by
  unfold insertProtected
  simp only
  split_ifs
  · exact h
  · exact h.set hk _

lemma routeKey_insertProtected (h : Shape config) (hk : k ≠ lit "rules") (renderer : Renderer)
    (request : RenderRequest) :
    routeKey (insertProtected renderer request config) k = routeKey config k := by
  unfold insertProtected
  simp only
  split_ifs
  · rfl
  · rw [routeKey_setRoute h.obj, h.routeOrEmpty.get_set_ne hk, routeOrEmpty_get]

lemma rules_insertProtected (h : Shape config) (renderer : Renderer) (request : RenderRequest) :
    Sbj.items (routeKey (insertProtected renderer request config) (lit "rules")) =
      protectedRules renderer request ++ Sbj.items (routeKey config (lit "rules")) := by
  unfold insertProtected
  simp only
  split_ifs with he
  · rw [List.isEmpty_iff.mp he, List.nil_append]
  · rw [routeKey_setRoute h.obj, h.routeOrEmpty.get_set, routeOrEmpty_get]
    rfl

end

end SbEasy.Render
