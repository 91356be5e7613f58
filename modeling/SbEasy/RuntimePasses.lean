import Mathlib.Data.List.Forall2
import SbEasy.RuntimeConfig

/-!
What each pass of `sbw_runtime_config_prepare` does, member by member.
-/

namespace SbEasy.WinRuntime

open Sbj

/-- The members that bind a dialer to a device. -/
def isDialerKey (k : Bytes) : Bool := dialerKeys.contains k

lemma adaptDialerItems_eq (l : List Sbj) : adaptDialerItems l = l.map adaptDialers := by
  induction l with
  | nil => rfl
  | cons v l ih => rw [adaptDialerItems, ih, List.map_cons]

lemma adaptDialerMembers_eq (m : List (Bytes × Sbj)) :
    adaptDialerMembers m = m.map fun q => (q.1, adaptDialers q.2) := by
  induction m with
  | nil => rfl
  | cons q m ih => rw [adaptDialerMembers, ih, List.map_cons]

lemma adaptDialers_obj {m : List (Bytes × Sbj)} (hs : SortedAssoc.Sorted m)
    (h : ∀ q ∈ m, adaptDialers q.2 = q.2.without isDialerKey) :
    adaptDialers (.obj m) = (Sbj.obj m).without isDialerKey := by
  have hobj : IsObj (.obj (adaptDialerMembers m)) := by
    rw [adaptDialerMembers_eq]
    exact ⟨_, rfl, SortedAssoc.sorted_map _ hs⟩
  have horig : IsObj (.obj m) := ⟨m, rfl, hs⟩
  rw [adaptDialers]
  refine (hobj.eraseKeys _).ext (horig.without _) fun k => ?_
  rw [hobj.get_eraseKeys, horig.get_without]
  have hget : Sbj.get (some (.obj (adaptDialerMembers m))) k =
      (Sbj.get (some (.obj m)) k).map (Sbj.without isDialerKey) := by
    rw [adaptDialerMembers_eq, Sbj.get, members, SortedAssoc.get_map]
    cases hk : SortedAssoc.get m k with
    | none => simp [Sbj.get, members, hk]
    | some v =>
      have hv := h (k, v) ((SortedAssoc.get_eq_some_iff hs).mp hk)
      simp [Sbj.get, members, hk, hv]
  rw [hget, isDialerKey]
  simp only [List.contains_iff_mem]

mutual
/-- The dialers lose the members that bind them, at any depth, and nothing else changes. -/
theorem adaptDialers_eq (v : Sbj) (h : v.Ordered) : adaptDialers v = v.without isDialerKey := by
  cases v with
  | arr l =>
    rw [adaptDialers, Sbj.without, adaptDialerItems_eq, withoutItems_eq]
    exact congrArg _ (List.map_congr_left (adaptDialerItems_without l h))
  | obj m => exact adaptDialers_obj h.1 (adaptDialerMembers_without m h.2)
  | _ => rfl
lemma adaptDialerItems_without (l : List Sbj) (h : OrderedItems l) :
    ∀ v ∈ l, adaptDialers v = v.without isDialerKey := by
  match l with
  | [] => simp
  | v :: l =>
    intro w hw
    have hv := adaptDialers_eq v h.1
    rcases List.mem_cons.mp hw with rfl | hw
    · exact hv
    · exact adaptDialerItems_without l h.2 w hw
lemma adaptDialerMembers_without (m : List (Bytes × Sbj)) (h : OrderedMembers m) :
    ∀ q ∈ m, adaptDialers q.2 = q.2.without isDialerKey := by
  match m with
  | [] => simp
  | (k, v) :: m =>
    intro q hq
    have hv := adaptDialers_eq v h.1
    rcases List.mem_cons.mp hq with rfl | hq
    · exact hv
    · exact adaptDialerMembers_without m h.2 q hq
end

lemma get_adaptDialers {o : Sbj} (h : o.Ordered) (ho : o.IsObj) (k : Bytes) :
    Sbj.get (some (adaptDialers o)) k =
      if isDialerKey k then none else (Sbj.get (some o) k).map (Sbj.without isDialerKey) := by
  rw [adaptDialers_eq o h, ho.get_without]

/-! ### Endpoints -/

/-- The member of an endpoint after the pass. -/
def endpointMember (w : Machine) (e : Sbj) (k : Bytes) : Option Sbj :=
  let kept := if isDialerKey k then none else (Sbj.get (some e) k).map (Sbj.without isDialerKey)
  if isTailscale e then
    if k = lit "state_directory" then
      (w.sha256 (Sbj.getStr (some e) (lit "tag") [])).map stateDirectory
    else if k = lit "system_interface" then some (.bool false)
    else if k ∈ tailscaleKeys then none
    else kept
  else if k = lit "system" then some (.bool false)
  else if k = lit "name" then none
  else kept

/-- An endpoint and what it becomes: it stays inside the core and keeps its state where the service
says. -/
structure EndpointAdapted (w : Machine) (e e' : Sbj) : Prop where
  kind : isTailscale e = true ∨ isWireguard e = true
  source : e.IsObj
  obj : e'.IsObj
  get : ∀ k, Sbj.get (some e') k = endpointMember w e k

lemma ordered_eraseKeys {o : Sbj} (h : o.Ordered) (keys : List Bytes) : (o.eraseKeys keys).Ordered := by
  induction keys generalizing o with
  | nil => exact h
  | cons k keys ih => exact ih (h.del k)

lemma adaptEndpoint_ok {w : Machine} {e e' : Sbj} (he : e.Ordered) (h : adaptEndpoint w e = .ok e') :
    EndpointAdapted w e e' := by
  unfold adaptEndpoint at h
  split_ifs at h with hobj htail hwire
  · -- A Tailscale endpoint.
    unfold adaptTailscale at h
    dsimp only at h
    split_ifs at h with htag
    split at h
    · cases h
    · next hash hhash =>
      cases h
      have ho := he.isObj (by simpa using hobj)
      have ho₁ := ((ho.set (lit "state_directory") (stateDirectory hash)).set (lit "system_interface")
        (.bool false))
      have hordered := ordered_eraseKeys ((he.set (v := stateDirectory hash) trivial
        (lit "state_directory")).set (v := .bool false) trivial (lit "system_interface")) tailscaleKeys
      refine ⟨.inl htail, ho, ?_, fun k => ?_⟩
      · rw [adaptDialers_eq _ hordered]
        exact (ho₁.eraseKeys _).without _
      · rw [get_adaptDialers hordered (ho₁.eraseKeys _), ho₁.get_eraseKeys,
          (ho.set _ _).get_set_eq, ho.get_set_eq, endpointMember, if_pos htail, hhash]
        by_cases hstate : k = lit "state_directory"
        · rw [hstate]
          rfl
        by_cases hsystem : k = lit "system_interface"
        · rw [hsystem]
          rfl
        by_cases hkey : k ∈ tailscaleKeys <;> simp [hstate, hsystem, hkey]
  · cases h
    have ho := he.isObj (by simpa using hobj)
    have ho₁ := ho.set (lit "system") (.bool false)
    have hordered := (he.set (v := .bool false) trivial (lit "system")).del (lit "name")
    refine ⟨.inr hwire, ho, ?_, fun k => ?_⟩
    · rw [adaptDialers_eq _ hordered]
      exact (ho₁.del _).without _
    · rw [get_adaptDialers hordered (ho₁.del _), ho₁.get_del, ho.get_set_eq, endpointMember,
        if_neg htail]
      by_cases hsystem : k = lit "system"
      · rw [hsystem]
        rfl
      by_cases hname : k = lit "name"
      · rw [hname]
        rfl
      · simp [hsystem, hname]

lemma forall₂_of_mapM {ε α β : Type} {f : α → Except ε β} {l : List α} {l' : List β}
    (h : l.mapM f = .ok l') : List.Forall₂ (fun a b => f a = .ok b) l l' := by
  induction l generalizing l' with
  | nil =>
    cases h
    exact .nil
  | cons a l ih =>
    rw [List.mapM_cons] at h
    obtain ⟨b, hb, h⟩ := bind_ok h
    obtain ⟨bs, hbs, h⟩ := bind_ok h
    cases h
    exact .cons hb (ih hbs)

/-- What a pass over one section of the configuration leaves alone. -/
structure Frame (keys : List Bytes) (c c' : Sbj) : Prop where
  obj : c'.IsObj
  get : ∀ k ∉ keys, Sbj.get (some c') k = Sbj.get (some c) k

lemma Frame.set {c : Sbj} (h : c.IsObj) (k : Bytes) (v : Sbj) : Frame [k] c (c.set k v) :=
  ⟨h.set k v, fun _ hk => h.get_set_ne (by simpa using hk)⟩

lemma adaptEndpoints_ok {w : Machine} {c c' : Sbj} (ho : c.IsObj)
    (hc : ∀ v, Sbj.get (some c) (lit "endpoints") = some v → v.Ordered)
    (h : adaptEndpoints w c = .ok c') :
    Frame [lit "endpoints"] c c' ∧
      (has (some c') (lit "endpoints") = has (some c) (lit "endpoints")) ∧
      List.Forall₂ (EndpointAdapted w) (items (Sbj.get (some c) (lit "endpoints")))
        (items (Sbj.get (some c') (lit "endpoints"))) := by
  unfold adaptEndpoints at h
  split at h
  · next hget =>
    cases h
    refine ⟨⟨ho, fun _ _ => rfl⟩, rfl, ?_⟩
    rw [hget]
    exact .nil
  · next l hget =>
    obtain ⟨l', hl, h⟩ := bind_ok h
    cases h
    refine ⟨Frame.set ho _ _, ?_, ?_⟩
    · rw [has, has, ho.get_set, hget]
      rfl
    · rw [ho.get_set, hget]
      have hordered : ∀ e ∈ l, e.Ordered := fun e he => (hc _ hget).items he
      have hboth := (List.forall₂_and_left _ _).mpr ⟨hordered, forall₂_of_mapM hl⟩
      exact hboth.imp fun _ _ hab => adaptEndpoint_ok hab.1 hab.2
  · cases h

/-! ### Inbounds -/

def isTun (inbound : Sbj) : Bool := Sbj.getStr (some inbound) (lit "type") [] == lit "tun"

/-- The member of an inbound after the pass. -/
def inboundMember (i : Sbj) (k : Bytes) : Option Sbj :=
  if isTun i then
    if k ∈ linuxKeys then none
    else if k = lit "interface_name" then some ((Sbj.get (some i) k).getD (.str (lit "sb-easy")))
    else Sbj.get (some i) k
  else if k = lit "listen" then some (.str (lit "127.0.0.1"))
  else if k = lit "set_system_proxy" then none
  else Sbj.get (some i) k

structure InboundAdapted (i i' : Sbj) : Prop where
  source : i.IsObj
  obj : i'.IsObj
  get : ∀ k, Sbj.get (some i') k = inboundMember i k

variable {out : RuntimeConfig}

variable {i i' : Sbj} {out' : RuntimeConfig}

lemma adaptTun_ok (ho : i.IsObj) (ht : isTun i = true) (h : adaptTun i out = .ok (i', out')) :
    InboundAdapted i i' ∧ out.hasTun = false ∧ out'.hasTun = true := by
  unfold adaptTun at h
  dsimp only at h
  split_ifs at h with h1 h2 h3 h4 h5
  all_goals cases h
  · refine ⟨⟨ho, ho.eraseKeys _, fun k => ?_⟩, by simp at h1; exact h1.1, rfl⟩
    rw [ho.get_eraseKeys, inboundMember, if_pos ht]
    by_cases hk : k = lit "interface_name"
    · rw [hk]
      obtain ⟨v, hv⟩ := Option.isSome_iff_exists.mp h5
      simp [hv]
    · simp [hk]
  · have hnone : Sbj.get (some i) (lit "interface_name") = none := by simpa using h5
    refine ⟨⟨ho, (ho.set _ _).eraseKeys _, fun k => ?_⟩, by simp at h1; exact h1.1, rfl⟩
    rw [(ho.set _ _).get_eraseKeys, inboundMember, if_pos ht, ho.get_set_eq]
    by_cases hk : k = lit "interface_name"
    · rw [hk, hnone, tunName, getStr, hnone]
      rfl
    · simp [hk]

lemma InboundAdapted.isTun (h : InboundAdapted i i') :
    WinRuntime.isTun i' = WinRuntime.isTun i := by
  have htype : Sbj.get (some i') (lit "type") = Sbj.get (some i) (lit "type") := by
    rw [h.get, inboundMember]
    split <;> rfl
  rw [WinRuntime.isTun, WinRuntime.isTun, getStr, getStr, htype]

lemma InboundAdapted.loopback (h : InboundAdapted i i') (ht : WinRuntime.isTun i' = false) :
    Sbj.get (some i') (lit "listen") = some (.str (lit "127.0.0.1")) := by
  rw [h.isTun] at ht
  rw [h.get, inboundMember, ht]
  rfl

lemma adaptInbound_ok (hi : i.Ordered)
    (h : adaptInbound i out = .ok (i', out')) : InboundAdapted i i' ∧
      (isTun i = true ∧ out.hasTun = false ∧ out'.hasTun = true ∨ isTun i = false ∧ out' = out) := by
  unfold adaptInbound at h
  dsimp only at h
  split_ifs at h with hobj htun hproxy
  · have ho := hi.isObj (by simpa using hobj)
    have hadapted := adaptTun_ok ho htun h
    exact ⟨hadapted.1, .inl ⟨htun, hadapted.2⟩⟩
  · cases h
    have ho := hi.isObj (by simpa using hobj)
    have hnot : isTun i = false := by simpa [isTun] using htun
    refine ⟨⟨ho, (ho.set _ _).del _, fun k => ?_⟩, .inr ⟨hnot, rfl⟩⟩
    rw [(ho.set _ _).get_del, ho.get_set_eq, inboundMember, hnot]
    by_cases hk : k = lit "listen"
    · rw [hk]
      rfl
    · simp [hk]

lemma adaptInboundList_ok {l l' : List Sbj} (hl : ∀ i ∈ l, i.Ordered)
    (h : adaptInboundList l out = .ok (l', out')) :
    List.Forall₂ InboundAdapted l l' ∧ l.countP isTun ≤ if out.hasTun then 0 else 1 := by
  induction l generalizing l' out with
  | nil =>
    cases h
    exact ⟨.nil, Nat.zero_le _⟩
  | cons i l ih =>
    obtain ⟨⟨i', out₁⟩, hi, h⟩ := bind_ok h
    obtain ⟨⟨l₁, out₂⟩, hrest, h⟩ := bind_ok h
    cases h
    obtain ⟨hadapted, hkind⟩ := adaptInbound_ok (hl i (by simp)) hi
    obtain ⟨hforall, hcount⟩ := ih (fun j hj => hl j (by simp [hj])) hrest
    refine ⟨.cons hadapted hforall, ?_⟩
    rcases hkind with ⟨htun, hbefore, hafter⟩ | ⟨htun, hsame⟩
    · rw [hafter] at hcount
      rw [List.countP_cons_of_pos htun, hbefore]
      simpa using hcount
    · rw [List.countP_cons_of_neg (by simp [htun]), ← hsame]
      exact hcount

lemma adaptInbounds_ok {c c' : Sbj} (ho : c.IsObj)
    (hc : ∀ v, Sbj.get (some c) (lit "inbounds") = some v → v.Ordered)
    (h : adaptInbounds c {} = .ok (c', out)) : Frame [lit "inbounds"] c c' ∧
      List.Forall₂ InboundAdapted (items (Sbj.get (some c) (lit "inbounds")))
        (items (Sbj.get (some c') (lit "inbounds"))) ∧
      (items (Sbj.get (some c) (lit "inbounds"))).countP isTun ≤ 1 := by
  unfold adaptInbounds at h
  split at h
  · next hget =>
    cases h
    rw [hget]
    exact ⟨⟨ho, fun _ _ => rfl⟩, .nil, Nat.zero_le _⟩
  · next l hget =>
    obtain ⟨⟨l', out'⟩, hl, h⟩ := bind_ok h
    cases h
    obtain ⟨hforall, hcount⟩ := adaptInboundList_ok (fun i hi => (hc _ hget).items hi) hl
    refine ⟨Frame.set ho _ _, ?_, ?_⟩
    · rw [ho.get_set, hget]
      exact hforall
    · rw [hget]
      exact hcount
  · cases h

end SbEasy.WinRuntime
