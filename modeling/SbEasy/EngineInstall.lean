import SbEasy.Manager
import SbEasy.Rows

/-!
What a policy does to the engine: which devices `apply` puts into the map of the manager, with what
deadline, and what stays of the objects that were there.
-/

namespace SbEasy

open Rows

/-- The part of `validateProxyPolicy` that the objects of the engine depend on. -/
structure GoPolicy.Sound (users : List GoUser) : Prop where
  ids : ∀ u ∈ users, ∀ d ∈ u.devices.getD [], proxyID d.id = true
  leases : (users.map (·.lease.id)).Nodup
  amounts : ∀ u ∈ users, 0 ≤ u.lease.used ∧ u.lease.used ≤ u.lease.grant

lemma devicesLoop_some {p : GoPolicy} {node : GoNode} {seen seen' : Seen} {l : List GoDevice}
    (h : devicesLoop p node seen l = some seen') :
    (∀ d ∈ l, proxyID d.id = true) ∧ seen'.leases = seen.leases := by
  induction l generalizing seen with
  | nil =>
    obtain rfl := Option.some.inj h
    exact ⟨by simp, rfl⟩
  | cons d l ih =>
    rw [devicesLoop] at h
    split_ifs at h with hfault
    obtain ⟨hids, hleases⟩ := ih h
    have hid : proxyID d.id = true := by
      simp only [deviceFault, Bool.or_eq_true, not_or, Bool.not_eq_true', Bool.not_eq_false] at hfault
      exact hfault.1.1.1.1.1
    exact ⟨List.forall_mem_cons.mpr ⟨hid, hids⟩, hleases⟩

lemma usersLoop_sound {p : GoPolicy} {node : GoNode} {seen : Seen} {l : List GoUser}
    (h : usersLoop p node seen l = true) :
    GoPolicy.Sound l ∧ ∀ u ∈ l, u.lease.id ∉ seen.leases := by
  induction l generalizing seen with
  | nil => exact ⟨⟨by simp, by simp, by simp⟩, by simp⟩
  | cons u l ih =>
    rw [usersLoop] at h
    split_ifs at h with hfault
    split at h
    · exact absurd h (by simp)
    · rename_i seen' hdevices
      obtain ⟨hids, hleases⟩ := devicesLoop_some hdevices
      obtain ⟨hsound, hfresh⟩ := ih h
      rw [hleases] at hfresh
      simp only [userFault, Bool.or_eq_true, not_or, decide_eq_true_eq, List.contains_eq_mem] at hfault
      obtain ⟨⟨⟨⟨⟨⟨⟨⟨⟨-, hseen⟩, -⟩, -⟩, hused⟩, hgrant⟩, -⟩, -⟩, -⟩, -⟩ := hfault
      have hnew : ∀ x ∈ l, x.lease.id ≠ u.lease.id := fun x hx heq =>
        hfresh x hx (by rw [heq]; exact List.mem_cons_self)
      refine ⟨⟨?_, ?_, ?_⟩, ?_⟩
      · exact List.forall_mem_cons.mpr ⟨hids, hsound.ids⟩
      · rw [List.map_cons, List.nodup_cons]
        refine ⟨fun hmem => ?_, hsound.leases⟩
        obtain ⟨x, hx, heq⟩ := List.mem_map.mp hmem
        exact hnew x hx heq
      · exact List.forall_mem_cons.mpr ⟨⟨by omega, by omega⟩, hsound.amounts⟩
      · refine List.forall_mem_cons.mpr ⟨hseen, fun x hx hmem => ?_⟩
        exact hfresh x hx (List.mem_cons_of_mem _ hmem)

lemma validateProxyPolicy_sound [Platform] {p : GoPolicy} (h : validateProxyPolicy p = true) :
    GoPolicy.Sound (p.users.getD []) := by
  unfold validateProxyPolicy at h
  split_ifs at h
  split at h
  · have hnil : p.users.getD [] = [] := List.length_eq_zero_iff.mp (by simpa using h)
    rw [hnil]
    exact ⟨by simp, by simp, by simp⟩
  · split_ifs at h
    exact (usersLoop_sound h).1

/-! ### Budgets -/

/-- What a policy leaves of a budget: its counters stay, its grant does not shrink. -/
structure EngineBudget.Renewed (b b' : EngineBudget) : Prop where
  id : b'.id = b.id
  used : b'.used = b.used
  reserved : b'.reserved = b.reserved
  grant : b.grant ≤ b'.grant

lemma EngineBudget.Renewed.refl (b : EngineBudget) : b.Renewed b := ⟨rfl, rfl, rfl, le_rfl⟩

lemma EngineBudget.Renewed.trans {a b c : EngineBudget} (h : a.Renewed b) (h' : b.Renewed c) :
    a.Renewed c :=
  ⟨h'.id.trans h.id, h'.used.trans h.used, h'.reserved.trans h.reserved, h.grant.trans h'.grant⟩

/-- A budget as a policy makes it. -/
structure EngineBudget.Fresh (b : EngineBudget) : Prop where
  used : 0 ≤ b.used ∧ b.used ≤ b.grant
  reserved : b.reserved = 0

namespace Manager

/-- The budget of a user in the map. -/
def isBudgetOf (u : GoUser) (b : EngineBudget) : Bool := b.linked && b.id == u.lease.id

lemma isBudgetOf_iff {u : GoUser} {b : EngineBudget} :
    isBudgetOf u b = true ↔ b.linked = true ∧ b.id = u.lease.id := by
  simp [isBudgetOf]

/-- No user of the list lowers the grant of its budget. -/
def Ready (budgets : List EngineBudget) (users : List GoUser) : Prop :=
  ∀ u ∈ users, ∀ (i : ℕ) (b : EngineBudget), budgets.findIdx? (isBudgetOf u) = some i →
    budgets[i]? = some b → b.grant ≤ u.lease.grant

lemma getElem?_of_findIdx? {α : Type*} {q : α → Bool} {l : List α} {i : ℕ}
    (h : l.findIdx? q = some i) : ∃ a, l[i]? = some a ∧ q a = true ∧ l.find? q = some a := by
  induction l generalizing i with
  | nil => simp at h
  | cons a l ih =>
    rw [List.findIdx?_cons] at h
    cases hq : q a with
    | true =>
      rw [hq, if_pos rfl, Option.some.injEq] at h
      subst h
      exact ⟨a, rfl, hq, by rw [List.find?_cons, hq]⟩
    | false =>
      rw [hq, if_neg (by simp), Option.map_eq_some_iff] at h
      obtain ⟨j, hj, rfl⟩ := h
      obtain ⟨x, hx, hqx, hfind⟩ := ih hj
      exact ⟨x, by simpa using hx, hqx, by rw [List.find?_cons, hq]; exact hfind⟩

lemma findIdx?_modify {α : Type*} {q : α → Bool} {f : α → α} (hf : ∀ a, q (f a) = q a)
    (l : List α) (i : ℕ) : (l.modify i f).findIdx? q = l.findIdx? q := by
  induction l generalizing i with
  | nil => cases i <;> rfl
  | cons a l ih =>
    cases i with
    | zero => rw [List.modify_zero_cons, List.findIdx?_cons, List.findIdx?_cons, hf]
    | succ i => rw [List.modify_succ_cons, List.findIdx?_cons, List.findIdx?_cons, ih]

variable {budgets : List EngineBudget}

/-- `budgetCheck` finds what would lower a grant. -/
lemma ready_of_budgetCheck {users : List GoUser} {added : ℕ}
    (h : budgetCheck budgets users = some added) : Ready budgets users := by
  induction users generalizing added with
  | nil => exact fun u hu => absurd hu (by simp)
  | cons u users ih =>
    have hrest : ∃ n, budgetCheck budgets users = some n := by
      rw [budgetCheck] at h
      split at h
      · split_ifs at h
        exact ⟨_, h⟩
      · obtain ⟨n, hn, -⟩ := Option.map_eq_some_iff.mp h
        exact ⟨n, hn⟩
    obtain ⟨n, hn⟩ := hrest
    refine List.forall_mem_cons.mpr ⟨fun i b hi hb => ?_, ih hn⟩
    obtain ⟨x, hx, -, hfind⟩ := getElem?_of_findIdx? hi
    rw [hb, Option.some.injEq] at hx
    subst hx
    have hfind' : budgets.find? (fun b => b.linked && b.id == u.lease.id) = some b := hfind
    rw [budgetCheck, hfind'] at h
    dsimp only at h
    split_ifs at h with hbad
    simp only [Bool.or_eq_true, not_or, decide_eq_true_eq] at hbad
    omega

lemma ready_map {users : List GoUser} {f : EngineBudget → EngineBudget}
    (hid : ∀ b, (f b).id = b.id) (hlinked : ∀ b, (f b).linked = b.linked)
    (hgrant : ∀ b, (f b).grant = b.grant) (h : Ready budgets users) : Ready (budgets.map f) users := by
  intro u hu i b hi hb
  have hsame : isBudgetOf u ∘ f = isBudgetOf u := by
    funext b
    simp [isBudgetOf, hid, hlinked]
  rw [List.findIdx?_map, hsame] at hi
  obtain ⟨x, hx, rfl⟩ := Option.map_eq_some_iff.mp (by simpa using hb)
  rw [hgrant]
  exact h u hu i x hi hx

/-- What placing a budget does, whether it was there or is new. -/
structure BudgetPlaced (u : GoUser) (budgets budgets' : List EngineBudget) (i : ℕ) : Prop where
  here : ∃ b, budgets'[i]? = some b ∧ b.id = u.lease.id
  old : Rows.Grows EngineBudget.Renewed budgets budgets'
  new : ∀ (j : ℕ) (b : EngineBudget), budgets'[j]? = some b → budgets.length ≤ j → b.Fresh
  ready : ∀ users, Ready budgets users → (∀ x ∈ users, x.lease.id ≠ u.lease.id) → Ready budgets' users

lemma placeBudget_placed {u : GoUser} (hready : Ready budgets [u])
    (hused : 0 ≤ u.lease.used ∧ u.lease.used ≤ u.lease.grant) :
    BudgetPlaced u budgets (placeBudget budgets u).2 (placeBudget budgets u).1 := by
  unfold placeBudget
  have hmatch : ∀ x : GoUser, (fun b : EngineBudget => b.linked && b.id == x.lease.id) =
    isBudgetOf x := fun _ => rfl
  rw [hmatch]
  cases hfind : budgets.findIdx? (isBudgetOf u) with
  | some i =>
    obtain ⟨b, hb, hof, -⟩ := getElem?_of_findIdx? hfind
    have hid := (isBudgetOf_iff.mp hof).2
    have hgrant := hready u (by simp) i b hfind hb
    dsimp only
    have hrow : (budgets.modify i fun b => { b with grant := u.lease.grant, active := true })[i]? =
        some { b with grant := u.lease.grant, active := true } := by
      rw [List.getElem?_modify_eq, hb]
      rfl
    refine ⟨⟨_, hrow, hid⟩, fun j x hx => ?_, fun j x hx hj => ?_, fun users hr hne => ?_⟩
    · by_cases hij : i = j
      · subst hij
        rw [hb, Option.some.injEq] at hx
        subst hx
        exact ⟨_, hrow, rfl, rfl, rfl, hgrant⟩
      · exact ⟨x, by rw [List.getElem?_modify_ne _ _ hij, hx], .refl x⟩
    · have hlt := (List.getElem?_eq_some_iff.mp hx).1
      rw [List.length_modify] at hlt
      omega
    · intro v hv j x hj hx
      have hsame : (budgets.modify i fun b => { b with grant := u.lease.grant, active := true }).findIdx?
          (isBudgetOf v) = budgets.findIdx? (isBudgetOf v) := by
        apply findIdx?_modify
        exact fun _ => rfl
      rw [hsame] at hj
      by_cases hij : i = j
      · subst hij
        obtain ⟨y, hy, hofy, -⟩ := getElem?_of_findIdx? hj
        rw [hb, Option.some.injEq] at hy
        subst hy
        exact absurd ((isBudgetOf_iff.mp hofy).2.symm.trans hid) (hne v hv)
      · rw [List.getElem?_modify_ne _ _ hij] at hx
        exact hr v hv j x hj hx
  | none =>
    refine ⟨⟨_, List.getElem?_concat_length, rfl⟩, grows_append .refl _ _, fun j x hx hj => ?_,
      fun users hr hne => ?_⟩
    · rw [List.getElem?_append_right hj] at hx
      have hx' := List.mem_of_getElem? hx
      rw [List.mem_singleton] at hx'
      subst hx'
      exact ⟨hused, rfl⟩
    · intro v hv j x hj hx
      have hnew : isBudgetOf v ⟨u.lease.id, u.id, u.epoch, u.lease.grant, u.lease.used, 0, true, 0,
          true⟩ = false := by
        simpa [isBudgetOf] using (hne v hv).symm
      rw [List.findIdx?_append, List.findIdx?_singleton, hnew] at hj
      have hj' : budgets.findIdx? (isBudgetOf v) = some j := by simpa using hj
      obtain ⟨y, hy, -⟩ := getElem?_of_findIdx? hj'
      rw [List.getElem?_append_left (List.getElem?_eq_some_iff.mp hy).1] at hx
      exact hr v hv j x hj' hx

/-! ### Devices -/

/-- When the right of a device ends: with the lease, or before it with its own expiry. -/
def expiry (lease : GoLease) (d : GoDevice) : ℤ :=
  if d.expires.getD 0 ≠ 0 then min lease.expires (d.expires.getD 0) else lease.expires

/-- The deadline that `placeDevice` computes. -/
lemma proxyDeadline_ttl (start : ℤ) (lease : GoLease) (gd : GoDevice) (generated : ℤ) :
    proxyDeadline start (generated + (if gd.expires.getD 0 ≠ 0 ∧
      gd.expires.getD 0 - generated < lease.expires - generated then gd.expires.getD 0 - generated
      else lease.expires - generated)) generated =
      start + (expiry lease gd - generated - 1) * 1000000000 := by
  unfold proxyDeadline expiry
  split_ifs <;> omega

/-- What stays of a device while a policy is placed. -/
structure Kept (d d' : EngineDevice) : Prop where
  id : d'.id = d.id
  token : d'.token = d.token
  budget : d'.budget = d.budget
  linked : d'.linked = d.linked

lemma Kept.refl (d : EngineDevice) : Kept d d := ⟨rfl, rfl, rfl, rfl⟩

lemma Kept.trans {a b c : EngineDevice} (h : Kept a b) (h' : Kept b c) : Kept a c :=
  ⟨h'.id.trans h.id, h'.token.trans h.token, h'.budget.trans h.budget, h'.linked.trans h.linked⟩

/-- What a device keeps through everything: its names, and that it is out of the map and inactive. -/
structure Follows (d d' : EngineDevice) : Prop where
  id : d'.id = d.id
  token : d'.token = d.token
  budget : d'.budget = d.budget
  gone : d.linked = false → d.active = false → d'.linked = false ∧ d'.active = false

lemma Follows.trans {a b c : EngineDevice} (h : Follows a b) (h' : Follows b c) : Follows a c :=
  ⟨h'.id.trans h.id, h'.token.trans h.token, h'.budget.trans h.budget, fun hl ha =>
    h'.gone (h.gone hl ha).1 (h.gone hl ha).2⟩

variable [Platform]

/-- A policy lists a device of the engine, under its budget. -/
structure Lists (p : GoPolicy) (u : GoUser) (gd : GoDevice) (d : EngineDevice) (b : EngineBudget) :
    Prop where
  user : u ∈ p.users.getD []
  device : gd ∈ u.devices.getD []
  lease : u.lease.id = b.id
  id : gd.id = d.id
  token : token gd = d.token

/-- The device as a policy that was asked for at `start` has placed it. -/
def Placed (p : GoPolicy) (start : ℤ) (budgets : List EngineBudget) (d : EngineDevice) : Prop :=
  ∃ u gd b, budgets[d.budget]? = some b ∧ Lists p u gd d b ∧
    d.deadline = start + (expiry u.lease gd - p.generated - 1) * 1000000000

/-- The token of a device is made of its identifier and of a key. -/
def Named (d : EngineDevice) : Prop :=
  ∃ gd : GoDevice, proxyID gd.id = true ∧ d.id = gd.id ∧ d.token = token gd

lemma takeWhile_token {d : GoDevice} (h : proxyID d.id = true) :
    (token d).takeWhile (· != 0x3A) = d.id := by
  have hno : ∀ c ∈ d.id, (c != 0x3A) = true := by
    intro c hc
    rw [proxyID, Bool.and_eq_true, List.all_eq_true] at h
    have hbyte := h.2 c hc
    rw [bne_iff_ne]
    rintro rfl
    exact absurd hbyte (by decide)
  rw [token, List.takeWhile_append_of_pos hno]
  simp

lemma id_eq_of_token {gd : GoDevice} {d : EngineDevice} (hd : Named d) (hgd : proxyID gd.id = true)
    (h : token gd = d.token) : gd.id = d.id := by
  obtain ⟨x, hx, hid, htoken⟩ := hd
  rw [← takeWhile_token hgd, h, htoken, takeWhile_token hx, hid]

/-- How far the loops of `apply` have come, from the objects that were there. -/
structure Building (p : GoPolicy) (start : ℤ) (bs : List EngineBudget) (ds : List EngineDevice)
    (s : Build) : Prop where
  budgets : Rows.Grows EngineBudget.Renewed bs s.budgets
  fresh : ∀ (i : ℕ) (b : EngineBudget), s.budgets[i]? = some b → bs.length ≤ i → b.Fresh
  devices : Rows.Grows Kept ds s.devices
  named : ∀ d ∈ s.devices, Named d
  /-- What is next was in the map or is new, and has its place in the policy. -/
  next : ∀ i ∈ s.next, (∀ d, ds[i]? = some d → d.linked = true) ∧
    ∃ d, s.devices[i]? = some d ∧ Placed p start s.budgets d
  rest : ∀ (i : ℕ) (d : EngineDevice), s.devices[i]? = some d → i ∉ s.next → ds[i]? = some d

section Placing

variable {p : GoPolicy} {start : ℤ} {bs bs' : List EngineBudget} {ds : List EngineDevice}
  {s : Build}

lemma Placed.grows {d : EngineDevice} (h : Placed p start bs d)
    (hb : Rows.Grows EngineBudget.Renewed bs bs') : Placed p start bs' d := by
  obtain ⟨u, gd, b, hget, hlists, hdeadline⟩ := h
  obtain ⟨b', hget', hnew⟩ := hb _ b hget
  exact ⟨u, gd, b', hget', ⟨hlists.user, hlists.device, by rw [hnew.id, hlists.lease], hlists.id,
    hlists.token⟩, hdeadline⟩

variable {u : GoUser} {i : ℕ} {b : EngineBudget}

lemma Building.afterDevice (h : Building p start bs ds s) (now : ℤ)
    (hu : u ∈ p.users.getD []) (hb : s.budgets[i]? = some b)
    (hid : b.id = u.lease.id) {gd : GoDevice} (hgd : gd ∈ u.devices.getD [])
    (hname : proxyID gd.id = true) (x : EngineBudget) :
    Building p start bs ds (placeDevice p start now u.lease i x s gd) := by
  unfold Manager.placeDevice
  dsimp only
  rw [proxyDeadline_ttl]
  obtain ⟨active, hactive⟩ : ∃ active, active = (decide (now < start +
    (expiry u.lease gd - p.generated - 1) * 1000000000) && decide (x.used < x.grant)) := ⟨_, rfl⟩
  rw [← hactive]
  cases hfind : s.devices.findIdx? fun x => x.linked && x.token == token gd && x.budget == i with
  | some j =>
    obtain ⟨d, hd, hof, -⟩ := getElem?_of_findIdx? hfind
    simp only [Bool.and_eq_true, beq_iff_eq] at hof
    obtain ⟨⟨hlinked, htoken⟩, rfl⟩ := hof
    have hkept : List.Forall₂ Kept s.devices (s.devices.modify j fun x => { x with
        deadline := start + (expiry u.lease gd - p.generated - 1) * 1000000000
        active := active }) :=
      forall₂_modify .refl (fun _ => ⟨rfl, rfl, rfl, rfl⟩) _ _
    refine ⟨h.budgets, h.fresh, h.devices.trans Kept.trans (grows_of_forall₂ hkept), ?_, ?_, ?_⟩
    · intro x hx
      obtain ⟨k, hk⟩ := List.getElem?_of_mem hx
      obtain ⟨y, hy, hyx⟩ := row_of_forall₂ hkept hk
      obtain ⟨z, hz, hzid, hztoken⟩ := h.named y (List.mem_of_getElem? hy)
      exact ⟨z, hz, hyx.id.trans hzid, hyx.token.trans hztoken⟩
    · intro k hk
      by_cases hjk : j = k
      · subst hjk
        refine ⟨fun d₀ hd₀ => ?_, { d with
          deadline := start + (expiry u.lease gd - p.generated - 1) * 1000000000
          active := active }, by rw [List.getElem?_modify_eq, hd]; rfl, u, gd, b, hb, ?_, rfl⟩
        · obtain ⟨d', hd', hkeep⟩ := h.devices j d₀ hd₀
          rw [hd, Option.some.injEq] at hd'
          subst hd'
          rw [← hkeep.linked, hlinked]
        · exact ⟨hu, hgd, hid.symm,
            id_eq_of_token (h.named d (List.mem_of_getElem? hd)) hname htoken.symm, htoken.symm⟩
      · have hk' : k ∈ s.next := (List.mem_cons.mp hk).resolve_left (Ne.symm hjk)
        rw [List.getElem?_modify_ne _ _ hjk]
        exact h.next k hk'
    · intro k x hx hk
      rw [List.mem_cons, not_or] at hk
      rw [List.getElem?_modify_ne _ _ (Ne.symm hk.1)] at hx
      exact h.rest k x hx hk.2
  | none =>
    have hlength : ∀ (k : ℕ) (d : EngineDevice), ds[k]? = some d → k < s.devices.length := by
      intro k d hd
      obtain ⟨d', hd', -⟩ := h.devices k d hd
      exact (List.getElem?_eq_some_iff.mp hd').1
    refine ⟨h.budgets, h.fresh, h.devices.trans Kept.trans (grows_append .refl _ _), ?_, ?_, ?_⟩
    · intro x hx
      rcases List.mem_append.mp hx with hx | hx
      · exact h.named x hx
      · rw [List.mem_singleton.mp hx]
        exact ⟨gd, hname, rfl, rfl⟩
    · intro k hk
      rcases List.mem_cons.mp hk with rfl | hk
      · refine ⟨fun d hd => absurd (hlength _ d hd) (lt_irrefl _), _, List.getElem?_concat_length, u, gd,
          b, hb, ⟨hu, hgd, hid.symm, rfl, rfl⟩, rfl⟩
      · obtain ⟨hold, d, hd, hplaced⟩ := h.next k hk
        exact ⟨hold, d, by rw [List.getElem?_append_left (List.getElem?_eq_some_iff.mp hd).1, hd],
          hplaced⟩
    · intro k x hx hk
      rw [List.mem_cons, not_or] at hk
      have hlt := (List.getElem?_eq_some_iff.mp hx).1
      rw [List.length_append, List.length_singleton] at hlt
      rw [List.getElem?_append_left (by omega)] at hx
      exact h.rest k x hx hk.2

lemma Building.afterBudget (h : Building p start bs ds s)
    {budgets : List EngineBudget} (hplaced : BudgetPlaced u s.budgets budgets i) :
    Building p start bs ds { s with budgets := budgets } := by
  refine ⟨h.budgets.trans EngineBudget.Renewed.trans hplaced.old, fun j b hb hj => ?_, h.devices,
    h.named, fun k hk => ?_, h.rest⟩
  · by_cases hlt : s.budgets.length ≤ j
    · exact hplaced.new j b hb hlt
    · obtain ⟨b₀, hb₀⟩ : ∃ b₀, s.budgets[j]? = some b₀ := ⟨_, List.getElem?_eq_getElem (by omega)⟩
      obtain ⟨b', hb', hnew⟩ := hplaced.old j b₀ hb₀
      rw [hb, Option.some.injEq] at hb'
      subst hb'
      obtain ⟨⟨h0, hle⟩, hres⟩ := h.fresh j b₀ hb₀ hj
      have hgrant := hnew.grant
      exact ⟨⟨by rw [hnew.used]; exact h0, by rw [hnew.used]; omega⟩, by rw [hnew.reserved, hres]⟩
  · obtain ⟨hold, d, hd, hp⟩ := h.next k hk
    exact ⟨hold, d, hd, hp.grows hplaced.old⟩

lemma placeDevice_budgets (p : GoPolicy) (start now : ℤ) (lease : GoLease) (i : ℕ)
    (b : EngineBudget) (s : Build) (d : GoDevice) :
    (placeDevice p start now lease i b s d).budgets = s.budgets := by
  unfold Manager.placeDevice
  dsimp only
  split <;> rfl

lemma Building.afterDevices (h : Building p start bs ds s) (now : ℤ)
    (hu : u ∈ p.users.getD []) (hb : s.budgets[i]? = some b)
    (hid : b.id = u.lease.id) {l : List GoDevice} (hl : ∀ gd ∈ l, gd ∈ u.devices.getD [])
    (hname : ∀ gd ∈ l, proxyID gd.id = true) (x : EngineBudget) :
    Building p start bs ds (l.foldl (placeDevice p start now u.lease i x) s) ∧
      (l.foldl (placeDevice p start now u.lease i x) s).budgets = s.budgets := by
  induction l generalizing s with
  | nil => exact ⟨h, rfl⟩
  | cons gd l ih =>
    rw [List.forall_mem_cons] at hl hname
    have hkeep := placeDevice_budgets p start now u.lease i x s gd
    obtain ⟨hbuild, hsame⟩ := ih (h.afterDevice now hu hb hid hl.1 hname.1 x) (by rw [hkeep]; exact hb)
      hl.2 hname.2
    exact ⟨hbuild, hsame.trans hkeep⟩

lemma Building.afterUsers (h : Building p start bs ds s) (now : ℤ) {users : List GoUser}
    (husers : ∀ u ∈ users, u ∈ p.users.getD []) (hsound : GoPolicy.Sound users)
    (hready : Ready s.budgets users) :
    Building p start bs ds (users.foldl (placeUser p start now) s) := by
  induction users generalizing s with
  | nil => exact h
  | cons u users ih =>
    rw [List.forall_mem_cons] at husers
    have hplaced := placeBudget_placed (fun v hv => hready v (by simp_all)) (hsound.amounts u (by simp))
    obtain ⟨b, hb, hid⟩ := hplaced.here
    obtain ⟨hbuild, hsame⟩ := (h.afterBudget hplaced).afterDevices now husers.1 hb hid
      (fun _ hgd => hgd) (hsound.ids u (by simp)) ((placeBudget s.budgets u).2.getD
        (placeBudget s.budgets u).1 ⟨[], [], 0, 0, 0, 0, false, 0, false⟩)
    have hnodup := List.nodup_cons.mp hsound.leases
    refine ih hbuild husers.2 ⟨fun v hv => hsound.ids v (by simp [hv]), hnodup.2,
      fun v hv => hsound.amounts v (by simp [hv])⟩ (hsame ▸ ?_)
    refine hplaced.ready users (fun v hv => hready v (by simp [hv])) fun v hv heq => hnodup.1 ?_
    exact List.mem_map.mpr ⟨v, hv, heq⟩

end Placing

/-! ### The whole policy -/

/-- The manager behind a policy that became its state. -/
structure Installed (p : GoPolicy) (m m' : Manager) : Prop where
  budgets : Rows.Grows EngineBudget.Renewed m.budgets m'.budgets
  fresh : ∀ (i : ℕ) (b : EngineBudget), m'.budgets[i]? = some b → m.budgets.length ≤ i → b.Fresh
  conns : m'.conns = m.conns
  devices : Rows.Grows Follows m.devices m'.devices
  named : ∀ d ∈ m'.devices, Named d
  linked : ∀ d ∈ m'.devices, d.linked = true → Placed p m.pendingStart m'.budgets d
  active : ∀ d ∈ m'.devices, d.active = true → d.linked = true

/-- The device in the map that `apply` has built. -/
def marked (next : List ℕ) (i : ℕ) (d : EngineDevice) : EngineDevice :=
  { d with
    active := if d.linked && !next.contains i then false else d.active
    linked := next.contains i }

lemma Installed.of_building {p : GoPolicy} {m : Manager} {s : Build} {m' : Manager}
    (h : Building p m.pendingStart m.budgets m.devices s) (hbudgets : m'.budgets = s.budgets)
    (hconns : m'.conns = m.conns)
    (hdevices : m'.devices = s.devices.mapIdx (marked s.next))
    (hactive : ∀ d ∈ m.devices, d.active = true → d.linked = true) : Installed p m m' := by
  have hrow : ∀ d ∈ m'.devices, ∃ (i : ℕ) (d₀ : EngineDevice), s.devices[i]? = some d₀ ∧
      d = marked s.next i d₀ := by
    intro d hd
    obtain ⟨i, hi⟩ := List.getElem?_of_mem hd
    rw [hdevices, List.getElem?_mapIdx, Option.map_eq_some_iff] at hi
    obtain ⟨d₀, hd₀, rfl⟩ := hi
    exact ⟨i, d₀, hd₀, rfl⟩
  refine ⟨by rw [hbudgets]; exact h.budgets, by rw [hbudgets]; exact h.fresh, hconns,
    fun i d hd => ?_, fun d hd => ?_, fun d hd hl => ?_, fun d hd ha => ?_⟩
  · obtain ⟨d', hd', hkept⟩ := h.devices i d hd
    refine ⟨marked s.next i d', by rw [hdevices, List.getElem?_mapIdx, hd']; rfl,
      hkept.id, hkept.token, hkept.budget,
      fun hl ha => ?_⟩
    have hout : i ∉ s.next := fun hi => by
      rw [(h.next i hi).1 d hd] at hl
      exact absurd hl (by simp)
    have hsame := h.rest i d' hd' hout
    rw [hd, Option.some.injEq] at hsame
    subst hsame
    simp [marked, hout, ha]
  · obtain ⟨i, d₀, hd₀, rfl⟩ := hrow d hd
    exact h.named d₀ (List.mem_of_getElem? hd₀)
  · obtain ⟨i, d₀, hd₀, rfl⟩ := hrow d hd
    obtain ⟨-, x, hx, hplaced⟩ := h.next i (by simpa [marked] using hl)
    rw [hd₀, Option.some.injEq] at hx
    subst hx
    rw [hbudgets]
    obtain ⟨u, gd, b, hb, hlists, hdeadline⟩ := hplaced
    exact ⟨u, gd, b, hb, ⟨hlists.user, hlists.device, hlists.lease, hlists.id, hlists.token⟩, hdeadline⟩
  · obtain ⟨i, d₀, hd₀, rfl⟩ := hrow d hd
    by_contra hl
    have hout : i ∉ s.next := by simpa [marked] using hl
    have hold := hactive d₀ (List.mem_of_getElem? (h.rest i d₀ hd₀ hout))
    cases hlinked : d₀.linked <;> simp [marked, hout, hlinked] at ha
    exact absurd (hold ha) (by simp [hlinked])

lemma install_installed {p : GoPolicy} {m : Manager} (hsound : GoPolicy.Sound (p.users.getD []))
    {added : ℕ} (hcheck : budgetCheck m.budgets (p.users.getD []) = some added)
    (hnamed : ∀ d ∈ m.devices, Named d)
    (hactive : ∀ d ∈ m.devices, d.active = true → d.linked = true) (now : ℤ) :
    Installed p m (m.install p now).1 := by
  obtain ⟨inactive, hinactive⟩ : ∃ l, l = m.budgets.map fun b =>
    if b.linked then { b with active := false } else b := ⟨_, rfl⟩
  have hfields : ∀ b : EngineBudget, (if b.linked then { b with active := false } else b).id = b.id ∧
      (if b.linked then { b with active := false } else b).linked = b.linked ∧
      (if b.linked then { b with active := false } else b).grant = b.grant ∧
      b.Renewed (if b.linked then { b with active := false } else b) := by
    intro b
    split_ifs
    · exact ⟨rfl, rfl, rfl, rfl, rfl, rfl, le_rfl⟩
    · exact ⟨rfl, rfl, rfl, .refl b⟩
  have hready : Ready inactive (p.users.getD []) := by
    rw [hinactive]
    exact ready_map (fun b => (hfields b).1) (fun b => (hfields b).2.1) (fun b => (hfields b).2.2.1)
      (ready_of_budgetCheck hcheck)
  have hstart : Building p m.pendingStart m.budgets m.devices ⟨inactive, m.devices, []⟩ := by
    refine ⟨?_, fun i b hb hi => ?_, .refl .refl _, hnamed, by simp, fun i d hd _ => hd⟩
    · rw [hinactive]
      exact grows_of_forall₂ (forall₂_map (fun b => (hfields b).2.2.2) _)
    · have hlt := (List.getElem?_eq_some_iff.mp hb).1
      rw [hinactive, List.length_map] at hlt
      omega
  unfold install
  dsimp only
  rw [← hinactive]
  split
  · exact .of_building hstart rfl rfl rfl hactive
  · have hbuilt := hstart.afterUsers now (fun _ hu => hu) hsound hready
    split_ifs
    · exact .of_building hbuilt rfl rfl rfl hactive
    · exact .of_building hbuilt rfl rfl rfl hactive

end Manager

end SbEasy
