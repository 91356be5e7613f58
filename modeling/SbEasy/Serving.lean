import SbEasy.Keys
import SbEasy.LeaseHosts
import SbEasy.Limits
import SbEasy.Node
import SbEasy.PolicyDecode
import SbEasy.Sessions

/-!
Every response of the center passes the checks of the node that asked for it, in C and in Go.
-/

namespace SbEasy

open Center JsonParse Tx

/-! ### The users of a policy -/

lemma nodup_of_forall₂ {α β κ ι : Type} {R : α → β → Prop} {f : α → κ} {g : β → ι} {as : List α}
    {bs : List β} (h : List.Forall₂ R as bs) (hnd : (as.map f).Nodup)
    (hinj : ∀ a b a' b', R a b → R a' b' → g b = g b' → f a = f a') : (bs.map g).Nodup := by
  induction h with
  | nil => exact List.nodup_nil
  | @cons a b as bs hab hrest ih =>
    rw [List.map_cons, List.nodup_cons] at hnd ⊢
    refine ⟨fun hmem => ?_, ih hnd.2⟩
    obtain ⟨b', hb', he⟩ := List.mem_map.mp hmem
    obtain ⟨a', ha', hr⟩ := exists_of_forall₂ hrest hb'
    exact hnd.1 (hinj a' b' a b hr hab he ▸ List.mem_map_of_mem ha')

variable {db : Db} {host boot : Bytes} {seq now : ℤ} {l l' : List ProxyLease}
  {us : List ProxyUser} {ps : List UserPolicy}

lemma nodup_policyDevices {key : ProxyDevice → Bytes} {g : DevicePolicy → Bytes}
    (hg : ∀ x, g ⟨x.id, x.expiresAt, x.password⟩ = key x) (hkey : (db.devices.map key).Nodup)
    (hus : (us.map ProxyUser.id).Nodup) :
    ((us.flatMap fun u => policyDevices db u.id now).map g).Nodup := by
  have hrow : ∀ user, (policyDevices db user now).map g =
      (orderBy ProxyDevice.id (db.devices.filter (Db.activeDevice user now))).map key := by
    intro user
    rw [policyDevices, List.map_map]
    exact List.map_congr_left fun x _ => hg x
  rw [List.map_flatMap, List.nodup_flatMap]
  constructor
  · intro u _
    rw [hrow, ((orderBy_perm _ _).map _).nodup_iff]
    exact hkey.sublist (List.filter_sublist.map _)
  · refine (List.pairwise_map.mp hus).imp fun {u v} huv => ?_
    intro k hku hkv
    rw [List.mem_map] at hku hkv
    obtain ⟨d, hd, rfl⟩ := hku
    obtain ⟨d', hd', he⟩ := hkv
    obtain ⟨x, hx, hxu, -, -, rfl⟩ := mem_policyDevices hd
    obtain ⟨y, hy, hyv, -, -, rfl⟩ := mem_policyDevices hd'
    rw [hg, hg] at he
    have hxy := List.inj_on_of_nodup_map hkey hy hx he
    exact huv (hxu.symm.trans (hxy ▸ hyv))

lemma length_policyDevices (db : Db) (user : Bytes) (now : ℤ) :
    (policyDevices db user now).length = db.activeDevices user now := by
  rw [policyDevices, List.length_map, (orderBy_perm _ _).length_eq, Db.activeDevices,
    List.countP_eq_length_filter]

lemma length_hostUsers (db : Db) (host : Bytes) (now : ℤ) :
    (hostUsers db host now).length ≤ db.activeUsers := by
  rw [hostUsers, (orderBy_perm _ _).length_eq, ← List.countP_eq_length_filter, Db.activeUsers]
  apply List.countP_mono_left
  intro u _ hu
  simp only [Bool.and_eq_true] at hu
  exact hu.1.2

lemma policyDevices_good [Platform] (hr : Records db) {user : Bytes} :
    ∀ d ∈ policyDevices db user now, d.Good now := by
  intro d hd
  obtain ⟨x, hx, -, -, hlive, rfl⟩ := mem_policyDevices hd
  have hrow := hr.devices x hx
  exact ⟨hrow.id.proxyID, hrow.key, hrow.expiry.1, hrow.expiry.2, hlive⟩

section

variable [Platform]

lemma issued_good {u : ProxyUser} {q : UserPolicy} (hr : Records db) (hb : Budget db.users l)
    (hl : ∀ r ∈ l, IsUuid r.id) (hlim : Limits db now) (hu : u ∈ hostUsers db host now)
    (h : Issued db host boot now l u q) : q.Good now (now + leaseSeconds) := by
  obtain ⟨humem, -, -, hlive, -⟩ := mem_hostUsers hu
  obtain ⟨⟨r, hrmem, hkey, hid, hgrant, hused⟩, ⟨hqid, hqepoch⟩, hroom, hexp, ⟨hdev, hne⟩, -⟩ := h
  have hrow := hr.users u humem
  simp only [ProxyLease.key, Prod.mk.injEq] at hkey
  have hle := hb.grant_le hrmem humem hkey.1 hkey.2.2.2
  have hcount := hb.counters r hrmem
  have huntil := leaseUntil_le u now
  have hlength := length_policyDevices db u.id now
  have hpos := List.length_pos_of_ne_nil hne
  have hmax := hlim.devices u humem
  have hrange := hlim.range u humem
  refine ⟨hqid ▸ hrow.id.proxyID, hqepoch ▸ hrow.epoch, hid ▸ (hl r hrmem).proxyID, ?_, ?_, ?_, ?_, ?_⟩
  · omega
  · omega
  · rw [hexp]
    exact ⟨huntil.2 hlive, huntil.1⟩
  · rw [hdev]
    omega
  · rw [hdev]
    exact policyDevices_good hr

omit [Platform] in
lemma ne_zero_of_textOk {s : Bytes} {limit : ℕ} {identifier : Bool}
    (h : textOk (some (.str s)) limit identifier = true) : ∀ c ∈ s, c ≠ 0 := by
  simp only [textOk, Bool.and_eq_true, List.all_eq_true, Bool.not_eq_true',
    Bool.or_eq_false_iff, decide_eq_false_iff_not] at h
  rintro c hc rfl
  exact (h.2 0 hc).1.1 (by decide)

/-- A policy that a node will take, whose leases all have room. -/
structure Policy.Served (p : Policy) : Prop where
  good : p.Good
  typed : p.Typed
  boot : proxyID p.bootId = true
  seq : 1 ≤ p.requestSeq ∧ p.requestSeq ≤ safeInteger
  room : ∀ u ∈ p.users, u.lease.usedBytes < u.lease.grantBytes

lemma served_good {p : Policy} (hr : Records db) (hb : Budget db.users l)
    (hl : ∀ r ∈ l, IsUuid r.id) (hk : Keys db) (hlim : Limits db now) (hhost : proxyID host = true)
    (hnow : 1 ≤ now ∧ now ≤ 4102444740) (h : Served db host boot seq now l p l') :
    p.Good ∧ ∀ u ∈ p.users, u.lease.usedBytes < u.lease.grantBytes := by
  have hexpires : now < now + leaseSeconds ∧ now + leaseSeconds ≤ now + 60 := by
    unfold leaseSeconds; omega
  cases h with
  | none =>
    refine ⟨⟨hhost, ⟨hnow.1, by change now ≤ 4102444800; omega⟩, hexpires, ?_, ?_, ?_, ?_, ?_, ?_, ?_,
      ?_, ?_⟩, ?_⟩ <;> simp [Policy.devices]
  | @some _ ps node hfound _ _ hleased =>
    have hus : ∀ v ∈ hostUsers db host now, v ∈ db.users := fun v hv => (mem_hostUsers hv).1
    have hb' := (hb.leased hus hleased).1
    have hl' := leased_uuid hl hleased
    have hnd := hostUsers_nodup hb.userIds host now
    obtain ⟨vs, hsub, hall⟩ := leased_issued hb hus hnd hleased
    have hvs : (vs.map ProxyUser.id).Nodup := hnd.sublist (hsub.map _)
    have hnode := hr.ingress node (List.mem_of_find?_eq_some hfound)
    have hdevices : ps.flatMap UserPolicy.devices = vs.flatMap fun u => policyDevices db u.id now := by
      clear hsub hvs hleased
      induction hall with
      | nil => rfl
      | cons hq _ ih => rw [List.flatMap_cons, List.flatMap_cons, ih, hq.devices.1]
    have hcount : ps.length ≤ 256 := by
      have := hsub.length_le
      have := length_hostUsers db host now
      have := hall.length_eq
      have := hlim.users
      omega
    refine ⟨⟨hhost, ⟨hnow.1, by change now ≤ 4102444800; omega⟩, hexpires, hcount, by simp, ?_, ?_,
      ?_, ?_, ?_, ?_, ?_⟩, ?_⟩
    · intro n hn
      cases hn
      exact ⟨⟨ne_zero_of_textOk hnode.listen.1, hnode.listen.2⟩, hnode.port, hnode.key⟩
    · intro q hq
      obtain ⟨u, hu, hq⟩ := exists_of_forall₂ hall hq
      exact issued_good hr hb' hl' hlim (hsub.subset hu) hq
    · refine nodup_of_forall₂ hall hvs fun u q v q' hq hq' he => ?_
      exact hq.user.1.symm.trans (he.trans hq'.user.1)
    · refine nodup_of_forall₂ hall hvs fun u q v q' hq hq' he => ?_
      obtain ⟨r, hr, hkey, hid, -⟩ := hq.row
      obtain ⟨r', hr', hkey', hid', -⟩ := hq'.row
      have hrr := hb'.eq_of_id hr hr' (hid.symm.trans (he.trans hid'))
      rw [hrr, hkey'] at hkey
      exact (Prod.mk.inj hkey).1.symm
    · rw [Policy.devices, hdevices]
      exact nodup_policyDevices (fun _ => rfl) hk.ids hvs
    · rw [Policy.devices, hdevices]
      exact nodup_policyDevices (fun _ => rfl) hk.passwords hvs
    · intro n hn d hd
      cases hn
      rw [Policy.devices, hdevices] at hd
      obtain ⟨u, -, hd⟩ := List.mem_flatMap.mp hd
      obtain ⟨x, hx, -, -, -, rfl⟩ := mem_policyDevices hd
      exact hk.server node (List.mem_of_find?_eq_some hfound) x hx
    · intro q hq
      obtain ⟨u, -, hq⟩ := exists_of_forall₂ hall hq
      exact hq.room

/-! ### Runs -/

/-- What the policies of the center rest on, at a time. -/
structure Serving (db : Db) (t : ℤ) : Prop where
  budget : Budget db.users db.leases
  records : Records db
  limits : Limits db t
  keys : Keys db
  hosts : ∀ x ∈ db.hosts, proxyID x.id = true
  stored : Stored Policy.Served db

namespace Serving

variable {c : Call} {request : Sbj} {p : Policy}

lemma served (h : Serving db c.now) (ha : Accepts c db host request p) : p.Served := by
  obtain ⟨l, l', hrep, hserved, -⟩ := ha.applied
  obtain ⟨hboot, hseq, hnow⟩ := requestOk_spec ha.ok.envelope
  obtain ⟨x, hx, hid, -⟩ := ha.ok.host
  obtain ⟨-, hpboot, hpseq⟩ := served_names hserved
  have hb := (h.budget.reported hrep).1
  have hhost : proxyID host = true := hid ▸ h.hosts x hx
  have hl := reported_uuid hrep h.records.leases
  obtain ⟨hgood, hroom⟩ := served_good h.records hb hl h.keys h.limits hhost hnow hserved
  refine ⟨hgood, ?_, hpboot ▸ proxyID_of_textOk hboot, hpseq ▸ hseq, hroom⟩
  exact served_typed h.records hb hl (valid_of_proxyID hhost) (valid_of_textOk hboot) hseq hnow hserved

lemma step (h : Serving db c.now) (hu : FreshUserIds db c) (hk : FreshKeys db c)
    (hc : HostIds (fun id => proxyID id = true) c) : Serving (c.next db) c.now where
  budget := (budget_step h.budget hu).1
  records := records_step h.records
  limits := limits_step h.limits hu
  keys := keys_step h.keys hk
  hosts := hosts_step (fun _ hid => hid.proxyID) h.hosts hc
  stored := stored_step h.stored fun _ _ _ ha => h.served ha

end Serving

/-- One call, at a time not before the last one, with names and keys that are not in use. -/
def ServingStep (s s' : Db × ℤ) : Prop :=
  ∃ c : Call, s.2 ≤ c.now ∧ FreshUserIds s.1 c ∧ FreshKeys s.1 c ∧
    HostIds (fun id => proxyID id = true) c ∧ s' = (c.next s.1, c.now)

lemma serving_run {hosts : List Host} (hhosts : ∀ x ∈ hosts, proxyID x.id = true) {t₀ : ℤ}
    {s : Db × ℤ} (h : Relation.ReflTransGen ServingStep (Db.fresh hosts, t₀) s) :
    Serving s.1 s.2 := by
  induction h with
  | refl => exact ⟨budget_run .refl, records_fresh hosts, limits_run .refl, keys_fresh hosts, hhosts,
      by simp [Stored, Db.fresh]⟩
  | tail _ hstep ih =>
    obtain ⟨c, hnow, hu, hk, hc, rfl⟩ := hstep
    exact Serving.step { ih with limits := ih.limits.later hnow } hu hk hc

/-- What a call of `sb_proxy_lease_exchange` returns is a served policy with the names of the
request, whether it is new or stored. -/
lemma Serving.response {c : Call} (h : Serving db c.now) {request v : Sbj}
    (hcmd : c.cmd = .leaseExchange host request) (hv : c.result db = .ok v) :
    ∃ p : Policy, v = p.toSbj ∧ p.Served ∧ p.hostId = host ∧ p.bootId = requestBoot request ∧
      p.requestSeq = requestSeq request := by
  rcases hcases : c.cases db with ⟨e, he, -⟩ | ⟨v', hv', heff⟩
  · rw [hv] at he; cases he
  clear hcases
  obtain rfl : v' = v := by rw [hv] at hv'; exact (Except.ok.inj hv').symm
  rw [hcmd] at heff
  generalize hnext : c.next db = db' at heff
  cases heff with
  | read hread => simp at hread
  | leaseExchange hok hex =>
    cases hex with
    | replay x hfind hseq _ hparse _ =>
      obtain ⟨p, hp, htext, hh, hb, hs⟩ := h.stored x (List.mem_of_find?_eq_some hfind)
      have hx := List.find?_some hfind
      simp only [sameSession, Bool.and_eq_true, beq_iff_eq] at hx
      rw [htext, hp.typed.readable.parse] at hparse
      exact ⟨p, (Except.ok.inj hparse).symm, hp, hh.trans hx.1, hb.trans hx.2, hs.trans hseq.symm⟩
    | new p hseq hval happ =>
      subst hnext
      have hacc : Accepts c db host request p := ⟨hcmd, hok, happ, hval ▸ hv, hseq⟩
      obtain ⟨_, _, _, hserved, -⟩ := happ
      obtain ⟨h1, h2, h3⟩ := served_names hserved
      exact ⟨p, hval, h.served hacc, h1, h2, h3⟩

/-- **Valid responses**: whatever the center has been through, an exchange does not fail for want
of a node that shares the quota, and what it returns passes `policy_valid` for the boot and
sequence number of the request and, as the engine decodes it, `validateProxyPolicy`. -/
theorem exchange_response_valid (haddr : AddressesAgree) {hosts : List Host}
    (hhosts : ∀ x ∈ hosts, proxyID x.id = true) {t₀ : ℤ} {s : Db × ℤ}
    (h : Relation.ReflTransGen ServingStep (Db.fresh hosts, t₀) s) {c : Call} (hnow : s.2 ≤ c.now)
    {host : Bytes} {request : Sbj} (hcmd : c.cmd = .leaseExchange host request) :
    c.result s.1 ≠ .error noHosts ∧
    ∀ v, c.result s.1 = .ok v → ∃ p : Policy, v = p.toSbj ∧
      (∀ rt : Runtime, rt.boot = requestBoot request → rt.sequence = requestSeq request →
        rt.host = [] ∨ rt.host = host → policyValid rt (some v) = true) ∧
      sbjParseStrict (dump v (-1)) = .ok v ∧
      ((dump v (-1)).length ≤ proxyPolicyLimit →
        proxyDecode decodePolicy policyShape (goString (dump v (-1))) = some p.toGo) ∧
      validateProxyPolicy p.toGo = true ∧
      p.users.length ≤ 256 ∧
      (p.users.map UserPolicy.id).Nodup ∧ (p.users.map fun u => u.lease.id).Nodup ∧
      (p.devices.map DevicePolicy.id).Nodup ∧ (p.devices.map DevicePolicy.password).Nodup ∧
      ∀ u ∈ p.users, (1 ≤ u.devices.length ∧ u.devices.length ≤ 32) ∧
        (p.generatedAt < u.lease.expiresAt ∧ u.lease.expiresAt ≤ p.expiresAt) ∧
        (0 ≤ u.lease.usedBytes ∧ u.lease.usedBytes < u.lease.grantBytes ∧
          u.lease.grantBytes ≤ 2 ^ 53 - 1) ∧
        ∀ d ∈ u.devices, d.expiresAt = 0 ∨ p.generatedAt < d.expiresAt := by
  have hserving : Serving s.1 c.now :=
    { serving_run hhosts h with limits := (serving_run hhosts h).limits.later hnow }
  constructor
  · rw [Call.result, Call.exec, hcmd]
    exact avoids_leaseExchange host request c.now _ trivial
  intro v hv
  obtain ⟨p, rfl, hp, hhost, hboot, hseq⟩ := hserving.response hcmd hv
  have hparse := hp.typed.readable.parseStrict (-1)
  have hdepth := p.nesting_le
  refine ⟨p, rfl, ?_, hparse, ?_, validate_toGo haddr hp.good hp.boot hp.seq, hp.good.count,
    hp.good.userIds, hp.good.leaseIds, hp.good.deviceIds, hp.good.keys, fun u hu => ?_⟩
  · intro rt hrb hrs hrh
    refine (policyValid_toSbj rt p).mpr ⟨hp.good, hboot.trans hrb.symm, hseq.trans hrs.symm, ?_⟩
    exact hrh.imp_right fun he => hhost.trans he.symm
  · intro hlen
    exact proxyDecode_of_strict hparse hlen (by omega) (decodes_policy p)
  · have hgood := hp.good.users u hu
    exact ⟨hgood.count, hgood.expiry, ⟨hgood.used.1, hp.room u hu, hgood.grant.2⟩,
      fun d hd => (hgood.devices d hd).expiry.2.2⟩

/-- No call of the run draws a key in use. -/
def keysAlong : Db → List Call → Bool
  | _, [] => true
  | db, c :: cs => decide (FreshKeys db c) && keysAlong (c.next db) cs

lemma reach_serving {s : Db × ℤ} {cs : List Call} (hf : freshAlong s.1 cs = true)
    (hk : keysAlong s.1 cs = true) (hnow : (s.2 :: cs.map Call.now).IsChain (· ≤ ·))
    (hids : ∀ c ∈ cs, HostIds (fun id => proxyID id = true) c) :
    Relation.ReflTransGen ServingStep s (runCalls s.1 cs, (cs.map Call.now).getLastD s.2) := by
  induction cs generalizing s with
  | nil => exact .refl
  | cons c cs ih =>
    simp only [freshAlong, keysAlong, Bool.and_eq_true, decide_eq_true_eq] at hf hk
    rw [List.map_cons, List.isChain_cons_cons] at hnow
    have hrest := ih (s := (c.next s.1, c.now)) hf.2 hk.2 hnow.2 fun x hx =>
      hids x (List.mem_cons_of_mem c hx)
    rw [List.map_cons, List.getLastD_cons]
    exact .head ⟨c, hnow.1, hf.1, hk.1, hids c List.mem_cons_self, rfl⟩ hrest

end

/-- The exchange of the sample run, before it is served. -/
def sampleExchange : Call :=
  sampleCall (.leaseExchange (lit "self") (.obj [(lit "boot_id", .str (lit "b")),
    (lit "reports", .arr []), (lit "request_seq", .int 1), (lit "version", .int 1)]))
    [List.replicate 16 6]

theorem exchange_response_valid_sample :
    ∃ p : Policy, @Call.result .sample sampleExchange
        (@runCalls .sample (Db.fresh []) (sampleCalls.take 5)) = .ok p.toSbj ∧
      @policyValid .sample { host := lit "self", boot := lit "b" } (some p.toSbj) = true ∧
      @validateProxyPolicy .sample p.toGo = true := by
  have hids : ∀ c ∈ sampleCalls.take 5, HostIds (fun id => proxyID id = true) c := by
    intro c hc id enabled hcmd
    simp only [sampleCalls, sampleCall, List.take, List.mem_cons, List.not_mem_nil, or_false] at hc
    rcases hc with rfl | rfl | rfl | rfl | rfl <;> cases hcmd
    exact Or.inr (by decide)
  have hreach := @reach_serving .sample (Db.fresh [], 0) (sampleCalls.take 5) (by decide +kernel)
    (by decide +kernel) (by decide +kernel) hids
  have hok : (@Call.result .sample sampleExchange
      (@runCalls .sample (Db.fresh []) (sampleCalls.take 5))).isOk = true := by decide +kernel
  obtain ⟨-, hvalid⟩ := @exchange_response_valid .sample addressesAgree_sample [] (by simp) 0 _
    hreach sampleExchange (by decide) _ _ rfl
  cases hres : @Call.result .sample sampleExchange
      (@runCalls .sample (Db.fresh []) (sampleCalls.take 5)) with
  | error e => rw [hres] at hok; cases hok
  | ok v =>
    obtain ⟨p, rfl, hpolicy, -, -, hgo, -⟩ := hvalid v hres
    exact ⟨p, rfl, hpolicy _ rfl rfl (Or.inr rfl), hgo⟩

end SbEasy
