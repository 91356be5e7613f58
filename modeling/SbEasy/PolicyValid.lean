import SbEasy.CheckLemmas

/-!
The policies that `policy_valid` accepts, as data: a JSON value passes exactly when it is the
JSON of such a policy.
-/

namespace SbEasy

structure DevicePolicy.Good (generated : ℤ) (d : DevicePolicy) : Prop where
  id : proxyID d.id = true
  key : IsKey d.password
  expiry : 0 ≤ d.expiresAt ∧ d.expiresAt ≤ 4102444800 ∧
    (d.expiresAt = 0 ∨ generated < d.expiresAt)

structure UserPolicy.Good (generated expires : ℤ) (u : UserPolicy) : Prop where
  id : proxyID u.id = true
  epoch : 1 ≤ u.epoch ∧ u.epoch ≤ safeInteger
  leaseId : proxyID u.lease.id = true
  grant : 1 ≤ u.lease.grantBytes ∧ u.lease.grantBytes ≤ safeInteger
  used : 0 ≤ u.lease.usedBytes ∧ u.lease.usedBytes ≤ u.lease.grantBytes
  expiry : generated < u.lease.expiresAt ∧ u.lease.expiresAt ≤ expires
  count : 1 ≤ u.devices.length ∧ u.devices.length ≤ 32
  devices : ∀ d ∈ u.devices, d.Good generated

structure NodePolicy.Good [Platform] (n : NodePolicy) : Prop where
  listen : (∀ c ∈ n.listen, c ≠ 0) ∧ Platform.inetPton n.listen = true
  port : 1 ≤ n.listenPort ∧ n.listenPort ≤ 65535
  key : IsKey n.password

/-- The devices of all users of a policy. -/
def Policy.devices (p : Policy) : List DevicePolicy := p.users.flatMap UserPolicy.devices

/-- A policy with distinct names, within the limits of a node. -/
structure Policy.Good [Platform] (p : Policy) : Prop where
  hostId : proxyID p.hostId = true
  generated : 1 ≤ p.generatedAt ∧ p.generatedAt ≤ 4102444800
  expires : p.generatedAt < p.expiresAt ∧ p.expiresAt ≤ p.generatedAt + 60
  count : p.users.length ≤ 256
  idle : p.node = none → p.users = []
  node : ∀ n ∈ p.node, n.Good
  users : ∀ u ∈ p.users, u.Good p.generatedAt p.expiresAt
  userIds : (p.users.map UserPolicy.id).Nodup
  leaseIds : (p.users.map fun u => u.lease.id).Nodup
  deviceIds : (p.devices.map DevicePolicy.id).Nodup
  keys : (p.devices.map DevicePolicy.password).Nodup
  serverKey : ∀ n ∈ p.node, ∀ d ∈ p.devices, d.password ≠ n.password

lemma DevicePolicy.get (d : DevicePolicy) :
    Sbj.get (some d.toSbj) (lit "id") = some (.str d.id) ∧
    Sbj.get (some d.toSbj) (lit "password") = some (.str d.password) ∧
    Sbj.get (some d.toSbj) (lit "expires_at") = some (.int d.expiresAt) ∧
    Sbj.isObject (some d.toSbj) = true ∧ (Sbj.members (some d.toSbj)).length = 3 := by
  rw [toSbj_eq]
  exact ⟨by cbv, by cbv, by cbv, rfl, rfl⟩

lemma LeasePolicy.get (l : LeasePolicy) :
    Sbj.get (some l.toSbj) (lit "id") = some (.str l.id) ∧
    Sbj.get (some l.toSbj) (lit "grant_bytes") = some (.int l.grantBytes) ∧
    Sbj.get (some l.toSbj) (lit "used_bytes") = some (.int l.usedBytes) ∧
    Sbj.get (some l.toSbj) (lit "expires_at") = some (.int l.expiresAt) ∧
    Sbj.isObject (some l.toSbj) = true ∧ (Sbj.members (some l.toSbj)).length = 4 := by
  rw [toSbj_eq]
  exact ⟨by cbv, by cbv, by cbv, by cbv, rfl, rfl⟩

lemma UserPolicy.get (u : UserPolicy) :
    Sbj.get (some u.toSbj) (lit "id") = some (.str u.id) ∧
    Sbj.get (some u.toSbj) (lit "epoch") = some (.int u.epoch) ∧
    Sbj.get (some u.toSbj) (lit "lease") = some u.lease.toSbj ∧
    Sbj.get (some u.toSbj) (lit "devices") = some (.arr (u.devices.map DevicePolicy.toSbj)) ∧
    Sbj.isObject (some u.toSbj) = true ∧ (Sbj.members (some u.toSbj)).length = 4 := by
  rw [toSbj_eq]
  exact ⟨by cbv, by cbv, by cbv, by cbv, rfl, rfl⟩

lemma NodePolicy.get (n : NodePolicy) :
    Sbj.get (some n.toSbj) (lit "listen") = some (.str n.listen) ∧
    Sbj.get (some n.toSbj) (lit "listen_port") = some (.int n.listenPort) ∧
    Sbj.get (some n.toSbj) (lit "method") = some (.str method) ∧
    Sbj.get (some n.toSbj) (lit "password") = some (.str n.password) ∧
    Sbj.isObject (some n.toSbj) = true ∧ (Sbj.members (some n.toSbj)).length = 4 := by
  rw [toSbj_eq]
  exact ⟨by cbv, by cbv, by cbv, by cbv, rfl, rfl⟩

lemma Policy.get (p : Policy) :
    Sbj.get (some p.toSbj) (lit "version") = some (.int 1) ∧
    Sbj.get (some p.toSbj) (lit "host_id") = some (.str p.hostId) ∧
    Sbj.get (some p.toSbj) (lit "boot_id") = some (.str p.bootId) ∧
    Sbj.get (some p.toSbj) (lit "request_seq") = some (.int p.requestSeq) ∧
    Sbj.get (some p.toSbj) (lit "generated_at") = some (.int p.generatedAt) ∧
    Sbj.get (some p.toSbj) (lit "expires_at") = some (.int p.expiresAt) ∧
    Sbj.get (some p.toSbj) (lit "node") = some ((p.node.map NodePolicy.toSbj).getD .null) ∧
    Sbj.get (some p.toSbj) (lit "users") = some (.arr (p.users.map UserPolicy.toSbj)) ∧
    Sbj.isObject (some p.toSbj) = true ∧ (Sbj.members (some p.toSbj)).length = 8 := by
  rw [toSbj_eq]
  exact ⟨by cbv, by cbv, by cbv, by cbv, by cbv, by cbv, by cbv, by cbv, rfl, rfl⟩

lemma exists_map {α β : Type} {f : α → β} {l : List β} (h : ∀ b ∈ l, ∃ a, b = f a) :
    ∃ as : List α, l = as.map f := by
  induction l with
  | nil => exact ⟨[], rfl⟩
  | cons b l ih =>
    obtain ⟨a, rfl⟩ := h b (by simp)
    obtain ⟨as, rfl⟩ := ih fun b hb => h b (by simp [hb])
    exact ⟨a :: as, rfl⟩

variable [Platform]

variable {generated : ℤ}

variable {node : Option Sbj} {v : Sbj} {expires : ℤ} {rt : Runtime}

lemma deviceValid_shape (hv : v.Wf)
    (h : deviceValid generated node v = true) : ∃ d : DevicePolicy, v = d.toSbj := by
  simp only [deviceValid, Bool.and_eq_true, beq_iff_eq] at h
  obtain ⟨⟨⟨⟨⟨⟨hobj, hlen⟩, hid⟩, hkey⟩, hexp⟩, -⟩, -⟩ := h
  obtain ⟨id, hid, -⟩ := identifier_some hid
  obtain ⟨password, hkey, -⟩ := keyValid_some hkey
  obtain ⟨expires, hexp, -, -⟩ := integer_some hv le_rfl hexp
  refine ⟨⟨id, expires, password⟩, ?_⟩
  rw [DevicePolicy.toSbj_eq]
  refine obj_eq hv (by cbv) hlen hobj ?_
  simp only [List.forall_mem_cons]
  exact ⟨hexp, hid, hkey, by simp⟩

lemma deviceValid_toSbj (generated : ℤ) (n : NodePolicy) (d : DevicePolicy) :
    deviceValid generated (some n.toSbj) d.toSbj = true ↔
      d.Good generated ∧ d.password ≠ n.password := by
  obtain ⟨hid, hkey, hexp, hobj, hlen⟩ := d.get
  obtain ⟨-, -, -, hserver, -⟩ := n.get
  simp only [deviceValid, Bool.and_eq_true, hobj, hlen, hid, hkey, identifier_str, keyValid_str,
    integer_int hexp, getInt_int hexp, hserver, sameString, beq_iff_eq, Bool.not_eq_true',
    beq_eq_false_iff_ne, Bool.and_eq_false_iff, bne_eq_false_iff_eq, decide_eq_false_iff_not, not_le,
    true_and, and_assoc]
  constructor
  · rintro ⟨h1, h2, h3, h4, h5, h6⟩
    exact ⟨⟨h1, h2, h3, h4, h5⟩, h6⟩
  · rintro ⟨⟨h1, h2, h3, h4, h5⟩, h6⟩
    exact ⟨h1, h2, h3, h4, h5, h6⟩

lemma leaseValid_shape {lease : Sbj} (hv : lease.Wf) {grant expires : ℤ} (hg : 0 ≤ generated)
    (hobj : Sbj.isObject (some lease) = true) (hlen : (Sbj.members (some lease)).length = 4)
    (hid : identifier (Sbj.get (some lease) (lit "id")) = true)
    (hgrant : integer (some lease) (lit "grant_bytes") 1 safeInteger = true)
    (hused : integer (some lease) (lit "used_bytes") 0 grant = true)
    (hexp : integer (some lease) (lit "expires_at") (generated + 1) expires = true) :
    ∃ l : LeasePolicy, lease = l.toSbj := by
  obtain ⟨id, hid, -⟩ := identifier_some hid
  obtain ⟨grantBytes, hgrant, -, -⟩ := integer_some hv (by omega) hgrant
  obtain ⟨used, hused, -, -⟩ := integer_some hv le_rfl hused
  obtain ⟨expiresAt, hexp, -, -⟩ := integer_some hv (by omega) hexp
  refine ⟨⟨id, grantBytes, used, expiresAt⟩, ?_⟩
  rw [LeasePolicy.toSbj_eq]
  refine obj_eq hv (by cbv) hlen hobj ?_
  simp only [List.forall_mem_cons]
  exact ⟨hexp, hgrant, hid, hused, by simp⟩

lemma userValid_shape {policy node : Option Sbj} (hg : 0 ≤ generated)
    (hv : v.Wf) (h : userValid policy generated node v = true) : ∃ u : UserPolicy, v = u.toSbj := by
  simp only [userValid, Bool.and_eq_true, beq_iff_eq] at h
  obtain ⟨⟨⟨⟨⟨⟨⟨⟨⟨⟨⟨⟨⟨hobj, hlen⟩, hid⟩, hepoch⟩, hlobj⟩, hllen⟩, hlid⟩, hgrant⟩, hused⟩, hexp⟩,
    harr⟩, -⟩, -⟩, hdev⟩ := h
  obtain ⟨id, hid, -⟩ := identifier_some hid
  obtain ⟨epoch, hepoch, -, -⟩ := integer_some hv (by omega) hepoch
  cases hlease : Sbj.get (some v) (lit "lease") with
  | none => rw [hlease] at hlobj; cases hlobj
  | some lease =>
    rw [hlease] at hlobj hllen hlid hgrant hused hexp
    obtain ⟨l, rfl⟩ := leaseValid_shape (wf_get hv hlease) hg hlobj hllen hlid hgrant hused hexp
    cases hdevices : Sbj.get (some v) (lit "devices") with
    | none => rw [hdevices] at harr; cases harr
    | some devices =>
      rw [hdevices] at harr hdev
      match devices, harr with
      | .arr ds, _ =>
        have hwf := wf_get hv hdevices
        rw [List.all_eq_true] at hdev
        obtain ⟨devs, rfl⟩ := exists_map fun d hd =>
          deviceValid_shape (Sbj.wfItems_iff.mp hwf d hd) (hdev d hd)
        refine ⟨⟨id, epoch, l, devs⟩, ?_⟩
        rw [UserPolicy.toSbj_eq]
        refine obj_eq hv (by cbv) hlen hobj ?_
        simp only [List.forall_mem_cons]
        exact ⟨hdevices, hepoch, hid, hlease, by simp⟩

lemma userValid_toSbj (p : Policy) (generated : ℤ) (n : NodePolicy) (u : UserPolicy) :
    userValid (some p.toSbj) generated (some n.toSbj) u.toSbj = true ↔
      u.Good generated p.expiresAt ∧ ∀ d ∈ u.devices, d.password ≠ n.password := by
  obtain ⟨hid, hepoch, hlease, hdevices, hobj, hlen⟩ := u.get
  obtain ⟨hlid, hgrant, hused, hexp, hlobj, hllen⟩ := u.lease.get
  obtain ⟨-, -, -, -, -, hpolicy, -⟩ := p.get
  have hall : ((u.devices.map DevicePolicy.toSbj).all (deviceValid generated (some n.toSbj))) = true ↔
      ∀ d ∈ u.devices, d.Good generated ∧ d.password ≠ n.password := by
    simp [deviceValid_toSbj]
  simp only [userValid, Bool.and_eq_true, hobj, hlen, hid, hlease, hdevices, hlobj, hllen, hlid,
    identifier_str, integer_int hepoch, integer_int hgrant, integer_int hused, integer_int hexp,
    getInt_int hgrant, getInt_int hpolicy, Sbj.items, Sbj.isArray, hall, List.length_map,
    decide_eq_true_eq, beq_iff_eq, true_and, and_assoc]
  constructor
  · rintro ⟨h1, h2, h3, h4, h5, h6, h7, h8, h9, h10, h11, h12, h13⟩
    exact ⟨⟨h1, ⟨h2, h3⟩, h4, ⟨h5, h6⟩, ⟨h7, h8⟩, ⟨by omega, h10⟩, ⟨h11, h12⟩,
      fun d hd => (h13 d hd).1⟩, fun d hd => (h13 d hd).2⟩
  · rintro ⟨⟨h1, ⟨h2, h3⟩, h4, ⟨h5, h6⟩, ⟨h7, h8⟩, ⟨h9, h10⟩, ⟨h11, h12⟩, h13⟩, h14⟩
    exact ⟨h1, h2, h3, h4, h5, h6, h7, h8, by omega, h10, h11, h12,
      fun d hd => ⟨h13 d hd, h14 d hd⟩⟩

lemma nodeValid_shape (hv : v.Wf) (h : nodeValid (some v) = true) :
    ∃ n : NodePolicy, v = n.toSbj := by
  simp only [nodeValid, Bool.and_eq_true, beq_iff_eq] at h
  obtain ⟨⟨⟨⟨⟨hobj, hlen⟩, hlisten⟩, hport⟩, hmethod⟩, hkey⟩ := h
  obtain ⟨port, hport, -, -⟩ := integer_some hv (by omega) hport
  obtain ⟨password, hkey, -⟩ := keyValid_some hkey
  have hmethod : Sbj.get (some v) (lit "method") = some (.str method) := by
    unfold Sbj.stringIs at hmethod
    split at hmethod
    · rename_i t ht
      rw [ht, beq_iff_eq.mp hmethod]
      rfl
    · cases hmethod
  split at hlisten
  · rename_i listen hget
    refine ⟨⟨listen, port, password⟩, ?_⟩
    rw [NodePolicy.toSbj_eq]
    refine obj_eq hv (by cbv) hlen hobj ?_
    simp only [List.forall_mem_cons]
    exact ⟨hget, hport, hmethod, hkey, by simp⟩
  · cases hlisten

lemma nodeValid_toSbj (n : NodePolicy) : nodeValid (some n.toSbj) = true ↔ n.Good := by
  obtain ⟨hlisten, hport, hmethod, hkey, hobj, hlen⟩ := n.get
  have hname : Sbj.stringIs (some (.str method)) (lit "2022-blake3-aes-128-gcm") = true := by decide
  simp only [nodeValid, hobj, hlen, hlisten, hmethod, hkey, hname, integer_int hport, keyValid_str,
    Bool.and_eq_true, beq_iff_eq, length_cstr, true_and, and_true, and_assoc]
  constructor
  · rintro ⟨h1, h2, h3, h4, h5⟩
    exact ⟨⟨h1, by rwa [cstr_of_ne_zero h1] at h2⟩, ⟨h3, h4⟩, h5⟩
  · rintro ⟨⟨h1, h2⟩, ⟨h3, h4⟩, h5⟩
    exact ⟨h1, by rwa [cstr_of_ne_zero h1], h3, h4, h5⟩

omit [Platform] in
lemma namesDistinct_toSbj {us : List UserPolicy} (h : ∀ u ∈ us, u.Good generated expires) :
    namesDistinct (us.map UserPolicy.toSbj) = true ↔ (us.map UserPolicy.id).Nodup ∧
      (us.map fun u => u.lease.id).Nodup ∧
      ((us.flatMap UserPolicy.devices).map DevicePolicy.id).Nodup ∧
      ((us.flatMap UserPolicy.devices).map DevicePolicy.password).Nodup := by
  have hdev : ∀ d ∈ us.flatMap UserPolicy.devices, d.Good generated := by
    intro d hd
    obtain ⟨u, hu, hd⟩ := List.mem_flatMap.mp hd
    exact (h u hu).devices d hd
  have hdevices : (us.map UserPolicy.toSbj).flatMap
      (fun u => Sbj.items (Sbj.get (some u) (lit "devices"))) =
      (us.flatMap UserPolicy.devices).map DevicePolicy.toSbj := by
    rw [List.flatMap_map, List.map_flatMap]
    congr 1
    funext u
    rw [u.get.2.2.2.1]
    rfl
  have hids : (us.map UserPolicy.toSbj).map (fun u => Sbj.getStr (some u) (lit "id") []) =
      us.map UserPolicy.id := by
    rw [List.map_map]
    refine List.map_congr_left fun u hu => ?_
    rw [Function.comp_apply, Sbj.getStr, u.get.1]
    exact cstr_of_proxyID (h u hu).id
  have hleases : (us.map UserPolicy.toSbj).map
      (fun u => Sbj.getStr (Sbj.get (some u) (lit "lease")) (lit "id") []) =
      us.map fun u => u.lease.id := by
    rw [List.map_map]
    refine List.map_congr_left fun u hu => ?_
    rw [Function.comp_apply, u.get.2.2.1, Sbj.getStr, u.lease.get.1]
    exact cstr_of_proxyID (h u hu).leaseId
  have hdevIds : ((us.flatMap UserPolicy.devices).map DevicePolicy.toSbj).map
      (fun d => Sbj.getStr (some d) (lit "id") []) =
      (us.flatMap UserPolicy.devices).map DevicePolicy.id := by
    rw [List.map_map]
    refine List.map_congr_left fun d hd => ?_
    rw [Function.comp_apply, Sbj.getStr, d.get.1]
    exact cstr_of_proxyID (hdev d hd).id
  have hkeys : ((us.flatMap UserPolicy.devices).map DevicePolicy.toSbj).map
      (fun d => Sbj.getStr (some d) (lit "password") []) =
      (us.flatMap UserPolicy.devices).map DevicePolicy.password := by
    rw [List.map_map]
    refine List.map_congr_left fun d hd => ?_
    rw [Function.comp_apply, Sbj.getStr, d.get.2.1]
    exact cstr_of_ne_zero fun c hc => ((hdev d hd).key.ascii c hc).2
  simp only [namesDistinct, Bool.and_eq_true, hdevices, hids, hleases, hdevIds, hkeys, distinct_iff,
    and_assoc]

/-! ### Policies -/

lemma policyValid_shape (hseq : 0 ≤ rt.sequence) (hv : v.Wf)
    (h : policyValid rt (some v) = true) : ∃ p : Policy, v = p.toSbj := by
  simp only [policyValid, Bool.and_eq_true, beq_iff_eq] at h
  obtain ⟨⟨⟨⟨⟨⟨⟨⟨⟨⟨⟨⟨hobj, hlen⟩, hversion⟩, hhost⟩, hboot⟩, hreq⟩, -⟩, hgen⟩, harr⟩, -⟩, hexp⟩, hsome⟩,
    hrest⟩ := h
  obtain ⟨version, hversion, hv1, hv2⟩ := integer_some hv (by omega) hversion
  obtain ⟨host, hhost, -⟩ := identifier_some hhost
  obtain ⟨seq, hreq, -, -⟩ := integer_some hv hseq hreq
  obtain ⟨generated, hgen, hg1, hg2⟩ := integer_some hv (by omega) hgen
  rw [getInt_int hgen] at hexp hrest
  obtain ⟨expires, hexp, -, -⟩ := integer_some hv (by omega) hexp
  obtain rfl : version = 1 := by omega
  have hboot : Sbj.get (some v) (lit "boot_id") = some (.str rt.boot) := by
    unfold Sbj.stringIs at hboot
    split at hboot
    · rename_i t ht
      rw [ht, beq_iff_eq.mp hboot]
    · cases hboot
  cases hu : Sbj.get (some v) (lit "users") with
  | none => rw [hu] at harr; cases harr
  | some users =>
    rw [hu] at harr hrest
    match users, harr with
    | .arr us, _ =>
      have hwf := Sbj.wfItems_iff.mp (wf_get hv hu)
      cases hn : Sbj.get (some v) (lit "node") with
      | none => rw [hn] at hsome; cases hsome
      | some node =>
        rw [hn] at hrest
        have hparts : (∃ n : Option NodePolicy, node = (n.map NodePolicy.toSbj).getD .null) ∧
            ∃ users : List UserPolicy, us = users.map UserPolicy.toSbj := by
          by_cases hnull : Sbj.isNull (some node) = true
          · rw [if_pos hnull] at hrest
            have hempty : us = [] := by simpa [Sbj.items] using hrest
            match node, hnull with
            | .null, _ => exact ⟨⟨none, rfl⟩, ⟨[], hempty⟩⟩
          · rw [if_neg hnull, Bool.and_eq_true, Bool.and_eq_true, List.all_eq_true] at hrest
            obtain ⟨⟨hnode, husers⟩, -⟩ := hrest
            obtain ⟨n, rfl⟩ := nodeValid_shape (wf_get hv hn) hnode
            exact ⟨⟨some n, rfl⟩, exists_map fun u hu =>
              userValid_shape (by omega) (hwf u hu) (husers u hu)⟩
        obtain ⟨⟨n, rfl⟩, users, rfl⟩ := hparts
        refine ⟨⟨host, rt.boot, seq, generated, expires, n, users⟩, ?_⟩
        rw [Policy.toSbj_eq]
        refine obj_eq hv (by cbv) hlen hobj ?_
        simp only [List.forall_mem_cons]
        exact ⟨hboot, hexp, hgen, hhost, hn, hreq, hu, hversion, by simp⟩

/-- The names of a policy in the runtime's own terms. -/
structure Policy.For (rt : Runtime) (p : Policy) : Prop where
  boot : p.bootId = rt.boot
  seq : p.requestSeq = rt.sequence
  host : rt.host = [] ∨ p.hostId = rt.host

omit [Platform] in
lemma stringIs_str (a b : Bytes) : Sbj.stringIs (some (.str a)) b = true ↔ a = b := by
  simp [Sbj.stringIs]

/-- The part of `policy_valid` behind the header. -/
lemma bodyValid_iff (p : Policy) :
    ((if Sbj.isNull (some ((p.node.map NodePolicy.toSbj).getD .null)) then
        (p.users.map UserPolicy.toSbj).length == 0
      else
        nodeValid (some ((p.node.map NodePolicy.toSbj).getD .null)) &&
          (p.users.map UserPolicy.toSbj).all (userValid (some p.toSbj) p.generatedAt
            (some ((p.node.map NodePolicy.toSbj).getD .null))) &&
          namesDistinct (p.users.map UserPolicy.toSbj)) = true) ↔
      (p.node = none → p.users = []) ∧ (∀ n ∈ p.node, n.Good) ∧
        (∀ u ∈ p.users, u.Good p.generatedAt p.expiresAt) ∧ (p.users.map UserPolicy.id).Nodup ∧
        (p.users.map fun u => u.lease.id).Nodup ∧ (p.devices.map DevicePolicy.id).Nodup ∧
        (p.devices.map DevicePolicy.password).Nodup ∧
        ∀ n ∈ p.node, ∀ d ∈ p.devices, d.password ≠ n.password := by
  cases hn : p.node with
  | none =>
    have hnull : Sbj.isNull (some .null) = true := rfl
    rw [Option.map_none, Option.getD_none, hnull, if_pos rfl, List.length_map, beq_iff_eq,
      List.length_eq_zero_iff]
    constructor
    · intro h
      simp [h, Policy.devices]
    · intro h
      exact h.1 rfl
  | some n =>
    have hobj : Sbj.isNull (some n.toSbj) = false := by rw [NodePolicy.toSbj_eq]; rfl
    rw [Option.map_some, Option.getD_some, hobj, if_neg (by simp)]
    simp only [Bool.and_eq_true, List.all_map, List.all_eq_true, Function.comp_apply,
      userValid_toSbj, nodeValid_toSbj]
    constructor
    · rintro ⟨⟨h1, h2⟩, h3⟩
      have husers : ∀ u ∈ p.users, u.Good p.generatedAt p.expiresAt := fun u hu => (h2 u hu).1
      obtain ⟨h4, h5, h6, h7⟩ := (namesDistinct_toSbj husers).mp h3
      refine ⟨by simp, by simpa using h1, husers, h4, h5, h6, h7, ?_⟩
      intro m hm d hd
      obtain ⟨u, hu, hd⟩ := List.mem_flatMap.mp hd
      cases hm
      exact (h2 u hu).2 d hd
    · rintro ⟨-, h1, h2, h3, h4, h5, h6, h7⟩
      refine ⟨⟨h1 n rfl, fun u hu => ⟨h2 u hu, fun d hd => ?_⟩⟩,
        (namesDistinct_toSbj h2).mpr ⟨h3, h4, h5, h6⟩⟩
      exact h7 n rfl d (List.mem_flatMap.mpr ⟨u, hu, hd⟩)

lemma policyValid_toSbj (rt : Runtime) (p : Policy) :
    policyValid rt (some p.toSbj) = true ↔ p.Good ∧ p.For rt := by
  obtain ⟨hversion, hhost, hboot, hseq, hgen, hexp, hnode, husers, hobj, hlen⟩ := p.get
  have hbound : (!(!rt.host.isEmpty && !Sbj.stringIs (some (.str p.hostId)) rt.host)) = true ↔
      rt.host = [] ∨ p.hostId = rt.host := by
    rw [Bool.not_eq_true', Bool.and_eq_false_iff, Bool.not_eq_false', Bool.not_eq_false',
      List.isEmpty_iff, stringIs_str]
  simp only [policyValid, hobj, hlen, hhost, hboot, hnode, husers, identifier_str, stringIs_str,
    integer_int hversion, integer_int hseq, integer_int hgen, integer_int hexp, getInt_int hgen,
    hbound, Sbj.items, Sbj.isArray, List.length_map, Option.isSome_some, Bool.and_eq_true,
    beq_iff_eq, Bool.not_eq_true', decide_eq_false_iff_not, not_lt, gt_iff_lt,
    true_and, and_true, le_refl, and_self, and_assoc]
  have hbody := bodyValid_iff p
  rw [List.length_map] at hbody
  rw [hbody]
  constructor
  · rintro ⟨h1, h2, h3, h4, h5, h6, h7, h8, h9, h10, h11, h12⟩
    exact ⟨⟨h1, ⟨h6, h7⟩, ⟨by omega, h10⟩, h8, h11, h12.1, h12.2.1, h12.2.2.1, h12.2.2.2.1,
      h12.2.2.2.2.1, h12.2.2.2.2.2.1, h12.2.2.2.2.2.2⟩, ⟨h2, by omega, h5⟩⟩
  · rintro ⟨⟨h1, ⟨h2, h3⟩, ⟨h4, h5⟩, h6, h7, h8, h9, h10, h11, h12, h13, h14⟩, ⟨h15, h16, h17⟩⟩
    exact ⟨h1, h15, by omega, by omega, h17, h2, h3, h6, by omega, h5, h7, h8, h9, h10, h11, h12,
      h13, h14⟩

/-- `policy_valid` accepts a value exactly when it is the JSON of a good policy with the names
of the runtime. -/
lemma policyValid_iff (hseq : 0 ≤ rt.sequence) (hv : v.Wf) :
    policyValid rt (some v) = true ↔ ∃ p : Policy, v = p.toSbj ∧ p.Good ∧ p.For rt := by
  constructor
  · intro h
    obtain ⟨p, rfl⟩ := policyValid_shape hseq hv h
    exact ⟨p, rfl, (policyValid_toSbj rt p).mp h⟩
  · rintro ⟨p, rfl, h⟩
    exact (policyValid_toSbj rt p).mpr h

end SbEasy
