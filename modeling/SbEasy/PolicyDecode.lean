import SbEasy.GoRead
import SbEasy.PolicyValid

/-!
The engine accepts what the runtime has accepted: the text of a good policy decodes to the same
policy, and `validateProxyPolicy` finds no fault with it.
-/

namespace SbEasy

open JsonParse GoVal

/-- Whatever the engine reads for a value, it decodes to the result and has the shape. -/
def Decodes {α : Type} (f : GoVal → Option α) (t : GoType) (v : Sbj) (a : α) : Prop :=
  ∀ g : GoVal, g.Means v → f g = some a ∧ requiredShape t g = true

lemma decodes_string (s : Bytes) : Decodes string .scalar (.str s) s := by
  intro g hg
  rw [means_str hg]
  exact ⟨rfl, rfl⟩

lemma decodes_int (i : ℤ) : Decodes GoVal.int .scalar (.int i) i := by
  intro g hg
  exact ⟨means_int hg, by simp [requiredShape]⟩

variable {α : Type} {t : GoType}

lemma decodes_nil (f : GoVal → Option α) (t : GoType) :
    Decodes (pointer f) (.pointer t) .null none := by
  intro g hg
  rw [means_null hg]
  exact ⟨rfl, by simp [requiredShape]⟩

lemma decodes_pointer {f : GoVal → Option α} {v : Sbj} {a : α}
    (hv : v ≠ .null) (h : Decodes f t v a) : Decodes (pointer f) (.pointer t) v (some a) := by
  intro g hg
  obtain ⟨hf, ht⟩ := h g hg
  cases g with
  | null =>
    simp only [Means] at hg
    exact absurd hg hv
  | _ => simp [pointer, requiredShape, hf, ht]

lemma decodes_slice {f : GoVal → Option α} {vs : List Sbj} {as : List α}
    (h : List.Forall₂ (Decodes f t) vs as) : Decodes (slice f) (.slice t) (.arr vs) (some as) := by
  intro g hg
  obtain ⟨l, rfl, hl⟩ := means_arr hg
  suffices hall : l.mapM f = some as ∧ l.all (requiredShape t) = true by
    simp [slice, requiredShape, hall.1, hall.2]
  clear hg
  induction hl generalizing as with
  | nil =>
    cases h
    exact ⟨rfl, rfl⟩
  | cons hgv _ ih =>
    cases h with
    | cons hd htail =>
      obtain ⟨hf, ht⟩ := hd _ hgv
      obtain ⟨h1, h2⟩ := ih htail
      simp [List.mapM_cons, hf, h1, ht, h2]

lemma decodes_map {α β : Type} {f : GoVal → Option β} {enc : α → Sbj} {dec : α → β}
    (h : ∀ a, Decodes f t (enc a) (dec a)) (l : List α) :
    Decodes (slice f) (.slice t) (.arr (l.map enc)) (some (l.map dec)) := by
  refine decodes_slice ?_
  rw [List.forall₂_map_left_iff, List.forall₂_map_right_iff, List.forall₂_same]
  exact fun a _ => h a

section
variable {m : List (Bytes × GoVal)} {o : List (Bytes × Sbj)}

lemma fields_read (names : List Bytes) (h : MembersRead m o) (hsub : ∀ p ∈ o, p.1 ∈ names) :
    fields names (.obj m) = some m := by
  rw [fields, if_pos]
  rw [List.all_eq_true]
  intro p hp
  have hmem := h.perm.mem_iff.mp (List.mem_map_of_mem hp)
  obtain ⟨q, hq, he⟩ := List.mem_map.mp hmem
  simpa [he] using hsub q hq

lemma field_read (k : Bytes) (h : MembersRead m o) {α : Type} {f : GoVal → Option α} {t : GoType}
    {v : Sbj} {a : α} (hd : Decodes f t v a) (hmem : (k, v) ∈ o) (zero : α) :
    field zero f m k = some a ∧ (m.lookup k).any (requiredShape t) = true := by
  obtain ⟨g, hg, hmeans⟩ := h.lookup ((SortedAssoc.get_eq_some_iff h.sorted).mpr hmem)
  obtain ⟨hf, ht⟩ := hd g hmeans
  simp [field, hg, hf, ht]

lemma decodes_struct {α : Type} {f : GoVal → Option α} {fs : List (Bytes × GoType)} {a : α}
    (hlen : o.length = fs.length)
    (h : ∀ m, MembersRead m o → f (.obj m) = some a ∧ requiredFields fs m = true) :
    Decodes f (.struct fs) (.obj o) a := by
  intro g hg
  obtain ⟨m, rfl, hm⟩ := means_obj hg
  obtain ⟨hf, hshape⟩ := h m hm
  exact ⟨hf, by simp [requiredShape, hm.length, hlen, hshape]⟩

end

/-! ### Policies -/

def DevicePolicy.toGo (d : DevicePolicy) : GoDevice := ⟨d.id, d.password, some d.expiresAt⟩

def LeasePolicy.toGo (l : LeasePolicy) : GoLease := ⟨l.id, l.grantBytes, l.usedBytes, l.expiresAt⟩

def UserPolicy.toGo (u : UserPolicy) : GoUser :=
  ⟨u.id, u.epoch, u.lease.toGo, some (u.devices.map DevicePolicy.toGo)⟩

def NodePolicy.toGo (n : NodePolicy) : GoNode := ⟨n.listen, n.listenPort, method, n.password⟩

def Policy.toGo (p : Policy) : GoPolicy :=
  ⟨1, p.hostId, p.bootId, p.requestSeq, p.generatedAt, p.expiresAt, p.node.map NodePolicy.toGo,
    some (p.users.map UserPolicy.toGo)⟩

lemma decodes_device (d : DevicePolicy) : Decodes decodeDevice deviceShape d.toSbj d.toGo := by
  rw [DevicePolicy.toSbj_eq, deviceShape]
  refine decodes_struct (by simp) fun m h => ?_
  have hf := fields_read [lit "id", lit "password", lit "expires_at"] h (by simp)
  obtain ⟨h1, s1⟩ := field_read (lit "id") h (decodes_string d.id) (by simp) []
  obtain ⟨h2, s2⟩ := field_read (lit "password") h (decodes_string d.password) (by simp) []
  obtain ⟨h3, s3⟩ := field_read (lit "expires_at") h
    (decodes_pointer (by simp) (decodes_int d.expiresAt)) (by simp) none
  refine ⟨by simp [decodeDevice, hf, h1, h2, h3, DevicePolicy.toGo], ?_⟩
  simp only [requiredFields, s1, s2, s3, Bool.and_self]

lemma decodes_lease (l : LeasePolicy) : Decodes decodeLease leaseShape l.toSbj l.toGo := by
  rw [LeasePolicy.toSbj_eq, leaseShape]
  refine decodes_struct (by simp) fun m h => ?_
  have hf := fields_read [lit "id", lit "grant_bytes", lit "used_bytes", lit "expires_at"] h
    (by simp)
  obtain ⟨h1, s1⟩ := field_read (lit "id") h (decodes_string l.id) (by simp) []
  obtain ⟨h2, s2⟩ := field_read (lit "grant_bytes") h (decodes_int l.grantBytes) (by simp) 0
  obtain ⟨h3, s3⟩ := field_read (lit "used_bytes") h (decodes_int l.usedBytes) (by simp) 0
  obtain ⟨h4, s4⟩ := field_read (lit "expires_at") h (decodes_int l.expiresAt) (by simp) 0
  refine ⟨by simp [decodeLease, hf, h1, h2, h3, h4, LeasePolicy.toGo], ?_⟩
  simp only [requiredFields, s1, s2, s3, s4, Bool.and_self]

lemma decodes_user (u : UserPolicy) : Decodes decodeUser userShape u.toSbj u.toGo := by
  rw [UserPolicy.toSbj_eq, userShape]
  refine decodes_struct (by simp) fun m h => ?_
  have hf := fields_read [lit "id", lit "epoch", lit "lease", lit "devices"] h (by simp)
  obtain ⟨h1, s1⟩ := field_read (lit "id") h (decodes_string u.id) (by simp) []
  obtain ⟨h2, s2⟩ := field_read (lit "epoch") h (decodes_int u.epoch) (by simp) 0
  obtain ⟨h3, s3⟩ := field_read (lit "lease") h (decodes_lease u.lease) (by simp) ⟨[], 0, 0, 0⟩
  obtain ⟨h4, s4⟩ := field_read (lit "devices") h (decodes_map decodes_device u.devices) (by simp) none
  refine ⟨by simp [decodeUser, hf, h1, h2, h3, h4, UserPolicy.toGo], ?_⟩
  simp only [requiredFields, s1, s2, s3, s4, Bool.and_self]

lemma decodes_node (n : NodePolicy) : Decodes decodeNode nodeShape n.toSbj n.toGo := by
  rw [NodePolicy.toSbj_eq, nodeShape]
  refine decodes_struct (by simp) fun m h => ?_
  have hf := fields_read [lit "listen", lit "listen_port", lit "method", lit "password"] h
    (by simp)
  obtain ⟨h1, s1⟩ := field_read (lit "listen") h (decodes_string n.listen) (by simp) []
  obtain ⟨h2, s2⟩ := field_read (lit "listen_port") h (decodes_int n.listenPort) (by simp) 0
  obtain ⟨h3, s3⟩ := field_read (lit "method") h (decodes_string method) (by simp) []
  obtain ⟨h4, s4⟩ := field_read (lit "password") h (decodes_string n.password) (by simp) []
  refine ⟨by simp [decodeNode, hf, h1, h2, h3, h4, NodePolicy.toGo], ?_⟩
  simp only [requiredFields, s1, s2, s3, s4, Bool.and_self]

lemma decodes_nodePointer (n : Option NodePolicy) : Decodes (pointer decodeNode) (.pointer nodeShape)
    ((n.map NodePolicy.toSbj).getD .null) (n.map NodePolicy.toGo) := by
  cases n with
  | none => exact decodes_nil decodeNode nodeShape
  | some n =>
    refine decodes_pointer ?_ (decodes_node n)
    rw [Option.map_some, Option.getD_some, NodePolicy.toSbj_eq]
    simp

lemma decodes_policy (p : Policy) : Decodes decodePolicy policyShape p.toSbj p.toGo := by
  rw [Policy.toSbj_eq, policyShape]
  refine decodes_struct (by simp) fun m h => ?_
  have hf := fields_read [lit "version", lit "host_id", lit "boot_id", lit "request_seq",
    lit "generated_at", lit "expires_at", lit "node", lit "users"] h (by simp)
  obtain ⟨h1, s1⟩ := field_read (lit "version") h (decodes_int 1) (by simp) 0
  obtain ⟨h2, s2⟩ := field_read (lit "host_id") h (decodes_string p.hostId) (by simp) []
  obtain ⟨h3, s3⟩ := field_read (lit "boot_id") h (decodes_string p.bootId) (by simp) []
  obtain ⟨h4, s4⟩ := field_read (lit "request_seq") h (decodes_int p.requestSeq) (by simp) 0
  obtain ⟨h5, s5⟩ := field_read (lit "generated_at") h (decodes_int p.generatedAt) (by simp) 0
  obtain ⟨h6, s6⟩ := field_read (lit "expires_at") h (decodes_int p.expiresAt) (by simp) 0
  obtain ⟨h7, s7⟩ := field_read (lit "node") h (decodes_nodePointer p.node) (by simp) none
  obtain ⟨h8, s8⟩ := field_read (lit "users") h (decodes_map decodes_user p.users) (by simp) none
  refine ⟨by simp [decodePolicy, hf, h1, h2, h3, h4, h5, h6, h7, h8, Policy.toGo], ?_⟩
  simp only [requiredFields, s1, s2, s3, s4, s5, s6, s7, s8, Bool.and_self]

lemma UserPolicy.nesting_le (u : UserPolicy) : u.toSbj.nesting ≤ 3 := by
  have hdevices : Sbj.nestingItems (u.devices.map DevicePolicy.toSbj) ≤ 1 := by
    rw [Sbj.nestingItems_le]
    intro v hv
    obtain ⟨d, -, rfl⟩ := List.mem_map.mp hv
    rw [DevicePolicy.toSbj_eq]
    exact le_rfl
  have hlease : u.lease.toSbj.nesting = 1 := by rw [LeasePolicy.toSbj_eq]; rfl
  rw [UserPolicy.toSbj_eq]
  simp only [Sbj.nesting, Sbj.nestingMembers, hlease]
  omega

lemma Policy.nesting_le (p : Policy) : p.toSbj.nesting ≤ 5 := by
  have husers : Sbj.nestingItems (p.users.map UserPolicy.toSbj) ≤ 3 := by
    rw [Sbj.nestingItems_le]
    intro v hv
    obtain ⟨u, -, rfl⟩ := List.mem_map.mp hv
    exact u.nesting_le
  have hnode : ((p.node.map NodePolicy.toSbj).getD .null).nesting ≤ 1 := by
    cases p.node with
    | none => exact Nat.zero_le 1
    | some n =>
      rw [Option.map_some, Option.getD_some, NodePolicy.toSbj_eq]
      exact le_rfl
  rw [Policy.toSbj_eq]
  simp only [Sbj.nesting, Sbj.nestingMembers]
  omega

section
variable [Platform]

lemma ne_nil_of_strict {text : Bytes} {v : Sbj} (h : sbjParseStrict text = .ok v) : text ≠ [] := by
  rintro rfl
  simp [sbjParseStrict, parseDocument, parseValue, skipWs] at h

lemma proxyDecode_of_strict {α : Type} {f : GoVal → Option α} {t : GoType} {text : Bytes} {v : Sbj}
    {a : α} (h : sbjParseStrict text = .ok v) (hlen : text.length ≤ 4 * 1024 * 1024)
    (hdepth : v.nesting ≤ 12) (hd : Decodes f t v a) : proxyDecode f t (goString text) = some a := by
  obtain ⟨hwhole, g, hg, hmeans⟩ := read_of_parseStrict h
  obtain ⟨hf, ht⟩ := hd g hmeans
  have hwalk := walk_of_means g v 0 hmeans (by omega)
  have hne := List.length_pos_iff.mpr (ne_nil_of_strict h)
  rw [hwhole, proxyDecode, if_neg (by omega)]
  simp [hg, hwalk, hf, ht]

end

/-! ### No fault found -/

section
variable {p : GoPolicy} {node : GoNode} {seen : Seen}

lemma deviceFault_false {d : DevicePolicy} (h : d.Good p.generated) (hkey : d.password ≠ node.password)
    (hid : d.id ∉ seen.devices) (hnew : d.password ∉ seen.keys) :
    deviceFault p node seen d.toGo = false := by
  obtain ⟨h1, h2, h3, h4, h5⟩ := h
  have hexp : (d.expiresAt != 0 && decide (d.expiresAt ≤ p.generated)) = false := by
    rw [Bool.and_eq_false_iff, bne_eq_false_iff_eq, decide_eq_false_iff_not]
    omega
  simp [deviceFault, DevicePolicy.toGo, h1, (proxyKey_iff d.password).mpr h2, hkey, hid, hnew, hexp]
  omega

lemma devicesLoop_ok {ds : List DevicePolicy}
    (hgood : ∀ d ∈ ds, d.Good p.generated ∧ d.password ≠ node.password)
    (hnew : ∀ d ∈ ds, d.id ∉ seen.devices ∧ d.password ∉ seen.keys)
    (hids : (ds.map DevicePolicy.id).Nodup) (hkeys : (ds.map DevicePolicy.password).Nodup) :
    devicesLoop p node seen (ds.map DevicePolicy.toGo) = some { seen with
      devices := (ds.map DevicePolicy.id).reverse ++ seen.devices
      keys := (ds.map DevicePolicy.password).reverse ++ seen.keys } := by
  induction ds generalizing seen with
  | nil => rfl
  | cons d ds ih =>
    rw [List.map_cons, List.nodup_cons] at hids hkeys
    obtain ⟨⟨h1, h2⟩, hgood⟩ := List.forall_mem_cons.mp hgood
    obtain ⟨⟨h3, h4⟩, hnew⟩ := List.forall_mem_cons.mp hnew
    rw [List.map_cons, devicesLoop, deviceFault_false h1 h2 h3 h4, if_neg (by simp), ih hgood ?_
      hids.2 hkeys.2]
    · simp [DevicePolicy.toGo]
    · intro x hx
      have hid : x.id ≠ d.id := fun he => hids.1 (he ▸ List.mem_map_of_mem hx)
      have hpw : x.password ≠ d.password := fun he => hkeys.1 (he ▸ List.mem_map_of_mem hx)
      simpa [DevicePolicy.toGo, hid, hpw] using hnew x hx

lemma userFault_false {u : UserPolicy} (h : u.Good p.generated p.expires) (hid : u.id ∉ seen.users)
    (hlease : u.lease.id ∉ seen.leases) : userFault p seen u.toGo = false := by
  obtain ⟨h1, h2, h3, h4, h5, h6, h7, -⟩ := h
  rw [safeInteger] at h2 h4
  have hne : u.devices ≠ [] := by
    intro he
    simp [he] at h7
  simp only [userFault, Bool.or_eq_false_iff, decide_eq_false_iff_not]
  simp [UserPolicy.toGo, LeasePolicy.toGo, proxyMaxInteger, h1, h3, hid, hlease, hne]
  omega

lemma usersLoop_ok {us : List UserPolicy} (hgood : ∀ u ∈ us, u.Good p.generated p.expires)
    (hserver : ∀ u ∈ us, ∀ d ∈ u.devices, d.password ≠ node.password)
    (husers : ∀ u ∈ us, u.id ∉ seen.users ∧ u.lease.id ∉ seen.leases)
    (hdevices : ∀ u ∈ us, ∀ d ∈ u.devices, d.id ∉ seen.devices ∧ d.password ∉ seen.keys)
    (h1 : (us.map UserPolicy.id).Nodup) (h2 : (us.map fun u => u.lease.id).Nodup)
    (h3 : ((us.flatMap UserPolicy.devices).map DevicePolicy.id).Nodup)
    (h4 : ((us.flatMap UserPolicy.devices).map DevicePolicy.password).Nodup) :
    usersLoop p node seen (us.map UserPolicy.toGo) = true := by
  induction us generalizing seen with
  | nil => rfl
  | cons u us ih =>
    rw [List.map_cons, List.nodup_cons] at h1 h2
    rw [List.flatMap_cons, List.map_append, List.nodup_append] at h3 h4
    obtain ⟨hu, hgood⟩ := List.forall_mem_cons.mp hgood
    obtain ⟨hs, hserver⟩ := List.forall_mem_cons.mp hserver
    obtain ⟨⟨hid, hlease⟩, husers⟩ := List.forall_mem_cons.mp husers
    obtain ⟨hd, hdevices⟩ := List.forall_mem_cons.mp hdevices
    have hloop : devicesLoop p node
        { seen with users := u.toGo.id :: seen.users, leases := u.toGo.lease.id :: seen.leases }
        (u.devices.map DevicePolicy.toGo) = some _ :=
      devicesLoop_ok (fun d hd => ⟨hu.devices d hd, hs d hd⟩) hd h3.1 h4.1
    rw [List.map_cons, usersLoop, userFault_false hu hid hlease, if_neg (by simp)]
    simp only [UserPolicy.toGo, LeasePolicy.toGo, Option.getD_some] at hloop ⊢
    rw [hloop]
    refine ih hgood hserver (fun x hx => ?_) (fun x hx d hxd => ?_) h1.2 h2.2 h3.2.1 h4.2.1
    · have hne : x.id ≠ u.id := fun he => h1.1 (he ▸ List.mem_map_of_mem hx)
      have hne' : x.lease.id ≠ u.lease.id := fun he =>
        h2.1 (List.mem_map.mpr ⟨x, hx, he⟩)
      simpa [hne, hne'] using husers x hx
    · have hmem : d ∈ us.flatMap UserPolicy.devices := List.mem_flatMap.mpr ⟨x, hx, hxd⟩
      have hne : d.id ∉ u.devices.map DevicePolicy.id := fun he =>
        h3.2.2 _ he _ (List.mem_map_of_mem hmem) rfl
      have hne' : d.password ∉ u.devices.map DevicePolicy.password := fun he =>
        h4.2.2 _ he _ (List.mem_map_of_mem hmem) rfl
      simpa [hne, hne'] using hdevices x hx d hxd

end

/-- The addresses `inet_pton` reads are those that `netip.ParseAddr` reads without a zone. -/
def AddressesAgree [Platform] : Prop :=
  ∀ s, Platform.inetPton s = true ↔ Platform.parseAddr s = some []

lemma addressesAgree_sample : @AddressesAgree .sample := by
  intro s
  show (s == lit "127.0.0.1") = true ↔ (if s = lit "127.0.0.1" then some [] else none) = some []
  rw [beq_iff_eq]
  split_ifs with hs <;> simp [hs]

lemma validate_toGo [Platform] (haddr : AddressesAgree) {p : Policy} (h : p.Good)
    (hboot : proxyID p.bootId = true) (hseq : 1 ≤ p.requestSeq ∧ p.requestSeq ≤ safeInteger) :
    validateProxyPolicy p.toGo = true := by
  obtain ⟨h1, h2, h3, h4, h5, h6, h7, h8, h9, h10, h11, h12⟩ := h
  rw [safeInteger] at hseq
  have hhead : ¬ (decide (p.toGo.version ≠ 1) || !proxyID p.toGo.host || !proxyID p.toGo.boot ||
      decide (p.toGo.seq < 1) || decide (p.toGo.seq > proxyMaxInteger) ||
      decide (p.toGo.generated < 1) || decide (p.toGo.generated > 4102444800) ||
      decide (p.toGo.expires ≤ p.toGo.generated) || decide (p.toGo.expires - p.toGo.generated > 60) ||
      p.toGo.users.isNone || decide ((p.toGo.users.getD []).length > 256)) = true := by
    simp only [Bool.not_eq_true, Bool.or_eq_false_iff, decide_eq_false_iff_not]
    simp [Policy.toGo, h1, hboot, proxyMaxInteger]
    omega
  rw [validateProxyPolicy, if_neg hhead]
  cases hn : p.node with
  | none => simp [Policy.toGo, hn, h5 hn]
  | some n =>
    obtain ⟨⟨-, hlisten⟩, hport, hkey⟩ := h6 n hn
    have hloop : usersLoop p.toGo n.toGo {} (p.users.map UserPolicy.toGo) = true :=
      usersLoop_ok h7 (fun u hu d hd => h12 n hn d (List.mem_flatMap.mpr ⟨u, hu, hd⟩))
        (by simp) (by simp) h8 h9 h10 h11
    have hnode : ¬ (decide (n.toGo.port < 1) || decide (n.toGo.port > 65535) ||
        n.toGo.method != lit "2022-blake3-aes-128-gcm" || !proxyKey n.toGo.password) = true := by
      simp only [Bool.not_eq_true, Bool.or_eq_false_iff, decide_eq_false_iff_not]
      simp [NodePolicy.toGo, (proxyKey_iff n.password).mpr hkey, method]
      omega
    have hnode' : p.toGo.node = some n.toGo := by rw [Policy.toGo, hn]; rfl
    simp only [hnode']
    have haddr' : Platform.parseAddr n.toGo.listen = some [] := (haddr n.listen).mp hlisten
    rw [if_neg (not_not.mpr haddr'), if_neg hnode]
    exact hloop

/-- **One verdict**: a response that `policy_valid` accepts is decoded by `proxyDecode`, to the same
policy, and accepted by `validateProxyPolicy`. -/
lemma accepted_by_engine [Platform] (haddr : AddressesAgree) {rt : Runtime} {text : Bytes} {v : Sbj}
    (hseq : 1 ≤ rt.sequence ∧ rt.sequence ≤ safeInteger) (hboot : proxyID rt.boot = true)
    (hlen : text.length ≤ 4 * 1024 * 1024) (hparse : sbjParseStrict text = .ok v)
    (hvalid : policyValid rt (some v) = true) :
    ∃ p : Policy, v = p.toSbj ∧ p.Good ∧ p.For rt ∧
      proxyDecode decodePolicy policyShape (goString text) = some p.toGo ∧
      validateProxyPolicy p.toGo = true := by
  obtain ⟨p, rfl, hgood, hfor⟩ :=
    (policyValid_iff (by omega) (sbjParseStrict_fits hparse).1).mp hvalid
  have hdepth := p.nesting_le
  refine ⟨p, rfl, hgood, hfor, ?_, ?_⟩
  · exact proxyDecode_of_strict hparse hlen (by omega) (decodes_policy p)
  · exact validate_toGo haddr hgood (by rw [hfor.boot, hboot]) (by rw [hfor.seq]; exact hseq)

end SbEasy
