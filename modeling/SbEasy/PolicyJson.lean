import SbEasy.Exchange
import SbEasy.JsonSound

/-!
The JSON of a policy: the members of its objects in the order they are stored in, and that
the text of a policy is read back as the policy.
-/

namespace SbEasy

open JsonParse

lemma Sbj.floatFreeItems_iff {l : List Sbj} :
    Sbj.floatFreeItems l = true ↔ ∀ v ∈ l, v.floatFree = true := by
  induction l with
  | nil => simp [Sbj.floatFreeItems]
  | cons v l ih => simp [Sbj.floatFreeItems, ih]

lemma Sbj.floatFreeMembers_iff {m : List (Bytes × Sbj)} :
    Sbj.floatFreeMembers m = true ↔ ∀ p ∈ m, p.2.floatFree = true := by
  induction m with
  | nil => simp [Sbj.floatFreeMembers]
  | cons p m ih => simp [Sbj.floatFreeMembers, ih]

/-- A value whose dump both parsers read back, inside a number of containers. -/
structure Readable (room : ℕ) (v : Sbj) : Prop where
  fits : Fits room v
  floatFree : v.floatFree = true

/-- Keys in order, in ASCII. -/
def keysOk (keys : List Bytes) : Bool :=
  decide (keys.Pairwise fun a b => compare a b = .lt) && keys.all fun k => k.all (· < 0x80)

namespace Readable

variable {room : ℕ}

lemma null : Readable room .null := ⟨⟨trivial, Nat.zero_le _⟩, rfl⟩

lemma int {i : ℤ} (h : int64Min ≤ i ∧ i ≤ int64Max) : Readable room (.int i) :=
  ⟨⟨h, Nat.zero_le _⟩, rfl⟩

lemma str {s : Bytes} (h : Utf8.Valid s) : Readable room (.str s) := ⟨⟨h, Nat.zero_le _⟩, rfl⟩

lemma arr {l : List Sbj} (h : ∀ v ∈ l, Readable room v) : Readable (room + 1) (.arr l) :=
  ⟨fits_arr fun v hv => (h v hv).fits, Sbj.floatFreeItems_iff.mpr fun v hv => (h v hv).floatFree⟩

lemma obj {m : List (Bytes × Sbj)} (hk : keysOk (m.map Prod.fst) = true)
    (h : ∀ p ∈ m, Readable room p.2) : Readable (room + 1) (.obj m) := by
  simp only [keysOk, Bool.and_eq_true, decide_eq_true_eq, List.pairwise_map, List.all_eq_true,
    List.mem_map] at hk
  refine ⟨fits_obj hk.1 fun p hp => ⟨?_, (h p hp).fits⟩,
    Sbj.floatFreeMembers_iff.mpr fun p hp => (h p hp).floatFree⟩
  exact Utf8.Valid.ascii fun c hc => hk.2 p.1 ⟨p, hp, rfl⟩ c hc

lemma mono {room' : ℕ} {v : Sbj} (h : Readable room v) (hr : room ≤ room') : Readable room' v :=
  ⟨⟨h.fits.1, h.fits.2.trans hr⟩, h.floatFree⟩

variable [Platform] {v : Sbj}

lemma parse (h : Readable maxDepth v) (indent : ℤ) : sbjParse (dump v indent) = .ok v :=
  sbjParse_dump h.fits h.floatFree indent

lemma parseStrict (h : Readable maxDepth v) (indent : ℤ) : sbjParseStrict (dump v indent) = .ok v :=
  sbjParseStrict_dump h.fits h.floatFree indent

end Readable

lemma DevicePolicy.toSbj_eq (d : DevicePolicy) : d.toSbj = .obj [(lit "expires_at", .int d.expiresAt),
    (lit "id", .str d.id), (lit "password", .str d.password)] := by
  cbv

lemma LeasePolicy.toSbj_eq (l : LeasePolicy) : l.toSbj = .obj [(lit "expires_at", .int l.expiresAt),
    (lit "grant_bytes", .int l.grantBytes), (lit "id", .str l.id),
    (lit "used_bytes", .int l.usedBytes)] := by
  cbv

lemma UserPolicy.toSbj_eq (u : UserPolicy) : u.toSbj = .obj [
    (lit "devices", .arr (u.devices.map DevicePolicy.toSbj)), (lit "epoch", .int u.epoch),
    (lit "id", .str u.id), (lit "lease", u.lease.toSbj)] := by
  cbv

lemma NodePolicy.toSbj_eq (n : NodePolicy) : n.toSbj = .obj [(lit "listen", .str n.listen),
    (lit "listen_port", .int n.listenPort), (lit "method", .str method),
    (lit "password", .str n.password)] := by
  cbv

lemma Policy.toSbj_eq (p : Policy) : p.toSbj = .obj [(lit "boot_id", .str p.bootId),
    (lit "expires_at", .int p.expiresAt), (lit "generated_at", .int p.generatedAt),
    (lit "host_id", .str p.hostId), (lit "node", (p.node.map NodePolicy.toSbj).getD .null),
    (lit "request_seq", .int p.requestSeq), (lit "users", .arr (p.users.map UserPolicy.toSbj)),
    (lit "version", .int 1)] := by
  cbv

lemma DevicePolicy.toSbj_injective : Function.Injective DevicePolicy.toSbj := by
  intro d d' h
  rw [toSbj_eq, toSbj_eq] at h
  cases d
  cases d'
  simpa [and_comm, and_left_comm] using h

lemma LeasePolicy.toSbj_injective : Function.Injective LeasePolicy.toSbj := by
  intro l l' h
  rw [toSbj_eq, toSbj_eq] at h
  cases l
  cases l'
  simpa [and_comm, and_left_comm, and_assoc] using h

lemma UserPolicy.toSbj_injective : Function.Injective UserPolicy.toSbj := by
  intro u u' h
  rw [toSbj_eq, toSbj_eq] at h
  simp only [Sbj.obj.injEq, List.cons.injEq, Prod.mk.injEq, true_and, and_true, Sbj.arr.injEq,
    Sbj.int.injEq, Sbj.str.injEq] at h
  obtain ⟨h1, h2, h3, h4⟩ := h
  cases u
  cases u'
  simp only [mk.injEq]
  exact ⟨h3, h2, LeasePolicy.toSbj_injective h4,
    List.map_injective_iff.mpr DevicePolicy.toSbj_injective h1⟩

lemma NodePolicy.toSbj_injective : Function.Injective NodePolicy.toSbj := by
  intro n n' h
  rw [toSbj_eq, toSbj_eq] at h
  cases n
  cases n'
  simpa using h

lemma Policy.toSbj_injective : Function.Injective Policy.toSbj := by
  intro p p' h
  rw [toSbj_eq, toSbj_eq] at h
  simp only [Sbj.obj.injEq, List.cons.injEq, Prod.mk.injEq, true_and, and_true, Sbj.arr.injEq,
    Sbj.int.injEq, Sbj.str.injEq] at h
  obtain ⟨h1, h2, h3, h4, h5, h6, h7⟩ := h
  have hnode : p.node = p'.node := by
    cases hn : p.node with
    | none =>
      cases hn' : p'.node with
      | none => rfl
      | some n' =>
        rw [hn, hn', Option.map_none, Option.map_some, Option.getD_none, Option.getD_some,
          NodePolicy.toSbj_eq] at h5
        cases h5
    | some n =>
      cases hn' : p'.node with
      | none =>
        rw [hn, hn', Option.map_none, Option.map_some, Option.getD_none, Option.getD_some,
          NodePolicy.toSbj_eq] at h5
        cases h5
      | some n' =>
        rw [hn, hn', Option.map_some, Option.map_some, Option.getD_some, Option.getD_some] at h5
        rw [NodePolicy.toSbj_injective h5]
  cases p
  cases p'
  simp only [mk.injEq]
  exact ⟨h4, h1, h6, h3, h2, hnode, List.map_injective_iff.mpr UserPolicy.toSbj_injective h7⟩

/-- Within the 64-bit integers of a JSON value. -/
def Int64 (i : ℤ) : Prop := int64Min ≤ i ∧ i ≤ int64Max

structure DevicePolicy.Typed (d : DevicePolicy) : Prop where
  id : Utf8.Valid d.id
  password : Utf8.Valid d.password
  expiresAt : Int64 d.expiresAt

structure UserPolicy.Typed (u : UserPolicy) : Prop where
  id : Utf8.Valid u.id
  epoch : Int64 u.epoch
  lease : Utf8.Valid u.lease.id
  counters : Int64 u.lease.grantBytes ∧ Int64 u.lease.usedBytes ∧ Int64 u.lease.expiresAt
  devices : ∀ d ∈ u.devices, d.Typed

structure NodePolicy.Typed (n : NodePolicy) : Prop where
  listen : Utf8.Valid n.listen
  listenPort : Int64 n.listenPort
  password : Utf8.Valid n.password

structure Policy.Typed (p : Policy) : Prop where
  hostId : Utf8.Valid p.hostId
  bootId : Utf8.Valid p.bootId
  numbers : Int64 p.requestSeq ∧ Int64 p.generatedAt ∧ Int64 p.expiresAt
  node : ∀ n ∈ p.node, n.Typed
  users : ∀ u ∈ p.users, u.Typed

lemma DevicePolicy.Typed.readable {d : DevicePolicy} (h : d.Typed) : Readable 1 d.toSbj := by
  rw [DevicePolicy.toSbj_eq]
  apply Readable.obj (by cbv)
  simp only [List.forall_mem_cons]
  exact ⟨.int h.expiresAt, .str h.id, .str h.password, by simp⟩

lemma UserPolicy.Typed.readable {u : UserPolicy} (h : u.Typed) : Readable 3 u.toSbj := by
  have hdevices : Readable 2 (.arr (u.devices.map DevicePolicy.toSbj)) := by
    apply Readable.arr
    intro v hv
    obtain ⟨d, hd, rfl⟩ := List.mem_map.mp hv
    exact (h.devices d hd).readable
  have hlease : Readable 2 u.lease.toSbj := by
    rw [LeasePolicy.toSbj_eq]
    apply Readable.obj (by cbv)
    simp only [List.forall_mem_cons]
    exact ⟨.int h.counters.2.2, .int h.counters.1, .str h.lease, .int h.counters.2.1, by simp⟩
  rw [UserPolicy.toSbj_eq]
  apply Readable.obj (by cbv)
  simp only [List.forall_mem_cons]
  exact ⟨hdevices, .int h.epoch, .str h.id, hlease, by simp⟩

lemma NodePolicy.Typed.readable {n : NodePolicy} (h : n.Typed) : Readable 4 n.toSbj := by
  have hmethod : Utf8.Valid method := Utf8.Valid.ascii (by decide)
  rw [NodePolicy.toSbj_eq]
  apply Readable.obj (by cbv)
  simp only [List.forall_mem_cons]
  exact ⟨.str h.listen, .int h.listenPort, .str hmethod, .str h.password, by simp⟩

lemma Policy.Typed.readable {p : Policy} (h : p.Typed) : Readable maxDepth p.toSbj := by
  have husers : Readable 4 (.arr (p.users.map UserPolicy.toSbj)) := by
    apply Readable.arr
    intro v hv
    obtain ⟨u, hu, rfl⟩ := List.mem_map.mp hv
    exact (h.users u hu).readable
  have hnode : Readable 4 ((p.node.map NodePolicy.toSbj).getD .null) := by
    cases hn : p.node with
    | none => exact .null
    | some n => exact (h.node n hn).readable
  have hp : Readable 5 p.toSbj := by
    rw [Policy.toSbj_eq]
    apply Readable.obj (by cbv)
    simp only [List.forall_mem_cons]
    exact ⟨.str h.bootId, .int h.numbers.2.2, .int h.numbers.2.1, .str h.hostId, hnode,
      .int h.numbers.1, husers, .int (by decide), by simp⟩
  exact hp.mono (by decide)

end SbEasy
