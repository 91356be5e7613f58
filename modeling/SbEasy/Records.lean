import SbEasy.Identifiers
import SbEasy.Issue
import SbEasy.PolicyJson
import SbEasy.Quota

/-!
What the rows of the tables look like: generated identifiers and keys, and numbers in range.
A policy is made of such rows, so its text is read back.
-/

namespace SbEasy

open Center

/-! ### Rows -/

structure UserRow (u : ProxyUser) : Prop where
  id : IsUuid u.id
  epoch : 1 ≤ u.epoch ∧ u.epoch ≤ safeInteger
  expiry : 0 ≤ u.expiresAt ∧ u.expiresAt ≤ maxTime

structure DeviceRow (d : ProxyDevice) : Prop where
  id : IsUuid d.id
  key : IsKey d.password
  expiry : 0 ≤ d.expiresAt ∧ d.expiresAt ≤ maxTime

structure IngressRow [Platform] (n : IngressNode) : Prop where
  key : IsKey n.serverKey
  listen : textOk (some (.str n.listen)) 64 false = true ∧ Platform.inetPton n.listen = true
  port : 1 ≤ n.listenPort ∧ n.listenPort ≤ 65535

structure Records [Platform] (db : Db) : Prop where
  users : ∀ u ∈ db.users, UserRow u
  devices : ∀ d ∈ db.devices, DeviceRow d
  ingress : ∀ n ∈ db.ingress, IngressRow n
  leases : ∀ l ∈ db.leases, IsUuid l.id

lemma reported_ids {host boot : Bytes} {now : ℤ} {rs : List (Bytes × ℤ)} {l l' : List ProxyLease}
    (h : Reported host boot now rs l l') : l'.map ProxyLease.id = l.map ProxyLease.id := by
  induction h with
  | nil l => rfl
  | cons _ _ _ _ _ _ _ _ ih => rw [ih, map_id_putUsed]

lemma reported_uuid {host boot : Bytes} {now : ℤ} {rs : List (Bytes × ℤ)} {l l' : List ProxyLease}
    (h : Reported host boot now rs l l') (hl : ∀ r ∈ l, IsUuid r.id) : ∀ r ∈ l', IsUuid r.id := by
  intro r hr
  have hmem : r.id ∈ l.map ProxyLease.id := reported_ids h ▸ List.mem_map_of_mem hr
  obtain ⟨x, hx, hid⟩ := List.mem_map.mp hmem
  exact hid ▸ hl x hx

lemma leased_uuid {db : Db} {host boot : Bytes} {now : ℤ} {us : List ProxyUser}
    {ps : List UserPolicy} {l l' : List ProxyLease} (hl : ∀ r ∈ l, IsUuid r.id)
    (h : Leased db host boot now us l ps l') : ∀ r ∈ l', IsUuid r.id := by
  induction h with
  | nil l => exact hl
  | skip _ ih => exact ih hl
  | @lease u us l l' ps p new hg _ _ ih =>
    apply ih
    intro r hr
    unfold putRow Table.upsert at hr
    split_ifs at hr
    · obtain ⟨x, hx, rfl⟩ := Table.mem_update.mp hr
      split_ifs <;> exact hl x hx
    · rcases List.mem_append.mp hr with hr | hr
      · exact hl r hr
      · rw [List.mem_singleton.mp hr]
        cases hf : l.find? (sameLease u.id host boot u.epoch) with
        | some x =>
          rw [hg.known x hf]
          exact hl x (List.mem_of_find?_eq_some hf)
        | none => exact (hg.unknown hf).1

section

variable [Platform]

lemma records_step {db : Db} {c : Call} (h : Records db) : Records (c.next db) := by
  rcases c.cases db with ⟨e, -, hdb⟩ | ⟨v, -, heff⟩
  · rw [hdb]; exact h
  revert heff
  generalize c.next db = db'
  generalize c.cmd = cmd
  intro heff
  cases heff with
  | read | runtimeReport | createHost | updateHost => exact ⟨h.users, h.devices, h.ingress, h.leases⟩
  | deleteHost =>
    exact ⟨h.users, h.devices, fun n hn => h.ingress n (List.mem_of_mem_filter hn), h.leases⟩
  | userSave row hosts hok hadm =>
    have hrow : IsUuid row.id := by
      cases hadm with
      | new raw _ hsize hid => exact ⟨raw, hsize, hid⟩
      | change old hmem hid => exact hid ▸ (h.users old hmem).id
    refine ⟨Table.forall_upsert h.users (fun u hu => ⟨hu.id, hu.epoch, hok.expiry⟩) ?_, h.devices,
      h.ingress, h.leases⟩
    refine ⟨hrow, ?_, hok.expiry⟩
    rw [hok.fresh.2.1]
    decide
  | userRemove =>
    exact ⟨Table.forall_update h.users fun u hu _ => ⟨hu.id, hu.epoch, hu.expiry⟩,
      Table.forall_update h.devices fun d hd _ => ⟨hd.id, hd.key, hd.expiry⟩, h.ingress, h.leases⟩
  | userReset =>
    refine ⟨Table.forall_update h.users fun u hu hp => ⟨hu.id, ?_, hu.expiry⟩, h.devices, h.ingress,
      h.leases⟩
    simp only [Bool.and_eq_true, decide_eq_true_eq] at hp
    have := hu.epoch
    change 1 ≤ u.epoch + 1 ∧ u.epoch + 1 ≤ safeInteger
    omega
  | claimRotate =>
    exact ⟨Table.forall_update h.users fun u hu _ => ⟨hu.id, hu.epoch, hu.expiry⟩, h.devices,
      h.ingress, h.leases⟩
  | deviceCreate u d _ _ _ _ _ _ hnamed hkey _ hexp =>
    refine ⟨h.users, fun x hx => ?_, h.ingress, h.leases⟩
    rcases List.mem_append.mp hx with hx | hx
    · exact h.devices x hx
    · rw [List.mem_singleton.mp hx]
      obtain ⟨raw, -, hlen, hpw⟩ := hkey
      exact ⟨hnamed, ⟨raw, hlen, hpw⟩, hexp.1, hexp.2.1⟩
  | deviceRevoke =>
    exact ⟨h.users, Table.forall_update h.devices fun d hd _ => ⟨hd.id, hd.key, hd.expiry⟩,
      h.ingress, h.leases⟩
  | ingressSave n _ _ hkey hlisten hport =>
    obtain ⟨raw, -, hlen, hpw⟩ := hkey
    exact ⟨h.users, h.devices, Table.forall_upsert h.ingress
      (fun x hx => ⟨hx.key, hlisten, hport⟩) ⟨⟨raw, hlen, hpw⟩, hlisten, hport⟩, h.leases⟩
  | leaseExchange _ hex =>
    cases hex with
    | replay _ _ _ _ _ hsame => rw [hsame]; exact h
    | new p _ _ happ =>
      obtain ⟨l, l', hrep, hserved, rfl⟩ := happ
      refine ⟨h.users, h.devices, h.ingress, ?_⟩
      have hl := reported_uuid hrep h.leases
      cases hserved with
      | none => exact hl
      | some node _ _ _ hleased => exact leased_uuid hl hleased

lemma records_fresh (hosts : List Host) : Records (Db.fresh hosts) :=
  ⟨by simp [Db.fresh], by simp [Db.fresh], by simp [Db.fresh], by simp [Db.fresh]⟩

end

/-! ### The policy -/

lemma hostUsers_nodup {db : Db} (h : (db.users.map ProxyUser.id).Nodup) (host : Bytes) (now : ℤ) :
    ((hostUsers db host now).map ProxyUser.id).Nodup := by
  unfold hostUsers
  rw [((orderBy_perm _ _).map _).nodup_iff]
  exact h.sublist (List.filter_sublist.map _)

lemma mem_hostUsers {db : Db} {host : Bytes} {now : ℤ} {u : ProxyUser}
    (h : u ∈ hostUsers db host now) :
    u ∈ db.users ∧ u.enabled = true ∧ u.deleted = false ∧ (u.expiresAt = 0 ∨ now < u.expiresAt) ∧
      ∃ b ∈ db.userNodes, b.userId = u.id ∧ b.hostId = host := by
  have := List.mem_filter.mp (mem_orderBy.mp h)
  simp only [Bool.and_eq_true, List.any_eq_true, beq_iff_eq, Bool.not_eq_true', Bool.or_eq_true,
    decide_eq_true_eq] at this
  obtain ⟨hu, ⟨⟨⟨b, hb, h1⟩, h2⟩, h3⟩, h4⟩ := this
  exact ⟨hu, h2, h3, h4, b, hb, h1.1, h1.2⟩

lemma mem_policyDevices {db : Db} {user : Bytes} {now : ℤ} {d : DevicePolicy}
    (h : d ∈ policyDevices db user now) :
    ∃ x ∈ db.devices, x.userId = user ∧ x.enabled = true ∧ (x.expiresAt = 0 ∨ now < x.expiresAt) ∧
      d = ⟨x.id, x.expiresAt, x.password⟩ := by
  obtain ⟨x, hx, rfl⟩ := List.mem_map.mp h
  obtain ⟨hmem, hact⟩ := List.mem_filter.mp (mem_orderBy.mp hx)
  simp only [Db.activeDevice, Bool.and_eq_true, beq_iff_eq, Bool.or_eq_true,
    decide_eq_true_eq] at hact
  exact ⟨x, hmem, hact.1.1, hact.1.2, hact.2, rfl⟩

lemma valid_of_textOk {s : Bytes} {limit : ℕ} {identifier : Bool}
    (h : textOk (some (.str s)) limit identifier = true) : Utf8.Valid s := by
  simp only [textOk, Bool.and_eq_true] at h
  apply Utf8.valid_of_check
  cases hc : Utf8.check s with
  | ok => rfl
  | error e => simp [hc, Except.isOk, Except.toBool] at h

lemma int64_of_le {i : ℤ} (h0 : 0 ≤ i) (h : i ≤ safeInteger) : Int64 i := by
  unfold Int64 int64Min int64Max
  unfold safeInteger at h
  omega

lemma leaseUntil_le (u : ProxyUser) (now : ℤ) :
    leaseUntil u now ≤ now + leaseSeconds ∧
      (u.expiresAt = 0 ∨ now < u.expiresAt → now < leaseUntil u now) := by
  unfold leaseUntil leaseSeconds
  split_ifs <;> constructor <;> omega

variable [Platform] {db : Db} {host boot : Bytes} {seq now : ℤ} {l l' : List ProxyLease} {p : Policy}

lemma issued_typed {u : ProxyUser} {q : UserPolicy} (hr : Records db) (hb : Budget db.users l)
    (hl : ∀ r ∈ l, IsUuid r.id) (hu : u ∈ hostUsers db host now)
    (hnow : 1 ≤ now ∧ now ≤ 4102444740) (h : Issued db host boot now l u q) : q.Typed := by
  obtain ⟨humem, -, -, hlive, -⟩ := mem_hostUsers hu
  obtain ⟨⟨r, hrmem, hkey, hid, hgrant, hused⟩, ⟨hqid, hqepoch⟩, -, hexp, ⟨hdev, -⟩, -⟩ := h
  have hrow := hr.users u humem
  simp only [ProxyLease.key, Prod.mk.injEq] at hkey
  have hle := hb.grant_le hrmem humem hkey.1 hkey.2.2.2
  have hcount := hb.counters r hrmem
  have huntil := leaseUntil_le u now
  refine ⟨hqid ▸ hrow.id.valid, ?_, hid ▸ (hl r hrmem).valid, ⟨?_, ?_, ?_⟩, fun d hd => ?_⟩
  · rw [hqepoch]
    exact int64_of_le (by have := hrow.epoch; omega) hrow.epoch.2
  · rw [hgrant]
    exact int64_of_le (hb.grant_nonneg hrmem) hle
  · rw [hused]
    exact int64_of_le hcount.1 (hcount.2.trans hle)
  · rw [hexp]
    have := huntil.2 hlive
    unfold leaseSeconds at huntil
    exact int64_of_le (by omega) (by unfold safeInteger; omega)
  · rw [hdev] at hd
    obtain ⟨x, hx, -, -, -, rfl⟩ := mem_policyDevices hd
    have hxrow := hr.devices x hx
    refine ⟨hxrow.id.valid, hxrow.key.valid, int64_of_le hxrow.expiry.1 (hxrow.expiry.2.trans ?_)⟩
    decide

lemma served_typed (hr : Records db) (hb : Budget db.users l) (hl : ∀ r ∈ l, IsUuid r.id)
    (hhost : Utf8.Valid host) (hboot : Utf8.Valid boot) (hseq : 1 ≤ seq ∧ seq ≤ safeInteger)
    (hnow : 1 ≤ now ∧ now ≤ 4102444740) (h : Served db host boot seq now l p l') : p.Typed := by
  have hnumbers : Int64 seq ∧ Int64 now ∧ Int64 (now + leaseSeconds) := by
    have hlast : now + leaseSeconds ≤ safeInteger := by
      unfold leaseSeconds safeInteger
      omega
    have hpos : (0 : ℤ) ≤ leaseSeconds := by decide
    exact ⟨int64_of_le (by omega) hseq.2, int64_of_le (by omega) (by omega),
      int64_of_le (by omega) hlast⟩
  cases h with
  | none => exact ⟨hhost, hboot, hnumbers, by simp, by simp⟩
  | @some _ ps node hfound _ _ hleased =>
    have hus : ∀ v ∈ hostUsers db host now, v ∈ db.users := fun v hv => (mem_hostUsers hv).1
    have hb' := (hb.leased hus hleased).1
    have hl' := leased_uuid hl hleased
    obtain ⟨vs, hsub, hall⟩ := leased_issued hb hus (hostUsers_nodup hb.userIds host now) hleased
    have hnode := hr.ingress node (List.mem_of_find?_eq_some hfound)
    refine ⟨hhost, hboot, hnumbers, fun n hn => ?_, fun q hq => ?_⟩
    · rw [Option.mem_def, Option.some_inj] at hn
      rw [← hn]
      have hport : Int64 node.listenPort := by
        have := hnode.port
        exact int64_of_le (by omega) (by unfold safeInteger; omega)
      exact ⟨valid_of_textOk hnode.listen.1, hport, hnode.key.valid⟩
    · obtain ⟨u, hu, hq⟩ := exists_of_forall₂ hall hq
      exact issued_typed hr hb' hl' (hsub.subset hu) hnow hq

end SbEasy
