import SbEasy.Quota

/-!
Device identifiers and keys: as long as no key is drawn twice, no two devices share one, and no
device has the key of an ingress node.
-/

namespace SbEasy

open Center

structure Keys (db : Db) : Prop where
  ids : (db.devices.map ProxyDevice.id).Nodup
  passwords : (db.devices.map ProxyDevice.password).Nodup
  server : ∀ n ∈ db.ingress, ∀ d ∈ db.devices, d.password ≠ n.serverKey

namespace Keys

variable {db : Db}

/-- Devices may change in anything but their identifier and key. -/
lemma updateDevices (h : Keys db) (p : ProxyDevice → Bool) {f : ProxyDevice → ProxyDevice}
    (hf : ∀ d, (f d).id = d.id ∧ (f d).password = d.password) :
    Keys { db with devices := Table.update p f db.devices } where
  ids := Table.nodup_update h.ids fun d _ _ => (hf d).1
  passwords := Table.nodup_update h.passwords fun d _ _ => (hf d).2
  server n hn d hd := by
    obtain ⟨x, hx, rfl⟩ := Table.mem_update.mp hd
    split_ifs
    · rw [(hf x).2]; exact h.server n hn x hx
    · exact h.server n hn x hx

lemma addDevice (h : Keys db) {d : ProxyDevice} (hid : ∀ x ∈ db.devices, x.id ≠ d.id)
    (hkey : ∀ x ∈ db.devices, x.password ≠ d.password)
    (hserver : ∀ n ∈ db.ingress, n.serverKey ≠ d.password) :
    Keys { db with devices := db.devices ++ [d] } where
  ids := by
    rw [List.map_append, List.map_singleton, List.nodup_append]
    refine ⟨h.ids, by simp, ?_⟩
    simpa using hid
  passwords := by
    rw [List.map_append, List.map_singleton, List.nodup_append]
    refine ⟨h.passwords, by simp, ?_⟩
    simpa using hkey
  server n hn x hx := by
    rcases List.mem_append.mp hx with hx | hx
    · exact h.server n hn x hx
    · rw [List.mem_singleton.mp hx]
      exact (hserver n hn).symm

lemma putIngress (h : Keys db) {n : IngressNode} (hkey : ∀ d ∈ db.devices, d.password ≠ n.serverKey) :
    Keys (putIngress db n) where
  ids := h.ids
  passwords := h.passwords
  server := Table.forall_upsert h.server (fun _ hx => hx) hkey

lemma frame (h : Keys db) {db' : Db} (hd : db'.devices = db.devices)
    (hi : ∀ n ∈ db'.ingress, n ∈ db.ingress) : Keys db' := by
  obtain ⟨h1, h2, h3⟩ := h
  exact ⟨hd ▸ h1, hd ▸ h2, fun n hn => hd ▸ h3 n (hi n hn)⟩

end Keys

def Cmd.createsKey : Cmd → Bool
  | .deviceCreate _ _ => true
  | .ingressSave _ _ => true
  | _ => false

/-- A call that creates a key does not draw one in use. -/
def FreshKeys (db : Db) (c : Call) : Prop :=
  c.cmd.createsKey = true → ∀ raw ∈ c.io.random,
    (∀ d ∈ db.devices, d.password ≠ b64Encode b64 true raw) ∧
    ∀ n ∈ db.ingress, n.serverKey ≠ b64Encode b64 true raw

instance (db : Db) (c : Call) : Decidable (FreshKeys db c) := inferInstanceAs (Decidable (_ → _))

lemma keys_step [Platform] {db : Db} {c : Call} (h : Keys db) (hf : FreshKeys db c) :
    Keys (c.next db) := by
  rcases c.cases db with ⟨e, -, hdb⟩ | ⟨v, -, heff⟩
  · rw [hdb]; exact h
  revert heff
  generalize c.next db = db'
  generalize hcmd : c.cmd = cmd
  intro heff
  cases heff with
  | read | runtimeReport | userSave | userReset | claimRotate | createHost | updateHost =>
    exact h.frame rfl fun _ hn => hn
  | deleteHost => exact h.frame rfl fun _ hn => List.mem_of_mem_filter hn
  | userRemove => exact (h.updateDevices _ (by simp)).frame rfl fun _ hn => hn
  | deviceRevoke => exact h.updateDevices _ (by simp)
  | deviceCreate u d _ _ _ _ _ hid _ hkey =>
    obtain ⟨raw, hraw, -, hpw⟩ := hkey
    obtain ⟨h1, h2⟩ := hf (by rw [hcmd]; rfl) raw hraw
    exact h.addDevice hid (hpw ▸ h1) (hpw ▸ h2)
  | ingressSave n _ _ hkey =>
    obtain ⟨raw, hraw, -, hpw⟩ := hkey
    obtain ⟨h1, -⟩ := hf (by rw [hcmd]; rfl) raw hraw
    exact h.putIngress (hpw ▸ h1)
  | leaseExchange _ hex =>
    cases hex with
    | replay _ _ _ _ _ hsame => rw [hsame]; exact h
    | new _ _ _ happ =>
      obtain ⟨_, _, _, _, rfl⟩ := happ
      exact h.frame rfl fun _ hn => hn

lemma keys_fresh (hosts : List Host) : Keys (Db.fresh hosts) :=
  ⟨by simp [Db.fresh], by simp [Db.fresh], by simp [Db.fresh]⟩

end SbEasy
