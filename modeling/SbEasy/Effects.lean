import Mathlib.Data.List.TakeWhile
import SbEasy.ExchangeEffect

/-!
What the operations of the center do to the database when they succeed, one effect for
each operation.
-/

namespace SbEasy

inductive Cmd
  | runtimeReport (host : Bytes) (capabilities : Option Sbj)
  | userSave (id : Option Bytes) (body : Sbj)
  | userRemove (id : Bytes)
  | userReset (id : Bytes)
  | userGet (id : Bytes)
  | usersList
  | claimRotate (id : Bytes)
  | deviceCreate (user : Bytes) (body : Sbj)
  | deviceRevoke (user device : Bytes)
  | ingressSave (host : Bytes) (body : Sbj)
  | leaseExchange (host : Bytes) (request : Sbj)
  | createHost (id : Bytes) (enabled : Bool)
  | updateHost (id : Bytes) (enabled : Bool)
  | deleteHost (id : Bytes)

namespace Center

open Tx

/-! ### Effects -/

/-- A user row as `sb_proxy_user_save` accepts it. -/
structure RowOk (u : ProxyUser) : Prop where
  quota : 0 ≤ u.quotaBytes ∧ u.quotaBytes ≤ safeInteger
  expiry : 0 ≤ u.expiresAt ∧ u.expiresAt ≤ maxTime
  devices : 1 ≤ u.maxDevices ∧ u.maxDevices ≤ 32
  fresh : u.deleted = false ∧ u.epoch = 1 ∧ u.notBefore = 0

/-- Why a user row may be written: there is room for a new one, or the old one allows it. -/
inductive Admitted (now : ℤ) (random : List Bytes) (db : Db) (row : ProxyUser) :
    Option Bytes → Prop
  | new (raw : Bytes) (generated : raw ∈ random) (size : raw.length = 16)
      (id : row.id = uuidText raw) (room : db.activeUsers < 256) : Admitted now random db row none
  | change (old : ProxyUser) (mem : old ∈ db.users) (id : old.id = row.id)
      (live : old.deleted = false)
      (quota : row.quotaBytes = 0 ∨ db.allocated old.id old.epoch ≤ row.quotaBytes)
      (devices : (db.activeDevices row.id now : ℤ) ≤ row.maxDevices) :
      Admitted now random db row (some row.id)

/-- The database after `sb_proxy_user_save`. -/
def putUser (db : Db) (row : ProxyUser) (hosts : List Bytes) : Db :=
  { db with
    users := Table.upsert (fun u => u.id == row.id) (userUpdate row) row db.users
    userNodes := (db.userNodes.filter fun b => !(b.userId == row.id)) ++ hosts.map (⟨row.id, ·⟩) }

/-- The database after `sb_proxy_user_remove`. -/
def dropUser (db : Db) (id : Bytes) (now : ℤ) : Db :=
  { db with
    users := Table.update (fun u => u.id == id && !u.deleted) (fun u =>
      { u with enabled := false, deleted := true, claimHash := none, updatedAt := now }) db.users
    devices := Table.update (fun d => d.userId == id) (fun d => { d with enabled := false })
      db.devices }

/-- The database after `sb_proxy_ingress_save`. -/
def putIngress (db : Db) (n : IngressNode) : Db :=
  { db with
    ingress := Table.upsert (fun x => x.hostId == n.hostId)
      (fun x => { x with enabled := n.enabled, server := n.server, listen := n.listen
                         listenPort := n.listenPort, updatedAt := n.updatedAt }) n db.ingress }

variable [Platform]

/-- What a successful call does, with the time and the random bytes it got. -/
inductive Effect (now : ℤ) (random : List Bytes) (db : Db) : Cmd → Sbj → Db → Prop
  | read {cmd : Cmd} {v : Sbj} (h : cmd = .usersList ∨ ∃ id, cmd = .userGet id) :
      Effect now random db cmd v db
  | runtimeReport {host : Bytes} {caps : Option Sbj} {v : Sbj} (supported : Bool) :
      Effect now random db (.runtimeReport host caps) v { db with
        reports := Table.upsert (fun r => r.hostId == host)
          (fun r => { r with supported := supported, observedAt := now }) ⟨host, supported, now⟩
          db.reports }
  | userSave {id : Option Bytes} {body v : Sbj} (row : ProxyUser) (hosts : List Bytes)
      (ok : RowOk row) (admitted : Admitted now random db row id)
      (bound : ∀ h ∈ hosts, ∃ n ∈ db.ingress, n.hostId = h) (distinct : hosts.Nodup) :
      Effect now random db (.userSave id body) v (putUser db row hosts)
  | userRemove {id : Bytes} {v : Sbj} : Effect now random db (.userRemove id) v (dropUser db id now)
  | userReset {id : Bytes} {v : Sbj} (u : ProxyUser) (mem : u ∈ db.users) (hid : u.id = id)
      (live : u.deleted = false) (below : u.epoch < safeInteger) :
      Effect now random db (.userReset id) v (resetUser db id now)
  | claimRotate {id : Bytes} {v : Sbj} (hash : Bytes) :
      Effect now random db (.claimRotate id) v { db with
        users := Table.update (fun u => u.id == id && !u.deleted)
          (fun u => { u with claimHash := some hash, updatedAt := now }) db.users }
  | deviceCreate {user : Bytes} {body v : Sbj} (u : ProxyUser) (d : ProxyDevice) (mem : u ∈ db.users)
      (hid : u.id = user) (owner : d.userId = user) (live : u.deleted = false)
      (room : (db.activeDevices user now : ℤ) < u.maxDevices)
      (unused : ∀ x ∈ db.devices, x.id ≠ d.id) (named : ∃ raw, raw.length = 16 ∧ d.id = uuidText raw)
      (key : ∃ raw ∈ random, raw.length = 16 ∧ d.password = b64Encode b64 true raw)
      (enabled : d.enabled = true)
      (expiry : 0 ≤ d.expiresAt ∧ d.expiresAt ≤ maxTime ∧ (d.expiresAt = 0 ∨ now < d.expiresAt)) :
      Effect now random db (.deviceCreate user body) v { db with devices := db.devices ++ [d] }
  | deviceRevoke {user device : Bytes} {v : Sbj} :
      Effect now random db (.deviceRevoke user device) v { db with
        devices := Table.update (fun d => d.id == device && d.userId == user)
          (fun d => { d with enabled := false, revokedAt := some now }) db.devices }
  | ingressSave {host : Bytes} {body v : Sbj} (n : IngressNode) (hid : n.hostId = host)
      (known : ∃ x ∈ db.hosts, x.id = host)
      (key : ∃ raw ∈ random, raw.length = 16 ∧ n.serverKey = b64Encode b64 true raw)
      (listen : textOk (some (.str n.listen)) 64 false = true ∧ Platform.inetPton n.listen = true)
      (port : 1 ≤ n.listenPort ∧ n.listenPort ≤ 65535) :
      Effect now random db (.ingressSave host body) v (putIngress db n)
  | leaseExchange {host : Bytes} {request v : Sbj} {db' : Db} (ok : RequestOk host request now db)
      (exchanged : Exchanged host request now db v db') :
      Effect now random db (.leaseExchange host request) v db'
  | createHost {id : Bytes} {enabled : Bool} {v : Sbj} (h : Host)
      (hid : (id ≠ [] ∧ h.id = id) ∨ ∃ raw, raw.length = 16 ∧ h.id = uuidText raw)
      (unused : ∀ x ∈ db.hosts, x.id ≠ h.id) :
      Effect now random db (.createHost id enabled) v { db with hosts := db.hosts ++ [h] }
  | updateHost {id : Bytes} {enabled : Bool} {v : Sbj} :
      Effect now random db (.updateHost id enabled) v { db with
        hosts := Table.update (fun h => h.id == id) (fun h => { h with enabled := enabled }) db.hosts }
  | deleteHost {id : Bytes} {v : Sbj} : Effect now random db (.deleteHost id) v (dropHost db id)

lemma getInt_of_numberOk {body : Option Sbj} {key : Bytes} {low high : ℤ} (fb : ℤ)
    (h : numberOk body key low high = true) :
    low ≤ Sbj.getInt body key fb ∧ Sbj.getInt body key fb ≤ high := by
  unfold numberOk at h
  unfold Sbj.getInt
  split at h
  · rename_i i hi
    rw [hi]
    change low ≤ i ∧ i ≤ high
    simpa using h
  · cases h

variable {id : Bytes} {body : Sbj} {now : ℤ} {u : Unit}

lemma rowOk_userRow (h : userBodyOk body = true) : RowOk (userRow id body now) := by
  simp only [userBodyOk, Bool.and_eq_true] at h
  obtain ⟨⟨⟨⟨⟨-, hq⟩, he⟩, hd⟩, -⟩, -⟩ := h
  exact ⟨getInt_of_numberOk 0 hq, getInt_of_numberOk 0 he, getInt_of_numberOk 3 hd, rfl, rfl, rfl⟩

/-! ### Users -/

variable {s s' : Center} {random : List Bytes} {w : Sbj}

omit [Platform] in
lemma ok_userLocked {v : UserView} (h : Ok (userLocked id) s v s') :
    (∃ u ∈ s.db.users, u.id = id ∧ u.deleted = false ∧ v.user = u ∧
        v.allocatedBytes = s.db.allocated id u.epoch ∧ v.devices = devicesOf s.db id) ∧
      s'.db = s.db := by
  simp only [userLocked, ok_query_bind] at h
  obtain ⟨io, -, h⟩ := h
  split at h
  · simp at h
  rename_i u alloc rep hrow
  obtain ⟨ms, s₂, h2, h⟩ := ok_bind.mp h
  obtain ⟨-, io₂, -, rfl⟩ := ok_waitMs h2
  simp only [ok_query_bind, ok_pure] at h
  obtain ⟨io₃, -, io₄, -, rfl, rfl⟩ := h
  rw [Option.map_eq_some_iff] at hrow
  obtain ⟨w, hw, hw'⟩ := hrow
  have hmem := List.mem_of_find?_eq_some hw
  have hp := List.find?_some hw
  simp only [Bool.and_eq_true, beq_iff_eq, Bool.not_eq_true'] at hp
  simp only [Prod.mk.injEq] at hw'
  obtain ⟨rfl, rfl, rfl⟩ := hw'
  exact ⟨⟨w, hmem, hp.1, hp.2, rfl, by rw [hp.1], rfl⟩, rfl⟩

omit [Platform] in
lemma ok_checkIngress {hosts : List Bytes} (h : Ok (checkIngress hosts) s u s') :
    (∀ x ∈ hosts, ∃ n ∈ s.db.ingress, n.hostId = x) ∧ s'.db = s.db := by
  induction hosts generalizing s with
  | nil =>
    simp only [checkIngress, ok_pure] at h
    exact ⟨by simp, by rw [h.2]⟩
  | cons x hosts ih =>
    simp only [checkIngress, ok_query_bind, ok_guard] at h
    obtain ⟨io, -, hx, h⟩ := h
    obtain ⟨hrest, hdb⟩ := ih h
    refine ⟨fun y hy => ?_, hdb⟩
    rcases List.mem_cons.mp hy with rfl | hy
    · simpa using hx
    · exact hrest y hy

omit [Platform] in
lemma ok_bindHosts {hosts : List Bytes} (h : Ok (bindHosts id hosts) s u s') :
    hosts.Nodup ∧ (∀ x ∈ hosts, (⟨id, x⟩ : UserNode) ∉ s.db.userNodes) ∧
      s'.db = { s.db with userNodes := s.db.userNodes ++ hosts.map (⟨id, ·⟩) } := by
  induction hosts generalizing s with
  | nil =>
    simp only [bindHosts, ok_pure] at h
    rw [h.2]
    simp
  | cons x hosts ih =>
    simp only [bindHosts, ok_query_bind, ok_guard] at h
    obtain ⟨io, -, hx, h⟩ := h
    simp only [ok_bind, ok_modify] at h
    obtain ⟨_, _, rfl, h⟩ := h
    obtain ⟨hnd, hnew, hdb⟩ := ih h
    simp only [Bool.not_eq_true', List.any_eq_false, Bool.and_eq_true, beq_iff_eq, not_and] at hx
    refine ⟨List.nodup_cons.mpr ⟨fun hmem => ?_, hnd⟩, fun y hy hin => ?_, by simp [hdb]⟩
    · exact hnew x hmem (by simp)
    · rcases List.mem_cons.mp hy with rfl | hy
      · exact hx _ hin rfl rfl
      · exact hnew y hy (by simp [hin])

omit [Platform] in
/-- The client-side recount of `sb_proxy_user_save` is the count of the active devices. -/
lemma countP_devicesOf (db : Db) (id : Bytes) (now : ℤ) :
    ((devicesOf db id).countP fun d => d.enabled && (d.expiresAt == 0 || d.expiresAt > now)) =
      db.activeDevices id now := by
  unfold devicesOf Db.activeDevices
  rw [List.countP_map, (List.perm_insertionSort _ _).countP_eq, (orderBy_perm _ _).countP_eq,
    List.countP_filter]
  congr 1
  funext d
  simp only [Function.comp, Db.activeDevice]
  cases d.enabled <;> cases (d.userId == id) <;> simp

lemma ok_checkChange (hb : userBodyOk body = true) (random : List Bytes)
    (h : Ok (checkChange id body now) s u s') :
    Admitted now random s.db (userRow id body now) (some id) ∧ s'.db = s.db := by
  simp only [checkChange, ok_bind, ok_require] at h
  obtain ⟨v, s₁, h1, hc, rfl⟩ := h
  obtain ⟨⟨old, hmem, hid, hlive, -, halloc, hdev⟩, hdb⟩ := ok_userLocked h1
  rw [hdev, countP_devicesOf, halloc] at hc
  simp only [Bool.not_eq_true', Bool.or_eq_false_iff, Bool.and_eq_false_iff, decide_eq_false_iff_not,
    not_not, not_lt] at hc
  have hmax : Sbj.getInt (some body) (lit "max_devices") 1 =
      Sbj.getInt (some body) (lit "max_devices") 3 := by
    simp only [userBodyOk, Bool.and_eq_true] at hb
    obtain ⟨⟨⟨-, hd⟩, -⟩, -⟩ := hb
    unfold numberOk at hd
    unfold Sbj.getInt
    split at hd
    · rename_i i hi; rw [hi]; rfl
    · cases hd
  refine ⟨.change old hmem hid hlive ?_ ?_, hdb⟩
  · rw [hid]; exact hc.1
  · change _ ≤ Sbj.getInt (some body) (lit "max_devices") 3
    rw [← hmax]; exact hc.2

lemma ok_saveUser {generated : Bool} {v : UserView}
    (hb : userBodyOk body = true) (h : Ok (saveUser id generated body now) s v s') :
    ∃ hosts : List Bytes, (if generated then s.db.activeUsers < 256 else
        ∀ random, Admitted now random s.db (userRow id body now) (some id)) ∧
      (∀ x ∈ hosts, ∃ n ∈ s.db.ingress, n.hostId = x) ∧ hosts.Nodup ∧
      s'.db = putUser s.db (userRow id body now) hosts := by
  simp only [saveUser, ok_bind] at h
  obtain ⟨_, s₁, h1, _, s₂, h2, _, s₃, h3, _, s₄, h4, _, s₅, h5, h6⟩ := h
  have hadm : (if generated then s.db.activeUsers < 256 else
      ∀ random, Admitted now random s.db (userRow id body now) (some id)) ∧ s₁.db = s.db := by
    cases generated with
    | true =>
      simp only [checkSave, if_true, checkRoom, ok_query_bind, ok_require] at h1 ⊢
      obtain ⟨io, -, hc, rfl⟩ := h1
      exact ⟨by simpa using hc, rfl⟩
    | false =>
      simp only [checkSave, Bool.false_eq_true, if_false] at h1 ⊢
      exact ⟨fun random => (ok_checkChange hb random h1).1, (ok_checkChange hb [] h1).2⟩
  obtain ⟨hbound, hdb₂⟩ := ok_checkIngress h2
  obtain ⟨io₃, rfl⟩ := ok_write h3
  obtain ⟨io₄, rfl⟩ := ok_write h4
  obtain ⟨hnd, -, hdb₅⟩ := ok_bindHosts h5
  obtain ⟨-, hdb₆⟩ := ok_userLocked h6
  rw [hadm.2] at hbound hdb₂
  refine ⟨_, hadm.1, hbound, hnd, ?_⟩
  rw [hdb₆, hdb₅, hdb₂]
  rfl

omit [Platform] in
lemma ok_checkHostIds {seen hosts : List Sbj}
    (h : Ok (checkHostIds seen hosts) s u s') : s' = s := by
  induction hosts generalizing seen s with
  | nil => exact (ok_pure.mp h).2
  | cons x hosts ih =>
    simp only [checkHostIds, ok_guard] at h
    exact ih h.2.2

lemma ok_userSave {id : Option Bytes} {v : UserView} (h : Ok (userSave id body now) s v s') :
    Effect now s.io.random s.db (.userSave id body) w s'.db := by
  unfold userSave at h
  rw [ok_guard, ok_bind] at h
  obtain ⟨hb, _, s₁, h1, h⟩ := h
  obtain rfl := ok_checkHostIds h1
  cases id with
  | some id =>
    obtain ⟨io, s₂, h2, hdb, -⟩ := ok_atomically h
    obtain ⟨hosts, hadm, hbound, hnd, hdb'⟩ := ok_saveUser hb h2
    rw [hdb, hdb']
    exact .userSave (userRow id body now) hosts (rowOk_userRow hb) (hadm _) hbound hnd
  | none =>
    obtain ⟨id, s₂, h2, h⟩ := ok_bind.mp h
    obtain ⟨⟨raw, hraw, hlen, hid⟩, io, -, rfl⟩ := ok_uuidV4 h2
    obtain ⟨io', s₃, h3, hdb, -⟩ := ok_atomically h
    obtain ⟨hosts, hroom, hbound, hnd, hdb'⟩ := ok_saveUser hb h3
    rw [hdb, hdb']
    exact .userSave (userRow id body now) hosts (rowOk_userRow hb) (.new raw hraw hlen hid hroom)
      hbound hnd

lemma ok_userRemove (h : Ok (userRemove id now) s u s') :
    Effect now random s.db (.userRemove id) w s'.db := by
  obtain ⟨io, s₁, h, hdb, -⟩ := ok_atomically h
  obtain ⟨io₂, -, h⟩ := ok_query_bind.mp h
  simp only [ok_bind, ok_modify, ok_require] at h
  obtain ⟨_, _, rfl, _, _, ⟨-, rfl⟩, h⟩ := h
  obtain ⟨io₃, rfl⟩ := ok_write h
  rw [hdb]
  exact .userRemove

lemma ok_userReset {v : UserView} (h : Ok (userReset id now) s v s') :
    Effect now random s.db (.userReset id) w s'.db := by
  obtain ⟨-, h⟩ := ok_guard.mp h
  obtain ⟨io, s₁, h, hdb, -⟩ := ok_atomically h
  obtain ⟨io₂, -, h⟩ := ok_query_bind.mp h
  simp only [ok_bind, ok_modify, ok_require, ok_pure] at h
  obtain ⟨_, _, rfl, _, _, ⟨hc, rfl⟩, out, s₃, h3, _, s₄, h4, -, rfl⟩ := h
  obtain ⟨-, hdb₃⟩ := ok_userLocked h3
  simp only [resetEpoch, reading, ok_bind, ok_get, ok_modify, ok_pure] at h4
  obtain ⟨_, _, ⟨_, _, ⟨rfl, rfl⟩, _, _, rfl, rfl, rfl⟩, rfl⟩ := h4
  obtain ⟨u, hu, hp⟩ := List.countP_pos_iff.mp
    (Nat.lt_of_lt_of_eq Nat.one_pos (beq_iff_eq.mp hc).symm)
  simp only [Bool.and_eq_true, beq_iff_eq, Bool.not_eq_true', decide_eq_true_eq] at hp
  rw [hdb]
  simp only [hdb₃]
  exact .userReset u hu hp.1.1 hp.1.2 hp.2

lemma ok_claimRotate {v : Sbj} (h : Ok (claimRotate id now) s v s') :
    Effect now random s.db (.claimRotate id) v s'.db := by
  obtain ⟨token, s₁, h1, h⟩ := ok_bind.mp h
  obtain ⟨-, io, -, rfl⟩ := ok_newSecret h1
  simp only [ok_query_bind, ok_guard, ok_map, ok_modify] at h
  obtain ⟨io₂, -, -, -, _, rfl, rfl⟩ := h
  exact .claimRotate _

variable {host user : Bytes} {limit : ℕ} {identifier enabled : Bool}

omit [Platform] in
lemma ok_nodeLocked {v : NodeView} (h : Ok (nodeLocked host now) s v s') : s'.db = s.db := by
  obtain ⟨io, -, h⟩ := ok_query_bind.mp h
  split at h
  · simp at h
  · obtain ⟨-, io₂, rfl⟩ := ok_query h
    rfl

lemma deviceBodyOk_expiry (h : deviceBodyOk body now = true) :
    0 ≤ Sbj.getInt (some body) (lit "expires_at") 0 ∧
      Sbj.getInt (some body) (lit "expires_at") 0 ≤ maxTime ∧
      (Sbj.getInt (some body) (lit "expires_at") 0 = 0 ∨
        now < Sbj.getInt (some body) (lit "expires_at") 0) := by
  simp only [deviceBodyOk, Bool.and_eq_true, Bool.not_eq_true', Bool.and_eq_false_iff,
    decide_eq_false_iff_not, not_not, not_le, Bool.not_eq_false'] at h
  obtain ⟨⟨-, hnum⟩, hfuture⟩ := h
  cases hget : Sbj.get (some body) (lit "expires_at") with
  | none =>
    have : Sbj.getInt (some body) (lit "expires_at") 0 = 0 := by rw [Sbj.getInt, hget]; rfl
    rw [this]
    exact ⟨le_rfl, by decide, Or.inl rfl⟩
  | some x =>
    rw [hget] at hnum
    have hrange := getInt_of_numberOk 0 (hnum.resolve_left (by simp))
    exact ⟨hrange.1, hrange.2, hfuture⟩

lemma ok_deviceCreate {v : Sbj} (h : Ok (deviceCreate user body now) s v s') :
    Effect now s.io.random s.db (.deviceCreate user body) v s'.db := by
  obtain ⟨hb, h⟩ := ok_guard.mp h
  simp only [ok_bind] at h
  obtain ⟨id, s₁, h1, key, s₂, h2, token, s₃, h3, h⟩ := h
  obtain ⟨⟨raw, -, hraw⟩, io, hsub, rfl⟩ := ok_uuidV4 h1
  obtain ⟨⟨kraw, hkmem, hkey⟩, io₂, -, rfl⟩ := ok_newSecret h2
  obtain ⟨-, io₃, -, rfl⟩ := ok_newSecret h3
  obtain ⟨io₄, s₄, h, hdb, -⟩ := ok_atomically h
  obtain ⟨io₅, -, h⟩ := ok_query_bind.mp h
  split at h
  · simp at h
  rename_i limit count hrow
  simp only [ok_query_bind, ok_guard, ok_map, ok_modify] at h
  obtain ⟨hroom, io₆, -, hfree, _, rfl, rfl⟩ := h
  rw [Option.map_eq_some_iff] at hrow
  obtain ⟨u, hu, hu'⟩ := hrow
  have hmem := List.mem_of_find?_eq_some hu
  have hp := List.find?_some hu
  simp only [Bool.and_eq_true, beq_iff_eq, Bool.not_eq_true'] at hp
  simp only [Prod.mk.injEq] at hu'
  obtain ⟨rfl, rfl⟩ := hu'
  simp only [Bool.not_eq_true', List.any_eq_false, Bool.or_eq_true, beq_iff_eq, not_or] at hfree
  rw [hdb]
  refine .deviceCreate u _ hmem hp.1.1.1 rfl hp.1.2 ?_ (fun x hx => (hfree x hx).1) ⟨raw, hraw⟩
    ⟨kraw, hsub _ hkmem, hkey⟩ rfl (deviceBodyOk_expiry hb)
  rw [hp.1.1.1] at hroom
  simpa using hroom

lemma ok_deviceRevoke {user device : Bytes} (h : Ok (deviceRevoke user device now) s u s') :
    Effect now random s.db (.deviceRevoke user device) w s'.db := by
  simp only [deviceRevoke, ok_query_bind, ok_guard, ok_modify] at h
  obtain ⟨io, -, -, rfl⟩ := h
  exact .deviceRevoke

/-! ### Nodes and hosts -/

lemma ok_runtimeReport {caps : Option Sbj} (h : Ok (runtimeReport host caps now) s u s') :
    Effect now random s.db (.runtimeReport host caps) w s'.db := by
  rw [runtimeReport, ok_bind] at h
  obtain ⟨_, _, h1, h⟩ := h
  simp only [checkCapabilities, ok_guard, ok_require] at h1
  obtain ⟨-, -, rfl⟩ := h1
  simp only [ok_query_bind, ok_guard, ok_modify] at h
  obtain ⟨io, -, -, rfl⟩ := h
  exact .runtimeReport _

omit [Platform] in
lemma cstr_of_textOk {t : Bytes}
    (h : textOk (some (.str t)) limit identifier = true) : Sbj.cstr t = t := by
  simp only [textOk, Bool.and_eq_true, List.all_eq_true] at h
  refine List.takeWhile_eq_self_iff.mpr fun c hc => ?_
  have := h.2 c hc
  rw [bne_iff_ne]
  rintro rfl
  simp at this

omit [Platform] in
lemma textOk_getStr {body : Option Sbj} {key : Bytes}
    (h : textOk (Sbj.get body key) limit identifier = true) (fallback : Bytes) :
    textOk (some (.str (Sbj.getStr body key fallback))) limit identifier = true := by
  unfold Sbj.getStr
  cases hl : Sbj.get body key with
  | none => rw [hl] at h; cases h
  | some v =>
    rw [hl] at h
    cases v with
    | str t =>
      change textOk (some (.str (Sbj.cstr t))) limit identifier = true
      rw [cstr_of_textOk h]; exact h
    | _ => cases h

lemma ingressBodyOk_listen (h : ingressBodyOk body = true) :
    textOk (some (.str (Sbj.getStr (some body) (lit "listen") []))) 64 false = true ∧
      Platform.inetPton (Sbj.getStr (some body) (lit "listen") []) = true := by
  simp only [ingressBodyOk, Bool.and_eq_true] at h
  obtain ⟨⟨⟨-, htext⟩, hpton⟩, -⟩ := h
  exact ⟨textOk_getStr htext [], hpton⟩

lemma ok_ingressSave {v : NodeView} (h : Ok (ingressSave host body now) s v s') :
    Effect now s.io.random s.db (.ingressSave host body) w s'.db := by
  obtain ⟨hb, h⟩ := ok_guard.mp h
  obtain ⟨key, s₁, h1, h⟩ := ok_bind.mp h
  obtain ⟨⟨raw, hmem, hkey⟩, io, -, rfl⟩ := ok_newSecret h1
  obtain ⟨io₂, s₂, h, hdb, -⟩ := ok_atomically h
  simp only [ok_query_bind, ok_guard] at h
  obtain ⟨io₃, -, hknown, h⟩ := h
  simp only [checkReady, ok_bind, ok_require] at h
  obtain ⟨_, _, ⟨_, s₄, h4, -, rfl⟩, _, s₅, h5, h6⟩ := h
  obtain ⟨-, io₄, rfl⟩ := ok_query h4
  obtain ⟨io₅, rfl⟩ := ok_write h5
  have hdb₆ := ok_nodeLocked h6
  have hport : 1 ≤ Sbj.getInt (some body) (lit "listen_port") 0 ∧
      Sbj.getInt (some body) (lit "listen_port") 0 ≤ 65535 := by
    simp only [ingressBodyOk, Bool.and_eq_true] at hb
    exact getInt_of_numberOk 0 hb.2
  rw [hdb, hdb₆]
  refine .ingressSave ⟨host, _, _, _, _, key, now⟩ rfl ?_ ⟨raw, hmem, hkey⟩
    (ingressBodyOk_listen hb) hport
  simp only [List.any_eq_true, Bool.and_eq_true, beq_iff_eq] at hknown
  obtain ⟨x, hx, hid, -⟩ := hknown
  exact ⟨x, hx, hid⟩

lemma ok_createHost (h : Ok (createHost id enabled) s u s') :
    Effect now random s.db (.createHost id enabled) w s'.db := by
  obtain ⟨id', s₁, h1, h⟩ := ok_bind.mp h
  simp only [ok_query_bind, ok_guard, ok_modify] at h
  obtain ⟨io₂, -, hfree, rfl⟩ := h
  have hid : ((id ≠ [] ∧ id' = id) ∨ ∃ raw, raw.length = 16 ∧ id' = uuidText raw) ∧
      s₁.db = s.db := by
    unfold hostId at h1
    split_ifs at h1 with hempty
    · obtain ⟨⟨raw, -, hraw⟩, io, -, rfl⟩ := ok_uuidV4 h1
      exact ⟨Or.inr ⟨raw, hraw⟩, rfl⟩
    · obtain ⟨rfl, rfl⟩ := ok_pure.mp h1
      exact ⟨Or.inl ⟨by simpa using hempty, rfl⟩, rfl⟩
  simp only [Bool.not_eq_true', List.any_eq_false, beq_iff_eq] at hfree
  rw [hid.2] at hfree
  simp only [hid.2]
  exact .createHost ⟨id', enabled⟩ hid.1 hfree

lemma ok_updateHost (h : Ok (updateHost id enabled) s u s') :
    Effect now random s.db (.updateHost id enabled) w s'.db := by
  simp only [updateHost, ok_query_bind, ok_guard, ok_modify] at h
  obtain ⟨io, -, -, rfl⟩ := h
  exact .updateHost

lemma ok_deleteHost (h : Ok (deleteHost id) s u s') :
    Effect now random s.db (.deleteHost id) w s'.db := by
  obtain ⟨-, h⟩ := ok_guard.mp h
  obtain ⟨io, s₁, h, hdb, -⟩ := ok_atomically h
  obtain ⟨_, s₂, h2, h⟩ := ok_bind.mp h
  obtain ⟨io₂, rfl⟩ := ok_sql h2
  simp only [ok_query_bind, ok_guard, ok_modify] at h
  obtain ⟨io₃, -, -, rfl⟩ := h
  rw [hdb]
  exact .deleteHost

end Center
end SbEasy
