import SbEasy.ClockTable
import SbEasy.Sessions

/-!
The fence across the processes that share one database.

Each process has its own table and its own monotonic clock; `m p` reads the clock of process
`p` at a time. A process waits a minute after it first sees an epoch, so it issues no lease
earlier than a minute after the commit of the epoch, unless its table already had the epoch:
that is what a reset leaves behind that was rolled back after it had recorded the epoch.
-/

namespace SbEasy

open Center Tx

structure World where
  db : Db
  clocks : List (ℕ × ProxyClock)
  time : ℤ
  /-- User, epoch and time of each commit. -/
  commits : List (Bytes × ℤ × ℤ)

inductive Event
  | attach (p : ℕ) (first observed : ℤ)
  | call (p : ℕ) (cmd : Cmd) (now : ℤ) (io : Io)
  /-- A reader asks with an epoch it has read earlier. -/
  | wait (p : ℕ) (user : Bytes) (epoch reading : ℤ)
  | stop (p : ℕ)

/-- The epochs a change of the database brings in. -/
def newEpochs (db db' : Db) : List (Bytes × ℤ) :=
  (db'.users.map fun u => (u.id, u.epoch)).filter fun x => x ∉ db.users.map fun u => (u.id, u.epoch)

namespace World

/-- A database before any process has opened it; its epochs count as committed now. -/
def start (db : Db) (time : ℤ) : World := ⟨db, [], time, db.users.map fun u => (u.id, u.epoch, time)⟩

def clock (w : World) (p : ℕ) : Option ProxyClock := w.clocks.lookup p

def setClock (w : World) (p : ℕ) (c : ProxyClock) : List (ℕ × ProxyClock) :=
  (p, c) :: w.clocks.filter fun x => x.1 ≠ p

variable [Platform]

/-- The world after an event that ends at time `t`. -/
def apply (w : World) (t : ℤ) : Event → World
  | .attach p first observed =>
    match w.clock p, ProxyClock.attach first w.db.snapshot observed with
    | none, .ok c => { w with clocks := w.setClock p c, time := t }
    | _, _ => { w with time := t }
  | .call p cmd now io =>
    match w.clock p with
    | some k =>
      let c : Call := ⟨cmd, now, k, io⟩
      { db := c.next w.db
        clocks := w.setClock p (c.exec w.db).2.clock
        time := t
        commits := w.commits ++ (newEpochs w.db (c.next w.db)).map fun x => (x.1, x.2, t) }
    | none => { w with time := t }
  | .wait p user epoch reading =>
    match w.clock p with
    | some k => { w with clocks := w.setClock p (k.waitMs user epoch reading).2, time := t }
    | none => { w with time := t }
  | .stop p => { w with clocks := w.clocks.filter fun x => x.1 ≠ p, time := t }

/-- The readings an event gets are not older than the last event. -/
def Reads (m : ℕ → ℤ → ℤ) (time : ℤ) : Event → Prop
  | .attach p _ observed => m p time ≤ observed
  | .call p _ _ io => ∀ k, m p time ≤ io.mono k
  | .wait p _ _ reading => m p time ≤ reading
  | .stop _ => True

/-- Neither the time nor the readings go back. -/
def Timed (m : ℕ → ℤ → ℤ) (w : World) (t : ℤ) (ev : Event) : Prop := w.time ≤ t ∧ Reads m w.time ev

/-- A step by an event that ends at time `t`, under a condition on the world before it. -/
inductive Step (P : World → ℤ → Event → Prop) (w : World) : World → Prop
  | event (t : ℤ) (ev : Event) (h : P w t ev) : Step P w (w.apply t ev)

/-- When a reset is committed, no process has an entry for the next epoch of the user that ends
within the minute after it, and the process itself has read its clock in the same millisecond. -/
def FenceKept (m : ℕ → ℤ → ℤ) (w : World) (t : ℤ) : Event → Prop
  | .call p (.userReset user) now io => ∀ k, w.clock p = some k →
    (⟨.userReset user, now, k, io⟩ : Call).next w.db ≠ w.db →
    (∀ u ∈ w.db.users, u.id = user → ∀ x ∈ w.clocks, ∀ e ∈ x.2.epochs,
      e.user = user → e.epoch = u.epoch + 1 → m x.1 t + fenceMs ≤ e.untilMs) ∧
    ∀ k, m p t ≤ io.mono k
  | _ => True

/-- The epoch was committed at least a minute before the reading of process `p`. -/
def Settled (m : ℕ → ℤ → ℤ) (w : World) (p : ℕ) (user : Bytes) (epoch reading : ℤ) : Prop :=
  ∃ t, (user, epoch, t) ∈ w.commits ∧ m p t + fenceMs ≤ reading

/-- What the fence is for: the leases a process issues, and the waits that are over. -/
structure FenceHolds (m : ℕ → ℤ → ℤ) (w : World) : Prop where
  leases : ∀ (p : ℕ) (c : Call) (host : Bytes) (request : Sbj) (policy : Policy),
    w.clock p = some c.clock → (∀ k, m p w.time ≤ c.io.mono k) →
    Accepts c w.db host request policy →
    ∀ q ∈ policy.users, 1 < q.epoch → ∃ k, Settled m w p q.id q.epoch (c.io.mono k)
  waits : ∀ (p : ℕ) (c : ProxyClock) (user : Bytes) (epoch reading : ℤ), w.clock p = some c →
    m p w.time ≤ reading → 1 < epoch → (∃ t, (user, epoch, t) ∈ w.commits) →
    (c.waitMs user epoch reading).1 = 0 → Settled m w p user epoch reading

/-! ### The tables and the commits -/

/-- An entry for a committed epoch ends no earlier than a minute after a commit of it. -/
def Late (m : ℕ → ℤ → ℤ) (commits : List (Bytes × ℤ × ℤ)) (p : ℕ) (e : EpochClock) : Prop :=
  1 < e.epoch → (∃ t, (e.user, e.epoch, t) ∈ commits) →
    ∃ t, (e.user, e.epoch, t) ∈ commits ∧ m p t + fenceMs ≤ e.untilMs

structure Inv (m : ℕ → ℤ → ℤ) (w : World) : Prop where
  past : ∀ x ∈ w.commits, x.2.2 ≤ w.time
  logged : ∀ u ∈ w.db.users, ∃ t, (u.id, u.epoch, t) ∈ w.commits
  tables : ∀ x ∈ w.clocks, x.2.All (Late m w.commits x.1)

variable {m : ℕ → ℤ → ℤ} {w : World} {p : ℕ}

omit [Platform] in
lemma mem_clocks {c : ProxyClock} (h : w.clock p = some c) : (p, c) ∈ w.clocks := by
  obtain ⟨l, l', hl, -⟩ := List.lookup_eq_some_iff.mp h
  rw [hl]
  simp

omit [Platform] in
lemma late_fence (hm : Monotone (m p)) (hw : ∀ x ∈ w.commits, x.2.2 ≤ w.time) {user : Bytes}
    {epoch r : ℤ} (hr : m p w.time ≤ r) : Late m w.commits p ⟨user, epoch, r + fenceMs⟩ := by
  rintro - ⟨t, ht⟩
  have hle : m p t ≤ m p w.time := hm (hw _ ht)
  refine ⟨t, ht, ?_⟩
  change m p t + fenceMs ≤ r + fenceMs
  omega

omit [Platform] in
lemma fenced_late (hm : Monotone (m p)) (hw : ∀ x ∈ w.commits, x.2.2 ≤ w.time) {R : ℤ → Prop}
    (hR : ∀ r, R r → m p w.time ≤ r) : ProxyClock.Fenced (Late m w.commits p) R where
  fence _ _ _ hr := late_fence hm hw (hR _ hr)
  first _ h := absurd h (lt_irrefl 1)

omit [Platform] in
lemma late_attach (hm : Monotone (m p)) (hw : ∀ x ∈ w.commits, x.2.2 ≤ w.time) {first observed : ℤ}
    {s : ProxyClock.Snapshot} {c : ProxyClock} (hr : m p w.time ≤ observed)
    (h : ProxyClock.attach first s observed = .ok c) : c.All (Late m w.commits p) := by
  unfold ProxyClock.attach at h
  split_ifs at h
  · cases h
    simp [ProxyClock.All]
  all_goals
    cases h
    intro e he
    simp only [List.mem_reverse, List.mem_map] at he
    obtain ⟨x, -, rfl⟩ := he
    intro h1
    have h2 : x.2 > 1 := h1
    simp only [h2, if_true]
    exact late_fence hm hw hr h1

omit [Platform] in
lemma tables_setClock {c : ProxyClock} {K : ℕ → EpochClock → Prop}
    (h : ∀ x ∈ w.clocks, x.2.All (K x.1)) (hc : c.All (K p)) :
    ∀ x ∈ w.setClock p c, x.2.All (K x.1) :=
  List.forall_mem_cons.mpr ⟨hc, fun x hx => h x (List.mem_of_mem_filter hx)⟩

/-- A new epoch is the first one of a user, or the one after a reset. -/
lemma epochs_next (c : Call) (db : Db) : ∀ x ∈ (c.next db).users,
    (∃ v ∈ db.users, v.id = x.id ∧ v.epoch = x.epoch) ∨ x.epoch = 1 ∨
      c.cmd = .userReset x.id ∧ ∃ v ∈ db.users, v.id = x.id ∧ x.epoch = v.epoch + 1 := by
  have hold : ∀ x ∈ db.users, (∃ v ∈ db.users, v.id = x.id ∧ v.epoch = x.epoch) ∨ x.epoch = 1 ∨
      c.cmd = .userReset x.id ∧ ∃ v ∈ db.users, v.id = x.id ∧ x.epoch = v.epoch + 1 :=
    fun x hx => .inl ⟨x, hx, rfl, rfl⟩
  rcases c.cases db with ⟨e, -, hdb⟩ | ⟨v, -, heff⟩
  · rw [hdb]
    exact hold
  revert heff
  generalize c.next db = db'
  generalize c.cmd = cmd at hold ⊢
  intro heff
  cases heff with
  | read | runtimeReport | deviceCreate | deviceRevoke | ingressSave | createHost | updateHost
  | deleteHost => exact hold
  | userSave row hosts hok => exact Table.forall_upsert hold (fun _ h => h) (.inr (.inl hok.fresh.2.1))
  | userRemove | claimRotate => exact Table.forall_update hold fun _ h _ => h
  | userReset u hmem hid =>
    intro x hx
    obtain ⟨v, hv, rfl⟩ := Table.mem_update.mp hx
    split_ifs with hp
    · simp only [Bool.and_eq_true, beq_iff_eq] at hp
      exact .inr (.inr ⟨by rw [hp.1.1], v, hv, rfl, rfl⟩)
    · exact hold v hv
  | leaseExchange _ hex =>
    cases hex with
    | replay _ _ _ _ _ hsame => rw [hsame]; exact hold
    | new _ _ _ happ =>
      obtain ⟨_, _, _, _, rfl⟩ := happ
      exact hold

/-- Every entry for this user and epoch ends a minute after time `t` or later. -/
def After (m : ℕ → ℤ → ℤ) (t : ℤ) (user : Bytes) (epoch : ℤ) (p : ℕ) (e : EpochClock) : Prop :=
  e.user = user → e.epoch = epoch → m p t + fenceMs ≤ e.untilMs

/-- At its commit, an epoch has no shorter fence in any table. -/
lemma FenceKept.after {cmd : Cmd} {now t : ℤ} {io : Io} {k : ProxyClock} {user : Bytes} {epoch : ℤ}
    (h : FenceKept m w t (.call p cmd now io)) (hk : w.clock p = some k)
    (hnew : (user, epoch) ∈ newEpochs w.db ((⟨cmd, now, k, io⟩ : Call).next w.db)) (h1 : 1 < epoch) :
    ∀ x ∈ w.setClock p ((⟨cmd, now, k, io⟩ : Call).exec w.db).2.clock,
      x.2.All (After m t user epoch x.1) := by
  obtain ⟨hmem, hnot⟩ := List.mem_filter.mp hnew
  obtain ⟨u, hu, he⟩ := List.mem_map.mp hmem
  simp only [Prod.mk.injEq] at he
  obtain ⟨rfl, rfl⟩ := he
  have hnot : ∀ v ∈ w.db.users, ¬ (v.id = u.id ∧ v.epoch = u.epoch) := by
    simpa using hnot
  obtain ⟨v, hv, hsame⟩ | hone | ⟨hcmd, v, hv, hid, hepoch⟩ := epochs_next _ w.db u hu
  · exact absurd hsame (hnot v hv)
  · omega
  obtain rfl : cmd = .userReset u.id := hcmd
  obtain ⟨htables, hreads⟩ := h k hk fun hsame => by
    rw [hsame] at hu
    exact hnot u hu ⟨rfl, rfl⟩
  have hfenced : ProxyClock.Fenced (After m t u.id u.epoch p) (m p t ≤ ·) :=
    ⟨fun _ _ r hr _ _ => by change _ ≤ r + fenceMs; omega, fun _ _ he => by simp only at he; omega⟩
  refine tables_setClock (K := After m t u.id u.epoch)
    (fun x hx e he huser hep => htables v hv hid x hx e he huser (hep.trans hepoch)) ?_
  refine (keeps_op hfenced now (.userReset u.id) ⟨w.db, k, io⟩ ⟨fun e he huser hep => ?_, hreads⟩).1.1
  exact htables v hv hid _ (mem_clocks hk) e he huser (hep.trans hepoch)

lemma inv_event (hm : ∀ p, Monotone (m p)) (h : Inv m w) {t : ℤ} (ht : w.time ≤ t) {ev : Event}
    (hr : Reads m w.time ev) (hkept : FenceKept m w t ev) : Inv m (w.apply t ev) := by
  have hidle : Inv m { w with time := t } :=
    ⟨fun x hx => (h.past x hx).trans ht, h.logged, h.tables⟩
  cases ev with
  | attach p first observed =>
    simp only [apply]
    split
    · rename_i c _ hc
      exact ⟨hidle.past, h.logged, tables_setClock h.tables (late_attach (hm p) h.past hr hc)⟩
    · exact hidle
  | stop p => exact ⟨hidle.past, h.logged, fun x hx => h.tables x (List.mem_of_mem_filter hx)⟩
  | wait p user epoch reading =>
    simp only [apply]
    split
    · rename_i k hk
      refine ⟨hidle.past, h.logged, tables_setClock h.tables ?_⟩
      exact ProxyClock.waitMs_all (fenced_late (hm p) h.past fun r hr => hr)
        (h.tables _ (mem_clocks hk)) hr
    · exact hidle
  | call p cmd now io =>
    simp only [apply]
    split
    · rename_i k hk
      have htable : ((⟨cmd, now, k, io⟩ : Call).exec w.db).2.clock.All (Late m w.commits p) :=
        (keeps_op (fenced_late (hm p) h.past fun r hr => hr) now cmd ⟨w.db, k, io⟩
          ⟨h.tables _ (mem_clocks hk), hr⟩).1.1
      have htables := tables_setClock (w := w) h.tables htable
      have hafter := fun user epoch => @FenceKept.after _ m w p cmd now t io k user epoch hkept hk
      generalize (⟨cmd, now, k, io⟩ : Call) = c at hafter htables ⊢
      refine ⟨fun x hx => ?_, fun u hu => ?_, fun x hx e he => ?_⟩
      · rcases List.mem_append.mp hx with hx | hx
        · exact (h.past x hx).trans ht
        · obtain ⟨y, -, rfl⟩ := List.mem_map.mp hx
          exact le_rfl
      · by_cases hold : (u.id, u.epoch) ∈ w.db.users.map fun u => (u.id, u.epoch)
        · obtain ⟨v, hv, he⟩ := List.mem_map.mp hold
          obtain ⟨s, hs⟩ := h.logged v hv
          rw [Prod.mk.injEq] at he
          exact ⟨s, List.mem_append_left _ (he.1 ▸ he.2 ▸ hs)⟩
        · refine ⟨t, List.mem_append_right _ (List.mem_map.mpr ⟨(u.id, u.epoch), ?_, rfl⟩)⟩
          exact List.mem_filter.mpr ⟨List.mem_map.mpr ⟨u, hu, rfl⟩, by simpa using hold⟩
      · rintro h1 ⟨s, hs⟩
        by_cases hold : ∃ s, (e.user, e.epoch, s) ∈ w.commits
        · obtain ⟨s, hs, hlate⟩ := htables x hx e he h1 hold
          exact ⟨s, List.mem_append_left _ hs, hlate⟩
        · rcases List.mem_append.mp hs with hs | hs
          · exact absurd ⟨s, hs⟩ hold
          · obtain ⟨y, hy, hye⟩ := List.mem_map.mp hs
            simp only [Prod.mk.injEq] at hye
            obtain ⟨h2, h3, rfl⟩ := hye
            have hnew : (e.user, e.epoch) ∈ newEpochs w.db (c.next w.db) := by
              rw [← h2, ← h3]
              exact hy
            exact ⟨t, List.mem_append_right _ (List.mem_map.mpr ⟨_, hnew, rfl⟩),
              hafter e.user e.epoch hnew h1 x hx e he rfl rfl⟩
    · exact hidle

omit [Platform] in
lemma inv_start (db : Db) (time : ℤ) : Inv m (start db time) := by
  refine ⟨fun x hx => ?_, fun u hu => ?_, by simp [start]⟩
  · obtain ⟨u, -, rfl⟩ := List.mem_map.mp hx
    exact le_rfl
  · exact ⟨time, List.mem_map.mpr ⟨u, hu, rfl⟩⟩

omit [Platform] in
lemma Late.settled {user : Bytes} {epoch r : ℤ} {e : EpochClock}
    (he : Late m w.commits p e) (huser : e.user = user) (hepoch : e.epoch = epoch)
    (hr : e.untilMs ≤ r) (h1 : 1 < epoch) (hmem : ∃ t, (user, epoch, t) ∈ w.commits) :
    Settled m w p user epoch r := by
  obtain ⟨t, ht⟩ := hmem
  obtain ⟨t', ht', hlate⟩ := he (hepoch ▸ h1) ⟨t, by rw [huser, hepoch]; exact ht⟩
  exact ⟨t', by rw [← huser, ← hepoch]; exact ht', hlate.trans hr⟩

lemma Inv.holds (hm : ∀ p, Monotone (m p)) (h : Inv m w) : FenceHolds m w where
  leases p c host request policy hk hr ha q hq h1 := by
    have hK : ProxyClock.Fenced (Late m w.commits p) fun r => ∃ k, c.io.mono k = r :=
      fenced_late (hm p) h.past fun r ⟨k, hkr⟩ => hkr ▸ hr k
    have hclocked : Center.Clocked (Late m w.commits p) (fun r => ∃ k, c.io.mono k = r)
        ⟨w.db, c.clock, c.io⟩ := ⟨h.tables _ (mem_clocks hk), fun k => ⟨k, rfl⟩⟩
    have hok := Call.ok_exec ha.result
    rw [ha.cmd] at hok
    rcases over_of_ok hK hclocked hok with hsame | ⟨policy', hp, hover⟩
    · exact absurd hsame ha.changes
    · obtain rfl := Policy.toSbj_injective hp
      obtain ⟨r, e, ⟨k, rfl⟩, he, huser, hepoch, hle⟩ := hover q hq
      obtain ⟨u, hu, hid, hue⟩ := ha.users q hq
      exact ⟨k, he.settled huser hepoch hle h1 (hid ▸ hue ▸ h.logged u hu)⟩
  waits p c user epoch reading hk hr h1 hmem hwait := by
    have hall : (c.waitMs user epoch reading).2.All (Late m w.commits p) :=
      ProxyClock.waitMs_all (fenced_late (hm p) h.past fun r hr => hr) (h.tables _ (mem_clocks hk)) hr
    obtain ⟨e, he, huser, hepoch, hle⟩ := ProxyClock.waitMs_over hwait.le
    exact (hall e he).settled huser hepoch hle h1 hmem

/-- **Fence across processes**: in every run of any number of processes in which every committed reset
finds no shorter fence for its epoch, a process issues a lease of an epoch after the first only at
a reading a minute after a commit of the epoch on its own clock, and no wait for a committed epoch
is over earlier. -/
theorem fence_across_processes (hm : ∀ p, Monotone (m p)) {db : Db} {time : ℤ}
    (h : Relation.ReflTransGen (Step fun w t ev => Timed m w t ev ∧ FenceKept m w t ev)
      (start db time) w) : FenceHolds m w := by
  suffices hinv : Inv m w from hinv.holds hm
  induction h with
  | refl => exact inv_start db time
  | tail _ hstep ih =>
    obtain ⟨t, ev, ⟨ht, hr⟩, hkept⟩ := hstep
    exact inv_event hm ih ht hr hkept

/-- Events one after the other, each with the time it ends at. -/
def run (w : World) (evs : List (ℤ × Event)) : World := evs.foldl (fun w x => w.apply x.1 x.2) w

/-- A condition holds at every event of a run. -/
def Along (P : World → ℤ → Event → Prop) : World → List (ℤ × Event) → Prop
  | _, [] => True
  | w, (t, ev) :: evs => P w t ev ∧ Along P (w.apply t ev) evs

@[simp] lemma time_apply (w : World) (t : ℤ) (ev : Event) : (w.apply t ev).time = t := by
  cases ev <;> simp only [apply] <;> split <;> rfl

variable {P Q : World → ℤ → Event → Prop} {evs : List (ℤ × Event)}

lemma along_append {evs' : List (ℤ × Event)} :
    Along P w (evs ++ evs') ↔ Along P w evs ∧ Along P (w.run evs) evs' := by
  induction evs generalizing w with
  | nil => simp [Along, run]
  | cons x evs ih => simp only [List.cons_append, Along, ih, and_assoc]; rfl

lemma along_and : Along (fun w t ev => P w t ev ∧ Q w t ev) w evs ↔ Along P w evs ∧ Along Q w evs := by
  induction evs generalizing w with
  | nil => simp [Along]
  | cons x evs ih => simp only [Along, ih]; tauto

lemma reach_run (h : Along P w evs) : Relation.ReflTransGen (Step P) w (w.run evs) := by
  induction evs generalizing w with
  | nil => exact .refl
  | cons x evs ih => exact .head (.event x.1 x.2 h.1) (ih h.2)

end World

/-! ### A reset that was rolled back -/

def fenceUser : Bytes := uuidText (List.replicate 16 2)

/-- Two processes; the first sets up a user with a device on one host. -/
def fenceSetup : List (ℤ × Event) :=
  (0, .attach 0 0 0) :: (0, .attach 1 0 0) :: (sampleCalls.take 5).map fun c =>
    (0, .call 0 c.cmd c.now ⟨fun _ => 0, c.io.random, none⟩)

/-- A reset; `sql` says after how many SQL calls one fails, the sixth being the commit. -/
def fenceReset (p : ℕ) (time : ℤ) (sql : Option ℕ) : ℤ × Event :=
  (time, .call p (.userReset fenceUser) 1000 ⟨fun _ => time, [], sql⟩)

/-- The first process rolls its reset back, the second one commits the same epoch. -/
def staleRun : List (ℤ × Event) :=
  fenceSetup ++ [fenceReset 0 100000 (some 5), fenceReset 1 159999 none]

/-- The exchange of the host with the first process at 160000. -/
def fenceExchange (w : World) : Call :=
  ⟨.leaseExchange (lit "self") (.obj [(lit "boot_id", .str (lit "b")), (lit "reports", .arr []),
    (lit "request_seq", .int 1), (lit "version", .int 1)]), 1060, (w.clock 0).getD ⟨0, 0, false, []⟩,
    ⟨fun _ => 160000, [List.replicate 16 6], none⟩⟩

/-- The epochs of the leases in an answer. -/
def leaseEpochs [Platform] (v : Sbj) : List ℤ :=
  (Sbj.items (Sbj.get (some v) (lit "users"))).map fun u => Sbj.getInt (some u) (lit "epoch") 0

lemma leaseEpochs_toSbj [Platform] (p : Policy) : leaseEpochs p.toSbj = p.users.map UserPolicy.epoch := by
  have husers : Sbj.get (some p.toSbj) (lit "users") = some (.arr (p.users.map UserPolicy.toSbj)) := by
    rw [Policy.toSbj_eq]
    cbv
  have hepoch : ∀ u : UserPolicy, Sbj.get (some u.toSbj) (lit "epoch") = some (.int u.epoch) := by
    intro u
    rw [UserPolicy.toSbj_eq]
    cbv
  rw [leaseEpochs, husers]
  change (p.users.map UserPolicy.toSbj).map _ = _
  rw [List.map_map]
  refine List.map_congr_left fun u _ => ?_
  simp only [Function.comp_apply, Sbj.getInt, hepoch]
  rfl

/-- The first process issues a lease of epoch 2 one millisecond after its commit. -/
theorem fence_across_processes_fails :
    let w := @World.run .sample (World.start (Db.fresh []) 0) staleRun
    Relation.ReflTransGen (@World.Step .sample (World.Timed fun _ t => t))
      (World.start (Db.fresh []) 0) w ∧
      w.commits = [(fenceUser, 1, 0), (fenceUser, 2, 159999)] ∧
      (@Call.result .sample (fenceExchange w) w.db).toOption.map (@leaseEpochs .sample) = some [2] ∧
      ¬ @World.FenceHolds .sample (fun _ t => t) w := by
  intro w
  have hreach : Relation.ReflTransGen (@World.Step .sample (World.Timed fun _ t => t))
      (World.start (Db.fresh []) 0) w := by
    apply @World.reach_run .sample
    simp [World.Along, World.Timed, World.Reads, World.start, staleRun, fenceSetup, fenceReset,
      sampleCalls]
  have hcommits : w.commits = [(fenceUser, 1, 0), (fenceUser, 2, 159999)] := by decide +kernel
  have hepochs : (@Call.result .sample (fenceExchange w) w.db).toOption.map (@leaseEpochs .sample) =
      some [2] := by decide +kernel
  have hclock : w.clock 0 = some (fenceExchange w).clock := by decide +kernel
  have hreads : ∀ k, w.time ≤ (fenceExchange w).io.mono k := by
    have htime : w.time = 159999 := by decide +kernel
    intro k
    rw [htime]
    change (159999 : ℤ) ≤ 160000
    norm_num
  have hchange : @Call.next .sample (fenceExchange w) w.db ≠ w.db := by decide +kernel
  refine ⟨hreach, hcommits, hepochs, fun hfence => ?_⟩
  let _ : Platform := .sample
  rcases sessions_cases (fenceExchange w) w.db with ⟨-, hnone⟩ | ⟨host, request, p, ha⟩
  · exact hchange (hnone _ _ rfl)
  rw [ha.result, Except.toOption, Option.map_some, leaseEpochs_toSbj, Option.some_inj] at hepochs
  obtain ⟨q, hq, hepoch⟩ := List.mem_map.mp (hepochs ▸ List.mem_singleton_self (2 : ℤ))
  obtain ⟨k, t, ht, hle⟩ := hfence.leases 0 (fenceExchange w) host request p hclock
    hreads ha q hq (by omega)
  rw [hcommits, hepoch] at ht
  simp only [List.mem_cons, Prod.mk.injEq, List.not_mem_nil, or_false] at ht
  change t + 60000 ≤ 160000 at hle
  omega

/-- The first process rolls its reset back, the second one commits the same epoch in the same
millisecond. -/
def fencedRun : List (ℤ × Event) := [fenceReset 0 100000 (some 5), fenceReset 1 100000 none]

lemma fencedRun_kept : @World.Along .sample (@World.FenceKept .sample fun _ t => t)
    (@World.run .sample (World.start (Db.fresh []) 0) fenceSetup) fencedRun := by
  have hback : ∀ k, (@World.run .sample (World.start (Db.fresh []) 0) fenceSetup).clock 0 = some k →
      @Call.next .sample ⟨.userReset fenceUser, 1000, k, ⟨fun _ => 100000, [], some 5⟩⟩
        (@World.run .sample (World.start (Db.fresh []) 0) fenceSetup).db =
      (@World.run .sample (World.start (Db.fresh []) 0) fenceSetup).db := by
    decide +kernel
  refine ⟨fun k hk hnext => absurd (hback k hk) hnext, fun k hk hnext => ⟨?_, fun _ => le_rfl⟩, trivial⟩
  decide +kernel

/-- Leases of the epoch are issued a minute after its commit. -/
theorem fence_across_processes_sample :
    let w := @World.run .sample (World.start (Db.fresh []) 0) (fenceSetup ++ fencedRun)
    w.commits = [(fenceUser, 1, 0), (fenceUser, 2, 100000)] ∧
      (@Call.result .sample (fenceExchange w) w.db).toOption.map (@leaseEpochs .sample) = some [2] ∧
      @World.FenceHolds .sample (fun _ t => t) w := by
  intro w
  refine ⟨by decide +kernel, by decide +kernel, ?_⟩
  apply @World.fence_across_processes .sample _ _ (fun _ => monotone_id)
  apply @World.reach_run .sample
  rw [@World.along_and .sample]
  refine ⟨?_, (@World.along_append .sample _ _ _ _).mpr ⟨?_, fencedRun_kept⟩⟩
  · simp [World.Along, World.Timed, World.Reads, World.start, fencedRun, fenceSetup, fenceReset,
      sampleCalls]
  · simp [World.Along, World.FenceKept, World.start, fenceSetup, sampleCalls, sampleCall]

end SbEasy
