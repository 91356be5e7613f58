import SbEasy.Commands

/-!
The epoch table of a process along every operation.

Whatever an operation does, and whether it succeeds or not, the table only gets entries for
epoch 1 without a fence and entries that end a minute after a reading of the clock.
-/

namespace SbEasy

open Tx

namespace ProxyClock

/-- A property of all entries. -/
def All (K : EpochClock → Prop) (c : ProxyClock) : Prop := ∀ e ∈ c.epochs, K e

/-- A property that new entries have, with the readings in `R`. -/
structure Fenced (K : EpochClock → Prop) (R : ℤ → Prop) : Prop where
  fence : ∀ user epoch r, R r → K ⟨user, epoch, r + fenceMs⟩
  first : ∀ user, K ⟨user, 1, 0⟩

variable {K : EpochClock → Prop} {R : ℤ → Prop} {c : ProxyClock} {user : Bytes} {epoch r : ℤ}

lemma forall_epochSet {l : List EpochClock} {untilMs : ℤ} (h : ∀ e ∈ l, K e)
    (hnew : K ⟨user, epoch, untilMs⟩) : ∀ e ∈ epochSet user epoch untilMs l, K e := by
  induction l with
  | nil => exact h
  | cons e l ih =>
    have htail : ∀ x ∈ l, K x := fun x hx => h x (List.mem_cons_of_mem e hx)
    unfold epochSet
    split_ifs
    · exact List.forall_mem_cons.mpr ⟨hnew, htail⟩
    · exact List.forall_mem_cons.mpr ⟨h e (by simp), ih htail⟩

lemma find?_epochSet {l : List EpochClock} {untilMs : ℤ}
    (h : (l.find? fun e => e.user == user).isSome) :
    (epochSet user epoch untilMs l).find? (fun e => e.user == user) =
      some ⟨user, epoch, untilMs⟩ := by
  induction l with
  | nil => simp at h
  | cons e l ih =>
    unfold epochSet
    split_ifs with he
    · simp
    · have hskip : ∀ t : List EpochClock, (e :: t).find? (fun x => x.user == user) =
          t.find? fun x => x.user == user := fun t => List.find?_cons_of_neg (by simpa using he)
      rw [hskip] at h ⊢
      exact ih h

lemma observeEpoch_all (hK : Fenced K R) (hc : c.All K) (hr : R r) :
    (c.observeEpoch user epoch r).All K := by
  unfold observeEpoch
  split
  · refine List.forall_mem_cons.mpr ⟨?_, hc⟩
    split_ifs with h1
    · rw [h1]
      exact hK.first user
    · exact hK.fence user epoch r hr
  · split_ifs
    · exact forall_epochSet hc (hK.fence user epoch r hr)
    · exact hc

lemma observeEpoch_find (c : ProxyClock) (user : Bytes) (epoch now : ℤ) :
    ∃ e, (c.observeEpoch user epoch now).epochFind user = some e ∧ e.user = user ∧
      e.epoch = epoch := by
  unfold observeEpoch
  split
  · refine ⟨⟨user, epoch, if epoch = 1 then 0 else now + fenceMs⟩, ?_, rfl, rfl⟩
    simp [epochFind, epochAdd]
  · rename_i entry hentry
    have hsome : (c.epochs.find? fun e => e.user == user).isSome := by
      rw [← epochFind, hentry]
      rfl
    split_ifs with hne
    · exact ⟨_, find?_epochSet hsome, rfl, rfl⟩
    · refine ⟨entry, hentry, ?_, by simpa using hne⟩
      simpa using List.find?_some hentry

lemma readNow_some {c' : ProxyClock} (h : c.readNow r = some c') :
    c'.epochs = c.epochs ∧ c'.startupUntil = c.startupUntil ∧ c'.lastNow = r ∧ c.lastNow ≤ r := by
  unfold readNow at h
  split_ifs at h with hr
  cases h
  exact ⟨rfl, rfl, rfl, by omega⟩

lemma waitMs_all (hK : Fenced K R) (hc : c.All K) (hr : R r) :
    (c.waitMs user epoch r).2.All K := by
  unfold waitMs
  split
  · exact hc
  · rename_i c' hread
    apply observeEpoch_all hK _ hr
    unfold All
    rw [(readNow_some hread).1]
    exact hc

lemma resetEpoch_all (hK : Fenced K R) (hc : c.All K) (hr : R r) :
    (c.resetEpoch user epoch r).All K := by
  unfold resetEpoch
  split
  · exact hc
  · rename_i c' hread
    apply forall_epochSet _ (hK.fence user epoch r hr)
    apply observeEpoch_all hK _ hr
    unfold All
    rw [(readNow_some hread).1]
    exact hc

/-- A wait that is over: the entry of this user and epoch ends no later than the reading. -/
lemma waitMs_over (h : (c.waitMs user epoch r).1 ≤ 0) :
    ∃ e ∈ (c.waitMs user epoch r).2.epochs, e.user = user ∧ e.epoch = epoch ∧ e.untilMs ≤ r := by
  unfold waitMs at h ⊢
  split at h
  · have hpos : ¬ fenceMs ≤ 0 := by decide
    exact absurd h hpos
  · rename_i c' hread
    obtain ⟨e, he, h1, h2⟩ := c'.observeEpoch_find user epoch r
    refine ⟨e, List.mem_of_find?_eq_some he, h1, h2, ?_⟩
    simp only [untilOf, he, Option.map_some, Option.getD_some] at h
    split_ifs at h <;> omega

end ProxyClock

namespace Center

open ProxyClock

/-- The table of the process and the readings it will get. -/
def Clocked (K : EpochClock → Prop) (R : ℤ → Prop) (s : Center) : Prop :=
  s.clock.All K ∧ ∀ k, R (s.io.mono k)

/-- The fence of a user and epoch has ended at a reading. -/
def Over (K : EpochClock → Prop) (R : ℤ → Prop) (user : Bytes) (epoch : ℤ) : Prop :=
  ∃ r e, R r ∧ K e ∧ e.user = user ∧ e.epoch = epoch ∧ e.untilMs ≤ r

/-- An operation that leaves the table so, whether it succeeds or not. -/
abbrev Keeps (K : EpochClock → Prop) (R : ℤ → Prop) {α : Type} (m : Op α) : Prop :=
  Holds (Clocked K R) m fun _ => True

section

variable {K : EpochClock → Prop} {R : ℤ → Prop} {α β : Type} {m : Op α} {g : Op β} {f : α → Op β}

lemma Keeps.bind (hm : Keeps K R m) (hf : ∀ a, Keeps K R (f a)) : Keeps K R (m >>= f) :=
  holds_bind hm fun a _ => hf a

lemma keeps_pure {a : α} : Keeps K R (pure a) := holds_pure trivial

lemma keeps_throw {e : Err} : Keeps K R (throw e : Op α) := holds_throw e

lemma keeps_guard {c : Bool} {e : Err} (h : Keeps K R g) :
    Keeps K R (require c e >>= fun _ => g) :=
  holds_bind (holds_require c e) fun _ _ => h

lemma keeps_require {c : Bool} {e : Err} : Keeps K R (require c e) :=
  (holds_require c e).mono fun _ _ => trivial

lemma keeps_sql : Keeps K R sql := by
  refine holds_bind holds_get fun s hs => ?_
  split
  · exact keeps_throw
  · exact holds_modify fun _ h => h
  · exact keeps_pure

lemma keeps_query {f : Db → α} : Keeps K R (query f) :=
  keeps_sql.bind fun _ => holds_bind holds_get fun _ _ => keeps_pure

lemma keeps_modifyDb {f : Center → Db} : Keeps K R (modify fun s => { s with db := f s } : Op Unit) :=
  holds_modify fun _ h => h

lemma keeps_write {f : Db → Db} : Keeps K R (write f) := keeps_sql.bind fun _ => keeps_modifyDb

lemma keeps_atomically (hm : Keeps K R m) : Keeps K R (atomically m) :=
  holds_transaction (keeps_sql.bind fun _ => hm.bind fun _ => keeps_sql.bind fun _ => keeps_pure)
    fun _ _ _ h => h

lemma keeps_randomBytes {n : ℕ} {e : Err} : Keeps K R (randomBytes n e) := by
  refine holds_bind holds_get fun s hs => ?_
  split
  · exact keeps_guard (Keeps.bind (holds_modify fun _ h => h) fun _ => keeps_pure)
  · exact keeps_throw

lemma keeps_uuidV4 : Keeps K R uuidV4 := keeps_randomBytes.bind fun _ => keeps_pure

lemma keeps_newSecret {b : Bool} : Keeps K R (newSecret b) :=
  keeps_randomBytes.bind fun _ => keeps_pure

lemma holds_waitMs (hK : Fenced K R) (user : Bytes) (epoch : ℤ) :
    Holds (Clocked K R) (waitMs user epoch) fun ms => ms ≤ 0 → Over K R user epoch := by
  intro s hs
  obtain ⟨hc, hr⟩ := hs
  have hall : (s.clock.waitMs user epoch (s.io.mono 0)).2.All K := waitMs_all hK hc (hr 0)
  refine ⟨⟨hall, fun k => hr (k + 1)⟩, fun ms hms hle => ?_⟩
  obtain rfl : (s.clock.waitMs user epoch (s.io.mono 0)).1 = ms := Except.ok.inj hms
  obtain ⟨e, he, h1, h2, h3⟩ := waitMs_over hle
  exact ⟨s.io.mono 0, e, hr 0, hall e he, h1, h2, h3⟩

lemma keeps_resetEpoch (hK : Fenced K R) {user : Bytes} {epoch : ℤ} :
    Keeps K R (resetEpoch user epoch) := by
  intro s hs
  obtain ⟨hc, hr⟩ := hs
  exact ⟨⟨resetEpoch_all hK hc (hr 0), fun k => hr (k + 1)⟩, fun _ _ => trivial⟩

lemma keeps_userLocked (hK : Fenced K R) {id : Bytes} : Keeps K R (userLocked id) := by
  refine keeps_query.bind fun row => ?_
  split
  · exact keeps_throw
  · exact holds_bind (holds_waitMs hK _ _) fun _ _ => keeps_query.bind fun _ =>
      keeps_query.bind fun _ => keeps_pure

lemma keeps_usersListLoop (hK : Fenced K R) {ids : List Bytes} : Keeps K R (usersListLoop ids) := by
  induction ids with
  | nil => exact keeps_pure
  | cons id ids ih => exact (keeps_userLocked hK).bind fun _ => ih.bind fun _ => keeps_pure

lemma keeps_checkHostIds {seen hosts : List Sbj} : Keeps K R (checkHostIds seen hosts) := by
  induction hosts generalizing seen with
  | nil => exact keeps_pure
  | cons h hosts ih => exact keeps_guard (keeps_guard ih)

lemma keeps_checkIngress {hosts : List Bytes} : Keeps K R (checkIngress hosts) := by
  induction hosts with
  | nil => exact keeps_pure
  | cons h hosts ih => exact keeps_query.bind fun _ => keeps_guard ih

lemma keeps_bindHosts {id : Bytes} {hosts : List Bytes} : Keeps K R (bindHosts id hosts) := by
  induction hosts with
  | nil => exact keeps_pure
  | cons h hosts ih =>
    exact keeps_query.bind fun _ => keeps_guard (Keeps.bind keeps_modifyDb fun _ => ih)

variable [Platform]

variable {now : ℤ} {host : Bytes} {request : Sbj}

lemma keeps_saveUser (hK : Fenced K R) {id : Bytes} {generated : Bool} {body : Sbj} :
    Keeps K R (saveUser id generated body now) := by
  have hcheck : Keeps K R (checkSave id generated body now) := by
    unfold checkSave
    split_ifs
    · exact keeps_query.bind fun _ => keeps_require
    · exact (keeps_userLocked hK).bind fun _ => keeps_require
  exact hcheck.bind fun _ => keeps_checkIngress.bind fun _ => keeps_write.bind fun _ =>
    keeps_write.bind fun _ => keeps_bindHosts.bind fun _ => keeps_userLocked hK

/-! ### The exchange -/

omit [Platform] in
lemma holds_leaseLocked (host boot : Bytes) (user : ProxyUser) (now : ℤ) :
    Holds (Clocked K R) (leaseLocked host boot user now) fun p =>
      ∀ q ∈ p, q.id = user.id ∧ q.epoch = user.epoch := by
  refine holds_bind keeps_query fun devices _ => ?_
  split_ifs
  · exact holds_pure (by simp)
  refine holds_bind keeps_query fun row _ => holds_bind keeps_query fun _ _ =>
    holds_bind keeps_query fun _ _ => holds_bind keeps_require fun _ _ => ?_
  dsimp only
  split_ifs
  · exact holds_pure (by simp)
  have hid : Keeps K R (leaseId row) := by
    cases row with
    | some l => exact keeps_pure
    | none => exact keeps_uuidV4
  exact holds_bind hid fun _ _ => holds_bind (keeps_query.bind fun _ => keeps_guard keeps_modifyDb)
    fun _ _ => holds_pure (by simp)

omit [Platform] in
lemma holds_leasesLocked (hK : Fenced K R) (host boot : Bytes) (now : ℤ) (us : List ProxyUser) :
    Holds (Clocked K R) (leasesLocked host boot now us) fun ps =>
      ∀ p ∈ ps, Over K R p.id p.epoch := by
  induction us with
  | nil => exact holds_bind keeps_sql fun _ _ => holds_pure (by simp)
  | cons u us ih =>
    refine holds_bind keeps_sql fun _ _ => holds_bind (holds_waitMs hK _ _) fun ms hms => ?_
    split_ifs with hwait
    · exact ih
    · refine holds_bind (holds_leaseLocked host boot u now) fun p hp => holds_bind ih fun rest hrest =>
        holds_pure fun q hq => ?_
      rcases List.mem_append.mp hq with hq | hq
      · obtain ⟨h1, h2⟩ := hp q (by simpa using hq)
        rw [h1, h2]
        exact hms (by omega)
      · exact hrest q hq

omit [Platform] in
lemma holds_policyLocked (hK : Fenced K R) (host boot : Bytes) (seq now : ℤ) :
    Holds (Clocked K R) (policyLocked host boot seq now) fun p =>
      ∀ q ∈ p.users, Over K R q.id q.epoch := by
  refine holds_bind keeps_query fun node _ => holds_bind keeps_query fun ready _ => ?_
  split
  · split_ifs
    · exact holds_bind keeps_query fun _ _ => holds_bind (holds_leasesLocked hK host boot now _)
        fun ps hps => holds_pure hps
    · exact holds_pure (by simp)
  · exact holds_pure (by simp)

lemma keeps_reportsLocked {host boot : Bytes} {rs : List Sbj} :
    Keeps K R (reportsLocked host boot now rs) := by
  induction rs with
  | nil => exact keeps_pure
  | cons r rs ih =>
    exact Keeps.bind (keeps_query.bind fun _ => keeps_guard keeps_write) fun _ => ih

lemma holds_applyRequest (hK : Fenced K R) (host : Bytes) (request : Sbj) (now : ℤ) :
    Holds (Clocked K R) (applyRequest host request now) fun v =>
      ∃ p : Policy, v = p.toSbj ∧ ∀ q ∈ p.users, Over K R q.id q.epoch :=
  holds_bind keeps_reportsLocked fun _ _ => holds_bind (holds_policyLocked hK _ _ _ _) fun p hp =>
    holds_bind keeps_write fun _ _ => holds_pure ⟨p, rfl, hp⟩

lemma keeps_leaseExchange (hK : Fenced K R) : Keeps K R (leaseExchange host request now) := by
  refine keeps_guard (keeps_guard (keeps_guard (keeps_atomically ?_)))
  refine keeps_query.bind fun _ => keeps_guard (keeps_query.bind fun _ => keeps_guard ?_)
  split
  · split
    · exact keeps_pure
    · exact keeps_throw
  · exact (holds_applyRequest hK host request now).mono fun _ _ => trivial

lemma over_of_ok (hK : Fenced K R) {s s' : Center} (hs : Clocked K R s)
    {request v : Sbj} (h : Ok (leaseExchange host request now) s v s') :
    s'.db = s.db ∨ ∃ p : Policy, v = p.toSbj ∧ ∀ q ∈ p.users, Over K R q.id q.epoch := by
  simp only [leaseExchange, ok_bind, ok_require, atomically, ok_transaction, ok_pure] at h
  obtain ⟨_, _, ⟨-, rfl⟩, _, _, ⟨-, rfl⟩, _, _, ⟨-, rfl⟩, _, s₁, h1, _, s₂, h2, _, s₃, h3, rfl, rfl⟩ := h
  have hs₁ := (keeps_sql.of_ok hs h1).1
  obtain ⟨io, rfl⟩ := ok_sql h1
  obtain ⟨io₃, rfl⟩ := ok_sql h3
  simp only [exchangeLocked, ok_bind, ok_require] at h2
  obtain ⟨_, s₄, h4, _, _, ⟨-, rfl⟩, _, s₅, h5, _, _, ⟨-, rfl⟩, h6⟩ := h2
  have hs₄ := (keeps_query.of_ok hs₁ h4).1
  have hs₅ := (keeps_query.of_ok hs₄ h5).1
  obtain ⟨-, io₄, rfl⟩ := ok_query h4
  obtain ⟨-, io₅, rfl⟩ := ok_query h5
  split at h6
  · split at h6
    · simp only [ok_pure] at h6
      rw [h6.2]
      exact Or.inl rfl
    · simp at h6
  · exact Or.inr ((holds_applyRequest hK host request now).of_ok hs₅ h6).2

lemma keeps_op (hK : Fenced K R) (now : ℤ) (cmd : Cmd) : Keeps K R (cmd.op now) := by
  have hmap : ∀ {β : Type} {m : Op β} {f : β → Sbj}, Keeps K R m →
      Keeps K R (m >>= fun b => pure (f b)) := fun h => h.bind fun _ => keeps_pure
  cases cmd with
  | runtimeReport host caps =>
    exact hmap (Keeps.bind (keeps_guard keeps_require) fun _ => keeps_query.bind fun _ =>
      keeps_guard keeps_modifyDb)
  | userSave id body =>
    refine hmap (keeps_guard (keeps_checkHostIds.bind fun _ => ?_))
    cases id with
    | some id => exact keeps_atomically (keeps_saveUser hK)
    | none => exact keeps_uuidV4.bind fun _ => keeps_atomically (keeps_saveUser hK)
  | userRemove id =>
    exact hmap (keeps_atomically (keeps_query.bind fun _ => Keeps.bind keeps_modifyDb fun _ =>
      keeps_guard keeps_write))
  | userReset id =>
    exact hmap (keeps_guard (keeps_atomically (keeps_query.bind fun _ => Keeps.bind keeps_modifyDb
      fun _ => keeps_guard ((keeps_userLocked hK).bind fun _ => (keeps_resetEpoch hK).bind fun _ =>
        keeps_pure))))
  | userGet id => exact hmap (keeps_userLocked hK)
  | usersList => exact hmap (keeps_query.bind fun _ => keeps_usersListLoop hK)
  | claimRotate id =>
    exact keeps_newSecret.bind fun _ => keeps_query.bind fun _ =>
      keeps_guard (keeps_guard (Keeps.bind keeps_modifyDb fun _ => keeps_pure))
  | deviceCreate user body =>
    refine keeps_guard (keeps_uuidV4.bind fun _ => keeps_newSecret.bind fun _ =>
      keeps_newSecret.bind fun _ => keeps_atomically (keeps_query.bind fun row => ?_))
    split
    · exact keeps_throw
    · exact keeps_guard (keeps_query.bind fun _ => keeps_guard (Keeps.bind keeps_modifyDb fun _ =>
        keeps_pure))
  | deviceRevoke user device =>
    exact hmap (keeps_query.bind fun _ => keeps_guard keeps_modifyDb)
  | ingressSave host body =>
    have hnode : Keeps K R (nodeLocked host now) := by
      refine keeps_query.bind fun row => ?_
      split
      · exact keeps_throw
      · exact keeps_query
    have hready : ∀ enabled, Keeps K R (checkReady host enabled now) :=
      fun _ => keeps_query.bind fun _ => keeps_require
    exact hmap (keeps_guard (keeps_newSecret.bind fun _ => keeps_atomically (keeps_query.bind fun _ =>
      keeps_guard ((hready _).bind fun _ => keeps_write.bind fun _ => hnode))))
  | leaseExchange host request => exact keeps_leaseExchange hK
  | createHost id enabled =>
    have hid : Keeps K R (hostId id) := by
      unfold hostId
      split_ifs
      · exact keeps_uuidV4
      · exact keeps_pure
    exact hmap (hid.bind fun _ => keeps_query.bind fun _ => keeps_guard keeps_modifyDb)
  | updateHost id enabled => exact hmap (keeps_query.bind fun _ => keeps_guard keeps_modifyDb)
  | deleteHost id =>
    exact hmap (keeps_guard (keeps_atomically (keeps_sql.bind fun _ => keeps_query.bind fun _ =>
      keeps_guard keeps_modifyDb)))

end

end Center

end SbEasy
