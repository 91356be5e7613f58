import SbEasy.Effects

/-!
Calls of the center: a call that fails leaves the database as it was, a call that succeeds
has its effect.
-/

namespace SbEasy

open Tx

/-- The operation of a command; what it returns, as JSON. -/
def Cmd.op [Platform] (now : ℤ) : Cmd → Op Sbj
  | .runtimeReport host caps => Center.runtimeReport host caps now >>= fun _ => pure .null
  | .userSave id body => Center.userSave id body now >>= fun v => pure v.toSbj
  | .userRemove id => Center.userRemove id now >>= fun _ => pure .null
  | .userReset id => Center.userReset id now >>= fun v => pure v.toSbj
  | .userGet id => Center.userGet id >>= fun v => pure v.toSbj
  | .usersList => Center.usersList >>= fun l => pure (.arr (l.map UserView.toSbj))
  | .claimRotate id => Center.claimRotate id now
  | .deviceCreate user body => Center.deviceCreate user body now
  | .deviceRevoke user device => Center.deviceRevoke user device now >>= fun _ => pure .null
  | .ingressSave host body => Center.ingressSave host body now >>= fun v => pure v.toSbj
  | .leaseExchange host request => Center.leaseExchange host request now
  | .createHost id enabled => Center.createHost id enabled >>= fun _ => pure .null
  | .updateHost id enabled => Center.updateHost id enabled >>= fun _ => pure .null
  | .deleteHost id => Center.deleteHost id >>= fun _ => pure .null

namespace Center

/-! ### Failures -/

section

variable {α : Type}

lemma quiet_sql : Quiet Center.db sql := by
  refine quiet_get.bind fun s => ?_
  split
  · exact quiet_throw
  · exact quiet_modify fun _ => rfl
  · exact quiet_pure

lemma quiet_query {f : Db → α} : Quiet Center.db (query f) :=
  quiet_sql.bind fun _ => quiet_get.bind fun _ => quiet_pure

lemma quiet_randomBytes {n : ℕ} {e : Err} : Quiet Center.db (randomBytes n e) := by
  refine quiet_get.bind fun s => ?_
  split
  · exact quiet_require.bind fun _ => Quiet.bind (quiet_modify fun _ => rfl) fun _ => quiet_pure
  · exact quiet_throw

lemma quiet_uuidV4 : Quiet Center.db uuidV4 := quiet_randomBytes.bind fun _ => quiet_pure

lemma quiet_newSecret {b : Bool} : Quiet Center.db (newSecret b) :=
  quiet_randomBytes.bind fun _ => quiet_pure

lemma quiet_waitMs {user : Bytes} {epoch : ℤ} : Quiet Center.db (waitMs user epoch) :=
  Quiet.bind (quiet_get.bind fun _ => Quiet.bind (quiet_modify fun _ => rfl) fun _ => quiet_pure)
    fun _ => quiet_get.bind fun _ => Quiet.bind (quiet_modify fun _ => rfl) fun _ => quiet_pure

lemma quiet_userLocked {id : Bytes} : Quiet Center.db (userLocked id) := by
  refine quiet_query.bind fun row => ?_
  split
  · exact quiet_throw
  · exact quiet_waitMs.bind fun _ => quiet_query.bind fun _ => quiet_query.bind fun _ => quiet_pure

lemma quiet_usersListLoop {ids : List Bytes} : Quiet Center.db (usersListLoop ids) := by
  induction ids with
  | nil => exact quiet_pure
  | cons id ids ih => exact quiet_userLocked.bind fun _ => ih.bind fun _ => quiet_pure

lemma quiet_usersList : Quiet Center.db usersList :=
  quiet_query.bind fun _ => quiet_usersListLoop

lemma safe_atomically {m : Op α} : Safe Center.db (atomically m) :=
  safe_transaction fun _ _ => rfl

lemma quiet_checkHostIds {seen hosts : List Sbj} : Quiet Center.db (checkHostIds seen hosts) := by
  induction hosts generalizing seen with
  | nil => exact quiet_pure
  | cons h hosts ih => exact quiet_require.bind fun _ => quiet_require.bind fun _ => ih

lemma safe_guard {m : Op α} {c : Bool} {e : Err} (hm : Safe Center.db m) :
    Safe Center.db (require c e >>= fun _ => m) := quiet_require.bind_safe fun _ => hm

end

variable [Platform]

lemma safe_op (now : ℤ) (cmd : Cmd) : Safe Center.db (cmd.op now) := by
  cases cmd with
  | runtimeReport host caps =>
    refine Safe.bind_pure ((quiet_require.bind fun _ => quiet_require).bind_safe fun _ =>
      quiet_query.bind_safe fun _ => safe_guard safe_modify)
  | userSave id body =>
    refine Safe.bind_pure (safe_guard (quiet_checkHostIds.bind_safe fun _ => ?_))
    cases id with
    | some id => exact safe_atomically
    | none => exact quiet_uuidV4.bind_safe fun _ => safe_atomically
  | userRemove id => exact safe_atomically.bind_pure
  | userReset id => exact (safe_guard safe_atomically).bind_pure
  | userGet id => exact quiet_userLocked.safe.bind_pure
  | usersList => exact quiet_usersList.safe.bind_pure
  | claimRotate id =>
    exact quiet_newSecret.bind_safe fun _ => quiet_query.bind_safe fun _ =>
      safe_guard (safe_guard safe_modify_pure)
  | deviceCreate user body =>
    exact safe_guard (quiet_uuidV4.bind_safe fun _ => quiet_newSecret.bind_safe fun _ =>
      quiet_newSecret.bind_safe fun _ => safe_atomically)
  | deviceRevoke user device =>
    exact Safe.bind_pure (quiet_query.bind_safe fun _ => safe_guard safe_modify)
  | ingressSave host body =>
    exact Safe.bind_pure (safe_guard (quiet_newSecret.bind_safe fun _ => safe_atomically))
  | leaseExchange host request =>
    exact safe_guard (safe_guard (safe_guard safe_atomically))
  | createHost id enabled =>
    refine Safe.bind_pure (Quiet.bind_safe ?_ fun _ => quiet_query.bind_safe fun _ =>
      safe_guard safe_modify)
    unfold hostId
    split_ifs
    · exact quiet_uuidV4
    · exact quiet_pure
  | updateHost id enabled =>
    exact Safe.bind_pure (quiet_query.bind_safe fun _ => safe_guard safe_modify)
  | deleteHost id => exact (safe_guard safe_atomically).bind_pure

lemma effect_of_ok {now : ℤ} {cmd : Cmd} {s s' : Center} {v : Sbj} (h : Ok (cmd.op now) s v s') :
    Effect now s.io.random s.db cmd v s'.db := by
  cases cmd with
  | runtimeReport host caps =>
    obtain ⟨_, h, -⟩ := ok_map.mp h
    exact ok_runtimeReport h
  | userSave id body =>
    obtain ⟨_, h, -⟩ := ok_map.mp h
    exact ok_userSave h
  | userRemove id =>
    obtain ⟨_, h, -⟩ := ok_map.mp h
    exact ok_userRemove h
  | userReset id =>
    obtain ⟨_, h, -⟩ := ok_map.mp h
    exact ok_userReset h
  | userGet id =>
    obtain ⟨_, h, -⟩ := ok_map.mp h
    rw [(ok_userLocked h).2]
    exact .read (Or.inr ⟨id, rfl⟩)
  | usersList =>
    obtain ⟨_, h, -⟩ := ok_map.mp h
    rw [quiet_usersList.of_ok h]
    exact .read (Or.inl rfl)
  | claimRotate id => exact ok_claimRotate h
  | deviceCreate user body => exact ok_deviceCreate h
  | deviceRevoke user device =>
    obtain ⟨_, h, -⟩ := ok_map.mp h
    exact ok_deviceRevoke h
  | ingressSave host body =>
    obtain ⟨_, h, -⟩ := ok_map.mp h
    exact ok_ingressSave h
  | leaseExchange host request =>
    obtain ⟨h1, h2, -⟩ := ok_leaseExchange h
    exact .leaseExchange h1 h2
  | createHost id enabled =>
    obtain ⟨_, h, -⟩ := ok_map.mp h
    exact ok_createHost h
  | updateHost id enabled =>
    obtain ⟨_, h, -⟩ := ok_map.mp h
    exact ok_updateHost h
  | deleteHost id =>
    obtain ⟨_, h, -⟩ := ok_map.mp h
    exact ok_deleteHost h

end Center

/-- A call: the command, the Unix time it is given, the clock of the process that serves it,
and what the outside hands to it. -/
structure Call where
  cmd : Cmd
  now : ℤ
  clock : ProxyClock
  io : Io

namespace Call

variable [Platform]

def exec (c : Call) (db : Db) : Except Err Sbj × Center := Tx.exec (c.cmd.op c.now) ⟨db, c.clock, c.io⟩

def result (c : Call) (db : Db) : Except Err Sbj := (c.exec db).1

/-- The database after the call. -/
def next (c : Call) (db : Db) : Db := (c.exec db).2.db

lemma ok_exec {c : Call} {db : Db} {v : Sbj} (hv : c.result db = .ok v) :
    Tx.Ok (c.cmd.op c.now) ⟨db, c.clock, c.io⟩ v (c.exec db).2 := by
  rw [Tx.Ok, ← hv]
  rfl

lemma cases (c : Call) (db : Db) :
    (∃ e, c.result db = .error e ∧ c.next db = db) ∨
      ∃ v, c.result db = .ok v ∧ Center.Effect c.now c.io.random db c.cmd v (c.next db) := by
  rcases h : c.exec db with ⟨e | v, s'⟩
  · refine Or.inl ⟨e, by rw [result, h], ?_⟩
    rw [next, h]
    exact Center.safe_op c.now c.cmd _ _ _ h
  · refine Or.inr ⟨v, by rw [result, h], ?_⟩
    rw [next, h]
    exact Center.effect_of_ok h

end Call
end SbEasy
