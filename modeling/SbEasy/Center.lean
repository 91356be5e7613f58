import SbEasy.Clock
import SbEasy.Tx

/-!
The state of a center process during a call, and the pieces its operations are made of.

A call sees the database, the clock of its process, and what the outside will hand to it:
the readings of the monotonic clock, the blocks of random bytes, and after how many SQL
calls one fails. A failed call rolls the database back; the clock is not part of that.
-/

namespace SbEasy

/-- `%02x` -/
def hexByte (b : UInt8) : Bytes := [hexDigit (b >>> 4), hexDigit (b &&& 0x0F)]

/-- `sb_uuid_v4`, on its sixteen random bytes. -/
def uuidText (raw : Bytes) : Bytes :=
  let b := (raw.modify 6 fun x => (x &&& 0x0F) ||| 0x40).modify 8 fun x => (x &&& 0x3F) ||| 0x80
  let hex (i n : ℕ) := ((b.drop i).take n).flatMap hexByte
  hex 0 4 ++ 0x2D :: hex 4 2 ++ 0x2D :: hex 6 2 ++ 0x2D :: hex 8 2 ++ 0x2D :: hex 10 6

def b64 : Bytes := lit "ABCDEFGHIJKLMNOPQRSTUVWXYZabcdefghijklmnopqrstuvwxyz0123456789+/"
def b64Url : Bytes := lit "ABCDEFGHIJKLMNOPQRSTUVWXYZabcdefghijklmnopqrstuvwxyz0123456789-_"

/-- `b64_encode` -/
def b64Encode (alpha : Bytes) (pad : Bool) : Bytes → Bytes
  | [] => []
  | [x] =>
    let v := x.toNat <<< 16
    alpha.getD ((v >>> 18) &&& 63) 0 :: alpha.getD ((v >>> 12) &&& 63) 0 ::
      if pad then [0x3D, 0x3D] else []
  | [x, y] =>
    let v := x.toNat <<< 16 ||| y.toNat <<< 8
    alpha.getD ((v >>> 18) &&& 63) 0 :: alpha.getD ((v >>> 12) &&& 63) 0 ::
      alpha.getD ((v >>> 6) &&& 63) 0 :: if pad then [0x3D] else []
  | x :: y :: z :: d =>
    let v := x.toNat <<< 16 ||| y.toNat <<< 8 ||| z.toNat
    alpha.getD ((v >>> 18) &&& 63) 0 :: alpha.getD ((v >>> 12) &&& 63) 0 ::
      alpha.getD ((v >>> 6) &&& 63) 0 :: alpha.getD (v &&& 63) 0 :: b64Encode alpha pad d

structure Io where
  mono : ℕ → ℤ
  random : List Bytes
  sql : Option ℕ

structure Center where
  db : Db
  clock : ProxyClock
  io : Io

abbrev Op := Tx Center Err

namespace Center

open Tx

/-- One SQL call that may fail. -/
def sql : Op Unit := do
  match (← get).io.sql with
  | some 0 => throw ⟨.generic, "execute SQL failed"⟩
  | some (n + 1) => modify fun s => { s with io := { s.io with sql := some n } }
  | none => pure ()

def query {α : Type} (f : Db → α) : Op α := do
  sql
  pure (f (← get).db)

def write (f : Db → Db) : Op Unit := do
  sql
  modify fun s => { s with db := f s.db }

/-- `BEGIN IMMEDIATE` ... `COMMIT`, with `ROLLBACK` on every error. -/
def atomically {α : Type} (m : Op α) : Op α :=
  transaction Center.db (fun db s => { s with db := db }) do
    sql
    let a ← m
    sql
    pure a

/-- `sb_random_bytes` -/
def randomBytes (n : ℕ) (e : Err) : Op Bytes := do
  match (← get).io.random with
  | b :: rest =>
    require (b.length == n) e
    modify fun s => { s with io := { s.io with random := rest } }
    pure b
  | [] => throw e

/-- `sb_uuid_v4`; the process aborts when there are no random bytes. -/
def uuidV4 : Op Bytes := return uuidText (← randomBytes 16 ⟨.generic, "abort"⟩)

/-- `new_secret` -/
def newSecret (base64 : Bool) : Op Bytes := do
  let raw ← randomBytes (if base64 then 16 else 32) ⟨.generic, "Secure random generation failed"⟩
  pure (if base64 then b64Encode b64 true raw else b64Encode b64Url false raw)

/-- Take the next reading of the monotonic clock. -/
def reading : Op ℤ := do
  let r := (← get).io.mono 0
  modify fun s => { s with io := { s.io with mono := fun k => s.io.mono (k + 1) } }
  pure r

/-- `sb_proxy_clock_wait_ms` on the clock of the process. -/
def waitMs (user : Bytes) (epoch : ℤ) : Op ℤ := do
  let r ← reading
  let (ms, clock) := (← get).clock.waitMs user epoch r
  modify fun s => { s with clock := clock }
  pure ms

/-- `sb_proxy_clock_reset_epoch` on the clock of the process. -/
def resetEpoch (user : Bytes) (epoch : ℤ) : Op Unit := do
  let r ← reading
  modify fun s => { s with clock := s.clock.resetEpoch user epoch r }

variable {α β : Type} {s s' : Center} {a : α} {b : β} {u : Unit}

lemma ok_sql (h : Ok sql s u s') : ∃ io, s' = { s with io := io } := by
  unfold sql at h
  simp only [ok_bind, ok_get] at h
  obtain ⟨_, _, ⟨rfl, rfl⟩, h⟩ := h
  split at h
  · simp at h
  · exact ⟨_, by simpa using h⟩
  · exact ⟨_, by simpa using h⟩

/-- Only the calls that read the clock use a reading up. -/
lemma mono_sql (h : Ok sql s u s') : s'.io.mono = s.io.mono := by
  unfold sql at h
  simp only [ok_bind, ok_get] at h
  obtain ⟨_, _, ⟨rfl, rfl⟩, h⟩ := h
  split at h
  · simp at h
  · rw [(ok_modify.mp h)]
  · rw [(ok_pure.mp h).2]

lemma ok_query {f : Db → α} (h : Ok (query f) s a s') :
    a = f s.db ∧ ∃ io, s' = { s with io := io } := by
  simp only [query, ok_bind, ok_get, ok_pure] at h
  obtain ⟨_, s₁, h1, _, _, ⟨rfl, rfl⟩, rfl, rfl⟩ := h
  obtain ⟨io, rfl⟩ := ok_sql h1
  exact ⟨rfl, io, rfl⟩

lemma ok_query_bind {f : Db → α} {g : α → Op β} : Ok (query f >>= g) s b s' ↔
    ∃ io, Ok sql s () { s with io := io } ∧ Ok (g (f s.db)) { s with io := io } b s' := by
  simp only [query, ok_bind, ok_get, ok_pure]
  constructor
  · rintro ⟨_, _, ⟨_, s₁, h1, _, _, ⟨rfl, rfl⟩, rfl, rfl⟩, h⟩
    obtain ⟨io, rfl⟩ := ok_sql h1
    exact ⟨io, h1, h⟩
  · rintro ⟨io, h1, h⟩
    exact ⟨_, _, ⟨(), _, h1, _, _, ⟨rfl, rfl⟩, rfl, rfl⟩, h⟩

lemma ok_write {f : Db → Db} (h : Ok (write f) s u s') :
    ∃ io, s' = { s with db := f s.db, io := io } := by
  simp only [write, ok_bind, ok_modify] at h
  obtain ⟨_, s₁, h1, rfl⟩ := h
  obtain ⟨io, rfl⟩ := ok_sql h1
  exact ⟨io, rfl⟩

lemma mono_write {f : Db → Db} (h : Ok (write f) s u s') : s'.io.mono = s.io.mono := by
  simp only [write, ok_bind, ok_modify] at h
  obtain ⟨_, s₁, h1, rfl⟩ := h
  have hmono := mono_sql h1
  exact hmono

lemma ok_waitMs {user : Bytes} {epoch ms : ℤ} (h : Ok (waitMs user epoch) s ms s') :
    ms = (s.clock.waitMs user epoch (s.io.mono 0)).1 ∧ ∃ io, io.mono = (fun k => s.io.mono (k + 1)) ∧
      s' = { s with clock := (s.clock.waitMs user epoch (s.io.mono 0)).2, io := io } := by
  simp only [waitMs, reading, ok_bind, ok_get, ok_modify, ok_pure] at h
  obtain ⟨_, _, ⟨_, _, ⟨rfl, rfl⟩, _, _, rfl, rfl, rfl⟩, _, _, ⟨rfl, rfl⟩, _, _, rfl, rfl, rfl⟩ := h
  exact ⟨rfl, _, rfl, rfl⟩

lemma ok_randomBytes {n : ℕ} {e : Err} {b : Bytes} (h : Ok (randomBytes n e) s b s') :
    b.length = n ∧ b ∈ s.io.random ∧ ∃ io, (∀ x ∈ io.random, x ∈ s.io.random) ∧
      s' = { s with io := io } := by
  simp only [randomBytes, ok_bind, ok_get] at h
  obtain ⟨_, _, ⟨rfl, rfl⟩, h⟩ := h
  split at h
  · rename_i b' rest hr
    simp only [ok_bind, ok_require, ok_modify, ok_pure] at h
    obtain ⟨_, _, ⟨hb, rfl⟩, _, _, rfl, rfl, rfl⟩ := h
    exact ⟨by simpa using hb, by simp [hr], _, fun x hx => by simp [hr, hx], rfl⟩
  · simp at h

lemma ok_uuidV4 {id : Bytes} (h : Ok uuidV4 s id s') :
    (∃ raw ∈ s.io.random, raw.length = 16 ∧ id = uuidText raw) ∧
      ∃ io, (∀ x ∈ io.random, x ∈ s.io.random) ∧ s' = { s with io := io } := by
  simp only [uuidV4, ok_bind, ok_pure] at h
  obtain ⟨raw, s₁, h1, rfl, rfl⟩ := h
  obtain ⟨hl, hmem, io, hsub, rfl⟩ := ok_randomBytes h1
  exact ⟨⟨raw, hmem, hl, rfl⟩, io, hsub, rfl⟩

lemma mono_uuidV4 {id : Bytes} (h : Ok uuidV4 s id s') : s'.io.mono = s.io.mono := by
  simp only [uuidV4, randomBytes, ok_bind, ok_get, ok_pure] at h
  obtain ⟨raw, s₁, ⟨_, _, ⟨rfl, rfl⟩, h1⟩, -, rfl⟩ := h
  split at h1
  · simp only [ok_bind, ok_require, ok_modify, ok_pure] at h1
    obtain ⟨_, _, ⟨-, rfl⟩, _, _, rfl, -, rfl⟩ := h1
    rfl
  · simp at h1

lemma ok_newSecret {base64 : Bool} {key : Bytes} (h : Ok (newSecret base64) s key s') :
    (∃ raw ∈ s.io.random, raw.length = (if base64 then 16 else 32) ∧
        key = if base64 then b64Encode b64 true raw else b64Encode b64Url false raw) ∧
      ∃ io, (∀ x ∈ io.random, x ∈ s.io.random) ∧ s' = { s with io := io } := by
  simp only [newSecret, ok_bind, ok_pure] at h
  obtain ⟨raw, s₁, h1, rfl, rfl⟩ := h
  obtain ⟨hl, hmem, io, hsub, rfl⟩ := ok_randomBytes h1
  exact ⟨⟨raw, hmem, hl, rfl⟩, io, hsub, rfl⟩

lemma ok_atomically {m : Op α} (h : Ok (atomically m) s a s') :
    ∃ io s₁, Ok m { s with io := io } a s₁ ∧ s'.db = s₁.db ∧ s'.clock = s₁.clock ∧
      io.mono = s.io.mono := by
  simp only [atomically, ok_transaction, ok_bind, ok_pure] at h
  obtain ⟨_, s₁, h1, b, s₂, h2, _, s₃, h3, rfl, rfl⟩ := h
  have hmono := mono_sql h1
  obtain ⟨io, rfl⟩ := ok_sql h1
  obtain ⟨io₃, rfl⟩ := ok_sql h3
  exact ⟨io, s₂, h2, rfl, rfl, hmono⟩

end Center
end SbEasy
