import SbEasy.JsonParse
import SbEasy.Schema
import SbEasy.Tx

/-!
`preferences_sync.c`: encrypted preferences of a user, in slots with a revision.

The calls run one at a time under the database lock. What SQLite reports is taken as it comes:
a failed statement or commit ends a call, and the transaction is rolled back.
-/

namespace SbEasy.Preferences

open JsonParse

/-- `EVP_DecodeBlock` and `EVP_EncodeBlock`. -/
structure BlockCodec where
  decodeBlock : Bytes → Option Bytes
  encodeBlock : Bytes → Bytes

def envelopeLimit : ℕ := 1024 * 1024
def userBytesLimit : ℤ := 8 * 1024 * 1024
def userSlotsLimit : ℕ := 16

def isAlphabet (c : UInt8) : Bool :=
  (0x41 ≤ c && c ≤ 0x5A) || (0x61 ≤ c && c ≤ 0x7A) || (0x30 ≤ c && c ≤ 0x39) || c == 0x2B || c == 0x2F

/-- `canonical_base64` -/
def canonicalBase64 (codec : BlockCodec) (value : Option Sbj) (exactLength minimum : ℕ) : Bool :=
  match value with
  | some (.str text) =>
    let n := text.length
    if n = 0 ∨ envelopeLimit < n ∨ n % 4 ≠ 0 then false
    else
      let pad := (text.drop (n - 2)).count 0x3D
      let bytes := n / 4 * 3 - pad
      if !text.zipIdx.all fun (c, i) => isAlphabet c || (decide (n - pad ≤ i) && c == 0x3D) then false
      else if (exactLength ≠ 0 ∧ bytes ≠ exactLength) ∨ bytes < minimum then false
      else
        match codec.decodeBlock text with
        | none => false
        | some decoded => codec.encodeBlock (decoded.take bytes) == text
  | _ => false

/-- `sb_preferences_validate_envelope` -/
def validateEnvelope [Platform] (codec : BlockCodec) (envelope : Sbj) : Except Err Unit :=
  let member := Sbj.get (some envelope)
  if !(Sbj.isObject (some envelope) && (Sbj.members (some envelope)).length == 7 &&
      Sbj.stringIs (member (lit "format")) (lit "sb-easy.preferences") &&
      Sbj.isInteger (member (lit "version")) &&
      Sbj.getInt (some envelope) (lit "version") 0 == 1 &&
      Sbj.stringIs (member (lit "kdf")) (lit "pbkdf2-sha256") &&
      Sbj.isInteger (member (lit "iterations")) &&
      Sbj.getInt (some envelope) (lit "iterations") 0 == 600000 &&
      canonicalBase64 codec (member (lit "salt")) 16 16 &&
      canonicalBase64 codec (member (lit "nonce")) 12 12 &&
      canonicalBase64 codec (member (lit "ciphertext")) 0 17) then
    .error ⟨.validation, "Invalid encrypted preferences envelope"⟩
  else if envelopeLimit < (Sbj.cstr (dump envelope (-1))).length then
    .error ⟨.validation, "Encrypted preferences exceed 1 MiB"⟩
  else .ok ()

def isIdentifierChar (c : UInt8) : Bool :=
  (0x61 ≤ c && c ≤ 0x7A) || (0x41 ≤ c && c ≤ 0x5A) || (0x30 ≤ c && c ≤ 0x39) || c == 0x2D || c == 0x5F

/-- `identifier` -/
def identifier (text : Bytes) (limit : ℕ) : Bool :=
  !text.isEmpty && decide (text.length ≤ limit) && text.all isIdentifierChar

/-- `arguments` -/
def arguments (userId slot : Bytes) : Except Err Unit :=
  if identifier userId 128 && identifier slot 64 then .ok ()
  else .error ⟨.validation, "Invalid preference slot"⟩

/-- `auth_preferences`: a deleted slot keeps its row, without an envelope. -/
structure Row where
  userId : Bytes
  slot : Bytes
  revision : ℤ
  updatedAt : ℤ
  envelope : Option Bytes
  deriving DecidableEq

/-- What the calls answer about a slot; a deleted one has no envelope. -/
structure Slot where
  revision : ℤ
  updatedAt : ℤ
  envelope : Option Sbj

/-- The row of a slot, and the rows of a user. -/
def at? (userId slot : Bytes) (r : Row) : Bool := r.userId == userId && r.slot == slot
def ofUser (userId : Bytes) (r : Row) : Bool := r.userId == userId

/-- `length(CAST(envelope AS BLOB))`, where `NULL` counts nothing. -/
def size (r : Row) : ℤ := (r.envelope.map List.length).getD 0

variable [Platform]

/-- `read_locked` -/
def readLocked (userId slot : Bytes) (t : List Row) : Except Err Slot :=
  match t.find? (at? userId slot) with
  | none => .error ⟨.notFound, "Preference slot not found"⟩
  | some r =>
    match r.envelope with
    | none => .ok ⟨r.revision, r.updatedAt, none⟩
    | some text =>
      match sbjParse text with
      | .ok envelope => .ok ⟨r.revision, r.updatedAt, some envelope⟩
      | .error _ => .error ⟨.generic, "Stored encrypted preferences are invalid"⟩

/-- The revision of a slot, 0 if there is no row. -/
def revisionOf (userId slot : Bytes) (t : List Row) : ℤ :=
  ((t.find? (at? userId slot)).map (·.revision)).getD 0

/-- Whether a user has room for an envelope in place of the one that is there. -/
def room (userId slot : Bytes) (length : ℤ) (t : List Row) : Bool :=
  let previous := ((t.find? (at? userId slot)).map size).getD 0
  (revisionOf userId slot t != 0 || decide (t.countP (ofUser userId) < userSlotsLimit)) &&
    decide (Table.sum (ofUser userId) size t - previous + length ≤ userBytesLimit)

/-- `sb_preferences_get` -/
def get (userId slot : Bytes) : Tx (List Row) Err Slot := do
  Tx.ofExcept (arguments userId slot)
  let t ← MonadState.get
  Tx.ofExcept (readLocked userId slot t)

/-- `sb_preferences_put` at a time. -/
def put (codec : BlockCodec) (now : ℤ) (userId slot : Bytes) (expected : ℤ) (envelope : Sbj) :
    Tx (List Row) Err Slot := do
  Tx.ofExcept (arguments userId slot)
  Tx.ofExcept (validateEnvelope codec envelope)
  Tx.require (decide (0 ≤ expected) && decide (expected < int64Max))
    ⟨.validation, "Invalid preference revision"⟩
  let encoded := Sbj.cstr (dump envelope (-1))
  Tx.transaction id (fun t _ => t) do
    let t ← MonadState.get
    Tx.require (revisionOf userId slot t == expected)
      ⟨.conflict, "Preferences changed on another device; fetch and review before saving"⟩
    Tx.require (room userId slot encoded.length t)
      ⟨.conflict, "Preference storage limit reached (16 slots / 8 MiB)"⟩
    let row := Row.mk userId slot (expected + 1) now (some encoded)
    modify fun t => Table.upsert (at? userId slot) (fun _ => row) row t
    let t ← MonadState.get
    Tx.ofExcept (readLocked userId slot t)

/-- `sb_preferences_delete` at a time. -/
def delete (now : ℤ) (userId slot : Bytes) (expected : ℤ) : Tx (List Row) Err Unit := do
  Tx.ofExcept (arguments userId slot)
  Tx.require (decide (0 < expected) && decide (expected < int64Max))
    ⟨.validation, "A positive preference revision is required"⟩
  let t ← MonadState.get
  let hit (r : Row) := at? userId slot r && r.revision == expected
  Tx.require (t.any hit)
    ⟨.conflict, "Preferences changed or no longer exist; fetch before deleting"⟩
  modify fun t => Table.update hit
    (fun r => { r with revision := r.revision + 1, updatedAt := now, envelope := none }) t

inductive Call
  | get (userId slot : Bytes)
  | put (userId slot : Bytes) (expected : ℤ) (envelope : Sbj)
  | delete (userId slot : Bytes) (expected : ℤ)

/-- A call at a time. If `fault` is there, SQLite reports it, at the latest when the call
commits, and the call is rolled back. -/
structure Event where
  call : Call
  now : ℤ
  fault : Option Err := none

/-- What a call answers: a deletion has nothing to say about the slot. -/
def answer (codec : BlockCodec) (e : Event) : Tx (List Row) Err (Option Slot) :=
  match e.call with
  | .get userId slot => do
    let s ← get userId slot
    pure (some s)
  | .put userId slot expected envelope => do
    let s ← put codec e.now userId slot expected envelope
    pure (some s)
  | .delete userId slot expected => do
    delete e.now userId slot expected
    pure none

def exec (codec : BlockCodec) (e : Event) (t : List Row) : Except Err (Option Slot) × List Row :=
  match e.fault with
  | some err => (.error err, t)
  | none => Tx.exec (answer codec e) t

def run (codec : BlockCodec) (t : List Row) (events : List Event) : List Row :=
  events.foldl (fun t e => (exec codec e t).2) t

end SbEasy.Preferences
