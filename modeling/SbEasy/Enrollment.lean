import SbEasy.Refresh
import SbEasy.Clocked

/-!
`sb_store_create_agent_enrollment` and `sb_store_redeem_agent_enrollment`.

`datetime('now')` is modelled by its seconds: its texts compare as the times they name do. What
the statements of a call report is taken as it comes: a statement or commit that fails ends the
call, and the transaction is rolled back.
-/

namespace SbEasy.Enrollment

open Store (uniqueFailed)

/-- A column of JSON text by what it reads as, nothing if the text does not read. -/
def Column : Type := Option {v : Json // v.1.Stored ∧ v.1.nesting ≤ JsonParse.maxDepth}

def emptyObject : Json := ⟨.obj [], Sbj.ordered_nil⟩

/-- `parse_object_or_empty` -/
def parseObjectOrEmpty : Column → Json
  | none => emptyObject
  | some v => if Sbj.isObject (some v.1.1) then v.1 else emptyObject

/-- `bind_dump` -/
def bindDump (v : Json) : Except Err Column :=
  match h : dumpChecked v with
  | .error err => .error err
  | .ok text =>
    if hdepth : text.1.nesting ≤ JsonParse.maxDepth then
      .ok (some ⟨text, stored_of_dumpChecked h, hdepth⟩)
    else .ok none

/-- `hosts`. The texts that are only ever bound as C strings hold no NUL byte. -/
structure HostRow where
  id : Bytes
  name : Bytes
  agentToken : Bytes
  capabilities : Column
  profileId : Option Bytes
  wgAddress : Option Bytes
  wgPublicKey : Option Bytes
  wgEndpoint : Option Bytes
  clashApi : Option Bytes
  clashSecret : Bytes
  lastSeen : Option ℤ
  singboxState : Option Bytes
  enabled : Bool
  createdAt : ℤ
  updatedAt : ℤ
  tailscale : Bytes

/-- `config_profiles`, as far as an enrollment reads it. -/
structure ProfileRow where
  id : Bytes
  name : Bytes

/-- `agent_enrollments` -/
structure EnrollmentRow where
  id : Bytes
  hostId : Bytes
  codeHash : Bytes
  expiresAt : ℤ
  redeemedAt : Option ℤ
  createdAt : ℤ
  deriving DecidableEq

structure Db where
  hosts : List HostRow
  profiles : List ProfileRow
  enrollments : List EnrollmentRow

/-- `sb_agent_enrollment` -/
structure AgentEnrollment where
  id : Bytes
  hostId : Bytes
  code : Bytes
  expiresAt : ℤ

/-- The host a code is asked for has to be another machine, and enabled. -/
def usable (seen : Db) (hostId : Bytes) : Except Err Unit :=
  match seen.hosts.find? (·.id == hostId) with
  | none => .error ⟨.notFound, "Host not found"⟩
  | some host =>
    if host.id != lit "self" && host.enabled then .ok ()
    else .error ⟨.validation, "Enrollment requires an enabled remote host"⟩

def foreignKeyFailed : Err := ⟨.generic, "execute SQL failed (19): FOREIGN KEY constraint failed"⟩

/-- `INSERT INTO agent_enrollments` -/
def insertEnrollment (row : EnrollmentRow) : Tx (Clocked Db) Err Unit := do
  let db ← Clocked.query id
  Tx.require (!db.enrollments.any fun e => e.id == row.id) (uniqueFailed "agent_enrollments.id")
  Tx.require (!db.enrollments.any fun e => e.codeHash == row.codeHash)
    (uniqueFailed "agent_enrollments.code_hash")
  Tx.require (db.hosts.any fun h => h.id == row.hostId) foreignKeyFailed
  Clocked.update fun db => { db with enrollments := db.enrollments ++ [row] }

variable [Platform]

/-- `sb_store_create_agent_enrollment`. The host is looked up before the transaction, in the
database as it was then; `id` and `code` are random. -/
def createAgentEnrollment (seen : Db) (hostId id code : Bytes) (d₁ d₂ : ℕ) :
    Tx (Clocked Db) Err AgentEnrollment := do
  Tx.ofExcept (usable seen hostId)
  Clocked.transaction do
    let now ← Clocked.clock d₁
    Clocked.update fun db => { db with
      enrollments := Table.update (fun e => e.hostId == hostId && e.redeemedAt.isNone)
        (fun e => { e with expiresAt := now }) db.enrollments }
    let now ← Clocked.clock d₂
    insertEnrollment ⟨id, hostId, Platform.sha256 code, now + 600, none, now⟩
    let created ← Clocked.query fun db => db.enrollments.find? (·.id == id)
    match created with
    | none => throw ⟨.generic, "Created enrollment could not be read"⟩
    | some row => pure ⟨id, hostId, code, row.expiresAt⟩

/-! ### Redemption -/

/-- `sb_agent_enrollment_result` -/
structure AgentEnrollmentResult where
  hostId : Bytes
  hostName : Bytes
  agentToken : Bytes
  profileId : Bytes
  profileName : Bytes

def featureNames : List String :=
  ["interactive_client", "supports_proxy_selection", "supports_local_route_stats",
    "supports_diagnostic_upload"]

def featureKeys : List Bytes := featureNames.map lit

def descriptiveKeys : List Bytes :=
  [lit "platform", lit "app_version", lit "agent_version", lit "core_version", lit "install_id",
    lit "model", lit "hostname", lit "architecture", lit "os"]

/-- A feature of the device is there or not, and has no other type. -/
def checkFeature (device : Sbj) (name : String) : Except Err Unit :=
  match Sbj.get (some device) (lit name) with
  | none => .ok ()
  | some found =>
    if Sbj.isBool (some found) then .ok ()
    else .error ⟨.validation, "Device capability '" ++ name ++ "' must be a boolean"⟩

def checkFeatures (device : Sbj) : Except Err Unit := featureNames.forM (checkFeature device)

def isFilledString : Sbj → Bool
  | .str s => !s.isEmpty
  | _ => false

/-- A member of the device that is taken over into the capabilities. -/
def takeOver (device : Json) (accept : Sbj → Bool) (capabilities : Json) (key : Bytes) : Json :=
  match h : Sbj.get (some device.1) key with
  | none => capabilities
  | some found =>
    if accept found then
      ⟨capabilities.1.set key found, capabilities.2.set (device.2.get h) key⟩
    else capabilities

/-- The capabilities of a host after a device has redeemed a code. -/
def enrolled (device capabilities : Json) : Json :=
  featureKeys.foldl (takeOver device fun _ => true)
    (descriptiveKeys.foldl (takeOver device isFilledString) capabilities)

/-- Whether a row of the join belongs to a code that can be redeemed. -/
def redeemable (hash : Bytes) (now : ℤ) (e : EnrollmentRow) (h : HostRow) (p : ProfileRow) : Bool :=
  h.id == e.hostId && p.id == h.profileId.getD (lit "default") && e.codeHash == hash &&
    e.redeemedAt.isNone && decide (now < e.expiresAt) && h.enabled

/-- The rows of the `SELECT` of a redemption. -/
def candidates (hash : Bytes) (now : ℤ) (db : Db) : List (EnrollmentRow × HostRow × ProfileRow) :=
  db.enrollments.flatMap fun e => db.hosts.flatMap fun h => db.profiles.filterMap fun p =>
    if redeemable hash now e h p then some (e, h, p) else none

/-- `sb_store_redeem_agent_enrollment` -/
def redeemAgentEnrollment (code : Bytes) (device : Option Json) (d₁ d₂ d₃ : ℕ) :
    Tx (Clocked Db) Err AgentEnrollmentResult := do
  match device with
  | none => throw ⟨.validation, "A valid enrollment code and device are required"⟩
  | some device =>
    Tx.require (decide (32 ≤ code.length) && Sbj.isObject (some device.1))
      ⟨.validation, "A valid enrollment code and device are required"⟩
    Tx.ofExcept (checkFeatures device.1)
    Clocked.transaction do
      let now ← Clocked.clock d₁
      let rows ← Clocked.query (candidates (Platform.sha256 code) now)
      match rows.head? with
      | none => throw ⟨.validation, "Enrollment code is invalid or expired"⟩
      | some (e, h, p) =>
        let pending (row : EnrollmentRow) := row.id == e.id && row.redeemedAt.isNone
        let now ← Clocked.clock d₂
        let changes ← Clocked.query fun db => db.enrollments.countP pending
        Clocked.update fun db => { db with
          enrollments := Table.update pending (fun row => { row with redeemedAt := some now })
            db.enrollments }
        Tx.require (changes == 1) ⟨.conflict, "Enrollment code was already redeemed"⟩
        let now ← Clocked.clock d₃
        let text ← Tx.ofExcept (bindDump (enrolled device (parseObjectOrEmpty h.capabilities)))
        Clocked.update fun db => { db with
          hosts := Table.update (fun row => row.id == h.id) (fun row =>
            { row with capabilities := text, lastSeen := some now, updatedAt := now }) db.hosts }
        pure ⟨h.id, h.name, h.agentToken, h.profileId.getD (lit "default"), p.name⟩

inductive Call
  | create (seen : Db) (hostId id code : Bytes) (d₁ d₂ : ℕ)
  | redeem (code : Bytes) (device : Option Json) (d₁ d₂ d₃ : ℕ)

/-- A call; if `fault` is there, SQLite reports it, at the latest when the call commits. -/
structure Event where
  call : Call
  fault : Option Err := none

inductive Answer
  | created (enrollment : AgentEnrollment)
  | redeemed (result : AgentEnrollmentResult)

def answer : Call → Tx (Clocked Db) Err Answer
  | .create seen hostId id code d₁ d₂ => do
    let enrollment ← createAgentEnrollment seen hostId id code d₁ d₂
    pure (.created enrollment)
  | .redeem code device d₁ d₂ d₃ => do
    let result ← redeemAgentEnrollment code device d₁ d₂ d₃
    pure (.redeemed result)

def exec (e : Event) (w : Clocked Db) : Except Err Answer × Clocked Db :=
  match e.fault with
  | some err => (.error err, w)
  | none => Tx.exec (answer e.call) w

end SbEasy.Enrollment
