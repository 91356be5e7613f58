import SbEasy.GoPolicy

/-!
The engine's lease gate: `proxyManager` of `proxy_policy.go`.

Budgets, devices and connections are objects that the source reaches through pointers; here
they are rows of a list that only grows, and a pointer is a position in it. `linked` says that
the map of the manager has the object. Each definition is what one holder of the lock does.
Where the source collects connections and closes them after the lock is released, the closing
is the connection's own `close`, at any later time; the expiry timer is `expire`, at any time.
-/

namespace SbEasy

structure EngineBudget where
  id : Bytes
  user : Bytes
  epoch : ℤ
  grant : ℤ
  used : ℤ
  reserved : ℤ := 0
  active : Bool
  connections : ℤ := 0
  linked : Bool := true
  deriving DecidableEq

structure EngineDevice where
  id : Bytes
  token : Bytes
  budget : ℕ
  deadline : ℤ
  active : Bool
  linked : Bool := false
  deriving DecidableEq

structure EngineConn where
  device : ℕ
  closed : Bool := false
  deriving DecidableEq

/-- `proxyIngress`: a serial number for the pointer, and the node it listens for. -/
structure Ingress where
  serial : ℕ
  node : GoNode
  deriving DecidableEq

/-- `proxyManager` -/
structure Manager where
  boot : Bytes := []
  host : Bytes := []
  seq : ℤ := 0
  pending : ProxyRequest := ⟨0, [], 0, none⟩
  pendingHash : Bytes := []
  pendingStart : ℤ := 0
  appliedHash : Bytes := []
  budgets : List EngineBudget := []
  devices : List EngineDevice := []
  conns : List EngineConn := []
  ingress : Option Ingress := none
  connections : ℤ := 0
  serial : ℕ := 0
  deriving DecidableEq

/-- `errProxyPolicy` and `errProxyDenied` -/
inductive GoErr
  | policy | denied
  deriving DecidableEq

namespace Manager

/-- `stop` -/
def stop (m : Manager) : Manager :=
  { m with
    ingress := none
    devices := m.devices.map fun d => if d.linked then { d with active := false, linked := false } else d
    budgets := m.budgets.map fun b => if b.linked then { b with active := false } else b }

/-- `reset`, when nothing is pending: every connection is closed by then, and a closed one does
not look at its device again. -/
def reset (m : Manager) : Option Manager :=
  let m := m.stop
  if m.connections ≠ 0 ∨ m.budgets.any (fun b => b.linked && b.reserved != 0) then none
  else some { serial := m.serial }

/-- `expire` -/
def expire (m : Manager) (now : ℤ) : Manager :=
  { m with
    devices := m.devices.map fun d =>
      if d.linked && d.active && (now < 0 || now ≥ d.deadline) then { d with active := false } else d }

variable [Platform]

/-- `begin` -/
def begin (m : Manager) (data : Bytes) (now : ℤ) : Manager × Option GoErr :=
  match proxyDecode decodeRequest requestShape data with
  | none => (m.stop, some .policy)
  | some r =>
    if r.version ≠ 1 || !proxyID r.boot || r.seq < 1 || r.seq > proxyMaxInteger ||
        !proxyReportsValid r.reports then (m.stop, some .policy)
    else
      let hash := Platform.sha256 data
      if (m.boot != [] && m.boot != r.boot) || r.seq ≠ m.seq + 1 ||
          (m.pending.seq == r.seq && m.pendingHash != hash) then (m.stop, some .policy)
      else if m.pending.seq ≠ r.seq then
        if now < 0 || now > proxyMaxInteger * 1000 - 60000000000 then (m.stop, some .denied)
        else ({ m with pending := r, pendingHash := hash, pendingStart := now, boot := r.boot }, none)
      else ({ m with boot := r.boot }, none)

/-! ### Policies -/

/-- `proxyDeadline` -/
def proxyDeadline (start expires generated : ℤ) : ℤ := start + (expires - generated - 1) * 1000000000

/-- The key of a device in the map. -/
def token (d : GoDevice) : Bytes := d.id ++ 0x3A :: Platform.sha256 d.password

/-- The first loop of `apply`: how many budgets are new, unless one of the others is refused. -/
def budgetCheck (budgets : List EngineBudget) : List GoUser → Option ℕ
  | [] => some 0
  | u :: users =>
    match budgets.find? fun b => b.linked && b.id == u.lease.id with
    | some b =>
      if b.user != u.id || b.epoch != u.epoch || u.lease.grant < b.grant || u.lease.used > b.used then none
      else budgetCheck budgets users
    | none => (budgetCheck budgets users).map (· + 1)

/-- What `apply` builds up: the objects, and the devices of the next map. -/
structure Build where
  budgets : List EngineBudget
  devices : List EngineDevice
  next : List ℕ := []

/-- One device of a user with the budget at a position. -/
def placeDevice (p : GoPolicy) (start now : ℤ) (lease : GoLease) (budget : ℕ) (b : EngineBudget)
    (s : Build) (d : GoDevice) : Build :=
  let expires := d.expires.getD 0
  let ttl := lease.expires - p.generated
  let ttl := if expires ≠ 0 ∧ expires - p.generated < ttl then expires - p.generated else ttl
  let deadline := proxyDeadline start (p.generated + ttl) p.generated
  let active := now < deadline && b.used < b.grant
  match s.devices.findIdx? fun x => x.linked && x.token == token d && x.budget == budget with
  | some i =>
    { s with
      devices := s.devices.modify i fun x => { x with deadline := deadline, active := active }
      next := i :: s.next }
  | none =>
    { s with
      devices := s.devices ++ [⟨d.id, token d, budget, deadline, active, false⟩]
      next := s.devices.length :: s.next }

/-- The budget of a user: its position, and the objects with it. -/
def placeBudget (budgets : List EngineBudget) (u : GoUser) : ℕ × List EngineBudget :=
  match budgets.findIdx? fun b => b.linked && b.id == u.lease.id with
  | some i => (i, budgets.modify i fun b => { b with grant := u.lease.grant, active := true })
  | none =>
    (budgets.length, budgets ++ [⟨u.lease.id, u.id, u.epoch, u.lease.grant, u.lease.used, 0, true, 0, true⟩])

def placeUser (p : GoPolicy) (start now : ℤ) (s : Build) (u : GoUser) : Build :=
  let (i, budgets) := placeBudget s.budgets u
  let b := budgets.getD i ⟨[], [], 0, 0, 0, 0, false, 0, false⟩
  (u.devices.getD []).foldl (placeDevice p start now u.lease i b) { s with budgets := budgets }

/-- How `apply` ends, with the lock given back. -/
inductive Applied
  | refused (e : GoErr)
  | repeated
  | idle
  | serving (node : GoNode) (replace : Bool)
  deriving DecidableEq

/-- The second half of `apply`, behind the checks: the policy becomes the state. -/
def install (m : Manager) (p : GoPolicy) (now : ℤ) : Manager × Applied :=
  let start := m.pendingStart
  let expired := now < start || now ≥ proxyDeadline start p.expires p.generated
  let inactive := m.budgets.map fun b => if b.linked then { b with active := false } else b
  let node := if expired then none else p.node
  let s : Build :=
    match node with
    | none => { budgets := inactive, devices := m.devices }
    | some _ => (p.users.getD []).foldl (placeUser p start now) { budgets := inactive, devices := m.devices }
  let devices := s.devices.mapIdx fun i d =>
    { d with
      active := if d.linked && !s.next.contains i then false else d.active
      linked := s.next.contains i }
  let m := { m with budgets := s.budgets, devices := devices }
  match node with
  | none => ({ m with ingress := none }, .idle)
  | some n =>
    if m.ingress.any fun old => old.node == n then (m, .serving n false)
    else ({ m with ingress := none }, .serving n true)

/-- `apply`, up to where it gives the lock back and turns to the listener. -/
def apply (m : Manager) (data : Bytes) (now : ℤ) : Manager × Applied :=
  match proxyDecode decodePolicy policyShape data with
  | none => (m.stop, .refused .policy)
  | some p =>
    if !validateProxyPolicy p then (m.stop, .refused .policy)
    else
      let hash := Platform.sha256 data
      if p.boot != m.boot || (m.host != [] && p.host != m.host) || p.seq ≠ m.pending.seq ||
          m.pendingStart ≤ 0 then (m.stop, .refused .policy)
      else if p.seq = m.seq then
        if hash = m.appliedHash then (m, .repeated) else (m.stop, .refused .policy)
      else if p.seq ≠ m.seq + 1 then (m.stop, .refused .policy)
      else
        let m := { m with host := p.host, seq := p.seq, appliedHash := hash }
        match budgetCheck m.budgets (p.users.getD []) with
        | none => (m.stop, .refused .policy)
        | some added =>
          if m.budgets.countP (·.linked) + added > 4096 then (m.stop, .refused .denied)
          else m.install p now

/-- What the listener needs, and whether it gets it. -/
structure Listener where
  core : Bool
  created : Bool
  updated : Bool
  started : Bool
  deriving DecidableEq

/-- The end of `apply`: the listener of the node. -/
def serve (m : Manager) (node : GoNode) (replace : Bool) (l : Listener) : Manager × Option GoErr :=
  if !l.core then (m.stop, some .denied)
  else if replace && !l.created then (m.stop, some .denied)
  else if !l.updated then (m.stop, some .denied)
  else if replace then
    let m := { m with ingress := some ⟨m.serial, node⟩, serial := m.serial + 1 }
    if l.started then (m, none) else (m.stop, some .denied)
  else (m, none)

/-- A byte of a string as `json.Marshal` writes it. Lease identifiers are ASCII. -/
def marshalByte (c : UInt8) : Bytes :=
  if c = 0x3C ∨ c = 0x3E ∨ c = 0x26 then lit "\\u00" ++ [hexDigit (c >>> 4), hexDigit (c &&& 0x0F)]
  else (escape c).getD [c]

def marshalReport (r : ProxyReport) : Bytes :=
  0x7B :: lit "\"lease_id\":\"" ++ r.leaseId.flatMap marshalByte ++ lit "\",\"used_bytes\":" ++
    decimalInt r.used ++ [0x7D]

/-- `json.Marshal` of the reports. -/
def marshalReports (l : List ProxyReport) : Bytes :=
  0x5B :: List.intercalate [0x2C] (l.map marshalReport) ++ [0x5D]

def reports (m : Manager) : List ProxyReport :=
  orderBy ProxyReport.leaseId ((m.budgets.filter (·.linked)).map fun b => ⟨b.id, b.used⟩)

/-- `stats` -/
def stats (m : Manager) : Bytes := marshalReports m.reports

/-- A budget that is retired once its counter is known to the center. -/
def retires (r : ProxyReport) (b : EngineBudget) : Bool :=
  b.linked && b.id == r.leaseId && !b.active && b.used == r.used && b.reserved == 0 && b.connections == 0

/-- `acknowledge` -/
def acknowledge (m : Manager) (data : Bytes) : Manager × Option GoErr :=
  match proxyDecode (GoVal.slice decodeReport) (.slice reportShape) data with
  | none => (m, some .policy)
  | some reports =>
    if !proxyReportsValid reports then (m, some .policy)
    else
      ({ m with
        budgets := (reports.getD []).foldl
          (fun budgets r => Table.update (retires r) (fun b => { b with linked := false }) budgets)
          m.budgets }, none)

/-- The open connections of a device. -/
def openConns (m : Manager) (device : ℕ) : ℕ := m.conns.countP fun c => c.device == device && !c.closed

/-- `attach`; the listener a connection came in by is given by its serial number. -/
def attach (m : Manager) (token : Bytes) (ingress : Option ℕ) (now : ℤ) : Manager × Option ℕ :=
  match m.devices.findIdx? fun d => d.linked && d.token == token with
  | none => (m, none)
  | some i =>
    match m.devices[i]?, (m.devices[i]?).bind fun d => m.budgets[d.budget]? with
    | some d, some b =>
      if now < 0 || (ingress.isSome && m.ingress.map (·.serial) != ingress) || !d.active || !b.active ||
          now ≥ d.deadline || b.used + b.reserved ≥ b.grant || m.openConns i ≥ 256 ||
          m.connections ≥ 4096 then (m, none)
      else
        ({ m with
          conns := m.conns ++ [⟨i, false⟩]
          budgets := m.budgets.modify d.budget fun b => { b with connections := b.connections + 1 }
          connections := m.connections + 1 }, some m.conns.length)
    | _, _ => (m, none)

/-- The connection at a position, with its device and the position of its budget. -/
def connection (m : Manager) (c : ℕ) : Option (EngineConn × EngineDevice × EngineBudget) := do
  let conn ← m.conns[c]?
  let d ← m.devices[conn.device]?
  let b ← m.budgets[d.budget]?
  pure (conn, d, b)

/-- `Close`, which does nothing the second time. -/
def close (m : Manager) (c : ℕ) : Manager :=
  match m.connection c with
  | none => m
  | some (conn, d, _) =>
    if conn.closed then m
    else
      { m with
        conns := m.conns.modify c fun c => { c with closed := true }
        budgets := m.budgets.modify d.budget fun b => { b with connections := b.connections - 1 }
        connections := m.connections - 1 }

/-- `authorized` -/
def authorized (m : Manager) (c : ℕ) (now : ℤ) : Bool :=
  match m.connection c with
  | none => false
  | some (conn, d, b) => now ≥ 0 && !conn.closed && d.active && b.active && now < d.deadline

/-- `reserve` -/
def reserve (m : Manager) (c : ℕ) (want : ℕ) (whole : Bool) (now : ℤ) : Manager × ℤ :=
  match m.connection c with
  | none => (m, 0)
  | some (conn, d, b) =>
    if now < 0 || conn.closed || !d.active || !b.active || now ≥ d.deadline then (m, 0)
    else
      let left := b.grant - b.used - b.reserved
      if left ≤ 0 || (whole && (want : ℤ) > left) then (m, 0)
      else
        let want := if (want : ℤ) > left then left else want
        ({ m with
          budgets := m.budgets.modify d.budget fun b => { b with reserved := b.reserved + want } }, want)

/-- `finish` -/
def finish (m : Manager) (c : ℕ) (reserved used : ℤ) : Manager :=
  match m.connection c with
  | none => m
  | some (_, d, b) =>
    { m with
      budgets := m.budgets.modify d.budget fun b =>
        { b with reserved := b.reserved - reserved, used := b.used + used }
      devices := m.devices.map fun x =>
        if b.used + used ≥ b.grant && x.linked && x.budget == d.budget then { x with active := false } else x }

end Manager

/-- The bytes a finished write is charged with: all that were allowed, unless exactly those
were written. -/
def chargedBytes (allowed written : ℤ) (failed : Bool) : ℤ :=
  if failed || written != allowed then allowed else written

lemma chargedBytes_eq (allowed written : ℤ) (failed : Bool) :
    chargedBytes allowed written failed = allowed := by
  unfold chargedBytes
  by_cases h : written = allowed
  · simp [h]
  · simp [h]

end SbEasy
