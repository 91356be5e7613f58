import SbEasy.EngineWindow
import SbEasy.ProgPool

/-!
The data path of the engine: the four methods of `proxyTCPConn` and `proxyPacketConn` as programs
over the underlying connection and the lease gate, and the system in which any number of calls of
them runs at once, beside everything else that happens to the manager.
-/

namespace SbEasy

open Rows

/-- Errors: those of the methods themselves, and those of the underlying connection. -/
inductive DataErr
  | denied | eof | shortWrite
  | conn (code : ℕ)
  deriving DecidableEq

/-- What `Read` and `Write` of the underlying connection return. -/
structure ConnResult where
  n : ℕ
  err : Option DataErr
  deriving DecidableEq

/-- What the underlying `ReadPacket` leaves in the buffer and returns. -/
structure PacketResult where
  n : ℕ
  addr : Bytes
  err : Option DataErr
  deriving DecidableEq

/-- What a method returns; `n` is also the length of the buffer it leaves. -/
structure Returned where
  n : ℤ
  addr : Bytes := []
  err : Option DataErr
  deriving DecidableEq

/-- What a method does, one thing at a time. -/
inductive DataOp
  | connRead (size : ℕ)
  | connWrite (n : ℤ)
  | packetRead
  | packetWrite (n : ℕ)
  /-- Bytes are left in the buffer of the router. -/
  | deliver (n : ℤ)
  | reserve (want : ℕ) (whole : Bool)
  | finish (reserved used : ℤ)
  | ret (r : Returned)
  /-- Something else happens to the manager. -/
  | control (op : EngineOp)

abbrev DataOp.Reply : DataOp → Type
  | .connRead _ => ConnResult
  | .connWrite _ => ConnResult
  | .packetRead => PacketResult
  | .packetWrite _ => Option DataErr
  | .reserve _ _ => ℤ
  | _ => Unit

abbrev DataProg := Prog DataOp DataOp.Reply Empty

namespace DataPath

def connRead (size : ℕ) : DataProg ConnResult := Prog.perform (DataOp.connRead size)
def connWrite (n : ℤ) : DataProg ConnResult := Prog.perform (DataOp.connWrite n)
def packetRead : DataProg PacketResult := Prog.perform DataOp.packetRead
def packetWrite (n : ℕ) : DataProg (Option DataErr) := Prog.perform (DataOp.packetWrite n)
def deliver (n : ℤ) : DataProg Unit := Prog.perform (DataOp.deliver n)
def reserve (want : ℕ) (whole : Bool) : DataProg ℤ := Prog.perform (DataOp.reserve want whole)
def finish (reserved used : ℤ) : DataProg Unit := Prog.perform (DataOp.finish reserved used)
def ret (r : Returned) : DataProg Unit := Prog.perform (DataOp.ret r)
def control (op : EngineOp) : DataProg Unit := Prog.perform (DataOp.control op)

/-- `proxyTCPConn.Read` -/
def read (len : ℕ) : DataProg Returned :=
  if len = 0 then pure { n := 0, err := none }
  else do
    let r ← connRead (min len 32768)
    if r.n = 0 then pure { n := 0, err := r.err }
    else do
      let allowed ← reserve r.n false
      if allowed = 0 then pure { n := 0, err := some .denied }
      else do
        deliver allowed
        finish allowed allowed
        if allowed < r.n then pure { n := allowed, err := some .eof }
        else pure { n := allowed, err := r.err }

/-- `proxyTCPConn.Write` -/
def write (len : ℕ) : DataProg Returned :=
  if len = 0 then pure { n := 0, err := none }
  else do
    let allowed ← reserve len false
    if allowed = 0 then pure { n := 0, err := some .denied }
    else do
      let r ← connWrite allowed
      finish allowed (chargedBytes allowed r.n r.err.isSome)
      if r.err = none ∧ r.n < len then pure { n := r.n, err := some .shortWrite }
      else pure { n := r.n, err := r.err }

/-- `proxyPacketConn.ReadPacket`; the packet is handed over when it is not truncated. -/
def readPacket : DataProg Returned := do
  let r ← packetRead
  if r.err.isSome then pure { n := r.n, addr := r.addr, err := r.err }
  else do
    let allowed ← reserve r.n true
    if allowed ≠ r.n ∨ r.n = 0 then pure { n := 0, err := some .denied }
    else do
      deliver r.n
      finish r.n r.n
      pure { n := r.n, addr := r.addr, err := none }

/-- `proxyPacketConn.WritePacket`; the copy for lack of headroom has the same bytes. -/
def writePacket (n : ℕ) : DataProg Returned := do
  let allowed ← reserve n true
  if allowed ≠ n ∨ n = 0 then pure { n := 0, err := some .denied }
  else do
    let err ← packetWrite n
    finish n n
    pure { n := n, err := err }

/-! ### The system -/

inductive DataCall
  | read (len : ℕ)
  | write (len : ℕ)
  | readPacket
  | writePacket (n : ℕ)
  deriving DecidableEq

/-- A call, with its return. -/
def DataCall.program : DataCall → DataProg Unit
  | .read len => do ret (← DataPath.read len)
  | .write len => do ret (← DataPath.write len)
  | .readPacket => do ret (← DataPath.readPacket)
  | .writePacket n => do ret (← DataPath.writePacket n)

/-- What is known of one call: what the gate has answered it, and what has left through it. -/
structure Ledger where
  conn : ℕ
  /-- The position of the budget of its connection. -/
  budget : Option ℕ
  call : Option DataCall
  /-- The packets that the underlying connection has given. -/
  packets : List ℕ := []
  /-- The answers of `reserve` other than zero. -/
  reserved : List ℤ := []
  /-- The arguments of `finish`. -/
  finished : List (ℤ × ℤ) := []
  /-- The bytes handed to the router or passed to the underlying connection. -/
  sent : List ℤ := []
  returned : Bool := false
  deriving DecidableEq

def Ledger.charged (l : Ledger) : ℤ := (l.finished.map (·.2)).sum

def Ledger.held (l : Ledger) : ℤ := l.reserved.sum - (l.finished.map (·.1)).sum

/-- The engine with the calls so far; `initial` is what each budget had used when it was made. -/
structure Data where
  watch : Watch := {}
  initial : List ℤ := []
  ledgers : List Ledger := []

/-- The sum over the calls on a budget. -/
def Data.total (s : Data) (f : Ledger → ℤ) (budget : ℕ) : ℤ :=
  (s.ledgers.map fun l => if l.budget = some budget then f l else 0).sum

def Data.log (s : Data) (i : ℕ) (f : Ledger → Ledger) : Data :=
  { s with ledgers := s.ledgers.modify i f }

/-- What an operation meets: the clock, and the answers of the underlying connection. -/
structure Meets where
  now : ℤ
  conn : ConnResult
  packet : PacketResult
  err : Option DataErr

variable [Platform]

/-- One operation of call `i`. The underlying connection reads and writes no more than it is asked
to. -/
def exec (i : ℕ) (x : Meets) (s : Data) : (o : DataOp) → Option (o.Reply × Data)
  | .connRead size => if x.conn.n ≤ size then some (x.conn, s) else none
  | .connWrite n =>
    if x.conn.n ≤ n then some (x.conn, s.log i fun l => { l with sent := l.sent ++ [n] }) else none
  | .packetRead =>
    some (x.packet, s.log i fun l =>
      if x.packet.err.isSome then l else { l with packets := l.packets ++ [x.packet.n] })
  | .packetWrite n => some (x.err, s.log i fun l => { l with sent := l.sent ++ [(n : ℤ)] })
  | .deliver n => some ((), s.log i fun l => { l with sent := l.sent ++ [n] })
  | .reserve want whole =>
    (s.ledgers[i]?).map fun l =>
      let allowed := (s.watch.mgr.reserve l.conn want whole x.now).2
      (allowed, { s with
        watch := s.watch.step x.now (.reserve l.conn want whole)
        ledgers := s.ledgers.modify i fun l =>
          { l with reserved := l.reserved ++ (if allowed = 0 then [] else [allowed]) } })
  | .finish reserved used =>
    (s.ledgers[i]?).map fun l =>
      ((), { s with
        watch := s.watch.step x.now (.finish l.conn reserved used)
        ledgers := s.ledgers.modify i fun l =>
          { l with finished := l.finished ++ [(reserved, used)] } })
  | .ret _ => some ((), s.log i fun l => { l with returned := true })
  | .control op =>
    let watch := s.watch.step x.now op
    some ((), { s with
      watch := watch
      initial := s.initial ++ (watch.mgr.budgets.drop s.initial.length).map (·.used) })

/-- What happens from outside: a call on a connection, something else at the manager, or one more
operation of what has been started. -/
inductive DataEvent
  | call (conn : ℕ) (call : DataCall)
  | control (op : EngineOp)
  | move (i : ℕ) (x : Meets)

abbrev DataPool := Prog.Pool Data DataOp DataOp.Reply Unit

def step (c : DataPool) : DataEvent → DataPool
  | .call conn call =>
    match c.state.watch.mgr.connection conn with
    | none => c
    | some (_, d, _) =>
      ⟨{ c.state with ledgers := c.state.ledgers ++ [⟨conn, some d.budget, some call, [], [], [], [], false⟩] },
        Function.update c.programs c.state.ledgers.length (some call.program)⟩
  | .control op =>
    if isPayment op then c
    else
      ⟨{ c.state with ledgers := c.state.ledgers ++ [⟨0, none, none, [], [], [], [], true⟩] },
        Function.update c.programs c.state.ledgers.length (some (control op))⟩
  | .move i x =>
    match c.programs i with
    | some (.call o k) =>
      match exec i x c.state o with
      | none => c
      | some (r, s) => ⟨s, Function.update c.programs i (some (k r))⟩
    | _ => c

def run (events : List DataEvent) : DataPool := events.foldl step ⟨{}, fun _ => none⟩

end DataPath

end SbEasy
