import SbEasy.Json
import SbEasy.Table

/-!
The ledger of `AppTrafficLedger.kt`, and how many detail rows it holds.

A connection keeps the row it was given when it was first seen, and the row is added once there are
bytes for it. So the limit is looked at earlier than the row is added.
-/

namespace SbEasy.Traffic

/-- What the ledger uses of the language, and `TrafficDomain`. -/
class Texts where
  isBlank : Bytes → Bool
  trim : Bytes → Bytes
  le : Bytes → Bytes → Bool
  host : Bytes → Bytes → Bytes
  registrable : Bytes → Bytes

structure ConnectionSnapshot where
  id : Bytes
  destination : Bytes
  domain : Bytes
  createdAt : ℤ
  closedAt : ℤ
  uplinkTotal : ℤ
  downlinkTotal : ℤ
  outbound : Bytes
  outboundType : Bytes
  chain : List Bytes
  appUid : Option ℤ := none
  appPackages : List Bytes := []

structure AppTrafficStat where
  key : Bytes
  uid : Option ℤ
  packages : List Bytes
  uploaded : ℤ := 0
  downloaded : ℤ := 0

structure DomainTrafficStat where
  domain : Bytes
  uploaded : ℤ := 0
  downloaded : ℤ := 0

inductive TrafficRoute
  | direct | proxy | block | unknown
  deriving DecidableEq

structure TrafficDetailKey where
  appKey : Bytes
  domain : Bytes
  host : Bytes
  route : TrafficRoute
  outbound : Bytes
  outboundType : Bytes
  chain : List Bytes := []
  legacy : Bool := false
  deriving DecidableEq

structure TrafficDetailStat where
  key : TrafficDetailKey
  uploaded : ℤ := 0
  downloaded : ℤ := 0

structure Checkpoint where
  app : AppTrafficStat
  detail : TrafficDetailKey
  up : ℤ
  down : ℤ
  closedAt : ℤ

structure AppTrafficLedger where
  totals : List AppTrafficStat := []
  domains : List DomainTrafficStat := []
  details : List TrafficDetailStat := []
  checkpoints : List (Bytes × Checkpoint) := []
  clearedAtMillis : ℤ := 0

/-- The sum of two values of type `Long`. -/
def plus (a b : ℤ) : ℤ := (a + b).bmod (2 ^ 64)

/-- `overflowKey` -/
def overflowKey : TrafficDetailKey :=
  ⟨lit "__overflow__", lit "__other__", lit "__other_hosts__", .unknown, [], [], [], false⟩

namespace AppTrafficLedger

variable [Texts]

/-- `detailKey` -/
def detailKey (appKey : Bytes) (value : ConnectionSnapshot) : TrafficDetailKey :=
  let host := Texts.host value.domain value.destination
  let type := Texts.trim value.outboundType
  let route : TrafficRoute :=
    if type = lit "direct" then .direct
    else if type = lit "block" then .block
    else if type ∈ [[], lit "selector", lit "urltest", lit "dns"] then .unknown
    else .proxy
  ⟨appKey, Texts.registrable host, host, route, Texts.trim value.outbound, type,
    value.chain.filter fun x => !Texts.isBlank x, false⟩

omit [Texts] in
/-- `addDetail` -/
def addDetail (key : TrafficDetailKey) (up down : ℤ) (l : AppTrafficLedger) : AppTrafficLedger :=
  { l with
    details := Table.upsert (fun r => r.key == key)
      (fun r => { r with uploaded := plus r.uploaded up, downloaded := plus r.downloaded down })
      ⟨key, plus 0 up, plus 0 down⟩ l.details
    domains := Table.upsert (fun r => r.domain == key.domain)
      (fun r => { r with uploaded := plus r.uploaded up, downloaded := plus r.downloaded down })
      ⟨key.domain, plus 0 up, plus 0 down⟩ l.domains }

/-- The application a connection belongs to. -/
def identity (previous : Option Checkpoint) (value : ConnectionSnapshot) : AppTrafficStat :=
  match previous with
  | some p => p.app
  | none =>
    let packages := ((value.appPackages.filter fun x => !Texts.isBlank x).eraseDups).insertionSort
      fun a b => Texts.le a b
    let uid := value.appUid.filter fun n => 0 ≤ n
    ⟨lit (toString (uid.getD (-1))) ++ lit ":" ++ (lit ",").intercalate packages, uid, packages, 0, 0⟩

/-- The row of a connection: the one it has, or the one it gets. -/
def detail (maxDetailRows : ℤ) (previous : Option Checkpoint) (value : ConnectionSnapshot)
    (l : AppTrafficLedger) : TrafficDetailKey :=
  match previous with
  | some p => p.detail
  | none =>
    let key := detailKey (identity none value).key value
    if l.details.any (fun r => r.key == key) || l.details.length < maxDetailRows then key
    else overflowKey

omit [Texts] in
/-- The counters of a connection, which never fall. -/
def counters (previous : Option Checkpoint) (value : ConnectionSnapshot) : ℤ × ℤ :=
  (max value.uplinkTotal ((previous.map Checkpoint.up).getD 0),
    max value.downlinkTotal ((previous.map Checkpoint.down).getD 0))

omit [Texts] in
/-- What the counters have gained; an old connection that is first seen after a clear has no
baseline. -/
def delta (previous : Option Checkpoint) (value : ConnectionSnapshot) (l : AppTrafficLedger) :
    ℤ × ℤ :=
  if previous.isNone && 0 < l.clearedAtMillis && value.createdAt ≤ l.clearedAtMillis then (0, 0)
  else ((counters previous value).1 - (previous.map Checkpoint.up).getD 0,
    (counters previous value).2 - (previous.map Checkpoint.down).getD 0)

/-- `record` -/
def record (maxDetailRows : ℤ) (value : ConnectionSnapshot) (l : AppTrafficLedger) :
    AppTrafficLedger :=
  if Texts.isBlank value.id then l
  else
    let previous := l.checkpoints.lookup value.id
    let app := identity previous value
    let key := detail maxDetailRows previous value l
    let (up, down) := counters previous value
    let closedAt := max value.closedAt ((previous.map Checkpoint.closedAt).getD 0)
    let entry := (value.id, (⟨app, key, up, down, closedAt⟩ : Checkpoint))
    let checkpoints := Table.upsert (fun x => x.1 == value.id) (fun _ => entry) entry l.checkpoints
    let (deltaUp, deltaDown) := delta previous value l
    if (deltaUp, deltaDown) = (0, 0) then { l with checkpoints := checkpoints }
    else
      let count (t : AppTrafficStat) := { t with
        uploaded := plus t.uploaded deltaUp, downloaded := plus t.downloaded deltaDown }
      let totals := Table.upsert (fun t => t.key == app.key) count (count app) l.totals
      addDetail key deltaUp deltaDown { l with checkpoints := checkpoints, totals := totals }

omit [Texts] in
/-- `prune` -/
def prune (l : AppTrafficLedger) : AppTrafficLedger :=
  let closed := (l.checkpoints.filter fun x => 0 < x.2.closedAt).insertionSort
    fun a b => b.2.closedAt ≤ a.2.closedAt
  let removed := (closed.drop 2000).map Prod.fst
  { l with checkpoints := l.checkpoints.filter fun x => x.1 ∉ removed }

end AppTrafficLedger

inductive Op
  | record (value : ConnectionSnapshot)
  | prune
  | clearStatistics (nowMillis : ℤ)
  | newCore

section

variable [Texts]

def step (maxDetailRows : ℤ) (l : AppTrafficLedger) : Op → AppTrafficLedger
  | .record value => l.record maxDetailRows value
  | .prune => l.prune
  | .clearStatistics nowMillis => { checkpoints := l.checkpoints, clearedAtMillis := nowMillis }
  | .newCore => { l with checkpoints := [], clearedAtMillis := 0 }

def run (maxDetailRows : ℤ) (ops : List Op) : AppTrafficLedger := ops.foldl (step maxDetailRows) {}

end

@[reducible] def Texts.sample : Texts := ⟨(· == []), id, fun a b => a ≤ b, fun a _ => a, id⟩

def sampleConnection (n : UInt8) (up : ℤ) : ConnectionSnapshot :=
  ⟨[n], [], [], 0, 0, up, 0, [n], lit "http", [], none, []⟩

/-- **Rows beyond the limit**: three connections are seen before any of them has sent a byte. -/
theorem idle_connections_exceed_limit :
    (@run .sample 1 [.record (sampleConnection 1 0), .record (sampleConnection 2 0),
      .record (sampleConnection 3 0), .record (sampleConnection 1 5),
      .record (sampleConnection 2 5), .record (sampleConnection 3 5)]).details.length = 3 := by
  decide +kernel

/-! ### When the limit holds -/

variable {maxDetailRows : ℤ} {l : AppTrafficLedger}

def AppTrafficLedger.keys (l : AppTrafficLedger) : List TrafficDetailKey := l.details.map (·.key)

/-- A connection that has sent more since it was last seen has its row in the table, or shares the
overflow row, or there is still room. -/
def Op.Fits (maxDetailRows : ℤ) (l : AppTrafficLedger) : Op → Prop
  | .record value => ∀ p ∈ l.checkpoints.lookup value.id,
      p.up < value.uplinkTotal ∨ p.down < value.downlinkTotal →
      p.detail = overflowKey ∨ p.detail ∈ l.keys ∨ l.details.length < maxDetailRows
  | _ => True

instance (op : Op) : Decidable (op.Fits maxDetailRows l) :=
  match op with
  | .record _ => inferInstanceAs (Decidable (∀ p ∈ _, _))
  | .prune | .clearStatistics _ | .newCore => .isTrue trivial

/-- The overflow row may be one more than the limit. -/
def AppTrafficLedger.Bounded (maxDetailRows : ℤ) (l : AppTrafficLedger) : Prop :=
  l.details.length ≤ maxDetailRows + if overflowKey ∈ l.keys then 1 else 0

lemma keys_addDetail (key : TrafficDetailKey) (up down : ℤ) :
    (l.addDetail key up down).keys = if key ∈ l.keys then l.keys else l.keys ++ [key] :=
  Table.map_upsert_key (fun _ => rfl) rfl

lemma bounded_of_keys {l' : AppTrafficLedger} (h : l.Bounded maxDetailRows) (hk : l'.keys = l.keys) :
    l'.Bounded maxDetailRows := by
  have hlen := congrArg List.length hk
  simp only [AppTrafficLedger.keys, List.length_map] at hlen
  rwa [AppTrafficLedger.Bounded, hk, hlen]

lemma bounded_addDetail (h : l.Bounded maxDetailRows) {key : TrafficDetailKey} (up down : ℤ)
    (hkey : key = overflowKey ∨ key ∈ l.keys ∨ l.details.length < maxDetailRows) :
    (l.addDetail key up down).Bounded maxDetailRows := by
  have hkeys := keys_addDetail (l := l) key up down
  by_cases hmem : key ∈ l.keys
  · exact bounded_of_keys h (by rw [hkeys, if_pos hmem])
  rw [if_neg hmem] at hkeys
  have hlen := congrArg List.length hkeys
  simp only [AppTrafficLedger.keys, List.length_map, List.length_append, List.length_singleton] at hlen
  simp only [AppTrafficLedger.Bounded, hkeys, hlen, List.mem_append, List.mem_singleton] at h ⊢
  rcases hkey with rfl | hin | hroom
  · rw [if_neg hmem] at h
    simp
    omega
  · exact absurd hin hmem
  · split_ifs <;> push_cast <;> omega

variable [Texts]

lemma detail_fits {value : ConnectionSnapshot} (hnew : l.checkpoints.lookup value.id = none) :
    l.detail maxDetailRows (l.checkpoints.lookup value.id) value = overflowKey ∨
      l.detail maxDetailRows (l.checkpoints.lookup value.id) value ∈ l.keys ∨
      l.details.length < maxDetailRows := by
  rw [hnew, AppTrafficLedger.detail]
  split_ifs with h
  · rw [Bool.or_eq_true, decide_eq_true_eq] at h
    exact .inr (h.imp (by simp [AppTrafficLedger.keys]) id)
  · exact .inl rfl

lemma bounded_step (hmax : 0 ≤ maxDetailRows) (h : l.Bounded maxDetailRows) {op : Op}
    (hop : op.Fits maxDetailRows l) : (step maxDetailRows l op).Bounded maxDetailRows := by
  cases op with
  | prune => exact bounded_of_keys h rfl
  | newCore => exact bounded_of_keys h rfl
  | clearStatistics now =>
    simp [step, AppTrafficLedger.Bounded, AppTrafficLedger.keys, hmax]
  | record value =>
    change (l.record maxDetailRows value).Bounded maxDetailRows
    unfold AppTrafficLedger.record
    split_ifs with hblank
    · exact h
    dsimp only
    split_ifs with hsame
    · exact bounded_of_keys h rfl
    -- the checkpoints and the totals are no part of the table
    refine bounded_addDetail (bounded_of_keys h rfl) _ _ ?_
    cases hp : l.checkpoints.lookup value.id with
    | none => exact hp ▸ detail_fits hp
    | some p =>
      refine hop p hp ?_
      by_contra hle
      rw [not_or, not_lt, not_lt] at hle
      refine hsame ?_
      simp [hp, AppTrafficLedger.delta, AppTrafficLedger.counters, hle.1, hle.2]

/-- Every call of a run fits, in the ledger it meets. -/
def Fitting (maxDetailRows : ℤ) : AppTrafficLedger → List Op → Prop
  | _, [] => True
  | l, op :: ops => op.Fits maxDetailRows l ∧ Fitting maxDetailRows (step maxDetailRows l op) ops

instance decidableFitting : ∀ (l : AppTrafficLedger) (ops : List Op),
    Decidable (Fitting maxDetailRows l ops)
  | _, [] => .isTrue trivial
  | l, op :: ops => @instDecidableAnd _ _ _ (decidableFitting (step maxDetailRows l op) ops)

lemma bounded_run (hmax : 0 ≤ maxDetailRows) {ops : List Op} (h : l.Bounded maxDetailRows)
    (hops : Fitting maxDetailRows l ops) :
    (ops.foldl (step maxDetailRows) l).Bounded maxDetailRows := by
  induction ops generalizing l with
  | nil => exact h
  | cons op ops ih => exact ih (bounded_step hmax h hops.1) hops.2

/-- **The detail table is bounded** in every run in which no connection brings in a row it was given
while there was room; a row beyond the limit is the overflow row. -/
theorem details_bounded (hmax : 0 ≤ maxDetailRows) (ops : List Op)
    (h : Fitting maxDetailRows {} ops) :
    (run maxDetailRows ops).details.length ≤ maxDetailRows + 1 ∧
      (maxDetailRows < (run maxDetailRows ops).details.length →
        overflowKey ∈ (run maxDetailRows ops).keys) := by
  have hstart : AppTrafficLedger.Bounded maxDetailRows {} := by
    simp [AppTrafficLedger.Bounded, AppTrafficLedger.keys, hmax]
  have hb : (run maxDetailRows ops).Bounded maxDetailRows := bounded_run hmax hstart h
  unfold AppTrafficLedger.Bounded at hb
  split_ifs at hb with hover
  · exact ⟨hb, fun _ => hover⟩
  · exact ⟨by omega, fun hlt => by omega⟩

def sampleOps : List Op :=
  [.record (sampleConnection 1 5), .record (sampleConnection 2 0), .record (sampleConnection 2 5),
    .prune, .record (sampleConnection 1 9), .record (sampleConnection 3 7)]

omit [Texts] in
/-- The second and the third connection share the overflow row. -/
theorem details_bounded_sample : (@run .sample 1 sampleOps).details.length = 2 ∧
    overflowKey ∈ (@run .sample 1 sampleOps).keys := by
  have hlen : (@run .sample 1 sampleOps).details.length = 2 := by decide +kernel
  have hfits : @Fitting .sample 1 {} sampleOps := by decide +kernel
  have h := @details_bounded 1 .sample (by decide) sampleOps hfits
  exact ⟨hlen, h.2 (by rw [hlen]; decide)⟩

end SbEasy.Traffic
