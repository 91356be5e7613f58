import SbEasy.Schema
import SbEasy.Trace

/-!
`sb_observability_sample`: the traffic totals of a host and its minute buckets.

The abstract account of a host is the list of the samples it has accepted. The row of the host is a
function of that list, and as long as nothing has saturated or was deleted, so is the sum over the
buckets.
-/

namespace SbEasy.Observability

/-! ### The code -/

/-- `MAX_COUNTER` -/
def maxCounter : ℤ := 9007199254740991

/-- `saturated_add` -/
def saturatedAdd (a b : ℤ) : ℤ := if a > maxCounter - b then maxCounter else a + b

/-- `valid_time` -/
def validTime (now : ℤ) : Bool := decide (0 < now) && decide (now < 253402300800)

/-- The two counters that are totalled. -/
inductive Direction
  | up | down

/-- The traffic columns of `observability_hosts`. -/
structure HostRow where
  sampledAt : ℤ := 0
  counter : Direction → ℤ := fun _ => 0
  observed : Direction → ℤ := fun _ => 0
  counterResets : ℤ := 0

/-- A row of `observability_samples`, without the averages of the rates. -/
structure Bucket where
  hostId : Bytes
  bucket : ℤ
  samples : ℤ
  connectionsMax : ℤ
  bytes : Direction → ℤ
  counterResets : ℤ

/-- The tables: hosts by their primary key, and the buckets. -/
structure Db where
  hosts : Bytes → Option HostRow := fun _ => none
  samples : List Bucket := []
  /-- A transaction is open on the connection. -/
  transaction : Bool := false

inductive Stmt
  | begin | ensureHost | select | update | insert | commit

inductive Failure
  | invalid (e : Err)
  | sql (s : Stmt)

structure Call where
  host : Option Bytes
  sample : Option Sbj
  now : ℤ
  /-- The statements SQLite refuses, be it for a foreign key or a full disk. -/
  refused : Stmt → Bool := fun _ => false

structure Counters where
  up : ℤ
  down : ℤ
  total : Direction → ℤ
  connCount : ℤ

variable [Platform]

def counter (sample : Option Sbj) (field : Bytes) : Except Err ℤ :=
  let value := Sbj.get sample field
  if Sbj.isInteger value && decide (0 ≤ Sbj.asInt value (-1)) &&
      decide (Sbj.asInt value (-1) ≤ maxCounter) then .ok (Sbj.asInt value (-1))
  else .error ⟨.validation, "Telemetry counters must be nonnegative safe integers"⟩

def counters (sample : Option Sbj) : Except Err Counters := do
  let up ← counter sample (lit "up")
  let down ← counter sample (lit "down")
  let upTotal ← counter sample (lit "up_total")
  let downTotal ← counter sample (lit "down_total")
  let connCount ← counter sample (lit "conn_count")
  return ⟨up, down, fun | .up => upTotal | .down => downTotal, connCount⟩

/-- The checks in front of the transaction. -/
def Call.arguments (c : Call) : Except Err (Bytes × Counters) :=
  match c.host with
  | some host =>
    if validTime c.now && Sbj.isObject c.sample then (counters c.sample).map fun v => (host, v)
    else .error ⟨.validation, "Invalid telemetry sample"⟩
  | none => .error ⟨.validation, "Invalid telemetry sample"⟩

/-- `ensure_host` -/
def ensureHost (host : Bytes) (hosts : Bytes → Option HostRow) : Bytes → Option HostRow :=
  Function.update hosts host (some ((hosts host).getD {}))

/-- `du` and `dd` -/
def HostRow.delta (r : HostRow) (v : Counters) (d : Direction) : ℤ :=
  if r.sampledAt ≠ 0 then
    if v.total d ≥ r.counter d then v.total d - r.counter d else v.total d
  else 0

/-- `reset` -/
def HostRow.reset (r : HostRow) (v : Counters) : ℤ :=
  if r.sampledAt ≠ 0 ∧ (v.total .up < r.counter .up ∨ v.total .down < r.counter .down) then 1 else 0

/-- The `UPDATE` of a host. -/
def HostRow.note (r : HostRow) (v : Counters) (now : ℤ) : HostRow where
  sampledAt := now
  counter := v.total
  observed d := saturatedAdd (r.observed d) (r.delta v d)
  counterResets := saturatedAdd r.counterResets (r.reset v)

def Bucket.key (b : Bucket) : Bytes × ℤ := (b.hostId, b.bucket)

/-- The row that is inserted for a sample. -/
def newBucket (host : Bytes) (r : HostRow) (v : Counters) (now : ℤ) : Bucket :=
  ⟨host, now.tdiv 60 * 60, 1, v.connCount, r.delta v, r.reset v⟩

/-- `ON CONFLICT(host_id,bucket) DO UPDATE` -/
def Bucket.merge (excluded b : Bucket) : Bucket where
  hostId := b.hostId
  bucket := b.bucket
  samples := min (b.samples + 1) maxCounter
  connectionsMax := max b.connectionsMax excluded.connectionsMax
  bytes d := min maxCounter (b.bytes d + excluded.bytes d)
  counterResets := b.counterResets + excluded.counterResets

/-- The `UPDATE` and the `INSERT` behind a row that was selected. -/
def record (host : Bytes) (r : HostRow) (v : Counters) (now : ℤ) (db : Db) : Db :=
  let new := newBucket host r v now
  { db with
    hosts := Function.update (ensureHost host db.hosts) host (some (r.note v now))
    samples := Table.upsert (fun b => b.key == new.key) new.merge new db.samples }

/-- `sb_observability_sample` -/
def sample (c : Call) (db : Db) : Except Failure Unit × Db :=
  match c.arguments with
  | .error e => (.error (.invalid e), db)
  | .ok (host, v) =>
    if db.transaction || c.refused .begin then (.error (.sql .begin), db)
    else if c.refused .ensureHost then (.error (.sql .ensureHost), db)
    else if c.refused .select then (.error (.sql .select), db)
    else
      match ensureHost host db.hosts host with
      | none => (.error (.sql .select), db)
      | some r =>
        if c.now < r.sampledAt then
          -- This way out has no rollback: a refused commit leaves the transaction open.
          if c.refused .commit then
            (.error (.sql .commit), { db with hosts := ensureHost host db.hosts, transaction := true })
          else (.ok (), { db with hosts := ensureHost host db.hosts })
        else if c.refused .update then (.error (.sql .update), db)
        else if c.refused .insert then (.error (.sql .insert), db)
        else if c.refused .commit then (.error (.sql .commit), db)
        else (.ok (), record host r v c.now db)

inductive Event
  | sample (c : Call)
  /-- The deletion of old buckets in `sb_observability_evaluate`. -/
  | retain (cutoff : ℤ)

def exec : Event → Db → Except Failure Unit × Db
  | .sample c, db => sample c db
  | .retain cutoff, db =>
    (.ok (), { db with samples := db.samples.filter fun b => !decide (b.bucket < cutoff) })

/-- The row of a host; one that was never seen counts as new. -/
def hostRow (host : Bytes) (db : Db) : HostRow := (db.hosts host).getD {}

/-! ### The account of a host -/

/-- A sample, as far as it is totalled. -/
structure Reading where
  time : ℤ
  total : Direction → ℤ

/-- A sample that is older than the last accepted one is ignored. -/
def accept (l : List Reading) (x : Reading) : List Reading :=
  if l.getLast?.all fun y => decide (y.time ≤ x.time) then l ++ [x] else l

def accepted (l : List Reading) : List Reading := l.foldl accept []

/-- The accepted samples after the first, each with the one before it. -/
def steps (l : List Reading) : List (Reading × Reading) := l.zip l.tail

/-- The increase of a counter, or its new value if it went down. -/
def increase (d : Direction) (p : Reading × Reading) : ℤ :=
  if p.1.total d ≤ p.2.total d then p.2.total d - p.1.total d else p.2.total d

def total (d : Direction) (l : List Reading) : ℤ := ((steps l).map (increase d)).sum

/-- The samples in which some counter went down. -/
def resets (l : List Reading) : ℕ :=
  (steps l).countP fun p =>
    decide (p.2.total .up < p.1.total .up) || decide (p.2.total .down < p.1.total .down)

/-- The samples of a host that were taken without an error. -/
def reading (host : Bytes) : Event × Except Failure Unit → Option Reading
  | (.sample c, .ok ()) =>
    match c.arguments with
    | .ok (h, v) => if h = host then some ⟨c.now, v.total⟩ else none
    | .error _ => none
  | _ => none

def account (host : Bytes) (h : List (Event × Except Failure Unit)) : List Reading :=
  accepted (h.filterMap (reading host))

/-- The row that stands for an account. -/
def summary (l : List Reading) : HostRow where
  sampledAt := (l.getLast?.map (·.time)).getD 0
  counter d := (l.getLast?.map fun x => x.total d).getD 0
  observed d := min maxCounter (total d l)
  counterResets := min maxCounter (resets l)

omit [Platform] in
lemma steps_snoc (l : List Reading) (x : Reading) :
    steps (l ++ [x]) = steps l ++ (l.getLast?.map fun y => (y, x)).toList := by
  induction l with
  | nil => rfl
  | cons a l ih =>
    cases l with
    | nil => rfl
    | cons b l => simpa [steps] using ih

omit [Platform] in
lemma accepted_snoc (l : List Reading) (x : Reading) :
    accepted (l ++ [x]) = accept (accepted l) x := by simp [accepted, List.foldl_append]

/-- A reading that passed the checks. -/
def Reading.Valid (x : Reading) : Prop := 0 < x.time ∧ ∀ d, 0 ≤ x.total d

section

omit [Platform]

variable {l : List Reading} {v : Counters}

lemma delta_summary (hl : ∀ x ∈ l, x.Valid) (now : ℤ) (d : Direction) :
    (summary l).delta v d =
      (l.getLast?.map fun y => increase d (y, ⟨now, v.total⟩)).getD 0 := by
  cases h : l.getLast? with
  | none => simp [HostRow.delta, summary, h]
  | some y =>
    have hy := (hl y (List.mem_of_getLast? h)).1
    simp [HostRow.delta, summary, h, increase, hy.ne']

lemma total_snoc (d : Direction) (l : List Reading) (x : Reading) :
    total d (l ++ [x]) = total d l + (l.getLast?.map fun y => increase d (y, x)).getD 0 := by
  unfold total
  rw [steps_snoc]
  cases l.getLast? <;> simp

lemma increase_nonneg {d : Direction} {p : Reading × Reading} (h : 0 ≤ p.2.total d) :
    0 ≤ increase d p := by
  unfold increase
  split_ifs <;> omega

lemma delta_nonneg (r : HostRow) {d : Direction} (h : 0 ≤ v.total d) : 0 ≤ r.delta v d := by
  unfold HostRow.delta
  split_ifs <;> omega

lemma reset_summary (hl : ∀ x ∈ l, x.Valid) (now : ℤ) :
    (resets l : ℤ) + (summary l).reset v = resets (l ++ [⟨now, v.total⟩]) := by
  unfold resets
  rw [steps_snoc, List.countP_append]
  cases h : l.getLast? with
  | none => simp [HostRow.reset, summary, h]
  | some y =>
    have hy := (hl y (List.mem_of_getLast? h)).1
    simp only [HostRow.reset, summary, h, Option.map_some, Option.getD_some, hy.ne', ne_eq,
      not_false_eq_true, true_and, Option.toList_some, List.countP_singleton, Nat.cast_add,
      Bool.or_eq_true, decide_eq_true_eq]
    split_ifs <;> rfl

lemma saturatedAdd_min {n b : ℤ} (hb : 0 ≤ b) :
    saturatedAdd (min maxCounter n) b = min maxCounter (n + b) := by
  unfold saturatedAdd
  split_ifs <;> omega

lemma note_summary (hl : ∀ x ∈ l, x.Valid) (hv : ∀ d, 0 ≤ v.total d) (now : ℤ) :
    (summary l).note v now = summary (l ++ [⟨now, v.total⟩]) := by
  have hobserved : ∀ d, ((summary l).note v now).observed d =
      min maxCounter (total d (l ++ [⟨now, v.total⟩])) := by
    intro d
    rw [total_snoc, ← delta_summary hl now d]
    exact saturatedAdd_min (delta_nonneg _ (hv d))
  have hresets : ((summary l).note v now).counterResets =
      min maxCounter (resets (l ++ [⟨now, v.total⟩])) := by
    rw [← reset_summary hl now]
    refine saturatedAdd_min ?_
    unfold HostRow.reset
    split_ifs <;> omega
  simp only [HostRow.note] at hobserved hresets ⊢
  simp only [summary, HostRow.mk.injEq, List.getLast?_concat, Option.map_some, Option.getD_some,
    true_and]
  exact ⟨funext hobserved, hresets⟩

lemma accept_summary {x : Reading} (hx : x.Valid) :
    accept l x = if x.time < (summary l).sampledAt then l else l ++ [x] := by
  unfold accept summary
  cases l.getLast? with
  | none => simp [hx.1.le]
  | some y =>
    by_cases h : y.time ≤ x.time
    · simp [h]
    · simp [h, not_le.mp h]

end

lemma counter_ok {sample : Option Sbj} {field : Bytes} {n : ℤ} (h : counter sample field = .ok n) :
    0 ≤ n := by
  simp only [counter] at h
  split_ifs at h with hc
  simp only [Bool.and_eq_true, decide_eq_true_eq] at hc
  cases h
  exact hc.1.2

lemma arguments_ok {c : Call} {host : Bytes} {v : Counters} (h : c.arguments = .ok (host, v)) :
    0 < c.now ∧ ∀ d, 0 ≤ v.total d := by
  unfold Call.arguments at h
  split at h
  · split_ifs at h with hc
    cases hv : counters c.sample with
    | error e => rw [hv] at h; cases h
    | ok w =>
      rw [hv] at h
      cases h
      obtain ⟨_, -, h⟩ := bind_ok hv
      obtain ⟨_, -, h⟩ := bind_ok h
      obtain ⟨up, hup, h⟩ := bind_ok h
      obtain ⟨down, hdown, h⟩ := bind_ok h
      obtain ⟨_, -, h⟩ := bind_ok h
      cases h
      simp only [validTime, Bool.and_eq_true, decide_eq_true_eq] at hc
      refine ⟨hc.1.1, fun d => ?_⟩
      cases d with
      | up => exact counter_ok hup
      | down => exact counter_ok hdown
  · cases h

lemma reading_valid {host : Bytes} {x : Event × Except Failure Unit} {y : Reading}
    (h : reading host x = some y) : y.Valid := by
  unfold reading at h
  split at h
  · split at h
    · rename_i ha
      split_ifs at h
      cases h
      exact arguments_ok ha
    · cases h
  · cases h

section

omit [Platform]

variable {host : Bytes} {db : Db}

@[simp] lemma ensureHost_self (host : Bytes) (db : Db) :
    ensureHost host db.hosts host = some (hostRow host db) := by simp [ensureHost, hostRow]

lemma ensureHost_of_sampled (h : (hostRow host db).sampledAt ≠ 0) :
    ensureHost host db.hosts = db.hosts := by
  cases hr : db.hosts host with
  | none => simp [hostRow, hr] at h
  | some r => rw [ensureHost, hr, Option.getD_some, ← hr, Function.update_eq_self]

lemma hostRow_record (r : HostRow) (v : Counters) (now : ℤ) (h : Bytes) :
    hostRow h (record host r v now db) = if h = host then r.note v now else hostRow h db := by
  by_cases he : h = host
  · simp [hostRow, record, he]
  · simp [hostRow, record, ensureHost, he]

end

/-- The sample passes the checks and is older than the last one that was accepted. -/
def Call.older (c : Call) (db : Db) : Bool :=
  match c.arguments with
  | .ok (host, _) => c.now < (hostRow host db).sampledAt
  | .error _ => false

lemma sample_cases (c : Call) (db : Db) :
    (∃ f, (sample c db).1 = .error f ∧ ((sample c db).2 = db ∨
      f = .sql .commit ∧ c.older db = true ∧ (sample c db).2 = { db with transaction := true })) ∨
    ∃ host v, c.arguments = .ok (host, v) ∧ (sample c db).1 = .ok () ∧
      if c.now < (hostRow host db).sampledAt then (sample c db).2 = db
      else (sample c db).2 = record host (hostRow host db) v c.now db := by
  unfold sample
  cases ha : c.arguments with
  | error e => exact Or.inl ⟨_, rfl, .inl rfl⟩
  | ok p =>
    obtain ⟨host, v⟩ := p
    obtain ⟨hnow, -⟩ := arguments_ok ha
    simp only [ensureHost_self]
    split_ifs with h1 h2 h3 hold h4 h5 h6 h7
    · exact Or.inl ⟨_, rfl, .inl rfl⟩
    · exact Or.inl ⟨_, rfl, .inl rfl⟩
    · exact Or.inl ⟨_, rfl, .inl rfl⟩
    · refine Or.inl ⟨_, rfl, .inr ⟨rfl, by simp [Call.older, ha, hold], ?_⟩⟩
      rw [ensureHost_of_sampled (by omega)]
    · refine Or.inr ⟨host, v, rfl, rfl, ?_⟩
      rw [if_pos hold, ensureHost_of_sampled (by omega)]
    · exact Or.inl ⟨_, rfl, .inl rfl⟩
    · exact Or.inl ⟨_, rfl, .inl rfl⟩
    · exact Or.inl ⟨_, rfl, .inl rfl⟩
    · refine Or.inr ⟨host, v, rfl, rfl, ?_⟩
      rw [if_neg hold]

/-! ### Runs -/

/-- What the tables hold, for the events and answers so far. -/
structure Ledger (host : Bytes) (h : List (Event × Except Failure Unit)) (db : Db) : Prop where
  valid : ∀ x ∈ account host h, x.Valid
  row : hostRow host db = summary (account host h)
  keys : (db.samples.map Bucket.key).Nodup
  bytes : ∀ b ∈ db.samples, ∀ d, 0 ≤ b.bytes d
  buckets : (∀ cutoff, .retain cutoff ∉ h.map Prod.fst) → ∀ d, total d (account host h) ≤ maxCounter →
    Table.sum (fun b => b.hostId == host) (fun b => b.bytes d) db.samples = total d (account host h)

variable {host : Bytes} {h : List (Event × Except Failure Unit)} {db : Db}

lemma ledger_nil (host : Bytes) : Ledger host [] {} :=
  ⟨by simp [account, accepted], by simp [hostRow, summary, account, accepted, total, steps, resets,
    maxCounter], .nil, by simp, fun _ _ _ => rfl⟩

lemma account_snoc (host : Bytes) (h : List (Event × Except Failure Unit))
    (x : Event × Except Failure Unit) : account host (h ++ [x]) =
      ((reading host x).map (accept (account host h))).getD (account host h) := by
  unfold account
  rw [List.filterMap_append]
  cases hx : reading host x with
  | none => simp [hx]
  | some y => simp [hx, accepted_snoc]

lemma Ledger.idle (hl : Ledger host h db) {x : Event × Except Failure Unit} {db' : Db}
    (hx : reading host x = none) (hhosts : hostRow host db' = hostRow host db)
    (hsamples : db'.samples = db.samples) : Ledger host (h ++ [x]) db' := by
  have hacc : account host (h ++ [x]) = account host h := by rw [account_snoc, hx]; rfl
  refine ⟨hacc ▸ hl.valid, by rw [hhosts, hacc, hl.row], hsamples ▸ hl.keys, hsamples ▸ hl.bytes, ?_⟩
  rw [hacc, hsamples]
  exact fun hno => hl.buckets fun cutoff hmem => hno cutoff (by simp [hmem])

omit [Platform] in
lemma sum_record (hkeys : (db.samples.map Bucket.key).Nodup) (other : Bytes) (r : HostRow)
    (v : Counters) (now : ℤ) (d : Direction) :
    Table.sum (fun b => b.hostId == host) (fun b => b.bytes d) (record other r v now db).samples =
      Table.sum (fun b => b.hostId == host) (fun b => b.bytes d) db.samples +
        if other = host then
          ((db.samples.find? fun b => b.key == (newBucket other r v now).key).map fun b =>
            min maxCounter (b.bytes d + r.delta v d) - b.bytes d).getD (r.delta v d)
        else 0 := by
  have h := Table.sum_upsert_key (k := Bucket.key) (p := fun b => b.hostId == host)
    (g := fun b => b.bytes d) (f := (newBucket other r v now).merge) hkeys
    fun b (hb : b.key = (newBucket other r v now).key) => by
      have hid : b.hostId = other := congrArg Prod.fst hb
      simp [Bucket.merge, newBucket, hid]
  simpa [record, newBucket, Bucket.merge] using h

lemma Ledger.recorded (hl : Ledger host h db) {c : Call} {other : Bytes} {v : Counters}
    (ha : c.arguments = .ok (other, v)) (hnew : ¬ c.now < (hostRow other db).sampledAt) :
    Ledger host (h ++ [(.sample c, .ok ())]) (record other (hostRow other db) v c.now db) := by
  obtain ⟨hnow, hv⟩ := arguments_ok ha
  have hvalid : (⟨c.now, v.total⟩ : Reading).Valid := ⟨hnow, hv⟩
  have hkeys : ((record other (hostRow other db) v c.now db).samples.map Bucket.key).Nodup :=
    Table.nodup_upsert hl.keys _ fun _ _ _ => rfl
  have hmax : (0 : ℤ) ≤ maxCounter := by decide
  have hbytes : ∀ b ∈ (record other (hostRow other db) v c.now db).samples, ∀ d, 0 ≤ b.bytes d := by
    refine Table.forall_upsert hl.bytes (fun b hb d => ?_) fun d => delta_nonneg _ (hv d)
    exact le_min hmax (add_nonneg (hb d) (delta_nonneg _ (hv d)))
  have hacc := account_snoc host h (.sample c, .ok ())
  simp only [reading, ha] at hacc
  by_cases hsame : other = host
  · subst hsame
    rw [if_pos rfl, Option.map_some, Option.getD_some, accept_summary hvalid, ← hl.row,
      if_neg hnew] at hacc
    refine ⟨?_, ?_, hkeys, hbytes, fun hno d hle => ?_⟩
    · rw [hacc]
      intro x hx
      rcases List.mem_append.mp hx with hx | hx
      · exact hl.valid x hx
      · rw [List.mem_singleton.mp hx]
        exact hvalid
    · rw [hostRow_record, if_pos rfl, hacc, hl.row, note_summary hl.valid hv]
    · have hdelta : (hostRow other db).delta v d = _ := hl.row ▸ delta_summary hl.valid c.now d
      have hpos := delta_nonneg (hostRow other db) (hv d)
      rw [hacc, total_snoc, ← hdelta] at hle ⊢
      have hsum := hl.buckets (fun cutoff hmem => hno cutoff (by simp [hmem])) d (by omega)
      rw [sum_record hl.keys, if_pos rfl, hsum]
      cases hb : db.samples.find? fun b => b.key == (newBucket other (hostRow other db) v c.now).key with
      | none => simp
      | some b =>
        have hmem := List.mem_of_find?_eq_some hb
        have hkey : b.key = (newBucket other (hostRow other db) v c.now).key := by
          simpa using List.find?_some hb
        -- The bucket is a part of the total, so it has not saturated either.
        have := Table.le_sum_of_mem (p := fun b : Bucket => b.hostId == other)
          (g := fun b => b.bytes d) (fun x hx _ => hl.bytes x hx d) hmem
          (beq_iff_eq.mpr (congrArg Prod.fst hkey))
        simp only [Option.map_some, Option.getD_some]
        omega
  · rw [if_neg hsame] at hacc
    replace hacc : account host _ = account host h := hacc
    refine ⟨hacc ▸ hl.valid, ?_, hkeys, hbytes, fun hno d hle => ?_⟩
    · rw [hostRow_record, if_neg (Ne.symm hsame), hacc, hl.row]
    · rw [sum_record hl.keys, if_neg hsame, add_zero]
      rw [hacc] at hle ⊢
      exact hl.buckets (fun cutoff hmem => hno cutoff (by simp [hmem])) d hle

lemma Ledger.step (hl : Ledger host h db) (e : Event) :
    Ledger host (h ++ [(e, (exec e db).1)]) (exec e db).2 := by
  cases e with
  | sample c =>
    change Ledger host (h ++ [(.sample c, (sample c db).1)]) (sample c db).2
    rcases sample_cases c db with ⟨f, hf, hdb⟩ | ⟨other, v, ha, hok, hdb⟩
    · have hkept : (sample c db).2.hosts = db.hosts ∧ (sample c db).2.samples = db.samples := by
        rcases hdb with hdb | ⟨-, -, hdb⟩ <;> simp [hdb]
      exact hl.idle (by rw [hf]; rfl) (by rw [hostRow, hkept.1, hostRow]) hkept.2
    · rw [hok]
      split_ifs at hdb with hold
      · rw [hdb]
        obtain ⟨hnow, hv⟩ := arguments_ok ha
        by_cases hsame : other = host
        · -- The account ignores the sample as the code does.
          subst hsame
          have hacc := account_snoc other h (.sample c, .ok ())
          simp only [reading, ha, if_true, Option.map_some, Option.getD_some] at hacc
          rw [accept_summary ⟨hnow, hv⟩, ← hl.row, if_pos hold] at hacc
          refine ⟨hacc ▸ hl.valid, hacc ▸ hl.row, hl.keys, hl.bytes, fun hno => ?_⟩
          rw [hacc]
          exact hl.buckets fun cutoff hmem => hno cutoff (by simp [hmem])
        · exact hl.idle (by simp [reading, ha, hsame]) rfl rfl
      · rw [hdb]
        exact hl.recorded ha hold
  | retain cutoff =>
    have hacc : account host (h ++ [(.retain cutoff, .ok ())]) = account host h := by
      rw [account_snoc]
      rfl
    refine ⟨hacc ▸ hl.valid, hacc ▸ hl.row, ?_, fun b hb => hl.bytes b (List.mem_of_mem_filter hb), ?_⟩
    · exact hl.keys.sublist (List.filter_sublist.map _)
    · exact fun hno => absurd (by simp) (hno cutoff)

lemma ledger (host : Bytes) (es : List Event) :
    Ledger host (Trace.trace exec {} es) (Trace.run exec {} es) :=
  Trace.trace_invariant (ledger_nil host) fun _ e _ hl => hl.step e

omit [Platform] in
lemma total_accept_le {l : List Reading} {x : Reading} (hx : ∀ d, 0 ≤ x.total d) (d : Direction) :
    total d l ≤ total d (accept l x) := by
  unfold accept
  split_ifs
  · rw [total_snoc]
    cases l.getLast? with
    | none => simp
    | some y => exact le_add_of_nonneg_right (increase_nonneg (hx d))
  · exact le_rfl

lemma observed_le_step (hl : Ledger host h db) (e : Event) (d : Direction) :
    (hostRow host db).observed d ≤ (hostRow host (exec e db).2).observed d := by
  rw [hl.row, (hl.step e).row]
  refine min_le_min_left _ ?_
  rw [account_snoc]
  cases hx : reading host (e, (exec e db).1) with
  | none => exact le_rfl
  | some x =>
    exact total_accept_le (reading_valid hx).2 d

/-- **Traffic accounting**: over any run, the totals of a host are those of the samples it has
accepted, up to saturation, and never go down; as long as a total has not saturated and no old
bucket was deleted, the buckets of the host add up to it; and a failed call changes nothing, but
that the transaction stays open when the commit of an older sample is refused. -/
theorem traffic_accounting (host : Bytes) (es : List Event) :
    (∀ d, (hostRow host (Trace.run exec {} es)).observed d =
      min maxCounter (total d (account host (Trace.trace exec {} es)))) ∧
    (∀ d e, (hostRow host (Trace.run exec {} es)).observed d ≤
      (hostRow host (Trace.run exec {} (es ++ [e]))).observed d) ∧
    (hostRow host (Trace.run exec {} es)).counterResets =
      min maxCounter (resets (account host (Trace.trace exec {} es))) ∧
    ((∀ cutoff, .retain cutoff ∉ es) → ∀ d,
      total d (account host (Trace.trace exec {} es)) ≤ maxCounter →
      Table.sum (fun b => b.hostId == host) (fun b => b.bytes d) (Trace.run exec {} es).samples =
        (hostRow host (Trace.run exec {} es)).observed d) ∧
    ∀ c f, (sample c (Trace.run exec {} es)).1 = .error f →
      (sample c (Trace.run exec {} es)).2 = Trace.run exec {} es ∨
      f = .sql .commit ∧ c.older (Trace.run exec {} es) = true ∧
        (sample c (Trace.run exec {} es)).2 = { Trace.run exec {} es with transaction := true } := by
  have hl := ledger host es
  refine ⟨fun d => by rw [hl.row]; rfl, fun d e => ?_, by rw [hl.row]; rfl, fun hno d hle => ?_,
    fun c f hf => ?_⟩
  · rw [Trace.run_append]
    exact observed_le_step hl e d
  · rw [hl.buckets (by simpa using hno) d hle, hl.row]
    exact (min_eq_right hle).symm
  · rcases sample_cases c (Trace.run exec {} es) with ⟨g, hg, hleft⟩ | ⟨_, _, -, hok, -⟩
    · cases hf.symm.trans hg
      exact hleft
    · rw [hf] at hok
      cases hok

/-- A sample at a fixed time. -/
def swing (n : ℤ) : Call where
  host := some (lit "h")
  sample := some (.obj [(lit "conn_count", .int 0), (lit "down", .int 0), (lit "down_total", .int 0),
    (lit "up", .int 0), (lit "up_total", .int n)])
  now := 1

def swings : ℕ → List Event
  | 0 => []
  | n + 1 => swings n ++ [.sample (swing 1)] ++ [.sample (swing 0)]

def swung (n : ℤ) : Reading := ⟨1, fun | .up => n | .down => 0⟩

lemma sample_swing {n : ℤ} (hn : n = 0 ∨ n = 1) (ht : db.transaction = false) :
    (sample (swing n) db).1 = .ok () ∧ (sample (swing n) db).2.transaction = false ∧
      reading (lit "h") (.sample (swing n), .ok ()) = some (swung n) := by
  obtain ⟨v, ha, hv⟩ : ∃ v, (swing n).arguments = .ok (lit "h", v) ∧ v.total = (swung n).total := by
    rcases hn with rfl | rfl <;> exact ⟨_, rfl, rfl⟩
  have hr : ∀ s, (swing n).refused s = false := fun _ => rfl
  refine ⟨?_, ?_, by simp [reading, ha, hv]; rfl⟩
  all_goals
    simp only [sample, ha, ht, hr, ensureHost_self, Bool.or_false, Bool.false_eq_true, if_false]
    split_ifs <;> first | rfl | exact ht

lemma swings_account (n : ℕ) : (Trace.run exec {} (swings n)).transaction = false ∧
    resets (account (lit "h") (Trace.trace exec {} (swings n))) = n ∧
    ∀ x ∈ (account (lit "h") (Trace.trace exec {} (swings n))).getLast?, x = swung 0 := by
  induction n with
  | zero => exact ⟨rfl, rfl, by simp [swings, account, accepted]⟩
  | succ n ih =>
    obtain ⟨ht, hcount, hlast⟩ := ih
    obtain ⟨hok, ht, hread⟩ := sample_swing (n := 1) (Or.inr rfl) ht
    obtain ⟨hok', ht', hread'⟩ := sample_swing (n := 0) (Or.inl rfl) ht
    set l := account (lit "h") (Trace.trace exec {} (swings n)) with hl
    have hfirst : accept l (swung 1) = l ++ [swung 1] := by
      unfold accept
      rw [if_pos]
      cases hx : l.getLast? with
      | none => rfl
      | some x => rw [hlast x hx]; rfl
    have htrace : Trace.trace exec {} (swings (n + 1)) = Trace.trace exec {} (swings n) ++
        [(.sample (swing 1), .ok ())] ++ [(.sample (swing 0), .ok ())] := by
      rw [swings, Trace.trace_append, Trace.trace_append, Trace.run_append]
      simp only [Trace.trace_cons, Trace.trace_nil, Trace.run_cons, Trace.run_nil, exec, hok, hok']
    have hacc : account (lit "h") (Trace.trace exec {} (swings (n + 1))) =
        l ++ [swung 1] ++ [swung 0] := by
      rw [htrace, account_snoc, account_snoc, hread, hread', ← hl, Option.map_some, Option.map_some,
        Option.getD_some, Option.getD_some, hfirst]
      simp [accept, swung]
    have hup : resets (l ++ [swung 1]) = resets l := by
      unfold resets
      rw [steps_snoc, List.countP_append]
      cases hx : l.getLast? with
      | none => simp
      | some x => simp [hlast x hx, swung]
    refine ⟨?_, ?_, by simp [hacc]⟩
    · rw [swings, Trace.run_append, Trace.run_append]
      exact ht'
    · rw [hacc, ← hcount, ← hup]
      unfold resets
      rw [steps_snoc, List.countP_append]
      simp [swung]

omit [Platform] in
/-- The count of resets saturates like the totals; and a refused commit of an older sample leaves its
transaction open. -/
theorem counterResets_saturates : (∃ es,
    (hostRow (lit "h") (Trace.run (@exec .sample) {} es)).counterResets ≠
      resets (@account .sample (lit "h") (Trace.trace (@exec .sample) {} es))) ∧
    (Trace.run (@exec .sample) {} [.sample { swing 1 with now := 2 }]).transaction = false ∧
    (@sample .sample { swing 1 with refused := fun | .commit => true | _ => false }
      (Trace.run (@exec .sample) {} [.sample { swing 1 with now := 2 }])).2.transaction = true := by
  let _ : Platform := .sample
  refine ⟨⟨swings (2 ^ 53), ?_⟩, rfl, rfl⟩
  rw [(ledger (lit "h") (swings (2 ^ 53))).row, (swings_account (2 ^ 53)).2.1]
  change min maxCounter _ ≠ _
  rw [(swings_account (2 ^ 53)).2.1]
  decide

end SbEasy.Observability
