import SbEasy.DataPath

/-!
Accounting of the data path: what leaves through the calls on a budget is covered by what the budget
has reserved for them or charged, in every interleaving.
-/

namespace SbEasy

open Rows

namespace Manager

/-! ### The gate -/

/-- Everything that `reserve` can answer. -/
lemma reserve_cases (m : Manager) (c want : ℕ) (whole : Bool) (now : ℤ) :
    m.reserve c want whole now = (m, 0) ∨
    ∃ (conn : EngineConn) (d : EngineDevice) (b : EngineBudget) (a : ℤ),
      m.connection c = some (conn, d, b) ∧ 0 < a ∧ a ≤ want ∧
      (whole = true → a = want) ∧ b.used + b.reserved + a ≤ b.grant ∧
      m.reserve c want whole now = ({ m with
        budgets := m.budgets.modify d.budget fun b => { b with reserved := b.reserved + a } }, a) := by
  unfold reserve
  cases hconn : m.connection c with
  | none => exact .inl rfl
  | some x =>
    obtain ⟨conn, d, b⟩ := x
    dsimp only
    by_cases hdenied : (decide (now < 0) || conn.closed || !d.active || !b.active ||
        decide (now ≥ d.deadline)) = true
    · rw [if_pos hdenied]
      exact .inl rfl
    rw [if_neg hdenied]
    by_cases hleft : (decide (b.grant - b.used - b.reserved ≤ 0) ||
        (whole && decide ((want : ℤ) > b.grant - b.used - b.reserved))) = true
    · rw [if_pos hleft]
      exact .inl rfl
    rw [if_neg hleft]
    simp only [Bool.or_eq_true, Bool.and_eq_true, decide_eq_true_eq, not_or, not_and, not_le,
      not_lt] at hleft
    by_cases hzero : want = 0
    · subst hzero
      have hsame : (m.budgets.modify d.budget fun b => { b with reserved := b.reserved + 0 }) =
          m.budgets := by
        refine List.ext_getElem? fun i => ?_
        simp [List.getElem?_modify]
      refine .inl ?_
      rw [if_neg (by push_cast; omega)]
      push_cast
      rw [hsame]
    · refine .inr ⟨conn, d, b, if (want : ℤ) > b.grant - b.used - b.reserved then
        b.grant - b.used - b.reserved else want, rfl, ?_, ?_, fun hwhole => ?_, ?_, rfl⟩
      · split_ifs <;> omega
      · split_ifs <;> omega
      · rw [if_neg (by have := hleft.2 hwhole; omega)]
      · split_ifs <;> omega

variable {m : Manager} {c : ℕ} {conn : EngineConn} {d : EngineDevice} {b : EngineBudget}

lemma finish_budgets (hconn : m.connection c = some (conn, d, b)) (reserved used : ℤ) :
    (m.finish c reserved used).budgets = m.budgets.modify d.budget fun b =>
      { b with reserved := b.reserved - reserved, used := b.used + used } := by
  unfold finish
  rw [hconn]

lemma connection_of (hconn : m.conns[c]? = some conn) (hd : m.devices[conn.device]? = some d)
    (hb : m.budgets[d.budget]? = some b) : m.connection c = some (conn, d, b) := by
  simp [connection, hconn, hd, hb]

lemma connection_stays {m m' : Manager} (h : Watch.Stays m m')
    (hlen : m.budgets.length ≤ m'.budgets.length) (hconn : m.connection c = some (conn, d, b)) :
    ∃ conn' d' b', m'.connection c = some (conn', d', b') ∧ d'.budget = d.budget := by
  obtain ⟨hc, hd, hb⟩ := connection_some hconn
  obtain ⟨conn', hc', hsame⟩ := h.conns _ _ hc
  obtain ⟨d', hd', hfollows⟩ := h.devices _ _ hd
  have hlt := (List.getElem?_eq_some_iff.mp hb).1
  exact ⟨conn', d', _, connection_of hc' (by rw [hsame.device]; exact hd')
    (List.getElem?_eq_getElem (by rw [hfollows.budget]; omega)), hfollows.budget⟩

end Manager

open Manager

/-- What everything but a payment leaves of the budgets. -/
structure Renews (m m' : Manager) : Prop where
  budgets : Rows.Grows EngineBudget.Renewed m.budgets m'.budgets
  fresh : ∀ (i : ℕ) (b : EngineBudget), m'.budgets[i]? = some b → m.budgets.length ≤ i → b.Fresh

lemma Renews.of_calm {m m' : Manager} (h : Calm Rests m m') : Renews m m' := by
  refine ⟨(grows_of_forall₂ h.budgets).mono fun _ _ hb => hb.renewed, fun i b hb hi => ?_⟩
  have hlt := (List.getElem?_eq_some_iff.mp hb).1
  rw [← h.budgets.length_eq] at hlt
  omega

lemma Renews.length_le {m m' : Manager} (h : Renews m m') : m.budgets.length ≤ m'.budgets.length := by
  by_contra hlt
  obtain ⟨b, hb, -⟩ := h.budgets m'.budgets.length _ (List.getElem?_eq_getElem (by omega))
  simp at hb

lemma renews_step [Platform] {w : Watch} (h : w.Inv) (now : ℤ) {op : EngineOp}
    (hop : DataPath.isPayment op = false) : Renews w.mgr (w.step now op).mgr := by
  rcases Watch.step_calm h now op with ⟨p, hinst⟩ | hcalm | ⟨hpays, -⟩
  · exact ⟨hinst.budgets, hinst.fresh⟩
  · exact .of_calm hcalm
  · exact absurd (hop.symm.trans hpays) (by simp)

namespace DataPath

namespace Ledger

/-- Every reservation has been finished, with the same amount. -/
def Settled (l : Ledger) : Prop := l.reserved = l.finished.map (·.1)

/-- The last reservation is still to be finished. -/
structure Holding (l : Ledger) (r : ℤ) : Prop where
  pos : 0 < r
  open_ : l.returned = false
  reserved : l.reserved = l.finished.map (·.1) ++ [r]

/-- Packets are passed on as they are, or not at all. -/
def WholePackets (l : Ledger) : Prop :=
  match l.call with
  | some .readPacket => l.sent = [] ∨ ∃ n : ℕ, l.packets = [n] ∧ l.sent = [(n : ℤ)]
  | some (.writePacket n) => l.sent = [] ∨ l.sent = [(n : ℤ)]
  | _ => True

variable {l : Ledger}

lemma wholePackets_of_sent (h : l.sent = []) : l.WholePackets := by
  unfold WholePackets
  split
  · exact .inl h
  · exact .inl h
  · trivial

structure Sound (l : Ledger) : Prop where
  paid : l.Settled ∨ ∃ r, l.Holding r
  covered : l.sent.sum ≤ l.charged + l.held
  whole : l.WholePackets

lemma Settled.held (h : l.Settled) : l.held = 0 := by
  rw [Ledger.held, h]
  omega

lemma Holding.held {r : ℤ} (h : l.Holding r) : l.held = r := by
  rw [Ledger.held, h.reserved, List.sum_append]
  simp

lemma Sound.settled (h : l.Sound) (hret : l.returned = true) : l.Settled := by
  rcases h.paid with hs | ⟨r, hr⟩
  · exact hs
  · rw [hr.open_] at hret
    exact absurd hret (by simp)

/-- Bytes may leave through the call. -/
def MaySend (l : Ledger) (n : ℤ) : Prop :=
  ∃ r, l.Holding r ∧ l.sent.sum + n ≤ l.charged + r ∧
    WholePackets { l with sent := l.sent ++ [n] }

lemma Sound.send {n : ℤ} (h : l.MaySend n) : Sound { l with sent := l.sent ++ [n] } := by
  obtain ⟨r, hr, hn, hwhole⟩ := h
  have hr' : Holding { l with sent := l.sent ++ [n] } r := ⟨hr.pos, hr.open_, hr.reserved⟩
  refine ⟨.inr ⟨r, hr'⟩, ?_, hwhole⟩
  rw [hr'.held, List.sum_append, List.sum_singleton]
  exact hn

lemma Sound.reserve (h : l.Sound) (hs : l.Settled) (hopen : l.returned = false) {a : ℤ}
    (ha : 0 < a) : Sound { l with reserved := l.reserved ++ [a] } := by
  have hr : Holding { l with reserved := l.reserved ++ [a] } a := ⟨ha, hopen, by rw [hs]⟩
  refine ⟨.inr ⟨a, hr⟩, ?_, h.whole⟩
  have hcovered := h.covered
  rw [hs.held] at hcovered
  rw [hr.held]
  change l.sent.sum ≤ l.charged + a
  omega

lemma Sound.finish (h : l.Sound) {r u : ℤ} (hr : l.Holding r)
    (hu : l.sent.sum ≤ l.charged + u) : Sound { l with finished := l.finished ++ [(r, u)] } := by
  have hs : Settled { l with finished := l.finished ++ [(r, u)] } := by
    rw [Settled, hr.reserved, List.map_append, List.map_singleton]
  refine ⟨.inl hs, ?_, h.whole⟩
  rw [hs.held, Ledger.charged, List.map_append, List.sum_append]
  simpa [Ledger.charged] using hu

end Ledger

lemma sum_map_modify {α : Type*} {f : α → α} {g : α → ℤ} {l : List α} {i : ℕ} {a : α}
    (h : l[i]? = some a) : ((l.modify i f).map g).sum = (l.map g).sum + (g (f a) - g a) := by
  induction l generalizing i with
  | nil => simp at h
  | cons x l ih =>
    cases i with
    | zero =>
      obtain rfl := Option.some.inj h
      rw [List.modify_zero_cons, List.map_cons, List.map_cons, List.sum_cons, List.sum_cons]
      omega
    | succ i =>
      rw [List.modify_succ_cons, List.map_cons, List.map_cons, List.sum_cons, List.sum_cons,
        ih (by simpa using h)]
      omega

lemma total_modify {s s' : Data} {i : ℕ} {l : Ledger} {f : Ledger → Ledger}
    (hledgers : s'.ledgers = s.ledgers.modify i f) (hl : s.ledgers[i]? = some l)
    (hf : (f l).budget = l.budget) (g : Ledger → ℤ) (k : ℕ) :
    s'.total g k = s.total g k + (if l.budget = some k then g (f l) - g l else 0) := by
  rw [Data.total, hledgers, sum_map_modify hl, hf, Data.total]
  split_ifs <;> omega

lemma total_append (s : Data) (l : Ledger) (g : Ledger → ℤ) (hg : g l = 0) (k : ℕ) :
    Data.total { s with ledgers := s.ledgers ++ [l] } g k = s.total g k := by
  simp [Data.total, hg]

lemma total_le {s : Data} {f g : Ledger → ℤ} (h : ∀ l ∈ s.ledgers, f l ≤ g l) (k : ℕ) :
    s.total f k ≤ s.total g k := by
  refine List.sum_le_sum fun l hl => ?_
  split_ifs
  · exact h l hl
  · exact le_rfl

lemma total_add (s : Data) (f g : Ledger → ℤ) (k : ℕ) :
    s.total (fun l => f l + g l) k = s.total f k + s.total g k := by
  rw [Data.total, Data.total, Data.total, ← List.sum_map_add]
  congr 1
  refine List.map_congr_left fun l _ => ?_
  split_ifs <;> omega

lemma total_eq_zero {s : Data} {f : Ledger → ℤ} {k : ℕ}
    (h : ∀ l ∈ s.ledgers, l.budget = some k → f l = 0) : s.total f k = 0 := by
  refine List.sum_eq_zero fun x hx => ?_
  obtain ⟨l, hl, rfl⟩ := List.mem_map.mp hx
  split_ifs with hk
  · exact h l hl hk
  · rfl

lemma mem_modify {α : Type*} {f : α → α} {l : List α} {i : ℕ} {a x : α} (h : l[i]? = some a)
    (hx : x ∈ l.modify i f) : x = f a ∨ x ∈ l := by
  obtain ⟨j, hj⟩ := List.getElem?_of_mem hx
  by_cases hij : i = j
  · subst hij
    rw [List.getElem?_modify_eq, h] at hj
    exact .inl (Option.some.inj hj).symm
  · rw [List.getElem?_modify_ne _ _ hij] at hj
    exact .inr (List.mem_of_getElem? hj)

variable [Platform] {s s' : Data} {i : ℕ} {l : Ledger} {f : Ledger → Ledger}

structure Accounts (s : Data) : Prop where
  inv : s.watch.Inv
  initial : s.initial.length = s.watch.mgr.budgets.length
  budgets : ∀ (k : ℕ) (b : EngineBudget) (u : ℤ), s.watch.mgr.budgets[k]? = some b →
    s.initial[k]? = some u → b.used = u + s.total Ledger.charged k ∧
      b.reserved = s.total Ledger.held k ∧ b.used + b.reserved ≤ b.grant
  ledgers : ∀ l ∈ s.ledgers, l.Sound
  conns : ∀ l ∈ s.ledgers, ∀ k, l.budget = some k →
    ∃ conn d b, s.watch.mgr.connection l.conn = some (conn, d, b) ∧ d.budget = k

lemma accounts_new : Accounts {} :=
  ⟨Watch.inv_new, rfl, by simp, by simp, by simp⟩

lemma Accounts.pay (h : Accounts s) (hinv : s'.watch.Inv)
    (hinitial : s'.initial = s.initial)
    (hl : s.ledgers[i]? = some l) (hledgers : s'.ledgers = s.ledgers.modify i f)
    (hconn : (f l).conn = l.conn) (hbudget : (f l).budget = l.budget) (hsound : (f l).Sound)
    (hlen : s'.watch.mgr.budgets.length = s.watch.mgr.budgets.length)
    (hstays : Watch.Stays s.watch.mgr s'.watch.mgr)
    (hpaid : ∀ (k : ℕ) (b' : EngineBudget), s'.watch.mgr.budgets[k]? = some b' →
      ∃ b, s.watch.mgr.budgets[k]? = some b ∧
        b'.used = b.used + (if l.budget = some k then (f l).charged - l.charged else 0) ∧
        b'.reserved = b.reserved + (if l.budget = some k then (f l).held - l.held else 0) ∧
        (b.used + b.reserved ≤ b.grant → b'.used + b'.reserved ≤ b'.grant)) : Accounts s' := by
  refine ⟨hinv, by rw [hinitial, hlen]; exact h.initial, fun k b' u hb' hu => ?_, fun x hx => ?_,
    fun x hx k hk => ?_⟩
  · obtain ⟨b, hb, hused, hreserved, hgrant⟩ := hpaid k b' hb'
    rw [hinitial] at hu
    obtain ⟨h1, h2, h3⟩ := h.budgets k b u hb hu
    rw [total_modify hledgers hl hbudget, total_modify hledgers hl hbudget]
    exact ⟨by omega, by omega, hgrant h3⟩
  · rw [hledgers] at hx
    rcases mem_modify hl hx with rfl | hx
    · exact hsound
    · exact h.ledgers x hx
  · have hold : ∃ conn d b, s.watch.mgr.connection x.conn = some (conn, d, b) ∧ d.budget = k := by
      rw [hledgers] at hx
      rcases mem_modify hl hx with rfl | hx
      · rw [hconn]
        exact h.conns l (List.mem_of_getElem? hl) k (by rw [← hbudget]; exact hk)
      · exact h.conns x hx k hk
    obtain ⟨conn, d, b, hc, hd⟩ := hold
    obtain ⟨conn', d', b', hc', hd'⟩ := connection_stays hstays hlen.ge hc
    exact ⟨conn', d', b', hc', hd'.trans hd⟩

lemma Accounts.log (h : Accounts s)
    (hl : s.ledgers[i]? = some l) (hconn : (f l).conn = l.conn) (hbudget : (f l).budget = l.budget)
    (hcharged : (f l).charged = l.charged) (hheld : (f l).held = l.held) (hsound : (f l).Sound) :
    Accounts (s.log i f) := by
  refine h.pay h.inv rfl hl rfl hconn hbudget hsound rfl (.refl _) fun k b hb => ?_
  exact ⟨b, hb, by rw [hcharged]; simp, by rw [hheld]; simp, fun hle => hle⟩

/-! ### Operations -/

/-- What a call makes sure of before it performs an operation. -/
def Guard (i : ℕ) (o : DataOp) (s : Data) : Prop :=
  match o with
  | .connRead _ => True
  | .packetRead => ∃ l, s.ledgers[i]? = some l ∧ l.sent = []
  | .connWrite n => ∃ l, s.ledgers[i]? = some l ∧ l.MaySend n
  | .packetWrite n => ∃ l, s.ledgers[i]? = some l ∧ l.MaySend n
  | .deliver n => ∃ l, s.ledgers[i]? = some l ∧ l.MaySend n
  | .reserve _ _ =>
    ∃ l, s.ledgers[i]? = some l ∧ l.Settled ∧ l.returned = false ∧ l.budget.isSome
  | .finish r u => ∃ l, s.ledgers[i]? = some l ∧ l.Holding r ∧ l.budget.isSome ∧
      l.sent.sum ≤ l.charged + u ∧ u ≤ r
  | .ret _ => ∃ l, s.ledgers[i]? = some l ∧ l.Settled
  | .control op => isPayment op = false

lemma Accounts.send (h : Accounts s) {n : ℤ}
    (hguard : ∃ l, s.ledgers[i]? = some l ∧ l.MaySend n) :
    Accounts (s.log i fun l => { l with sent := l.sent ++ [n] }) := by
  obtain ⟨l, hl, hsend⟩ := hguard
  exact h.log hl rfl rfl rfl rfl (.send hsend)

lemma Accounts.packetRead (h : Accounts s)
    (hguard : ∃ l, s.ledgers[i]? = some l ∧ l.sent = []) (r : PacketResult) :
    Accounts (s.log i fun l =>
      if r.err.isSome then l else { l with packets := l.packets ++ [r.n] }) := by
  obtain ⟨l, hl, hsent⟩ := hguard
  have hsound := h.ledgers l (List.mem_of_getElem? hl)
  by_cases herr : r.err.isSome
  · simp only [herr, if_true]
    exact h.log hl rfl rfl rfl rfl hsound
  · simp only [herr]
    refine h.log hl rfl rfl rfl rfl ⟨?_, hsound.covered, ?_⟩
    · exact hsound.paid.imp_right fun ⟨r, hr⟩ => ⟨r, hr.pos, hr.open_, hr.reserved⟩
    · exact Ledger.wholePackets_of_sent hsent

lemma Accounts.ret (h : Accounts s)
    (hguard : ∃ l, s.ledgers[i]? = some l ∧ l.Settled) :
    Accounts (s.log i fun l => { l with returned := true }) := by
  obtain ⟨l, hl, hs⟩ := hguard
  have hsound := h.ledgers l (List.mem_of_getElem? hl)
  exact h.log hl rfl rfl rfl rfl ⟨.inl hs, hsound.covered, hsound.whole⟩

lemma Accounts.connection (h : Accounts s)
    (hl : s.ledgers[i]? = some l) (hb : l.budget.isSome) :
    ∃ conn d b, s.watch.mgr.connection l.conn = some (conn, d, b) ∧ l.budget = some d.budget := by
  obtain ⟨k, hk⟩ := Option.isSome_iff_exists.mp hb
  obtain ⟨conn, d, b, hc, rfl⟩ := h.conns l (List.mem_of_getElem? hl) k hk
  exact ⟨conn, d, b, hc, hk⟩

lemma Accounts.reserve (h : Accounts s)
    (hl : s.ledgers[i]? = some l) (hs : l.Settled) (hopen : l.returned = false)
    (hb : l.budget.isSome) (want : ℕ) (whole : Bool) (now : ℤ) :
    Accounts { s with
      watch := s.watch.step now (.reserve l.conn want whole)
      ledgers := s.ledgers.modify i fun x => { x with
        reserved := x.reserved ++ (if (s.watch.mgr.reserve l.conn want whole now).2 = 0 then []
          else [(s.watch.mgr.reserve l.conn want whole now).2]) } } := by
  have hsound := h.ledgers l (List.mem_of_getElem? hl)
  have hinv := h.inv.step now (.reserve l.conn want whole)
  have hstays := Watch.stays_step h.inv now (.reserve l.conn want whole)
  rcases reserve_cases s.watch.mgr l.conn want whole now with hr | ⟨conn, d, b, a, hc, ha, -, -, hroom, hr⟩
  · have hmgr : (s.watch.step now (.reserve l.conn want whole)).mgr = s.watch.mgr := by
      rw [Watch.step, hr]
    rw [hr]
    simp only [if_true, List.append_nil]
    refine h.pay hinv rfl hl rfl rfl rfl hsound (by rw [hmgr]) hstays fun k b hb => ?_
    rw [hmgr] at hb
    exact ⟨b, hb, by simp, by simp, fun hle => hle⟩
  · have hmgr : (s.watch.step now (.reserve l.conn want whole)).mgr.budgets =
        s.watch.mgr.budgets.modify d.budget fun b => { b with reserved := b.reserved + a } := by
      rw [Watch.step, hr]
    obtain ⟨conn', d', b', hc', hbudget⟩ := h.connection hl hb
    rw [hc, Option.some.injEq, Prod.mk.injEq, Prod.mk.injEq] at hc'
    obtain ⟨rfl, rfl, rfl⟩ := hc'
    have hget := (connection_some hc).2.2
    rw [hr]
    simp only [if_neg ha.ne']
    have hnew := hsound.reserve hs hopen ha
    refine h.pay hinv rfl hl rfl rfl rfl hnew (by rw [hmgr, List.length_modify]) hstays
      fun k x hx => ?_
    rw [hmgr] at hx
    have hheld : Ledger.held { l with reserved := l.reserved ++ [a] } - l.held = a := by
      simp only [Ledger.held, List.sum_append, List.sum_singleton]
      omega
    have hcharged : Ledger.charged { l with reserved := l.reserved ++ [a] } = l.charged := rfl
    rw [hheld, hcharged, hbudget]
    by_cases hk : d.budget = k
    · subst hk
      rw [List.getElem?_modify_eq, hget] at hx
      obtain rfl := Option.some.inj hx
      exact ⟨b, hget, by simp, by simp, fun _ => by dsimp only; omega⟩
    · rw [List.getElem?_modify_ne _ _ hk] at hx
      exact ⟨x, hx, by simp [hk], by simp [hk], fun hle => hle⟩

lemma Accounts.finish (h : Accounts s)
    (hl : s.ledgers[i]? = some l) {r u : ℤ} (hr : l.Holding r) (hb : l.budget.isSome)
    (hu : l.sent.sum ≤ l.charged + u) (hle : u ≤ r) (now : ℤ) :
    Accounts { s with
      watch := s.watch.step now (.finish l.conn r u)
      ledgers := s.ledgers.modify i fun x => { x with finished := x.finished ++ [(r, u)] } } := by
  have hsound := h.ledgers l (List.mem_of_getElem? hl)
  have hinv := h.inv.step now (.finish l.conn r u)
  have hstays := Watch.stays_step h.inv now (.finish l.conn r u)
  obtain ⟨conn, d, b, hc, hbudget⟩ := h.connection hl hb
  have hmgr : (s.watch.step now (.finish l.conn r u)).mgr.budgets =
      s.watch.mgr.budgets.modify d.budget fun b =>
        { b with reserved := b.reserved - r, used := b.used + u } := finish_budgets hc r u
  have hget := (connection_some hc).2.2
  refine h.pay hinv rfl hl rfl rfl rfl (hsound.finish hr hu) (by rw [hmgr, List.length_modify]) hstays
    fun k x hx => ?_
  rw [hmgr] at hx
  have hheld : Ledger.held { l with finished := l.finished ++ [(r, u)] } - l.held = -r := by
    simp only [Ledger.held, List.map_append, List.sum_append, List.map_singleton, List.sum_singleton]
    omega
  have hcharged : Ledger.charged { l with finished := l.finished ++ [(r, u)] } - l.charged = u := by
    simp only [Ledger.charged, List.map_append, List.sum_append, List.map_singleton,
      List.sum_singleton]
    omega
  rw [hheld, hcharged, hbudget]
  by_cases hk : d.budget = k
  · subst hk
    rw [List.getElem?_modify_eq, hget] at hx
    obtain rfl := Option.some.inj hx
    refine ⟨b, hget, by simp, ?_, fun hle' => ?_⟩
    · simp
      omega
    · dsimp only
      omega
  · rw [List.getElem?_modify_ne _ _ hk] at hx
    exact ⟨x, hx, by simp [hk], by simp [hk], fun hle => hle⟩

lemma Accounts.control (h : Accounts s) (now : ℤ) {op : EngineOp}
    (hop : isPayment op = false) :
    Accounts { s with
      watch := s.watch.step now op
      initial := s.initial ++
        ((s.watch.step now op).mgr.budgets.drop s.initial.length).map (·.used) } := by
  have hrenews := renews_step h.inv now hop
  have hlen := hrenews.length_le
  refine ⟨h.inv.step now op, ?_, fun k b' u hb' hu => ?_, h.ledgers, fun l hl k hk => ?_⟩
  · dsimp only
    rw [List.length_append, List.length_map, List.length_drop, h.initial]
    omega
  · by_cases hk : s.initial.length ≤ k
    · -- A new budget, on which there is no call.
      rw [List.getElem?_append_right hk, List.getElem?_map, List.getElem?_drop,
        Nat.add_sub_cancel' hk, hb'] at hu
      obtain rfl := Option.some.inj hu
      obtain ⟨⟨-, hle⟩, hres⟩ := hrenews.fresh k b' hb' (by rw [← h.initial]; exact hk)
      have hnone : ∀ f : Ledger → ℤ, s.total f k = 0 := fun f => total_eq_zero fun l hl hlk => by
        obtain ⟨conn, d, b, hc, rfl⟩ := h.conns l hl k hlk
        have hlt := (List.getElem?_eq_some_iff.mp (connection_some hc).2.2).1
        rw [h.initial] at hk
        omega
      have htotal : ∀ f : Ledger → ℤ, Data.total { s with
          watch := s.watch.step now op
          initial := s.initial ++
            ((s.watch.step now op).mgr.budgets.drop s.initial.length).map (·.used) } f k = 0 := hnone
      rw [htotal, htotal]
      dsimp only
      exact ⟨by omega, hres, by omega⟩
    · rw [List.getElem?_append_left (by omega)] at hu
      obtain ⟨b, hb⟩ : ∃ b, s.watch.mgr.budgets[k]? = some b :=
        ⟨_, List.getElem?_eq_getElem (by rw [← h.initial]; omega)⟩
      obtain ⟨x, hx, hrenewed⟩ := hrenews.budgets k b hb
      rw [hb', Option.some.injEq] at hx
      subst hx
      obtain ⟨h1, h2, h3⟩ := h.budgets k b u hb hu
      have hgrant := hrenewed.grant
      exact ⟨hrenewed.used.trans h1, hrenewed.reserved.trans h2, by
        rw [hrenewed.used, hrenewed.reserved]; omega⟩
  · obtain ⟨conn, d, b, hc, hd⟩ := h.conns l hl k hk
    obtain ⟨conn', d', b', hc', hd'⟩ :=
      connection_stays (Watch.stays_step h.inv now op) hlen hc
    exact ⟨conn', d', b', hc', hd'.trans hd⟩

lemma Accounts.exec (h : Accounts s) {x : Meets} {o : DataOp} {r : o.Reply}
    (hguard : Guard i o s) (hexec : exec i x s o = some (r, s')) : Accounts s' := by
  cases o with
  | connRead size =>
    simp only [DataPath.exec] at hexec
    split_ifs at hexec
    cases hexec
    exact h
  | connWrite n =>
    simp only [DataPath.exec] at hexec
    split_ifs at hexec
    cases hexec
    exact h.send hguard
  | packetRead =>
    cases hexec
    exact h.packetRead hguard _
  | packetWrite | deliver =>
    cases hexec
    exact h.send hguard
  | reserve want whole =>
    obtain ⟨l, hl, hs, hopen, hb⟩ := hguard
    simp only [DataPath.exec, hl] at hexec
    cases hexec
    exact h.reserve hl hs hopen hb want whole x.now
  | finish reserved used =>
    obtain ⟨l, hl, hr, hb, hu, hle⟩ := hguard
    simp only [DataPath.exec, hl] at hexec
    cases hexec
    exact h.finish hl hr hb hu hle x.now
  | ret r =>
    cases hexec
    exact h.ret hguard
  | control op =>
    cases hexec
    exact h.control x.now hguard

lemma exec_modify {x : Meets} {o : DataOp} {r : o.Reply}
    (hexec : exec i x s o = some (r, s')) : ∃ f, s'.ledgers = s.ledgers.modify i f := by
  have hsame : s.ledgers = s.ledgers.modify i id := (List.modify_id i s.ledgers).symm
  cases o with
  | connRead size =>
    simp only [exec] at hexec
    split_ifs at hexec
    cases hexec
    exact ⟨_, hsame⟩
  | connWrite n =>
    simp only [exec] at hexec
    split_ifs at hexec
    cases hexec
    exact ⟨_, rfl⟩
  | packetRead | packetWrite | deliver | ret =>
    cases hexec
    exact ⟨_, rfl⟩
  | reserve | finish =>
    obtain ⟨l, -, h⟩ := Option.map_eq_some_iff.mp hexec
    cases h
    exact ⟨_, rfl⟩
  | control op =>
    cases hexec
    exact ⟨_, hsame⟩

end DataPath

end SbEasy
