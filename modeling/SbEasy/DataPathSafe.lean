import SbEasy.DataPathRun

/-!
The methods of the data path ask for every operation in a state that meets its guard, so the accounts
hold in every run.
-/

namespace SbEasy

open Rows Manager

namespace DataPath

lemma getElem?_log {s : Data} {i : ℕ} {l : Ledger} (h : s.ledgers[i]? = some l)
    (f : Ledger → Ledger) : (s.ledgers.modify i f)[i]? = some (f l) := by
  rw [List.getElem?_modify_eq, h]
  rfl

/-- A call that has just begun. -/
structure Ledger.Fresh (l : Ledger) : Prop where
  reserved : l.reserved = []
  finished : l.finished = []
  sent : l.sent = []
  open_ : l.returned = false
  budget : l.budget.isSome

section

variable {l : Ledger}

lemma Ledger.Fresh.settled (h : l.Fresh) : l.Settled := by
  rw [Ledger.Settled, h.reserved, h.finished]
  rfl

lemma Ledger.Fresh.holding (h : l.Fresh) {a : ℤ} (ha : 0 < a) :
    Ledger.Holding { l with reserved := l.reserved ++ [a] } a :=
  ⟨ha, h.open_, by rw [h.settled]⟩

/-- What was reserved may leave at once. -/
lemma Ledger.Fresh.maySend (h : l.Fresh) {a : ℤ} (ha : 0 < a)
    (hwhole : Ledger.WholePackets { l with reserved := l.reserved ++ [a], sent := l.sent ++ [a] }) :
    Ledger.MaySend { l with reserved := l.reserved ++ [a] } a := by
  refine ⟨a, h.holding ha, ?_, hwhole⟩
  simp [Ledger.charged, h.finished, h.sent]

end

variable [Platform]

/-! ### The methods keep to the guards -/

open Prog (Triple)

/-- The calls as a team: each relies on its own ledger, and all on the accounts. -/
def team : Prog.Team Data DataOp DataOp.Reply where
  act i o s r s' := ∃ x, exec i x s o = some (r, s')
  rely i s s' := (Accounts s → Accounts s') ∧ s'.ledgers[i]? = s.ledgers[i]?
  inv := Accounts
  guard := Guard
  rely_refl _ _ := ⟨fun h => h, rfl⟩
  rely_trans _ _ _ _ h h' := ⟨fun hs => h'.1 (h.1 hs), h'.2.trans h.2⟩
  inv_rely _ _ _ hs h := h.1 hs
  kept _ _ _ _ _ _ hij _ hguard hact := by
    obtain ⟨x, hx⟩ := hact
    obtain ⟨f, hf⟩ := exec_modify hx
    exact ⟨fun h => h.exec hguard hx, by rw [hf, List.getElem?_modify_ne _ _ hij.symm]⟩

/-- The call has this ledger. -/
def At (i : ℕ) (l : Ledger) (s : Data) : Prop := Accounts s ∧ s.ledgers[i]? = some l

lemma stable_at (i : ℕ) (l : Ledger) : (team.setting i).Stable (At i l) :=
  fun _ _ hs hr => ⟨hr.1 hs.1, hr.2.trans hs.2⟩

/-- The call has paid for what it has reserved. -/
def Paid (i : ℕ) (s : Data) : Prop := ∃ l, l.Settled ∧ At i l s

section Operations

variable {i : ℕ} {l : Ledger} {E : Empty → Data → Prop}

lemma triple_op {o : DataOp} {Q : o.Reply → Data → Prop} (hguard : ∀ s, At i l s → Guard i o s)
    (hact : ∀ x s r s', At i l s → exec i x s o = some (r, s') → Accounts s' → Q r s') :
    Triple (team.setting i) (At i l) (Prog.perform o) Q E := by
  refine Prog.triple_perform (stable_at i l) (fun s hs => ⟨hs.1, hguard s hs⟩) ?_
  rintro s r s' hs ⟨x, hx⟩
  exact hact x s r s' hs hx (hs.1.exec (hguard s hs) hx)

lemma triple_connRead (size : ℕ) :
    Triple (team.setting i) (At i l) (connRead size) (fun _ => At i l) E := by
  refine triple_op (fun _ _ => trivial) fun x s r s' hs hx _ => ?_
  simp only [exec] at hx
  split_ifs at hx
  cases hx
  exact hs

lemma triple_packetRead (hsent : l.sent = []) :
    Triple (team.setting i) (At i l) packetRead
      (fun r s => At i (if r.err.isSome then l else { l with packets := l.packets ++ [r.n] }) s) E := by
  refine triple_op (fun s hs => ⟨l, hs.2, hsent⟩) fun x s r s' hs hx h => ⟨h, ?_⟩
  cases hx
  exact getElem?_log hs.2 _

lemma triple_send {o : DataOp} {n : ℤ} (hguard : ∀ s, At i l s → Guard i o s)
    (hexec : ∀ x s r s', exec i x s o = some (r, s') →
      s' = s.log i fun l => { l with sent := l.sent ++ [n] }) :
    Triple (team.setting i) (At i l) (Prog.perform o)
      (fun _ => At i { l with sent := l.sent ++ [n] }) E := by
  refine triple_op hguard fun x s r s' hs hx h => ⟨h, ?_⟩
  rw [hexec x s r s' hx]
  exact getElem?_log hs.2 _

lemma triple_deliver {n : ℤ} (hsend : l.MaySend n) :
    Triple (team.setting i) (At i l) (deliver n)
      (fun _ => At i { l with sent := l.sent ++ [n] }) E :=
  triple_send (fun _ hs => ⟨l, hs.2, hsend⟩) fun x s r s' hx => by cases hx; rfl

lemma triple_packetWrite {n : ℕ} (hsend : l.MaySend n) :
    Triple (team.setting i) (At i l) (packetWrite n)
      (fun _ => At i { l with sent := l.sent ++ [(n : ℤ)] }) E :=
  triple_send (fun _ hs => ⟨l, hs.2, hsend⟩) fun x s r s' hx => by cases hx; rfl

lemma triple_connWrite {n : ℤ} (hsend : l.MaySend n) :
    Triple (team.setting i) (At i l) (connWrite n)
      (fun _ => At i { l with sent := l.sent ++ [n] }) E :=
  triple_send (fun _ hs => ⟨l, hs.2, hsend⟩) fun x s r s' hx => by
    simp only [exec] at hx
    split_ifs at hx
    cases hx
    rfl

lemma triple_reserve (hs : l.Settled) (hopen : l.returned = false) (hb : l.budget.isSome) (want : ℕ)
    (whole : Bool) :
    Triple (team.setting i) (At i l) (reserve want whole)
      (fun a s => (a = 0 ∧ At i l s) ∨ ((0 < a ∧ a ≤ want ∧ (whole = true → a = want)) ∧
        At i { l with reserved := l.reserved ++ [a] } s)) E := by
  refine triple_op (fun s h => ⟨l, h.2, hs, hopen, hb⟩) fun x s r s' h hx haccounts => ?_
  simp only [exec, h.2] at hx
  cases hx
  have hget := getElem?_log h.2 fun x' => { x' with
    reserved := x'.reserved ++ (if (s.watch.mgr.reserve l.conn want whole x.now).2 = 0 then []
      else [(s.watch.mgr.reserve l.conn want whole x.now).2]) }
  rcases reserve_cases s.watch.mgr l.conn want whole x.now with
    hr | ⟨conn, d, b, a, -, hpos, hle, hwhole, -, hr⟩
  · refine .inl ⟨by rw [hr], haccounts, hget.trans ?_⟩
    rw [hr]
    simp
  · refine .inr ⟨by rw [hr]; exact ⟨hpos, hle, hwhole⟩, haccounts, hget.trans ?_⟩
    rw [hr]
    simp [hpos.ne']

lemma triple_finish {r u : ℤ} (hr : l.Holding r) (hb : l.budget.isSome)
    (hu : l.sent.sum ≤ l.charged + u) (hle : u ≤ r) :
    Triple (team.setting i) (At i l) (finish r u)
      (fun _ => At i { l with finished := l.finished ++ [(r, u)] }) E := by
  refine triple_op (fun s h => ⟨l, h.2, hr, hb, hu, hle⟩) fun x s r' s' h hx haccounts => ?_
  simp only [exec, h.2] at hx
  cases hx
  exact ⟨haccounts, getElem?_log h.2 _⟩

lemma triple_ret (r : Returned) :
    Triple (team.setting i) (Paid i) (ret r) (fun _ => Accounts) E := by
  refine Triple.exists fun l => Triple.assume fun hs => ?_
  exact triple_op (fun s h => ⟨l, h.2, hs⟩) fun _ _ _ _ _ _ h => h

end Operations

/-! ### The four methods -/

section Methods

variable {i : ℕ} {l : Ledger} {E : Empty → Data → Prop}

lemma triple_charge (h : l.Fresh) {a : ℤ} (ha : 0 < a) :
    Triple (team.setting i)
      (At i { l with reserved := l.reserved ++ [a], sent := l.sent ++ [a] }) (finish a a)
      (fun _ => Paid i) E := by
  have hholding : Ledger.Holding { l with reserved := l.reserved ++ [a], sent := l.sent ++ [a] } a :=
    ⟨ha, h.open_, by rw [h.settled]⟩
  refine (triple_finish hholding h.budget ?_ le_rfl).mono (fun _ hs => hs) (fun _ s hs => ⟨_, ?_, hs⟩)
    fun _ _ he => he
  · simp [Ledger.charged, h.finished, h.sent]
  · simp [Ledger.Settled, h.reserved, h.finished]

lemma triple_reserved (h : l.Fresh) {want : ℕ} {whole : Bool} {f : ℤ → DataProg Returned}
    (hrefused : Triple (team.setting i) (At i l) (f 0) (fun _ => Paid i) E)
    (hallowed : ∀ a : ℤ, 0 < a → a ≤ want → (whole = true → a = want) →
      Triple (team.setting i) (At i { l with reserved := l.reserved ++ [a] }) (f a)
        (fun _ => Paid i) E) :
    Triple (team.setting i) (At i l) (reserve want whole >>= f)
      (fun _ => Paid i) E := by
  refine (triple_reserve h.settled h.open_ h.budget want whole).bind fun a s hs => ?_
  rcases hs with ⟨rfl, hs⟩ | ⟨⟨ha, hle, hwhole⟩, hs⟩
  · exact hrefused s hs
  · exact hallowed a ha hle hwhole s hs

lemma triple_done (h : l.Fresh) (r : Returned) :
    Triple (team.setting i) (At i l) (pure r) (fun _ => Paid i) E :=
  Prog.triple_pure r fun _ hs => ⟨l, h.settled, hs⟩

lemma triple_settled (r : Returned) :
    Triple (team.setting i) (Paid i) (pure r)
      (fun _ => Paid i) E :=
  Prog.triple_pure r fun _ hs => hs

lemma triple_read (h : l.Fresh) {len : ℕ} (hcall : l.call = some (.read len)) :
    Triple (team.setting i) (At i l) (DataPath.read len)
      (fun _ => Paid i) E := by
  unfold DataPath.read
  refine Triple.ite (fun _ => triple_done h _) fun _ => ?_
  refine (triple_connRead _).bind fun r => Triple.ite (fun _ => triple_done h _) fun _ => ?_
  refine triple_reserved h ?_ fun a ha _ _ => ?_
  · exact triple_done h _
  · rw [if_neg ha.ne']
    have hsend := h.maySend ha (by simp [Ledger.WholePackets, hcall])
    refine (triple_deliver hsend).bind fun _ => (triple_charge h ha).bind fun _ => ?_
    exact Triple.ite (fun _ => triple_settled _) fun _ => triple_settled _

lemma triple_write (h : l.Fresh) {len : ℕ} (hcall : l.call = some (.write len)) :
    Triple (team.setting i) (At i l) (DataPath.write len)
      (fun _ => Paid i) E := by
  unfold DataPath.write
  refine Triple.ite (fun _ => triple_done h _) fun _ => ?_
  refine triple_reserved h ?_ fun a ha _ _ => ?_
  · exact triple_done h _
  · rw [if_neg ha.ne']
    have hsend := h.maySend ha (by simp [Ledger.WholePackets, hcall])
    refine (triple_connWrite hsend).bind fun r => ?_
    rw [chargedBytes_eq]
    refine (triple_charge h ha).bind fun _ => ?_
    exact Triple.ite (fun _ => triple_settled _) fun _ => triple_settled _

lemma triple_writePacket (h : l.Fresh) {n : ℕ} (hcall : l.call = some (.writePacket n)) :
    Triple (team.setting i) (At i l) (DataPath.writePacket n)
      (fun _ => Paid i) E := by
  unfold DataPath.writePacket
  refine triple_reserved h ?_ fun a ha hle hwhole => ?_
  · rw [if_pos (by omega)]
    exact triple_done h _
  · obtain rfl := hwhole rfl
    rw [if_neg (by omega)]
    have hsend := h.maySend ha (by simp [Ledger.WholePackets, hcall, h.sent])
    exact (triple_packetWrite hsend).bind fun _ => (triple_charge h ha).bind fun _ => triple_settled _

lemma triple_readPacket (h : l.Fresh) (hcall : l.call = some .readPacket) (hpackets : l.packets = []) :
    Triple (team.setting i) (At i l) DataPath.readPacket
      (fun _ => Paid i) E := by
  unfold DataPath.readPacket
  refine (triple_packetRead h.sent).bind fun r => ?_
  by_cases herr : r.err.isSome = true
  · rw [if_pos herr]
    simp only [herr, if_true]
    exact triple_done h _
  · rw [if_neg herr]
    simp only [herr]
    have h' : Ledger.Fresh { l with packets := l.packets ++ [r.n] } :=
      ⟨h.reserved, h.finished, h.sent, h.open_, h.budget⟩
    refine triple_reserved h' ?_ fun a ha hle hwhole => ?_
    · rw [if_pos (by omega)]
      exact triple_done h' _
    · obtain rfl := hwhole rfl
      rw [if_neg (by omega)]
      have hsend := h'.maySend ha (by simp [Ledger.WholePackets, hcall, h.sent, hpackets])
      exact (triple_deliver hsend).bind fun _ => (triple_charge h' ha).bind fun _ => triple_settled _

lemma triple_program (call : DataCall) (conn k : ℕ)
    (hl : l = ⟨conn, some k, some call, [], [], [], [], false⟩) :
    Triple (team.setting i) (At i l) call.program (fun _ => Accounts) E := by
  have h : l.Fresh := by
    subst hl
    exact ⟨rfl, rfl, rfl, rfl, rfl⟩
  have hcall : l.call = some call := by rw [hl]
  cases call with
  | read len => exact (triple_read h hcall).bind triple_ret
  | write len => exact (triple_write h hcall).bind triple_ret
  | readPacket => exact (triple_readPacket h hcall (by rw [hl])).bind triple_ret
  | writePacket n => exact (triple_writePacket h hcall).bind triple_ret

end Methods

/-! ### Runs -/

/-- How a program is started: with a ledger at the end of the list. -/
inductive Launch (s : Data) (i : ℕ) : DataProg Unit → Data → Prop
  | call {conn : ℕ} {call : DataCall} {c : EngineConn} {d : EngineDevice} {b : EngineBudget}
    (hi : i = s.ledgers.length) (hc : s.watch.mgr.connection conn = some (c, d, b)) :
    Launch s i call.program
      { s with ledgers := s.ledgers ++ [⟨conn, some d.budget, some call, [], [], [], [], false⟩] }
  | control {op : EngineOp} (hi : i = s.ledgers.length) (hop : isPayment op = false) :
    Launch s i (control op)
      { s with ledgers := s.ledgers ++ [⟨0, none, none, [], [], [], [], true⟩] }

lemma Accounts.launch {s : Data} (h : Accounts s) {l : Ledger} (hr : l.reserved = [])
    (hf : l.finished = []) (hsent : l.sent = [])
    (hconn : ∀ k, l.budget = some k → ∃ conn d b,
      s.watch.mgr.connection l.conn = some (conn, d, b) ∧ d.budget = k) :
    Accounts { s with ledgers := s.ledgers ++ [l] } := by
  have hcharged : l.charged = 0 := by simp [Ledger.charged, hf]
  have hheld : l.held = 0 := by simp [Ledger.held, hr, hf]
  refine ⟨h.inv, h.initial, fun k b u hb hu => ?_, fun x hx => ?_, fun x hx k hk => ?_⟩
  · rw [total_append s l _ hcharged, total_append s l _ hheld]
    exact h.budgets k b u hb hu
  · rcases List.mem_append.mp hx with hx | hx
    · exact h.ledgers x hx
    · rw [List.mem_singleton.mp hx]
      exact ⟨.inl (by rw [Ledger.Settled, hr, hf]; rfl), by simp [hsent, hcharged, hheld],
        Ledger.wholePackets_of_sent hsent⟩
  · rcases List.mem_append.mp hx with hx | hx
    · exact h.conns x hx k hk
    · rw [List.mem_singleton.mp hx] at hk ⊢
      exact hconn k hk

lemma launch_safe {s s' : Data} {i : ℕ} {p : DataProg Unit} (hlaunch : Launch s i p s')
    (h : Accounts s) : (∀ j, j ≠ i → team.rely j s s') ∧
      Prog.wp (team.setting i) p (fun _ => Accounts) (fun _ _ => True) s' := by
  have hothers : ∀ l : Ledger, ∀ j, i = s.ledgers.length → j ≠ i →
      (s.ledgers ++ [l])[j]? = s.ledgers[j]? := by
    rintro l j rfl hj
    rcases Nat.lt_or_gt_of_ne hj with hlt | hgt
    · exact List.getElem?_append_left hlt
    · rw [List.getElem?_eq_none (by simp; omega), List.getElem?_eq_none (by omega)]
  cases hlaunch with
  | @call conn call c d b hi hc =>
    have haccounts := h.launch
      (l := ⟨conn, some d.budget, some call, [], [], [], [], false⟩) rfl rfl rfl
      fun k hk => ⟨c, d, b, hc, Option.some.inj hk⟩
    refine ⟨fun j hj => ⟨fun _ => haccounts, hothers _ j hi hj⟩, ?_⟩
    refine triple_program call conn d.budget rfl _ ⟨haccounts, ?_⟩
    rw [hi]
    exact List.getElem?_concat_length
  | @control op hi hop =>
    have haccounts := h.launch (l := ⟨0, none, none, [], [], [], [], true⟩) rfl rfl rfl nofun
    refine ⟨fun j hj => ⟨fun _ => haccounts, hothers _ j hi hj⟩, fun s'' hs'' => ?_⟩
    refine ⟨hs''.1 haccounts, hop, fun r s₁ ha => ?_⟩
    obtain ⟨x, hx⟩ := ha
    exact (hs''.1 haccounts).exec (o := .control op) hop hx

/-- Safe, and the next number is free. -/
structure Sane (c : DataPool) : Prop where
  safe : c.Safe team
  free : ∀ i, c.state.ledgers.length ≤ i → c.programs i = none

lemma Sane.step {c : DataPool} (h : Sane c) (e : DataEvent) : Sane (step c e) := by
  have hnext : ∀ {c'}, Prog.Pool.Step team.act Launch c c' → c'.Safe team :=
    h.safe.step fun s i p s' hl hs => launch_safe hl hs
  obtain ⟨s, programs⟩ := c
  have hfree : ∀ (l : Ledger) (p : DataProg Unit) (i : ℕ), (s.ledgers ++ [l]).length ≤ i →
      Function.update programs s.ledgers.length (some p) i = none := by
    intro l p i hi
    rw [List.length_append, List.length_singleton] at hi
    rw [Function.update_of_ne (by omega)]
    exact h.free i (by dsimp only; omega)
  cases e with
  | call conn call =>
    unfold DataPath.step
    dsimp only
    cases hc : s.watch.mgr.connection conn with
    | none => exact h
    | some x =>
      obtain ⟨x, d, b⟩ := x
      exact ⟨hnext (.launched (h.free _ le_rfl) (.call rfl hc)), hfree _ _⟩
  | control op =>
    unfold DataPath.step
    dsimp only
    split_ifs with hop
    · exact h
    · exact ⟨hnext (.launched (h.free _ le_rfl) (.control rfl (by simpa using hop))), hfree _ _⟩
  | move i x =>
    unfold DataPath.step
    dsimp only
    split
    · rename_i o k hp
      split
      · exact h
      · rename_i r s' hexec
        refine ⟨hnext (.performed hp ⟨x, hexec⟩), fun j hj => ?_⟩
        dsimp only at hj ⊢
        obtain ⟨f, hf⟩ := exec_modify hexec
        rw [hf, List.length_modify] at hj
        have hij : j ≠ i := by
          rintro rfl
          have hnone : programs j = none := h.free j hj
          rw [hnone] at hp
          exact absurd hp (by simp)
        rw [Function.update_of_ne hij]
        exact h.free j hj
    · exact h

lemma sane_run (events : List DataEvent) : Sane (run events) := by
  induction events using List.reverseRecOn with
  | nil => exact ⟨⟨accounts_new, nofun⟩, fun _ _ => rfl⟩
  | append_singleton events e ih =>
    have hrun : run (events ++ [e]) = step (run events) e := by simp [run]
    rw [hrun]
    exact ih.step e

/-- What the accounts come to. -/
structure Accounted (s : Data) : Prop where
  /-- What leaves on a budget stays within its grant, less what was used when it was made. -/
  bound : ∀ (k : ℕ) (b : EngineBudget) (u : ℤ), s.watch.mgr.budgets[k]? = some b →
    s.initial[k]? = some u → s.total (fun l => l.sent.sum) k ≤ b.grant - u
  whole : ∀ l ∈ s.ledgers, l.WholePackets
  /-- Reservations are finished one by one with what was reserved; one may be open while the call
  is. -/
  matched : ∀ l ∈ s.ledgers, l.reserved = l.finished.map (·.1) ∨
    (l.returned = false ∧ ∃ r, l.reserved = l.finished.map (·.1) ++ [r])
  idle : ∀ (k : ℕ) (b : EngineBudget), s.watch.mgr.budgets[k]? = some b →
    (∀ l ∈ s.ledgers, l.budget = some k → l.returned = true) → b.reserved = 0
  /-- The budget is charged what the calls are charged, and no call less than has left by it. -/
  charged : (∀ (k : ℕ) (b : EngineBudget) (u : ℤ), s.watch.mgr.budgets[k]? = some b →
    s.initial[k]? = some u → b.used = u + s.total Ledger.charged k) ∧
    ∀ l ∈ s.ledgers, l.returned = true → l.sent.sum ≤ l.charged

lemma Accounts.accounted {s : Data} (h : Accounts s) : Accounted s := by
  refine ⟨fun k b u hb hu => ?_, fun l hl => (h.ledgers l hl).whole, fun l hl => ?_,
    fun k b hb hdone => ?_, fun k b u hb hu => (h.budgets k b u hb hu).1, fun l hl hret => ?_⟩
  · obtain ⟨hused, hreserved, hgrant⟩ := h.budgets k b u hb hu
    calc s.total (fun l => l.sent.sum) k
        ≤ s.total (fun l => l.charged + l.held) k :=
          total_le (fun l hl => (h.ledgers l hl).covered) k
      _ = s.total Ledger.charged k + s.total Ledger.held k := total_add s _ _ k
      _ ≤ b.grant - u := by omega
  · rcases (h.ledgers l hl).paid with hs | ⟨r, hr⟩
    · exact .inl hs
    · exact .inr ⟨hr.open_, r, hr.reserved⟩
  · obtain ⟨u, hu⟩ : ∃ u, s.initial[k]? = some u :=
      ⟨_, List.getElem?_eq_getElem (by rw [h.initial]; exact (List.getElem?_eq_some_iff.mp hb).1)⟩
    rw [(h.budgets k b u hb hu).2.1]
    exact total_eq_zero fun l hl hk => ((h.ledgers l hl).settled (hdone l hl hk)).held
  · have hcovered := (h.ledgers l hl).covered
    rw [((h.ledgers l hl).settled hret).held] at hcovered
    omega

/-- **Accounting of the data path**, in every run of any number of calls at once. -/
theorem run_accounted (events : List DataEvent) : Accounted (run events).state :=
  Accounts.accounted (sane_run events).safe.1

end DataPath

end SbEasy
