import SbEasy.EngineTurn

/-!
Runs of the engine's manager: what its operations leave of budgets, devices and connections, and
until when a connection may reserve bytes.
-/

namespace SbEasy

open Rows

namespace Manager

variable {m : Manager} {c : ℕ} {conn : EngineConn} {d : EngineDevice} {b : EngineBudget}

lemma connection_some (h : m.connection c = some (conn, d, b)) :
    m.conns[c]? = some conn ∧ m.devices[conn.device]? = some d ∧ m.budgets[d.budget]? = some b := by
  simp only [connection, Option.bind_eq_bind, Option.bind_eq_some_iff, Option.pure_def,
    Option.some.injEq, Prod.mk.injEq] at h
  obtain ⟨conn', hconn, d', hd, b', hb, rfl, rfl, rfl⟩ := h
  exact ⟨hconn, hd, hb⟩

lemma reserve_pos {c want : ℕ} {whole : Bool} {now : ℤ} (hconn : m.connection c = some (conn, d, b))
    (h : (m.reserve c want whole now).2 ≠ 0) : d.active = true ∧ now < d.deadline := by
  unfold reserve at h
  rw [hconn] at h
  dsimp only at h
  split_ifs at h with hdenied
  · exact absurd rfl h
  · exact absurd rfl h
  all_goals
    simp only [Bool.or_eq_true, not_or, Bool.not_eq_true', Bool.not_eq_false, decide_eq_true_eq,
      not_le] at hdenied
    exact ⟨hdenied.1.1.2, hdenied.2⟩

variable [Platform]

/-- Everything that `begin` can do. -/
lemma begin_cases (m : Manager) (data : Bytes) (now : ℤ) :
    ((m.begin data now).1 = m.stop ∧ (m.begin data now).2 ≠ none) ∨
    ∃ r, proxyDecode decodeRequest requestShape data = some r ∧ 1 ≤ r.seq ∧ r.seq = m.seq + 1 ∧
      (m.begin data now).2 = none ∧
      ((m.pending.seq ≠ r.seq ∧ (m.begin data now).1 = { m with
          pending := r, pendingHash := Platform.sha256 data, pendingStart := now, boot := r.boot }) ∨
        (m.pending.seq = r.seq ∧ (m.begin data now).1 = { m with boot := r.boot })) := by
  unfold begin
  cases hdecode : proxyDecode decodeRequest requestShape data with
  | none => exact .inl ⟨rfl, nofun⟩
  | some r =>
    dsimp only
    split_ifs with hfields hturn hnew hclock
    · exact .inl ⟨rfl, nofun⟩
    · exact .inl ⟨rfl, nofun⟩
    · exact .inl ⟨rfl, nofun⟩
    all_goals
      simp only [Bool.or_eq_true, not_or, decide_eq_true_eq, not_not, not_lt] at hfields hturn
      refine .inr ⟨r, rfl, hfields.1.1.2, hturn.1.2, rfl, ?_⟩
    · exact .inl ⟨hnew, rfl⟩
    · exact .inr ⟨not_not.mp hnew, rfl⟩

/-- Everything that `apply` can do before it turns to the listener. -/
lemma apply_cases (m : Manager) (data : Bytes) (now : ℤ) :
    (m.apply data now).1 = m.stop ∨ (m.apply data now).1 = m ∨
    ∃ p, proxyDecode decodePolicy policyShape data = some p ∧ validateProxyPolicy p = true ∧
      p.seq = m.pending.seq ∧ p.seq = m.seq + 1 ∧
      ((m.apply data now).1 =
          { m with host := p.host, seq := p.seq, appliedHash := Platform.sha256 data }.stop ∨
        (∃ added, budgetCheck m.budgets (p.users.getD []) = some added) ∧ (m.apply data now).1 =
          (install { m with host := p.host, seq := p.seq, appliedHash := Platform.sha256 data }
            p now).1) := by
  unfold apply
  cases hdecode : proxyDecode decodePolicy policyShape data with
  | none => exact .inl rfl
  | some p =>
    dsimp only
    by_cases hvalid : (!validateProxyPolicy p) = true
    · rw [if_pos hvalid]
      exact .inl rfl
    rw [if_neg hvalid]
    by_cases hturn : (p.boot != m.boot || (m.host != [] && p.host != m.host) ||
        decide (p.seq ≠ m.pending.seq) || decide (m.pendingStart ≤ 0)) = true
    · rw [if_pos hturn]
      exact .inl rfl
    rw [if_neg hturn]
    by_cases hsame : p.seq = m.seq
    · rw [if_pos hsame]
      split_ifs
      · exact .inr (.inl rfl)
      · exact .inl rfl
    rw [if_neg hsame]
    by_cases hnext : p.seq ≠ m.seq + 1
    · rw [if_pos hnext]
      exact .inl rfl
    rw [if_neg hnext]
    simp only [Bool.or_eq_true, not_or, decide_eq_true_eq, not_not] at hturn
    refine .inr (.inr ⟨p, rfl, by simpa using hvalid, hturn.1.2, not_not.mp hnext, ?_⟩)
    split
    · exact .inl rfl
    · rename_i added hcheck
      split_ifs
      · exact .inl rfl
      · exact .inr ⟨⟨added, hcheck⟩, rfl⟩

/-- `apply` with a text that was applied before changes nothing, or stops. -/
lemma apply_again {m : Manager} {data : Bytes} {p : GoPolicy}
    (hdecode : proxyDecode decodePolicy policyShape data = some p) (hseq : p.seq ≤ m.seq) (now : ℤ) :
    Calm Rests m (m.apply data now).1 := by
  rcases apply_cases m data now with h | h | ⟨p', hp', -, -, hnext, -⟩
  · rw [h]
    exact (quiet_stop m).calm
  · rw [h]
    exact .refl m
  · rw [hdecode, Option.some.injEq] at hp'
    subst hp'
    omega

end Manager

open Manager

/-- What can happen to the manager. `apply` gives the lock back before it turns to the listener;
`serve` is the rest of it. -/
inductive EngineOp
  | begin (data : Bytes)
  | apply (data : Bytes)
  | serve (node : GoNode) (replace : Bool) (listener : Listener)
  | stop
  | expire
  | attach (token : Bytes) (ingress : Option ℕ)
  | reserve (conn want : ℕ) (whole : Bool)
  | authorized (conn : ℕ)
  | finish (conn : ℕ) (reserved used : ℤ)
  | close (conn : ℕ)
  | acknowledge (data : Bytes)
  deriving DecidableEq

namespace DataPath

/-- The operations that only calls perform. -/
def isPayment : EngineOp → Bool
  | .reserve _ _ _ => true
  | .finish _ _ _ => true
  | _ => false

end DataPath

open DataPath

/-- The manager, with the requests that were begun and the policies whose turn it was. -/
structure Watch where
  mgr : Manager := {}
  /-- The sequence number of a request and the time, for each `begin` that succeeded. -/
  begins : List (ℤ × ℤ) := []
  applied : List (Bytes × GoPolicy) := []

namespace Watch

/-- The time of the first successful `begin` of a sequence number. -/
def firstBegin (w : Watch) (seq : ℤ) : Option ℤ := (w.begins.find? (·.1 == seq)).map (·.2)

variable {w : Watch}

lemma firstBegin_append {seq start : ℤ} (h : w.firstBegin seq = some start)
    (more : List (ℤ × ℤ)) (m : Manager) :
    firstBegin { w with mgr := m, begins := w.begins ++ more } seq = some start := by
  obtain ⟨x, hx, hstart⟩ := Option.map_eq_some_iff.mp h
  rw [firstBegin, List.find?_append, hx]
  simpa using hstart

/-- Devices out of the map stay out, and connections stay with their devices. -/
structure Stays (m m' : Manager) : Prop where
  devices : Rows.Grows Follows m.devices m'.devices
  conns : Rows.Grows SameConn m.conns m'.conns

lemma Stays.of_calm {R : EngineBudget → EngineBudget → Prop} {m m' : Manager} (h : Calm R m m') :
    Stays m m' :=
  ⟨(grows_of_forall₂ h.devices).mono fun _ _ => Fades.follows, h.conns⟩

lemma Stays.refl (m : Manager) : Stays m m := .of_calm (.refl m)

lemma Stays.trans {m₁ m₂ m₃ : Manager} (h : Stays m₁ m₂) (h' : Stays m₂ m₃) : Stays m₁ m₃ :=
  ⟨h.devices.trans Follows.trans h'.devices,
    h.conns.trans (fun hab hbc => ⟨hbc.device.trans hab.device⟩) h'.conns⟩

variable [Platform]

/-- The sequence number of a request. -/
def requestSeq (data : Bytes) : ℤ :=
  ((proxyDecode decodeRequest requestShape data).map (·.seq)).getD 0

/-- A policy whose turn it is: `apply` records its sequence number. -/
def taken (m : Manager) (data : Bytes) (now : ℤ) : List (Bytes × GoPolicy) :=
  match proxyDecode decodePolicy policyShape data with
  | none => []
  | some p => if (m.apply data now).1.seq = m.seq then [] else [(data, p)]

/-- One operation, at a reading of the clock. -/
def step (w : Watch) (now : ℤ) : EngineOp → Watch
  | .begin data =>
    { w with
      mgr := (w.mgr.begin data now).1
      begins := w.begins ++ (if (w.mgr.begin data now).2 = none then [(requestSeq data, now)] else []) }
  | .apply data =>
    { w with mgr := (w.mgr.apply data now).1, applied := w.applied ++ taken w.mgr data now }
  | .serve node replace listener => { w with mgr := (w.mgr.serve node replace listener).1 }
  | .stop => { w with mgr := w.mgr.stop }
  | .expire => { w with mgr := w.mgr.expire now }
  | .attach token ingress => { w with mgr := (w.mgr.attach token ingress now).1 }
  | .reserve conn want whole => { w with mgr := (w.mgr.reserve conn want whole now).1 }
  | .authorized _ => w
  | .finish conn reserved used => { w with mgr := w.mgr.finish conn reserved used }
  | .close conn => { w with mgr := w.mgr.close conn }
  | .acknowledge data => { w with mgr := (w.mgr.acknowledge data).1 }

def run (w : Watch) (ops : List (ℤ × EngineOp)) : Watch :=
  ops.foldl (fun w op => w.step op.1 op.2) w

/-! ### The invariant -/

/-- A device in the map stands in the latest policy, with the deadline that follows from it. -/
def Listed (w : Watch) (d : EngineDevice) : Prop :=
  ∃ before data p start, w.applied = before ++ [(data, p)] ∧ w.firstBegin p.seq = some start ∧
    Placed p start w.mgr.budgets d

structure Inv (w : Watch) : Prop where
  seq : 0 ≤ w.mgr.seq
  pending : w.mgr.seq ≤ w.mgr.pending.seq ∧ w.mgr.pending.seq ≤ w.mgr.seq + 1
  begun : ∀ x ∈ w.begins, x.1 ≤ w.mgr.pending.seq
  started : w.mgr.pending.seq ≠ 0 → w.firstBegin w.mgr.pending.seq = some w.mgr.pendingStart
  applied : ∀ x ∈ w.applied, proxyDecode decodePolicy policyShape x.1 = some x.2 ∧
    x.2.seq ≤ w.mgr.seq
  named : ∀ d ∈ w.mgr.devices, Named d
  active : ∀ d ∈ w.mgr.devices, d.active = true → d.linked = true
  linked : ∀ d ∈ w.mgr.devices, d.linked = true → w.Listed d

lemma inv_new : Inv {} := by
  refine ⟨le_rfl, ⟨le_rfl, by decide⟩, by simp, fun h => absurd rfl h, by simp, by simp, by simp, by simp⟩

variable {m : Manager} {p : GoPolicy} {data : Bytes} {now : ℤ} {c : ℕ} {conn : EngineConn}
  {d : EngineDevice} {b : EngineBudget}

lemma Inv.quiet (h : Inv w) (hquiet : Quiet Spends w.mgr m) : Inv { w with mgr := m } := by
  obtain ⟨hsame, hcalm⟩ := hquiet
  have hold : ∀ d' ∈ m.devices, ∃ d ∈ w.mgr.devices, Fades d d' := by
    intro d' hd'
    obtain ⟨i, hi⟩ := List.getElem?_of_mem hd'
    obtain ⟨d, hd, hfades⟩ := row_of_forall₂ hcalm.devices hi
    exact ⟨d, List.mem_of_getElem? hd, hfades⟩
  refine ⟨by rw [hsame.seq]; exact h.seq, by rw [hsame.seq, hsame.pending]; exact h.pending,
    by rw [hsame.pending]; exact h.begun, by rw [hsame.pending, hsame.pendingStart]; exact h.started,
    by rw [hsame.seq]; exact h.applied, fun d' hd' => ?_, fun d' hd' ha => ?_, fun d' hd' hl => ?_⟩
  · obtain ⟨d, hd, hfades⟩ := hold d' hd'
    obtain ⟨gd, hgd, hid, htoken⟩ := h.named d hd
    exact ⟨gd, hgd, hfades.id.trans hid, hfades.token.trans htoken⟩
  · obtain ⟨d, hd, hfades⟩ := hold d' hd'
    obtain ⟨hactive, hlinked⟩ := hfades.active ha
    rw [hlinked]
    exact h.active d hd hactive
  · obtain ⟨d, hd, hfades⟩ := hold d' hd'
    obtain ⟨before, data, p, start, happlied, hbegin, u, gd, b, hb, hlists, hdeadline⟩ :=
      h.linked d hd (hfades.linked hl)
    obtain ⟨b', hb', hspends⟩ := grows_of_forall₂ hcalm.budgets _ b hb
    refine ⟨before, data, p, start, happlied, hbegin, u, gd, b', by rw [hfades.budget]; exact hb',
      ⟨hlists.user, hlists.device, by rw [hspends.id]; exact hlists.lease,
        by rw [hfades.id]; exact hlists.id, by rw [hfades.token]; exact hlists.token⟩,
      by rw [hfades.deadline]; exact hdeadline⟩

/-- The first `begin` of a sequence number is the one that sets the start. -/
lemma firstBegin_new (h : Inv w) {seq : ℤ} (hseq : seq = w.mgr.seq + 1)
    (hnew : w.mgr.pending.seq ≠ seq) (now : ℤ) (m : Manager) :
    firstBegin { w with mgr := m, begins := w.begins ++ [(seq, now)] } seq = some now := by
  have hnone : w.begins.find? (·.1 == seq) = none := by
    rw [List.find?_eq_none]
    intro x hx
    have hle := h.begun x hx
    have hpending := h.pending
    simp only [beq_iff_eq]
    omega
  rw [firstBegin, List.find?_append, hnone]
  simp

lemma Inv.begin (h : Inv w) (now : ℤ) (data : Bytes) : Inv (w.step now (.begin data)) := by
  unfold step
  dsimp only
  rcases begin_cases w.mgr data now with ⟨hstop, herr⟩ | ⟨r, hr, hpos, hseq, hok, hnext⟩
  · rw [hstop, if_neg herr, List.append_nil]
    exact h.quiet (quiet_stop _).spends
  · have hrequest : requestSeq data = r.seq := by rw [requestSeq, hr]; rfl
    rw [hok, if_pos rfl, hrequest]
    rcases hnext with ⟨hnew, hm⟩ | ⟨hagain, hm⟩
    · have hbound := h.pending
      rw [hm]
      refine ⟨h.seq, by dsimp only; omega, ?_, fun _ => ?_, h.applied, h.named, h.active, ?_⟩
      · intro x hx
        rcases List.mem_append.mp hx with hx | hx
        · have hle := h.begun x hx
          dsimp only
          omega
        · rw [List.mem_singleton.mp hx]
      · exact firstBegin_new h hseq hnew now _
      · intro d hd hl
        obtain ⟨before, data, p, start, happlied, hbegin, hplaced⟩ := h.linked d hd hl
        exact ⟨before, data, p, start, happlied, firstBegin_append hbegin _ _, hplaced⟩
    · rw [hm]
      refine ⟨h.seq, h.pending, ?_, fun hne => firstBegin_append (h.started hne) _ _, h.applied, h.named,
        h.active, ?_⟩
      · intro x hx
        rcases List.mem_append.mp hx with hx | hx
        · exact h.begun x hx
        · rw [List.mem_singleton.mp hx]
          exact hagain.ge
      · intro d hd hl
        obtain ⟨before, data, p, start, happlied, hbegin, hplaced⟩ := h.linked d hd hl
        exact ⟨before, data, p, start, happlied, firstBegin_append hbegin _ _, hplaced⟩

lemma Inv.installed (h : Inv w) (hvalid : validateProxyPolicy p = true) {added : ℕ}
    (hcheck : budgetCheck w.mgr.budgets (p.users.getD []) = some added) (hash : Bytes) (now : ℤ) :
    Installed p w.mgr
      (install { w.mgr with host := p.host, seq := p.seq, appliedHash := hash } p now).1 := by
  have hinst := install_installed (validateProxyPolicy_sound hvalid) (m := { w.mgr with
    host := p.host, seq := p.seq, appliedHash := hash }) hcheck h.named h.active now
  exact ⟨hinst.budgets, hinst.fresh, hinst.conns, hinst.devices, hinst.named, hinst.linked,
    hinst.active⟩

/-- What `apply` has taken, in the cases of `apply_cases`. -/
lemma taken_of_seq (h : (m.apply data now).1.seq = m.seq) : taken m data now = [] := by
  unfold taken
  split
  · rfl
  · rw [if_pos h]

lemma taken_of_next (hp : proxyDecode decodePolicy policyShape data = some p)
    (h : (m.apply data now).1.seq = m.seq + 1) : taken m data now = [(data, p)] := by
  unfold taken
  rw [hp]
  dsimp only
  rw [if_neg (by omega)]

lemma Inv.apply (h : Inv w) (now : ℤ) (data : Bytes) : Inv (w.step now (.apply data)) := by
  unfold step
  dsimp only
  rcases apply_cases w.mgr data now with hm | hm | ⟨p, hp, hvalid, hpending, hseq, hm⟩
  · rw [taken_of_seq (by rw [hm]; rfl), hm, List.append_nil]
    exact h.quiet (quiet_stop _).spends
  · rw [taken_of_seq (by rw [hm]), hm, List.append_nil]
    exact h
  · obtain ⟨m₁, hm₁⟩ : ∃ m₁ : Manager, m₁ = { w.mgr with
      host := p.host, seq := p.seq, appliedHash := Platform.sha256 data } := ⟨_, rfl⟩
    have hsame : Same m₁ (w.mgr.apply data now).1 := by
      rcases hm with hm | ⟨-, hm⟩
      · rw [hm, hm₁]
        exact same_stop _
      · rw [hm, hm₁]
        exact same_install _ _ _
    have hseq' : (w.mgr.apply data now).1.seq = p.seq := by rw [hsame.seq, hm₁]
    have happlied : ∀ x ∈ w.applied ++ [(data, p)],
        proxyDecode decodePolicy policyShape x.1 = some x.2 ∧ x.2.seq ≤ p.seq := by
      intro x hx
      rcases List.mem_append.mp hx with hx | hx
      · obtain ⟨hdecode, hle⟩ := h.applied x hx
        exact ⟨hdecode, by omega⟩
      · rw [List.mem_singleton.mp hx]
        exact ⟨hp, le_rfl⟩
    have hstarted := h.started (by have := h.seq; omega)
    rw [← hpending] at hstarted
    have hpend : (w.mgr.apply data now).1.pending = w.mgr.pending := by rw [hsame.pending, hm₁]
    have hstart : (w.mgr.apply data now).1.pendingStart = w.mgr.pendingStart := by
      rw [hsame.pendingStart, hm₁]
    rw [taken_of_next hp (by omega)]
    -- What is left are the devices: none in the map, or those of the policy.
    suffices hdevices : (∀ d ∈ (w.mgr.apply data now).1.devices, Named d) ∧
        (∀ d ∈ (w.mgr.apply data now).1.devices, d.active = true → d.linked = true) ∧
        ∀ d ∈ (w.mgr.apply data now).1.devices, d.linked = true →
          Placed p w.mgr.pendingStart (w.mgr.apply data now).1.budgets d by
      refine ⟨by rw [hseq']; have := h.seq; omega, by rw [hseq', hpend]; omega,
        by rw [hpend]; exact h.begun, fun _ => ?_, by rw [hseq']; exact happlied, hdevices.1,
        hdevices.2.1, fun d hd hl => ?_⟩
      · rw [hpend, hstart, ← hpending]
        exact hstarted
      · exact ⟨w.applied, data, p, _, rfl, hstarted, hdevices.2.2 d hd hl⟩
    rcases hm with hm | ⟨⟨added, hcheck⟩, hm⟩
    · rw [hm]
      have hstopped := h.quiet (quiet_stop w.mgr).spends
      refine ⟨hstopped.named, hstopped.active, fun d hd hl => ?_⟩
      obtain ⟨x, -, hx⟩ := List.mem_map.mp hd
      split_ifs at hx with hlinked
      · rw [← hx] at hl
        exact absurd hl (by simp)
      · rw [hx] at hlinked
        exact absurd hl hlinked
    · rw [hm]
      have hinst := h.installed hvalid hcheck (Platform.sha256 data) now
      exact ⟨hinst.named, hinst.active, hinst.linked⟩

lemma Inv.step (h : Inv w) (now : ℤ) (op : EngineOp) : Inv (w.step now op) := by
  cases op with
  | begin data => exact h.begin now data
  | apply data => exact h.apply now data
  | serve node replace listener => exact h.quiet (quiet_serve ..).spends
  | stop => exact h.quiet (quiet_stop _).spends
  | expire => exact h.quiet (quiet_expire ..).spends
  | attach token ingress => exact h.quiet (quiet_attach ..).spends
  | reserve conn want whole => exact h.quiet (quiet_reserve ..)
  | authorized conn => exact h
  | finish conn reserved used => exact h.quiet (quiet_finish ..)
  | close conn => exact h.quiet (quiet_close ..).spends
  | acknowledge data => exact h.quiet (quiet_acknowledge ..).spends

lemma Inv.run (h : Inv w) (ops : List (ℤ × EngineOp)) : Inv (w.run ops) := by
  induction ops generalizing w with
  | nil => exact h
  | cons op ops ih => exact ih (h.step op.1 op.2)

lemma step_calm (h : Inv w) (now : ℤ) (op : EngineOp) :
    (∃ p, Installed p w.mgr (w.step now op).mgr) ∨ Calm Rests w.mgr (w.step now op).mgr ∨
      (isPayment op = true ∧ Calm Spends w.mgr (w.step now op).mgr) := by
  have hsame := Calm.refl w.mgr
  have hstop := (quiet_stop w.mgr).calm
  cases op with
  | begin data =>
    refine .inr (.inl ?_)
    rcases begin_cases w.mgr data now with ⟨hm, -⟩ | ⟨r, -, -, -, -, ⟨-, hm⟩ | ⟨-, hm⟩⟩
    · rw [step, hm]
      exact hstop
    · rw [step, hm]
      exact ⟨hsame.budgets, hsame.devices, hsame.conns⟩
    · rw [step, hm]
      exact ⟨hsame.budgets, hsame.devices, hsame.conns⟩
  | apply data =>
    rcases apply_cases w.mgr data now with hm | hm | ⟨p, -, hvalid, -, -, hm | ⟨⟨added, hcheck⟩, hm⟩⟩
    · rw [step, hm]
      exact .inr (.inl hstop)
    · rw [step, hm]
      exact .inr (.inl hsame)
    · rw [step, hm]
      exact .inr (.inl ⟨hstop.budgets, hstop.devices, hstop.conns⟩)
    · rw [step, hm]
      exact .inl ⟨p, h.installed hvalid hcheck _ now⟩
  | serve node replace listener => exact .inr (.inl (quiet_serve ..).calm)
  | stop => exact .inr (.inl hstop)
  | expire => exact .inr (.inl (quiet_expire ..).calm)
  | attach token ingress => exact .inr (.inl (quiet_attach ..).calm)
  | reserve conn want whole => exact .inr (.inr ⟨rfl, (quiet_reserve ..).calm⟩)
  | authorized conn => exact .inr (.inl hsame)
  | finish conn reserved used => exact .inr (.inr ⟨rfl, (quiet_finish ..).calm⟩)
  | close conn => exact .inr (.inl (quiet_close ..).calm)
  | acknowledge data => exact .inr (.inl (quiet_acknowledge ..).calm)

lemma stays_step (h : Inv w) (now : ℤ) (op : EngineOp) : Stays w.mgr (w.step now op).mgr := by
  rcases step_calm h now op with ⟨p, hinst⟩ | hcalm | ⟨-, hcalm⟩
  · exact ⟨hinst.devices, by rw [hinst.conns]; exact (Stays.refl w.mgr).conns⟩
  · exact .of_calm hcalm
  · exact .of_calm hcalm

lemma stays_run (h : Inv w) (ops : List (ℤ × EngineOp)) : Stays w.mgr (w.run ops).mgr := by
  induction ops generalizing w with
  | nil => exact .refl _
  | cons op ops ih => exact (stays_step h op.1 op.2).trans (ih (h.step op.1 op.2))

/-! ### Authorisation windows -/

/-- What holds of the engine at every moment. -/
structure Windowed (w : Watch) : Prop where
  /-- Bytes are reserved before the end of the window that the latest policy gives the device,
  counted from the first `begin` of its sequence number. -/
  window : ∀ (c want : ℕ) (whole : Bool) (now : ℤ) (conn : EngineConn) (d : EngineDevice)
    (b : EngineBudget), w.mgr.connection c = some (conn, d, b) →
    (w.mgr.reserve c want whole now).2 ≠ 0 → ∃ before data p u gd start,
      w.applied = before ++ [(data, p)] ∧ Lists p u gd d b ∧ w.firstBegin p.seq = some start ∧
      now < start + (expiry u.lease gd - p.generated - 1) * 1000000000
  /-- A request begun again keeps its start. -/
  again : ∀ (now : ℤ) (data : Bytes), (w.firstBegin (requestSeq data)).isSome →
    (w.step now (.begin data)).firstBegin (requestSeq data) = w.firstBegin (requestSeq data) ∧
    (w.step now (.begin data)).mgr.pendingStart = w.mgr.pendingStart
  /-- A policy applied again makes nothing active. -/
  repeated : ∀ x ∈ w.applied, ∀ now : ℤ,
    List.Forall₂ (fun d d' : EngineDevice => d'.active = true → d.active = true)
      w.mgr.devices (w.step now (.apply x.1)).mgr.devices ∧
    List.Forall₂ (fun b b' : EngineBudget => b'.active = true → b.active = true)
      w.mgr.budgets (w.step now (.apply x.1)).mgr.budgets
  /-- A device that the latest policy does not list never reserves again. -/
  unlisted : ∀ (before : List (Bytes × GoPolicy)) (data : Bytes) (p : GoPolicy),
    w.applied = before ++ [(data, p)] →
    ∀ (i : ℕ) (d : EngineDevice) (b : EngineBudget), w.mgr.devices[i]? = some d →
    w.mgr.budgets[d.budget]? = some b → (∀ u gd, ¬ Lists p u gd d b) →
    ∀ (later : List (ℤ × EngineOp)) (c : ℕ) (conn : EngineConn),
      (w.run later).mgr.conns[c]? = some conn → conn.device = i →
      ∀ (want : ℕ) (whole : Bool) (now : ℤ), ((w.run later).mgr.reserve c want whole now).2 = 0

lemma Inv.window (h : Inv w) {c want : ℕ} {whole : Bool}
    (hconn : w.mgr.connection c = some (conn, d, b))
    (hpos : (w.mgr.reserve c want whole now).2 ≠ 0) : ∃ before data p u gd start,
      w.applied = before ++ [(data, p)] ∧ Lists p u gd d b ∧ w.firstBegin p.seq = some start ∧
      now < start + (expiry u.lease gd - p.generated - 1) * 1000000000 := by
  obtain ⟨hactive, hnow⟩ := reserve_pos hconn hpos
  obtain ⟨-, hd, hb⟩ := connection_some hconn
  have hmem := List.mem_of_getElem? hd
  obtain ⟨before, data, p, start, happlied, hbegin, u, gd, b', hb', hlists, hdeadline⟩ :=
    h.linked d hmem (h.active d hmem hactive)
  rw [hb, Option.some.injEq] at hb'
  subst hb'
  exact ⟨before, data, p, u, gd, start, happlied, hlists, hbegin, by rw [← hdeadline]; exact hnow⟩

lemma Inv.again (h : Inv w) (now : ℤ) (hbegun : (w.firstBegin (requestSeq data)).isSome) :
    (w.step now (.begin data)).firstBegin (requestSeq data) = w.firstBegin (requestSeq data) ∧
    (w.step now (.begin data)).mgr.pendingStart = w.mgr.pendingStart := by
  obtain ⟨start, hstart⟩ := Option.isSome_iff_exists.mp hbegun
  refine ⟨by rw [hstart]; exact firstBegin_append hstart _ _, ?_⟩
  rcases begin_cases w.mgr data now with ⟨hm, -⟩ | ⟨r, hr, -, hseq, -, ⟨hnew, -⟩ | ⟨-, hm⟩⟩
  · rw [Watch.step, hm]
    rfl
  · -- A new sequence number has not been begun.
    obtain ⟨x, hx, -⟩ := Option.map_eq_some_iff.mp hstart
    have hle := h.begun x (List.mem_of_find?_eq_some hx)
    have hxseq : x.1 = requestSeq data := by simpa using List.find?_some hx
    have hrequest : requestSeq data = r.seq := by rw [requestSeq, hr]; rfl
    have hbound := h.pending
    omega
  · rw [Watch.step, hm]

lemma Inv.unlisted (h : Inv w) {before : List (Bytes × GoPolicy)}
    (happlied : w.applied = before ++ [(data, p)]) {i : ℕ}
    (hd : w.mgr.devices[i]? = some d) (hb : w.mgr.budgets[d.budget]? = some b)
    (hnot : ∀ u gd, ¬ Lists p u gd d b) (later : List (ℤ × EngineOp))
    (hc : (w.run later).mgr.conns[c]? = some conn) (hi : conn.device = i) (want : ℕ) (whole : Bool)
    (now : ℤ) : ((w.run later).mgr.reserve c want whole now).2 = 0 := by
  have hmem := List.mem_of_getElem? hd
  have hout : d.linked = false := by
    by_contra hl
    obtain ⟨before', data', p', start, happlied', -, u, gd, b', hb', hlists, -⟩ :=
      h.linked d hmem (by simpa using hl)
    rw [happlied] at happlied'
    have hlast := (List.append_inj' happlied' rfl).2
    rw [List.singleton_inj, Prod.mk.injEq] at hlast
    obtain ⟨-, rfl⟩ := hlast
    rw [hb, Option.some.injEq] at hb'
    subst hb'
    exact hnot u gd hlists
  have hinactive : d.active = false := by
    by_contra ha
    rw [h.active d hmem (by simpa using ha)] at hout
    exact absurd hout (by simp)
  obtain ⟨d', hd', hfollows⟩ := (stays_run h later).devices i d hd
  by_contra hpos
  cases hconn : (w.run later).mgr.connection c with
  | none =>
    rw [reserve, hconn] at hpos
    exact hpos rfl
  | some x =>
    obtain ⟨conn', d'', b''⟩ := x
    obtain ⟨hc', hd'', -⟩ := connection_some hconn
    rw [hc, Option.some.injEq] at hc'
    subst hc'
    rw [hi, hd', Option.some.injEq] at hd''
    subst hd''
    have hgone := (hfollows.gone hout hinactive).2
    rw [(reserve_pos hconn hpos).1] at hgone
    exact absurd hgone (by simp)

/-- **Authorisation windows of the engine**, in every run from a new manager. -/
theorem run_windowed (ops : List (ℤ × EngineOp)) : Windowed (run {} ops) := by
  have h : Inv (run {} ops) := inv_new.run ops
  refine ⟨fun c want whole now conn d b hconn hpos => h.window hconn hpos,
    fun now data hbegun => h.again now hbegun, fun x hx now => ?_, ?_⟩
  · obtain ⟨hdecode, hseq⟩ := h.applied x hx
    have hcalm := apply_again hdecode hseq now
    exact ⟨hcalm.devices.imp fun _ _ hd hactive => (hd.active hactive).1,
      hcalm.budgets.imp fun _ _ hb => hb.spends.active⟩
  · intro before data p happlied i d b hd hb hnot later c conn hc hi want whole now
    exact h.unlisted happlied hd hb hnot later hc hi want whole now

end Watch

end SbEasy
