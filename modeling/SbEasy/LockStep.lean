import SbEasy.EngineTurn
import SbEasy.Identifiers

/-!
The runtime and the engine count the exchanges in lock-step: whenever no step is running, the
runtime's next sequence number is one more than the last one the engine has recorded.
-/

namespace SbEasy

open JsonParse

/-! ### The invariant -/

/-- The engine has recorded the response of the running step. -/
def Phase.recorded : Phase → Bool
  | .serving _ _ => true
  | .settled => true
  | _ => false

/-- The request of the running step has gone to the engine. -/
def Phase.sent : Phase → Bool
  | .idle => false
  | .prepared => false
  | _ => true

/-- A response that the runtime has accepted and is about to hand to the engine. -/
structure Due [Platform] (rt : Runtime) (raw : Bytes) (p : Policy) : Prop where
  good : p.Good
  names : p.For rt
  host : p.hostId = rt.host
  decode : proxyDecode decodePolicy policyShape (goString raw) = some p.toGo
  valid : validateProxyPolicy p.toGo = true

section

variable [Platform]

/-- The runtime and its engine are in step. -/
structure Locked (n : Node) : Prop where
  boot : proxyID n.rt.boot = true
  seq : 1 ≤ n.rt.sequence
  step : n.rt.sequence = n.mgr.seq + if n.phase.recorded then 0 else 1
  host : n.mgr.host = [] ∨ n.mgr.host = n.rt.host
  engineBoot : n.mgr.boot = [] ∨ n.mgr.boot = n.rt.boot
  pending : ∀ p ∈ n.rt.pending, ∃ rs, p.Holds n.rt.boot n.rt.sequence rs
  busy : n.phase ≠ .idle ∨ n.rt.begun = true → n.rt.pending.isSome = true
  begun : n.rt.begun = true → n.mgr.pending.seq = n.rt.sequence ∧ n.mgr.boot = n.rt.boot ∧
    0 < n.mgr.pendingStart
  fresh : n.rt.begun = false → n.mgr.pending.seq < n.rt.sequence
  sent : n.phase.sent = true → n.rt.begun = true
  due : ∀ raw, n.phase = .accepted raw → ∃ p, Due n.rt raw p

namespace Locked

variable {n n' : Node}

lemma frame (h : Locked n) (hm : n.mgr.Same n'.mgr) (hboot : n'.rt.boot = n.rt.boot)
    (hseq : n'.rt.sequence = n.rt.sequence) (hpending : n'.rt.pending = n.rt.pending)
    (hbegun : n'.rt.begun = n.rt.begun) (hhost : n.mgr.host = [] ∨ n'.rt.host = n.rt.host)
    (hrecorded : n'.phase.recorded = n.phase.recorded)
    (hbusy : n'.phase ≠ .idle → n.rt.pending.isSome = true)
    (hsent : n'.phase.sent = true → n.rt.begun = true)
    (hdue : ∀ raw, n'.phase = .accepted raw → ∃ p, Due n'.rt raw p) : Locked n' := by
  refine ⟨?_, ?_, ?_, ?_, ?_, ?_, ?_, ?_, ?_, ?_, hdue⟩
  · rw [hboot]; exact h.boot
  · rw [hseq]; exact h.seq
  · rw [hseq, hm.seq, hrecorded]; exact h.step
  · rw [hm.host]
    rcases hhost with he | he
    · exact Or.inl he
    · rw [he]; exact h.host
  · rw [hm.boot, hboot]; exact h.engineBoot
  · rw [hpending, hboot, hseq]; exact h.pending
  · rw [hpending, hbegun]
    exact fun hb => hb.elim hbusy fun hb => h.busy (Or.inr hb)
  · rw [hbegun, hm.pending, hm.boot, hm.pendingStart, hseq, hboot]; exact h.begun
  · rw [hbegun, hm.pending, hseq]; exact h.fresh
  · rw [hbegun]; exact hsent

lemma engine (h : Locked n) {m : Manager} (hm : n.mgr.Same m) : Locked { n with mgr := m } :=
  h.frame hm rfl rfl rfl rfl (Or.inr rfl) rfl (fun hp => h.busy (Or.inl hp)) h.sent h.due

lemma abandon (h : Locked n) (hm : n.mgr.Same n'.mgr) (hboot : n'.rt.boot = n.rt.boot)
    (hseq : n'.rt.sequence = n.rt.sequence) (hpending : n'.rt.pending = n.rt.pending)
    (hbegun : n'.rt.begun = n.rt.begun) (hhost : n.mgr.host = [] ∨ n'.rt.host = n.rt.host)
    (hphase : n.phase.recorded = false) (hidle : n'.phase = .idle) : Locked n' := by
  refine h.frame hm hboot hseq hpending hbegun hhost ?_ ?_ ?_ ?_ <;> rw [hidle]
  · exact hphase.symm
  · exact fun hne => absurd rfl hne
  · intro hs; cases hs
  · intro raw hr; cases hr

lemma pendingRequest (h : Locked n) (hphase : n.phase = .idle) : Locked n.pendingRequest := by
  unfold Node.pendingRequest
  split_ifs with hsome hlast
  · refine h.frame (.refl _) rfl rfl rfl rfl (Or.inr rfl) ?_ (fun _ => hsome) ?_ ?_
    · rw [hphase]; rfl
    · intro hs; cases hs
    · intro raw hr; cases hr
  · exact h
  · split
    · exact h.engine n.mgr.same_stop
    · rename_i reports hcounters
      dsimp only
      split_ifs with hvalid hlong
      · exact h.engine n.mgr.same_stop
      · exact h
      · have hwf : reports.Wf := by
          unfold Node.counters at hcounters
          split_ifs at hcounters
          cases hparse : sbjParseStrict n.mgr.stats with
          | error e => rw [hparse] at hcounters; cases hcounters
          | ok v =>
            rw [hparse] at hcounters
            cases hcounters
            exact (sbjParseStrict_fits hparse).1
        obtain ⟨rs, rfl, hgood⟩ := (reportsValid_iff hwf).mp (by simpa using hvalid)
        have hnone : n.rt.begun = false := by
          by_contra hb
          exact hsome (h.busy (Or.inr (by simpa using hb)))
        have hstep := h.step
        rw [hphase] at hstep
        refine ⟨h.boot, h.seq, hstep, h.host, h.engineBoot, ?_, fun _ => rfl, ?_, h.fresh, ?_, ?_⟩
        · intro p hp
          cases hp
          exact ⟨rs, hgood, rfl, rfl, by simpa using hlong, h.boot, h.seq, not_lt.mp hlast⟩
        · intro hb
          rw [hnone] at hb
          cases hb
        · intro hs; cases hs
        · intro raw hr; cases hr

lemma start (h : Locked n) (stopping : Bool) : Locked (n.start stopping) := by
  unfold Node.start
  split
  · rename_i hphase
    split_ifs
    · exact h
    · exact h.pendingRequest hphase
  · exact h

lemma begin' (h : Locked n) (ms : ℤ) {now : ℤ} (hclock : now ≠ 0) : Locked (n.begin ms now) := by
  unfold Node.begin
  split
  · rename_i pending hphase hpending
    have hrec : n.phase.recorded = false := by rw [hphase]; rfl
    split_ifs with hbegun hms
    · refine h.frame (.refl _) rfl rfl rfl rfl (Or.inr rfl) ?_ ?_ (fun _ => hbegun) ?_
      · rw [hrec]; rfl
      · intro _; rw [hpending]; rfl
      · intro raw hr; cases hr
    · exact h.abandon n.mgr.same_stop rfl rfl rfl rfl (Or.inr rfl) hrec rfl
    · obtain ⟨rs, hp⟩ := h.pending pending hpending
      have hstep := h.step
      rw [hrec] at hstep
      have hbegun' : n.rt.begun = false := by simpa using hbegun
      have hdue := Manager.begin_due hp.decode ⟨rfl, h.boot, hp.seq.1, hp.seq.2, hp.good.valid⟩
        h.engineBoot hstep (h.fresh hbegun') now
      split
      · rename_i m e hbegin
        rw [hbegin] at hdue
        rcases hdue with ⟨-, hsame⟩ | ⟨hnone, -⟩
        · exact h.abandon hsame rfl rfl rfl rfl (Or.inr rfl) hrec rfl
        · cases hnone
      · rename_i m hbegin
        rw [hbegin] at hdue
        rcases hdue with ⟨herr, -⟩ | ⟨-, hnow, h1, h2, h3, h4, h5⟩
        · cases herr
        · dsimp only at h1 h2 h3 h4 h5
          refine ⟨h.boot, h.seq, ?_, ?_, Or.inr h1, h.pending, ?_, ?_, ?_, fun _ => rfl, ?_⟩
          · rw [h3]; exact hstep
          · rw [h2]; exact h.host
          · intro _; rw [hpending]; rfl
          · intro _
            exact ⟨by rw [h4], h1, by rw [h5]; omega⟩
          · intro hb; cases hb
          · intro raw hr; cases hr
  · exact h

lemma in_range (h : Locked n) (hphase : n.phase ≠ .idle) :
    1 ≤ n.rt.sequence ∧ n.rt.sequence ≤ safeInteger := by
  obtain ⟨p, hp⟩ := Option.isSome_iff_exists.mp (h.busy (Or.inl hphase))
  obtain ⟨rs, hrs⟩ := h.pending p hp
  exact hrs.seq

/-- A response that passes `policy_valid` is one the engine will take. -/
lemma accepts (h : Locked n) (haddr : AddressesAgree) (hphase : n.phase ≠ .idle) {raw : Bytes}
    {policy : Option Sbj}
    (hpolicy : policy =
      if raw.length ≤ proxyPolicyLimit then (sbjParseStrict raw).toOption else none)
    (hvalid : policyValid n.rt policy = true) :
    ∃ p : Policy, policy = some p.toSbj ∧ p.Good ∧ p.For n.rt ∧
      proxyDecode decodePolicy policyShape (goString raw) = some p.toGo ∧
      validateProxyPolicy p.toGo = true := by
  subst hpolicy
  split_ifs at hvalid with hlen
  · rw [if_pos hlen]
    cases hparse : sbjParseStrict raw with
    | error e => rw [hparse] at hvalid; simp [policyValid, Except.toOption, Sbj.isObject] at hvalid
    | ok v =>
      rw [hparse] at hvalid
      obtain ⟨p, rfl, hgood, hfor, hdecode, hv⟩ :=
        accepted_by_engine haddr (h.in_range hphase) h.boot hlen hparse hvalid
      exact ⟨p, rfl, hgood, hfor, hdecode, hv⟩
  · simp [policyValid, Sbj.isObject] at hvalid

lemma host_learned {rt : Runtime} {p : Policy} (hgood : p.Good) (hfor : p.For rt) :
    (if rt.host.isEmpty then Sbj.getStr (some p.toSbj) (lit "host_id") [] else rt.host) =
      p.hostId := by
  split_ifs with hempty
  · rw [Sbj.getStr, p.get.2.1]
    exact cstr_of_proxyID hgood.hostId
  · rcases hfor.host with he | he
    · simp [he] at hempty
    · exact he.symm

lemma response (h : Locked n) (haddr : AddressesAgree) (raw : Option Bytes) (stopping : Bool)
    (ms : ℤ) : Locked (n.response raw stopping ms) := by
  unfold Node.response
  split
  · rename_i hphase
    exact h.abandon (.refl _) rfl rfl rfl rfl (Or.inr rfl) (by rw [hphase]; rfl) rfl
  · rename_i raw hphase
    have hrec : n.phase.recorded = false := by rw [hphase]; rfl
    have hbusy : n.phase ≠ .idle := by rw [hphase]; intro he; cases he
    generalize hpolicy : (if raw.length ≤ proxyPolicyLimit then (sbjParseStrict raw).toOption
      else none) = policy
    dsimp only
    by_cases hstop : stopping = true
    · rw [if_pos hstop]
      exact h.abandon (.refl _) rfl rfl rfl rfl (Or.inr rfl) hrec rfl
    rw [if_neg hstop]
    by_cases hvalid : policyValid n.rt policy = true
    · obtain ⟨p, rfl, hgood, hfor, hdecode, hv⟩ := h.accepts haddr hbusy hpolicy.symm hvalid
      have hhost : n.mgr.host = [] ∨ p.hostId = n.rt.host := by
        rcases hfor.host with he | he
        · exact Or.inl (h.host.elim id fun hm => hm.trans he)
        · exact Or.inr he
      rw [if_neg (by simp [hvalid]), host_learned hgood hfor]
      split_ifs with hlate
      · exact h.abandon n.mgr.same_stop rfl rfl rfl rfl hhost hrec rfl
      · refine h.frame (.refl _) rfl rfl rfl rfl hhost hrec.symm (fun _ => h.busy (Or.inl hbusy))
          (fun _ => h.sent (by rw [hphase]; rfl)) ?_
        intro raw' he
        cases he
        exact ⟨p, hgood, ⟨hfor.boot, hfor.seq, Or.inr rfl⟩, rfl, hdecode, hv⟩
    · rw [if_pos (by simpa using hvalid)]
      exact h.abandon n.mgr.same_stop rfl rfl rfl rfl (Or.inr rfl) hrec rfl
  · exact h

lemma applied (h : Locked n) {raw : Bytes} (hphase : n.phase = .accepted raw) (now : ℤ) :
    ∃ p : Policy, p.hostId = n.rt.host ∧ p.requestSeq = n.rt.sequence ∧
      Manager.Same { n.mgr with host := p.hostId, seq := p.requestSeq }
        (n.mgr.apply (goString raw) now).1 := by
  obtain ⟨p, hgood, hfor, hhost, hdecode, hvalid⟩ := h.due raw hphase
  obtain ⟨hpend, hboot, hstart⟩ := h.begun (h.sent (by rw [hphase]; rfl))
  have hstep := h.step
  rw [hphase] at hstep
  refine ⟨p, hhost, hfor.seq, Manager.apply_due hdecode hvalid ?_ ?_ ?_ ?_ hstart now⟩
  · exact hfor.boot.trans hboot.symm
  · exact h.host.imp_right fun he => he.trans hhost.symm
  · exact hfor.seq.trans hpend.symm
  · exact hfor.seq.trans hstep

lemma record (h : Locked n) {raw : Bytes} (hphase : n.phase = .accepted raw) (now : ℤ)
    (hm : n'.mgr = (n.mgr.apply (goString raw) now).1) (hrt : n'.rt = n.rt)
    (hrec : n'.phase.recorded = true) : Locked n' := by
  obtain ⟨p, hhost, hseq, hsame⟩ := h.applied hphase now
  rw [← hm] at hsame
  have hbegun : n.rt.begun = true := h.sent (by rw [hphase]; rfl)
  refine ⟨?_, ?_, ?_, ?_, ?_, ?_, ?_, ?_, ?_, ?_, ?_⟩
  · rw [hrt]; exact h.boot
  · rw [hrt]; exact h.seq
  · rw [hrt, hrec, if_pos rfl, hsame.seq, add_zero]; exact hseq.symm
  · rw [hrt, hsame.host]; exact Or.inr hhost
  · rw [hrt, hsame.boot]; exact h.engineBoot
  · rw [hrt]; exact h.pending
  · rw [hrt]; exact fun _ => h.busy (Or.inr hbegun)
  · rw [hrt, hsame.pending, hsame.boot, hsame.pendingStart]; exact h.begun
  · rw [hrt, hsame.pending]; exact h.fresh
  · rw [hrt]; exact fun _ => hbegun
  · intro raw' he
    rw [he] at hrec
    cases hrec

lemma apply (h : Locked n) (now : ℤ) : Locked (n.apply now) := by
  unfold Node.apply
  split
  · rename_i raw hphase
    split
    · rename_i m node replace hm
      exact h.record hphase now (by rw [hm]) rfl rfl
    · rename_i m outcome _ hm
      exact h.record hphase now (by rw [hm]) rfl rfl
  · exact h

lemma serve (h : Locked n) (l : Manager.Listener) : Locked (n.serve l) := by
  unfold Node.serve
  split
  · rename_i node replace hphase
    refine h.frame (n.mgr.quiet_serve node replace l).same rfl rfl rfl rfl (Or.inr rfl) ?_ ?_ ?_ ?_
    · rw [hphase]; rfl
    · exact fun _ => h.busy (Or.inl (by rw [hphase]; intro he; cases he))
    · exact fun _ => h.sent (by rw [hphase]; rfl)
    · intro raw he; cases he
  · exact h

/-- The end of a completed step: both sides go on to the next number. -/
lemma acknowledge (h : Locked n) : Locked n.acknowledge := by
  unfold Node.acknowledge
  split
  · rename_i pending hphase hpending
    have hsame := (n.mgr.quiet_acknowledge (goString pending.reports)).same
    have hstep := h.step
    rw [hphase] at hstep
    have hseq := h.seq
    obtain ⟨hpend, hboot, hstart⟩ := h.begun (h.sent (by rw [hphase]; rfl))
    refine ⟨h.boot, ?_, ?_, ?_, ?_, ?_, ?_, ?_, ?_, ?_, ?_⟩
    · exact le_trans h.seq (by simp)
    · rw [hsame.seq]
      exact congrArg (· + 1) (hstep.trans (add_zero _))
    · rw [hsame.host]; exact h.host
    · rw [hsame.boot]; exact h.engineBoot
    · intro p hp; cases hp
    · rintro (hp | hp)
      · exact absurd rfl hp
      · cases hp
    · intro hb; cases hb
    · intro _
      rw [hsame.pending, hpend]
      exact lt_add_one _
    · intro hs; cases hs
    · intro raw he; cases he
  · exact h

end Locked

/-! ### Runs -/

/-- What the engine's clock says in an event, where it is read. -/
def NodeEvent.engineClock : NodeEvent → Option ℤ
  | .begin _ now => some now
  | .apply now => some now
  | .attach _ _ now => some now
  | .reserve _ _ _ now => some now
  | .expire now => some now
  | _ => none

/-- Every event keeps the two in step. A reading of zero is the one the engine takes for a start
and refuses afterwards; a failed clock reads below zero. -/
lemma Locked.step_event {n : Node} (h : Locked n) (haddr : AddressesAgree) {e : NodeEvent}
    (hclock : ∀ now ∈ e.engineClock, now ≠ 0) : Locked (n.step e) := by
  cases e with
  | start stopping => exact h.start stopping
  | begin ms now => exact h.begin' ms (hclock now rfl)
  | response raw stopping ms => exact h.response haddr raw stopping ms
  | apply now => exact h.apply now
  | serve l => exact h.serve l
  | acknowledge => exact h.acknowledge
  | attach token ingress now => exact h.engine (n.mgr.quiet_attach token ingress now).same
  | close c => exact h.engine (n.mgr.quiet_close c).same
  | reserve c want whole now =>
    have hsame := (n.mgr.quiet_reserve c want whole now).same
    simp only [Node.step, Node.reserve]
    split_ifs
    · exact h.engine hsame
    · exact h.frame hsame rfl rfl rfl rfl (Or.inr rfl) rfl (fun hp => h.busy (Or.inl hp)) h.sent
        h.due
  | finish payload written failed =>
    simp only [Node.step, Node.finish]
    split
    · exact h
    · exact h.frame (n.mgr.quiet_finish _ _ _).same rfl rfl rfl rfl (Or.inr rfl) rfl
        (fun hp => h.busy (Or.inl hp)) h.sent h.due
  | expire now => exact h.engine (n.mgr.quiet_expire now).same
  | stop => exact h.engine n.mgr.same_stop

lemma Locked.run {events : List NodeEvent} (haddr : AddressesAgree) :
    ∀ {n : Node}, Locked n → (∀ e ∈ events, ∀ now ∈ e.engineClock, now ≠ 0) →
      Locked (n.run events) := by
  induction events with
  | nil => exact fun h _ => h
  | cons e events ih =>
    intro n h hclock
    exact ih (h.step_event haddr (hclock e List.mem_cons_self))
      fun e' he => hclock e' (List.mem_cons_of_mem e he)

lemma Locked.new {engine mgr : Manager} (hreset : engine.reset = some mgr) {boot : Bytes}
    (hboot : IsUuid boot) (host : Bytes) : Locked (Node.new host boot mgr) := by
  have hm : mgr = { serial := mgr.serial } := by
    unfold Manager.reset at hreset
    dsimp only at hreset
    split_ifs at hreset
    cases hreset
    rfl
  rw [hm]
  refine ⟨hboot.proxyID, le_refl _, rfl, Or.inl rfl, Or.inl rfl, ?_, ?_, ?_, ?_, ?_, ?_⟩
  · intro p hp; cases hp
  · rintro (hp | hp)
    · exact absurd rfl hp
    · cases hp
  · intro hb; cases hb
  · intro _; exact Int.zero_lt_one
  · intro hs; cases hs
  · intro raw he; cases he

/-- **Lock-step**: however the steps of the runtime go, whenever none is running the next sequence
number is one more than the engine's; a response that the runtime accepts is accepted by the
engine, which then records its number; and no request is refused for its number or boot. -/
theorem sequence_lock_step (haddr : AddressesAgree) {engine mgr : Manager}
    (hreset : engine.reset = some mgr) {host boot : Bytes} (hboot : IsUuid boot)
    {events : List NodeEvent}
    (hclock : ∀ e ∈ events, ∀ now ∈ e.engineClock, now < 0 ∨ 0 < now) :
    let n := (Node.new host boot mgr).run events
    (n.phase = .idle → n.rt.sequence = n.mgr.seq + 1) ∧
    (n.phase = .exchanging → ∀ text v, text.length ≤ proxyPolicyLimit →
      sbjParseStrict text = .ok v → policyValid n.rt (some v) = true →
      ∃ p, proxyDecode decodePolicy policyShape (goString text) = some p ∧
        validateProxyPolicy p = true) ∧
    (∀ raw, n.phase = .accepted raw → ∀ now,
      (n.mgr.apply (goString raw) now).1.seq = n.mgr.seq + 1) ∧
    (∀ pending ∈ n.rt.pending, n.rt.begun = false → ∀ now,
      (n.mgr.begin (goString pending.request) now).2 ≠ some .policy) := by
  intro n
  have h : Locked n := by
    refine (Locked.new hreset hboot host).run haddr ?_
    intro e he now hnow
    have := hclock e he now hnow
    omega
  refine ⟨?_, ?_, ?_, ?_⟩
  · intro hphase
    have hstep := h.step
    rwa [hphase] at hstep
  · intro hphase text v hlen hparse hvalid
    have hbusy : n.phase ≠ .idle := by rw [hphase]; intro he; cases he
    obtain ⟨p, -, -, -, hdecode, hv⟩ :=
      accepted_by_engine haddr (h.in_range hbusy) h.boot hlen hparse hvalid
    exact ⟨p.toGo, hdecode, hv⟩
  · intro raw hphase now
    obtain ⟨p, -, hseq, hsame⟩ := h.applied hphase now
    have hstep := h.step
    rw [hphase] at hstep
    exact hsame.seq.trans (hseq.trans hstep)
  · intro pending hp hbegun now
    obtain ⟨rs, hr⟩ := h.pending pending hp
    have hrec : n.phase.recorded = false := by
      have hsent : ¬ n.phase.sent = true := fun hs => by simp [h.sent hs] at hbegun
      cases hphase : n.phase <;> simp_all [Phase.recorded, Phase.sent]
    have hstep := h.step
    rw [hrec] at hstep
    have hdue := Manager.begin_due hr.decode ⟨rfl, h.boot, hr.seq.1, hr.seq.2, hr.good.valid⟩
      h.engineBoot hstep (h.fresh hbegun) now
    rcases hdue with ⟨he, -⟩ | ⟨he, -⟩ <;> rw [he] <;> intro hc <;> cases hc

end

/-- A policy for a host without work. -/
def idlePolicy (boot : Bytes) (sequence : ℤ) : Policy :=
  ⟨lit "self", boot, sequence, 1000, 1060, none, []⟩

/-- A step whose exchange fails, and its retry, which completes. -/
def retriedStep (boot : Bytes) : List NodeEvent :=
  [.start false, .begin 5 5, .response none false 6, .start false, .begin 7 7,
    .response (some (@dump .sample (idlePolicy boot 1).toSbj (-1))) false 8, .apply 9, .acknowledge]

theorem sequence_lock_step_retried :
    let boot := uuidText (List.replicate 16 0)
    let n := @Node.run .sample (Node.new [] boot {}) (retriedStep boot)
    n.phase = .idle ∧ n.rt.sequence = 2 ∧ n.rt.sequence = n.mgr.seq + 1 := by
  have hclock : ∀ e ∈ retriedStep (uuidText (List.replicate 16 0)), ∀ now ∈ e.engineClock,
      now < 0 ∨ 0 < now := by
    decide +kernel
  have h := @sequence_lock_step .sample addressesAgree_sample {} {} rfl []
    (uuidText (List.replicate 16 0)) ⟨List.replicate 16 0, by simp, rfl⟩ _ hclock
  have hidle : (@Node.run .sample (Node.new [] (uuidText (List.replicate 16 0)) {})
      (retriedStep (uuidText (List.replicate 16 0)))).phase = .idle := by decide +kernel
  exact ⟨hidle, by decide +kernel, h.1 hidle⟩

end SbEasy
