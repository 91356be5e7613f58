import SbEasy.Enrollment
import SbEasy.Trace

/-!
What a call about an enrollment code does if it succeeds, and that it does nothing if it fails.
-/

namespace SbEasy.Enrollment

open Clocked

variable [Platform]

/-! ### What a call does -/

section

variable {seen : Db} {hostId id code : Bytes} {device : Option Json} {d₁ d₂ d₃ : ℕ} {w w' : Clocked Db}

/-- The rows a new code of a host takes away. -/
def supersede (hostId : Bytes) (now : ℤ) (t : List EnrollmentRow) : List EnrollmentRow :=
  Table.update (fun e => e.hostId == hostId && e.redeemedAt.isNone)
    (fun e => { e with expiresAt := now }) t

/-- A creation that succeeds. -/
structure Created (hostId id code : Bytes) (w : Clocked Db) (a : AgentEnrollment) (w' : Clocked Db) :
    Prop where
  newId : ∀ e ∈ w.db.enrollments, e.id ≠ id
  newHash : ∀ e ∈ w.db.enrollments, e.codeHash ≠ Platform.sha256 code
  written : ∃ t₁ t₂, w.now ≤ t₁ ∧ t₁ ≤ t₂ ∧ a = ⟨id, hostId, code, t₂ + 600⟩ ∧
    w' = ⟨{ w.db with enrollments := supersede hostId t₁ w.db.enrollments ++
      [⟨id, hostId, Platform.sha256 code, t₂ + 600, none, t₂⟩] }, t₂⟩

omit [Platform] in
lemma insertEnrollment_ok {row : EnrollmentRow} {u : Unit}
    (h : Tx.Ok (insertEnrollment row) w u w') :
    (∀ e ∈ w.db.enrollments, e.id ≠ row.id) ∧ (∀ e ∈ w.db.enrollments, e.codeHash ≠ row.codeHash) ∧
      w' = ⟨{ w.db with enrollments := w.db.enrollments ++ [row] }, w.now⟩ := by
  simp only [insertEnrollment, Tx.ok_bind, Tx.ok_require, Clocked.ok_query, Clocked.ok_update] at h
  obtain ⟨_, _, ⟨rfl, rfl⟩, ⟨⟩, _, ⟨hid, rfl⟩, ⟨⟩, _, ⟨hhash, rfl⟩, ⟨⟩, _, ⟨-, rfl⟩, rfl⟩ := h
  exact ⟨by simpa using hid, by simpa using hhash, rfl⟩

lemma create_ok {a : AgentEnrollment}
    (h : Tx.Ok (createAgentEnrollment seen hostId id code d₁ d₂) w a w') :
    Created hostId id code w a w' := by
  simp only [createAgentEnrollment, Tx.ok_bind, Tx.ok_ofExcept, Clocked.ok_clockedTransaction,
    Clocked.ok_clock, Clocked.ok_query, Clocked.ok_update] at h
  obtain ⟨⟨⟩, w, ⟨-, rfl⟩, t₁, _, ⟨ht₁, rfl⟩, ⟨⟩, _, rfl, t₂, _, ⟨ht₂, rfl⟩, ⟨⟩, _, hinsert, created, _,
    ⟨hcreated, rfl⟩, hread⟩ := h
  obtain ⟨hid, hhash, rfl⟩ := insertEnrollment_ok hinsert
  simp only at ht₂ hid hhash hcreated
  have hkeep : ∀ e ∈ w.db.enrollments, ∃ e' ∈ supersede hostId t₁ w.db.enrollments,
      e'.id = e.id ∧ e'.codeHash = e.codeHash := by
    intro e he
    refine ⟨_, List.mem_map_of_mem he, ?_⟩
    split_ifs
    · exact ⟨rfl, rfl⟩
    · exact ⟨rfl, rfl⟩
  have hnone : (supersede hostId t₁ w.db.enrollments).find? (·.id == id) = none := by
    rw [List.find?_eq_none]
    exact fun e he => by simpa using hid e he
  have hfound : created = some ⟨id, hostId, Platform.sha256 code, t₂ + 600, none, t₂⟩ := by
    rw [hcreated, List.find?_append]
    change ((supersede hostId t₁ w.db.enrollments).find? (·.id == id)).or _ = _
    rw [hnone]
    simp
  rw [hfound] at hread
  obtain ⟨rfl, rfl⟩ := Tx.ok_pure.mp hread
  refine ⟨fun e he => ?_, fun e he => ?_, t₁, t₂, ?_, ?_, rfl, rfl⟩
  · obtain ⟨e', he', hsame, -⟩ := hkeep e he
    rw [← hsame]
    exact hid e' he'
  · obtain ⟨e', he', -, hsame⟩ := hkeep e he
    rw [← hsame]
    exact hhash e' he'
  · omega
  · omega

/-- The row of a code, redeemed. -/
def redeem (id : Bytes) (now : ℤ) (t : List EnrollmentRow) : List EnrollmentRow :=
  Table.update (fun row => row.id == id && row.redeemedAt.isNone)
    (fun row => { row with redeemedAt := some now }) t

/-- The row of a host, seen at a time with other capabilities. -/
def describe (id : Bytes) (text : Column) (now : ℤ) (t : List HostRow) : List HostRow :=
  Table.update (fun row => row.id == id)
    (fun row => { row with capabilities := text, lastSeen := some now, updatedAt := now }) t

/-- A redemption that succeeds. -/
structure Redeemed (code : Bytes) (device : Json) (w : Clocked Db) (e : EnrollmentRow) (h : HostRow)
    (a : AgentEnrollmentResult) (w' : Clocked Db) : Prop where
  enrollment : e ∈ w.db.enrollments
  host : h ∈ w.db.hosts
  hash : e.codeHash = Platform.sha256 code
  open_ : e.redeemedAt = none
  hostId : h.id = e.hostId
  enabled : h.enabled = true
  features : checkFeatures device.1 = .ok ()
  token : a.hostId = h.id ∧ a.hostName = h.name ∧ a.agentToken = h.agentToken
  written : ∃ t₁ t₂ t₃ text, w.now ≤ t₁ ∧ t₁ < e.expiresAt ∧ t₁ ≤ t₂ ∧ t₂ ≤ t₃ ∧
    bindDump (enrolled device (parseObjectOrEmpty h.capabilities)) = .ok text ∧
    w' = ⟨{ w.db with
      hosts := describe h.id text t₃ w.db.hosts
      enrollments := redeem e.id t₂ w.db.enrollments }, t₃⟩

omit [Platform] in
lemma mem_candidates {hash : Bytes} {now : ℤ} {db : Db} {e : EnrollmentRow} {h : HostRow}
    {p : ProfileRow} (hrow : (e, h, p) ∈ candidates hash now db) :
    e ∈ db.enrollments ∧ h ∈ db.hosts ∧ redeemable hash now e h p = true := by
  simp only [candidates, List.mem_flatMap, List.mem_filterMap] at hrow
  obtain ⟨e', he, h', hh, p', -, hrow⟩ := hrow
  split_ifs at hrow with hc
  · cases hrow
    exact ⟨he, hh, hc⟩

lemma redeem_ok {a : AgentEnrollmentResult}
    (h : Tx.Ok (redeemAgentEnrollment code device d₁ d₂ d₃) w a w') :
    ∃ dev e host, device = some dev ∧ Redeemed code dev w e host a w' := by
  cases device with
  | none => exact absurd h Tx.ok_throw
  | some dev =>
    simp only [redeemAgentEnrollment, Tx.ok_bind, Tx.ok_ofExcept, Tx.ok_require,
      Clocked.ok_clockedTransaction, Clocked.ok_clock, Clocked.ok_query] at h
    obtain ⟨⟨⟩, w, ⟨-, rfl⟩, ⟨⟩, _, ⟨hfeatures, rfl⟩, t₁, _, ⟨ht₁, rfl⟩, rows, _, ⟨hrows, rfl⟩, h⟩ := h
    cases hhead : rows.head? with
    | none =>
      rw [hhead] at h
      exact absurd h Tx.ok_throw
    | some row =>
      obtain ⟨e, host, p⟩ := row
      rw [hhead] at h
      simp only [Tx.ok_bind, Tx.ok_ofExcept, Tx.ok_require, Tx.ok_pure, Clocked.ok_clock,
        Clocked.ok_query, Clocked.ok_update] at h
      obtain ⟨t₂, _, ⟨ht₂, rfl⟩, _, _, ⟨-, rfl⟩, ⟨⟩, _, rfl, ⟨⟩, _, ⟨-, rfl⟩, t₃, _, ⟨ht₃, rfl⟩, text, _,
        ⟨htext, rfl⟩, ⟨⟩, _, rfl, rfl, rfl⟩ := h
      have hmem : (e, host, p) ∈ rows := List.mem_of_mem_head? hhead
      rw [hrows] at hmem
      obtain ⟨he, hh, hc⟩ := mem_candidates hmem
      simp only [redeemable, Bool.and_eq_true, beq_iff_eq, decide_eq_true_eq,
        Option.isNone_iff_eq_none] at hc
      obtain ⟨⟨⟨⟨⟨hid, -⟩, hhash⟩, hopen⟩, hexpires⟩, henabled⟩ := hc
      simp only at ht₂ ht₃
      exact ⟨dev, e, host, rfl, he, hh, hhash, hopen, hid, henabled, hfeatures, ⟨rfl, rfl, rfl⟩,
        t₁, t₂, t₃, text, by omega, hexpires, by omega, by omega, htext, rfl⟩

lemma exec_error {e : Event} {err : Err} (h : (exec e w).1 = .error err) : (exec e w).2.db = w.db := by
  have hsafe : Tx.Safe Clocked.db (answer e.call) := by
    cases e.call with
    | create seen hostId id code d₁ d₂ =>
      exact (Tx.quiet_ofExcept.bind_safe fun _ => safe_clockedTransaction).bind_pure
    | redeem code device d₁ d₂ d₃ =>
      refine Tx.Safe.bind_pure ?_
      cases device with
      | none => exact Tx.quiet_throw.safe
      | some device =>
        exact Tx.quiet_require.bind_safe fun _ => Tx.quiet_ofExcept.bind_safe fun _ =>
          safe_clockedTransaction
  unfold exec at h ⊢
  split
  · rfl
  · rename_i hfault
    rw [hfault] at h
    exact hsafe w err _ (Prod.ext h rfl)

omit [Platform] in
lemma forward_insertEnrollment (row : EnrollmentRow) : Forward (insertEnrollment row) :=
  forward_query.bind fun _ => forward_require.bind fun _ => forward_require.bind fun _ =>
    forward_require.bind fun _ => forward_update

lemma forward_create : Forward (createAgentEnrollment seen hostId id code d₁ d₂) := by
  refine forward_ofExcept.bind fun _ => forward_transaction ?_
  refine forward_clock.bind fun _ => ?_
  refine forward_update.bind fun _ => ?_
  refine forward_clock.bind fun _ => ?_
  refine (forward_insertEnrollment _).bind fun _ => ?_
  refine forward_query.bind fun created => ?_
  cases created with
  | none => exact forward_throw
  | some row => exact forward_pure

lemma forward_redeem : Forward (redeemAgentEnrollment code device d₁ d₂ d₃) := by
  cases device with
  | none => exact forward_throw
  | some device =>
    refine forward_require.bind fun _ => ?_
    refine forward_ofExcept.bind fun _ => forward_transaction ?_
    refine forward_clock.bind fun _ => ?_
    refine forward_query.bind fun rows => ?_
    cases rows.head? with
    | none => exact forward_throw
    | some row =>
      refine forward_clock.bind fun _ => ?_
      refine forward_query.bind fun _ => ?_
      refine forward_update.bind fun _ => ?_
      refine forward_require.bind fun _ => ?_
      refine forward_clock.bind fun _ => ?_
      refine forward_ofExcept.bind fun _ => ?_
      exact forward_update.bind fun _ => forward_pure

lemma exec_now (e : Event) (w : Clocked Db) : w.now ≤ (exec e w).2.now := by
  unfold exec
  split
  · exact le_rfl
  · refine Forward.le ?_ w
    cases e.call with
    | create => exact forward_create.bind fun _ => forward_pure
    | redeem => exact forward_redeem.bind fun _ => forward_pure

/-- What a call does: it fails, it creates a code, or it redeems one. -/
lemma exec_cases (e : Event) (w : Clocked Db) :
    (∃ err, (exec e w).1 = .error err ∧ (exec e w).2.db = w.db) ∨
    (∃ seen hostId id code d₁ d₂ a, e.call = .create seen hostId id code d₁ d₂ ∧
      (exec e w).1 = .ok (.created a) ∧ Created hostId id code w a (exec e w).2) ∨
    (∃ code device d₁ d₂ d₃ row host a, e.call = .redeem code (some device) d₁ d₂ d₃ ∧
      (exec e w).1 = .ok (.redeemed a) ∧ Redeemed code device w row host a (exec e w).2) := by
  obtain ⟨call, fault⟩ := e
  rcases hres : (exec ⟨call, fault⟩ w).1 with err | a
  · exact .inl ⟨err, rfl, exec_error hres⟩
  · cases fault with
    | some err => cases hres
    | none =>
      have hok : Tx.Ok (answer call) w a (exec ⟨call, none⟩ w).2 := Prod.ext hres rfl
      cases call with
      | create seen hostId id code d₁ d₂ =>
        simp only [answer, Tx.ok_bind, Tx.ok_pure] at hok
        obtain ⟨a, _, hcreate, rfl, heq⟩ := hok
        refine .inr (.inl ⟨seen, hostId, id, code, d₁, d₂, a, rfl, rfl, ?_⟩)
        rw [heq]
        exact create_ok hcreate
      | redeem code device d₁ d₂ d₃ =>
        simp only [answer, Tx.ok_bind, Tx.ok_pure] at hok
        obtain ⟨a, _, hredeem, rfl, heq⟩ := hok
        obtain ⟨dev, row, host, rfl, h⟩ := redeem_ok hredeem
        refine .inr (.inr ⟨code, dev, d₁, d₂, d₃, row, host, a, rfl, rfl, ?_⟩)
        rw [heq]
        exact h

end

end SbEasy.Enrollment
