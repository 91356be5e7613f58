import SbEasy.EngineInstall
import SbEasy.Requests

/-!
The engine's side of the exchange: what its operations leave of the request it waits for, of
budgets, devices and connections, and what `begin` and `apply` do with a text whose turn it is.
-/

namespace SbEasy

open JsonParse Rows

namespace Manager

/-- The two managers are at the same point of the exchange. -/
structure Same (m m' : Manager) : Prop where
  boot : m'.boot = m.boot
  host : m'.host = m.host
  seq : m'.seq = m.seq
  pending : m'.pending = m.pending
  pendingStart : m'.pendingStart = m.pendingStart

lemma Same.refl (m : Manager) : Same m m := ⟨rfl, rfl, rfl, rfl, rfl⟩

lemma Same.trans {m₁ m₂ m₃ : Manager} (h : Same m₁ m₂) (h' : Same m₂ m₃) : Same m₁ m₃ :=
  ⟨h'.boot.trans h.boot, h'.host.trans h.host, h'.seq.trans h.seq, h'.pending.trans h.pending,
    h'.pendingStart.trans h.pendingStart⟩

lemma same_stop (m : Manager) : Same m m.stop := ⟨rfl, rfl, rfl, rfl, rfl⟩

/-! ### Operations that apply no policy -/

/-- A device can only lose its place and its right. -/
structure Fades (d d' : EngineDevice) : Prop where
  id : d'.id = d.id
  token : d'.token = d.token
  budget : d'.budget = d.budget
  deadline : d'.deadline = d.deadline
  linked : d'.linked = true → d.linked = true
  active : d'.active = true → d.active = true ∧ d'.linked = d.linked

lemma Fades.refl (d : EngineDevice) : Fades d d :=
  ⟨rfl, rfl, rfl, rfl, fun h => h, fun h => ⟨h, rfl⟩⟩

lemma Fades.follows {d d' : EngineDevice} (h : Fades d d') : Follows d d' := by
  refine ⟨h.id, h.token, h.budget, fun hl ha => ⟨?_, ?_⟩⟩
  · by_contra hne
    rw [h.linked (by simpa using hne)] at hl
    exact absurd hl (by simp)
  · by_contra hne
    rw [(h.active (by simpa using hne)).1] at ha
    exact absurd ha (by simp)

/-- A budget keeps its lease, and is not made active. -/
structure Spends (b b' : EngineBudget) : Prop where
  id : b'.id = b.id
  active : b'.active = true → b.active = true

lemma Spends.refl (b : EngineBudget) : Spends b b := ⟨rfl, fun h => h⟩

/-- A connection belongs to its device. -/
structure SameConn (c c' : EngineConn) : Prop where
  device : c'.device = c.device

lemma SameConn.refl (c : EngineConn) : SameConn c c := ⟨rfl⟩

/-- A budget keeps its counters as well. -/
structure Rests (b b' : EngineBudget) : Prop where
  spends : Spends b b'
  renewed : b.Renewed b'

lemma Rests.refl (b : EngineBudget) : Rests b b := ⟨.refl b, .refl b⟩

/-- What everything but a policy does; `R` says what becomes of the budgets. -/
structure Calm (R : EngineBudget → EngineBudget → Prop) (m m' : Manager) : Prop where
  budgets : List.Forall₂ R m.budgets m'.budgets
  devices : List.Forall₂ Fades m.devices m'.devices
  conns : Rows.Grows SameConn m.conns m'.conns

lemma Calm.refl (m : Manager) : Calm Rests m m :=
  ⟨List.forall₂_same.mpr fun b _ => .refl b, List.forall₂_same.mpr fun d _ => .refl d,
    .refl .refl _⟩

/-- A calm operation that leaves the exchange where it is. -/
structure Quiet (R : EngineBudget → EngineBudget → Prop) (m m' : Manager) : Prop where
  same : Same m m'
  calm : Calm R m m'

lemma Quiet.refl (m : Manager) : Quiet Rests m m := ⟨.refl m, .refl m⟩

lemma Quiet.spends {m m' : Manager} (h : Quiet Rests m m') : Quiet Spends m m' :=
  ⟨h.same, h.calm.budgets.imp fun _ _ hb => hb.spends, h.calm.devices, h.calm.conns⟩

lemma Quiet.of_budgets {R : EngineBudget → EngineBudget → Prop} {m : Manager}
    {budgets : List EngineBudget} (h : List.Forall₂ R m.budgets budgets) :
    Quiet R m { m with budgets := budgets } :=
  ⟨⟨rfl, rfl, rfl, rfl, rfl⟩, h, (Calm.refl m).devices, (Calm.refl m).conns⟩

lemma quiet_stop (m : Manager) : Quiet Rests m m.stop := by
  refine ⟨same_stop m, forall₂_map (fun b => ?_) _, forall₂_map (fun d => ?_) _, .refl .refl _⟩
  · split_ifs
    · exact ⟨⟨rfl, nofun⟩, rfl, rfl, rfl, le_rfl⟩
    · exact .refl b
  · split_ifs
    · exact ⟨rfl, rfl, rfl, rfl, nofun, nofun⟩
    · exact .refl d

lemma quiet_expire (m : Manager) (now : ℤ) : Quiet Rests m (m.expire now) := by
  refine ⟨⟨rfl, rfl, rfl, rfl, rfl⟩, (Calm.refl m).budgets, forall₂_map (fun d => ?_) _,
    .refl .refl _⟩
  split_ifs
  · exact ⟨rfl, rfl, rfl, rfl, fun h => h, nofun⟩
  · exact .refl d

lemma quiet_attach (m : Manager) (token : Bytes) (ingress : Option ℕ) (now : ℤ) :
    Quiet Rests m (m.attach token ingress now).1 := by
  unfold attach
  split
  · exact .refl m
  · split
    · split_ifs
      · exact .refl m
      · exact ⟨⟨rfl, rfl, rfl, rfl, rfl⟩,
          forall₂_modify .refl (fun _ => ⟨⟨rfl, fun h => h⟩, rfl, rfl, rfl, le_rfl⟩) _ _,
          (Calm.refl m).devices, grows_append .refl _ _⟩
    · exact .refl m

lemma quiet_close (m : Manager) (c : ℕ) : Quiet Rests m (m.close c) := by
  unfold close
  split
  · exact .refl m
  · split_ifs
    · exact .refl m
    · exact ⟨⟨rfl, rfl, rfl, rfl, rfl⟩,
        forall₂_modify .refl (fun _ => ⟨⟨rfl, fun h => h⟩, rfl, rfl, rfl, le_rfl⟩) _ _,
        (Calm.refl m).devices, grows_of_forall₂ (forall₂_modify .refl (fun _ => ⟨rfl⟩) _ _)⟩

lemma quiet_reserve (m : Manager) (c want : ℕ) (whole : Bool) (now : ℤ) :
    Quiet Spends m (m.reserve c want whole now).1 := by
  unfold reserve
  split
  · exact (Quiet.refl m).spends
  · dsimp only
    split_ifs
    · exact (Quiet.refl m).spends
    · exact (Quiet.refl m).spends
    · exact .of_budgets (forall₂_modify .refl (fun _ => ⟨rfl, fun h => h⟩) _ _)
    · exact .of_budgets (forall₂_modify .refl (fun _ => ⟨rfl, fun h => h⟩) _ _)

lemma quiet_finish (m : Manager) (c : ℕ) (reserved used : ℤ) :
    Quiet Spends m (m.finish c reserved used) := by
  unfold finish
  split
  · exact (Quiet.refl m).spends
  · refine ⟨⟨rfl, rfl, rfl, rfl, rfl⟩, forall₂_modify .refl (fun _ => ⟨rfl, fun h => h⟩) _ _,
      forall₂_map (fun d => ?_) _, (Calm.refl m).conns⟩
    split_ifs
    · exact ⟨rfl, rfl, rfl, rfl, fun h => h, nofun⟩
    · exact .refl d

lemma quiet_serve (m : Manager) (node : GoNode) (replace : Bool) (l : Listener) :
    Quiet Rests m (m.serve node replace l).1 := by
  have hsame := Quiet.refl m
  have hstop := quiet_stop m
  unfold serve
  split_ifs
  · exact hstop
  · exact hstop
  · exact hstop
  · exact ⟨⟨rfl, rfl, rfl, rfl, rfl⟩, hsame.calm.budgets, hsame.calm.devices, hsame.calm.conns⟩
  · exact ⟨⟨rfl, rfl, rfl, rfl, rfl⟩, hstop.calm.budgets, hstop.calm.devices, hstop.calm.conns⟩
  · exact hsame

lemma quiet_acknowledge (m : Manager) (data : Bytes) : Quiet Rests m (m.acknowledge data).1 := by
  have hretire : ∀ (r : ProxyReport) (b : EngineBudget),
      Rests b (if retires r b then { b with linked := false } else b) := by
    intro r b
    split_ifs
    · exact ⟨⟨rfl, fun h => h⟩, rfl, rfl, rfl, le_rfl⟩
    · exact .refl b
  have hloop : ∀ (reports : List ProxyReport) (l : List EngineBudget), List.Forall₂ Rests l
      (reports.foldl (fun budgets r =>
        Table.update (retires r) (fun b => { b with linked := false }) budgets) l) := by
    intro reports
    induction reports with
    | nil => exact fun l => List.forall₂_same.mpr fun b _ => .refl b
    | cons r reports ih =>
      intro l
      refine forall₂_trans (fun h h' => ?_) (forall₂_map (hretire r) l) (ih _)
      exact ⟨⟨h'.spends.id.trans h.spends.id, fun ha => h.spends.active (h'.spends.active ha)⟩,
        h.renewed.trans h'.renewed⟩
  unfold acknowledge
  split
  · exact .refl m
  · split_ifs
    · exact .refl m
    · exact .of_budgets (hloop _ _)

variable [Platform]

lemma same_install (m : Manager) (p : GoPolicy) (now : ℤ) : Same m (m.install p now).1 := by
  unfold install
  dsimp only
  split
  · exact ⟨rfl, rfl, rfl, rfl, rfl⟩
  · split_ifs
    · exact ⟨rfl, rfl, rfl, rfl, rfl⟩
    · exact ⟨rfl, rfl, rfl, rfl, rfl⟩

/-- What `apply` records of a policy that is due: its sequence number and its host, whatever
becomes of its budgets and of the listener. -/
lemma apply_due {m : Manager} {data : Bytes} {p : GoPolicy}
    (hdecode : proxyDecode decodePolicy policyShape data = some p)
    (hvalid : validateProxyPolicy p = true) (hboot : p.boot = m.boot)
    (hhost : m.host = [] ∨ m.host = p.host) (hpending : p.seq = m.pending.seq)
    (hseq : p.seq = m.seq + 1) (hstart : 0 < m.pendingStart) (now : ℤ) :
    Same { m with host := p.host, seq := p.seq } (m.apply data now).1 := by
  have hnames : ¬ ((p.boot != m.boot) || (m.host != [] && p.host != m.host) ||
      decide (p.seq ≠ m.pending.seq) || decide (m.pendingStart ≤ 0)) = true := by
    simp only [Bool.not_eq_true, Bool.or_eq_false_iff, Bool.and_eq_false_iff, bne_eq_false_iff_eq,
      decide_eq_false_iff_not, not_not, not_le]
    refine ⟨⟨⟨hboot, ?_⟩, hpending⟩, hstart⟩
    exact hhost.imp_right Eq.symm
  have hrecord : ∀ hash, Same { m with host := p.host, seq := p.seq }
      { m with host := p.host, seq := p.seq, appliedHash := hash } := fun _ => ⟨rfl, rfl, rfl, rfl, rfl⟩
  unfold apply
  simp only [hdecode, hvalid, Bool.not_true, Bool.false_eq_true, if_false, if_neg hnames]
  rw [if_neg (by omega), if_neg (by omega)]
  split
  · exact (hrecord _).trans (same_stop _)
  · split_ifs
    · exact (hrecord _).trans (same_stop _)
    · exact (hrecord _).trans (same_install _ p now)

lemma begin_due {m : Manager} {data : Bytes} {r : ProxyRequest}
    (hdecode : proxyDecode decodeRequest requestShape data = some r)
    (hgood : r.version = 1 ∧ proxyID r.boot = true ∧ 1 ≤ r.seq ∧ r.seq ≤ safeInteger ∧
      proxyReportsValid r.reports = true)
    (hboot : m.boot = [] ∨ m.boot = r.boot) (hseq : r.seq = m.seq + 1)
    (hnew : m.pending.seq < r.seq) (now : ℤ) :
    ((m.begin data now).2 = some .denied ∧ Same m (m.begin data now).1) ∨
      ((m.begin data now).2 = none ∧ 0 ≤ now ∧ (m.begin data now).1.boot = r.boot ∧
        (m.begin data now).1.host = m.host ∧ (m.begin data now).1.seq = m.seq ∧
        (m.begin data now).1.pending = r ∧ (m.begin data now).1.pendingStart = now) := by
  obtain ⟨h1, h2, h3, h4, h5⟩ := hgood
  rw [safeInteger] at h4
  have hfields : ¬ (decide (r.version ≠ 1) || !proxyID r.boot || decide (r.seq < 1) ||
      decide (r.seq > proxyMaxInteger) || !proxyReportsValid r.reports) = true := by
    simp only [Bool.not_eq_true, Bool.or_eq_false_iff, decide_eq_false_iff_not]
    simp [h1, h2, h5, proxyMaxInteger]
    omega
  have hturn : ¬ ((m.boot != [] && m.boot != r.boot) || decide (r.seq ≠ m.seq + 1) ||
      (m.pending.seq == r.seq && m.pendingHash != Platform.sha256 data)) = true := by
    simp only [Bool.not_eq_true, Bool.or_eq_false_iff, Bool.and_eq_false_iff, bne_eq_false_iff_eq,
      decide_eq_false_iff_not, not_not, beq_eq_false_iff_ne]
    exact ⟨⟨hboot, hseq⟩, Or.inl (by omega)⟩
  unfold begin
  simp only [hdecode, if_neg hfields, if_neg hturn]
  rw [if_pos (by omega)]
  split_ifs with hnow
  · exact Or.inl ⟨rfl, same_stop m⟩
  · simp only [Bool.not_eq_true, Bool.or_eq_false_iff, decide_eq_false_iff_not] at hnow
    exact Or.inr ⟨rfl, by omega, rfl, rfl, rfl, rfl, rfl⟩

end Manager

end SbEasy
