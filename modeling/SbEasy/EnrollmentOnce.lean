import SbEasy.EnrollmentKeeps

/-!
Enrollment codes are redeemed once, and a newer code of a host takes the older ones away.

A code is dead once its row is redeemed or expired. Both stay so: a row is never removed, the
clock does not go back, and no second row takes the hash.
-/

namespace SbEasy.Enrollment

open Trace

variable [Platform]

/-- The same code later on. -/
structure Later (w' : Clocked Db) (e e' : EnrollmentRow) : Prop where
  mem : e' ∈ w'.db.enrollments
  hostId : e'.hostId = e.hostId
  codeHash : e'.codeHash = e.codeHash
  redeemed : e.redeemedAt.isSome = true → e'.redeemedAt.isSome = true
  expires : e'.expiresAt = e.expiresAt ∨ e'.expiresAt ≤ w'.now

section

variable {hostId id code : Bytes} {device : Json} {w w' : Clocked Db} {e row : EnrollmentRow}
  {h : HostRow}

/-- The rows of a host after a new code of it: what was not redeemed is expired. -/
lemma Created.later {a : AgentEnrollment} (hc : Created hostId id code w a w')
    (he : e ∈ w.db.enrollments) : ∃ e', Later w' e e' ∧
      (e.hostId = hostId → e'.redeemedAt.isSome = true ∨ e'.expiresAt ≤ w'.now) := by
  obtain ⟨t₁, t₂, -, ht, -, rfl⟩ := hc.written
  by_cases hhit : (e.hostId == hostId && e.redeemedAt.isNone) = true
  · refine ⟨{ e with expiresAt := t₁ }, ⟨?_, rfl, rfl, fun hr => hr, .inr ht⟩, fun _ => .inr ht⟩
    refine List.mem_append_left _ (List.mem_map.mpr ⟨e, he, ?_⟩)
    rw [if_pos hhit]
  · refine ⟨e, ⟨?_, rfl, rfl, fun hr => hr, .inl rfl⟩, fun hhost => .inl ?_⟩
    · refine List.mem_append_left _ (List.mem_map.mpr ⟨e, he, ?_⟩)
      rw [if_neg hhit]
    · simpa [hhost, Option.isSome_iff_ne_none] using hhit

lemma Redeemed.later {a : AgentEnrollmentResult} (hr : Redeemed code device w row h a w')
    (he : e ∈ w.db.enrollments) : ∃ e', Later w' e e' ∧ (e = row → e'.redeemedAt.isSome = true) := by
  obtain ⟨t₁, t₂, t₃, text, -, -, -, -, -, rfl⟩ := hr.written
  by_cases hhit : (e.id == row.id && e.redeemedAt.isNone) = true
  · refine ⟨{ e with redeemedAt := some t₂ }, ⟨?_, rfl, rfl, fun _ => rfl, .inl rfl⟩, fun _ => rfl⟩
    refine List.mem_map.mpr ⟨e, he, ?_⟩
    rw [if_pos hhit]
  · refine ⟨e, ⟨?_, rfl, rfl, id, .inl rfl⟩, ?_⟩
    · refine List.mem_map.mpr ⟨e, he, ?_⟩
      rw [if_neg hhit]
    · rintro rfl
      simp [hr.open_] at hhit

end

lemma exec_later (ev : Event) (w : Clocked Db) {e : EnrollmentRow} (he : e ∈ w.db.enrollments) :
    ∃ e', Later (exec ev w).2 e e' := by
  obtain ⟨err, -, h⟩ | ⟨seen, hostId, id, code, d₁, d₂, a, -, -, h⟩ |
    ⟨code, device, d₁, d₂, d₃, row, host, a, -, -, h⟩ := exec_cases ev w
  · exact ⟨e, by rwa [h], rfl, rfl, id, .inl rfl⟩
  · obtain ⟨e', he', -⟩ := h.later he
    exact ⟨e', he'⟩
  · obtain ⟨e', he', -⟩ := h.later he
    exact ⟨e', he'⟩

/-- A host has had a code with this hash. -/
def Known (hostId hash : Bytes) (w : Clocked Db) : Prop :=
  ∃ e ∈ w.db.enrollments, e.hostId = hostId ∧ e.codeHash = hash

/-- The code with this hash cannot be redeemed any more. -/
def Dead (hash : Bytes) (w : Clocked Db) : Prop :=
  ∃ e ∈ w.db.enrollments, e.codeHash = hash ∧ (e.redeemedAt.isSome = true ∨ e.expiresAt ≤ w.now)

section

variable {hostId hash code : Bytes} {device : Json} {w w' : Clocked Db} {row : EnrollmentRow}
  {h : HostRow} {a : AgentEnrollmentResult}

lemma Known.exec (hk : Known hostId hash w) (ev : Event) : Known hostId hash (exec ev w).2 := by
  obtain ⟨e, he, hhost, hhash⟩ := hk
  obtain ⟨e', he'⟩ := exec_later ev w he
  exact ⟨e', he'.mem, he'.hostId.trans hhost, he'.codeHash.trans hhash⟩

lemma Dead.exec (hd : Dead hash w) (ev : Event) : Dead hash (exec ev w).2 := by
  obtain ⟨e, he, hhash, hdead⟩ := hd
  obtain ⟨e', he'⟩ := exec_later ev w he
  refine ⟨e', he'.mem, he'.codeHash.trans hhash, ?_⟩
  rcases hdead with hredeemed | hexpired
  · exact .inl (he'.redeemed hredeemed)
  · have hnow := exec_now ev w
    rcases he'.expires with heq | hle
    · exact .inr (by omega)
    · exact .inr hle

omit [Platform] in
lemma Valid.unique (hw : Valid w.db) {e e' : EnrollmentRow} (he : e ∈ w.db.enrollments)
    (he' : e' ∈ w.db.enrollments) (hsame : e.codeHash = e'.codeHash) : e = e' :=
  List.inj_on_of_nodup_map hw.hashes he he' hsame

lemma Redeemed.not_dead (hr : Redeemed code device w row h a w')
    (hw : Valid w.db) : ¬ Dead (Platform.sha256 code) w := by
  rintro ⟨e, he, hhash, hdead⟩
  have hrow : e = row := hw.unique he hr.enrollment (hhash.trans hr.hash.symm)
  subst hrow
  obtain ⟨t₁, t₂, t₃, text, hnow, hexpires, -⟩ := hr.written
  rcases hdead with hredeemed | hexpired
  · rw [hr.open_] at hredeemed
    cases hredeemed
  · omega

lemma Redeemed.dead (hr : Redeemed code device w row h a w') :
    Dead (Platform.sha256 code) w' := by
  obtain ⟨e', he', hdead⟩ := hr.later hr.enrollment
  exact ⟨e', he'.mem, he'.codeHash.trans hr.hash, .inl (hdead rfl)⟩

end

/-- A call that has created a code of a host. -/
def Creates (hostId code : Bytes) (x : Event × Except Err Answer) : Prop :=
  ∃ seen id d₁ d₂ a, x.1.call = .create seen hostId id code d₁ d₂ ∧ x.2 = .ok a

/-- A call that has redeemed a code. -/
def Redeems (code : Bytes) (x : Event × Except Err Answer) : Prop :=
  ∃ device d₁ d₂ d₃ a, x.1.call = .redeem code device d₁ d₂ d₃ ∧ x.2 = .ok a

section

variable {hostId hash code : Bytes} {w : Clocked Db} {ev : Event}

lemma exec_creates (h : Creates hostId code (ev, (exec ev w).1)) :
    ∃ id a, Created hostId id code w a (exec ev w).2 := by
  obtain ⟨seen, id, d₁, d₂, a, hcall, hok⟩ := h
  obtain ⟨err, herr, -⟩ | ⟨seen', hostId', id', code', d₁', d₂', a', hcall', -, h⟩ |
    ⟨code', device, d₁', d₂', d₃, row, host, a', hcall', -, -⟩ := exec_cases ev w
  · rw [herr] at hok
    cases hok
  · rw [hcall'] at hcall
    cases hcall
    exact ⟨_, a', h⟩
  · rw [hcall'] at hcall
    cases hcall

lemma exec_redeems (h : Redeems code (ev, (exec ev w).1)) :
    ∃ device d₁ d₂ d₃ row host a, ev.call = .redeem code (some device) d₁ d₂ d₃ ∧
      (exec ev w).1 = .ok (.redeemed a) ∧ Redeemed code device w row host a (exec ev w).2 := by
  obtain ⟨device, d₁, d₂, d₃, a, hcall, hok⟩ := h
  obtain ⟨err, herr, -⟩ | ⟨seen', hostId', id', code', d₁', d₂', a', hcall', -, -⟩ |
    ⟨code', device', d₁', d₂', d₃', row, host, a', hcall', hok', h⟩ := exec_cases ev w
  · rw [herr] at hok
    cases hok
  · rw [hcall'] at hcall
    cases hcall
  · have hcode := hcall.symm.trans hcall'
    injection hcode with hcode
    subst hcode
    exact ⟨device', d₁', d₂', d₃', row, host, a', hcall', hok', h⟩

lemma known_of_creates (h : Creates hostId code (ev, (exec ev w).1)) :
    Known hostId (Platform.sha256 code) (exec ev w).2 := by
  obtain ⟨id, a, hc⟩ := exec_creates h
  obtain ⟨t₁, t₂, -, -, -, hw⟩ := hc.written
  rw [hw]
  exact ⟨_, List.mem_append_right _ (List.mem_singleton_self _), rfl, rfl⟩

lemma dead_of_creates (h : Creates hostId code (ev, (exec ev w).1)) (hk : Known hostId hash w) :
    Dead hash (exec ev w).2 := by
  obtain ⟨id, a, hc⟩ := exec_creates h
  obtain ⟨e, he, hhost, hhash⟩ := hk
  obtain ⟨e', he', hdead⟩ := hc.later he
  exact ⟨e', he'.mem, he'.codeHash.trans hhash, hdead hhost⟩

lemma not_redeems_of_dead (hw : Valid w.db) (hd : Dead (Platform.sha256 code) w)
    (events : List Event) : ∀ x ∈ trace exec w events, ¬ Redeems code x := by
  refine trace_forall (I := fun w => Valid w.db ∧ Dead (Platform.sha256 code) w)
    (fun ev w h => ⟨exec_valid ev w h.1, h.2.exec ev⟩) (fun ev w h hr => ?_) ⟨hw, hd⟩
  obtain ⟨_, _, _, _, _, _, _, -, -, hr⟩ := exec_redeems hr
  exact hr.not_dead h.1 h.2

end

/-! ### Runs -/

/-- What a successful redemption does: it marks the row of the code, writes what the device says
into the capabilities of the host of the code, and says when the host was seen. -/
def Redemption (code : Bytes) (device : Json) (db : Db) (a : AgentEnrollmentResult) (db' : Db) :
    Prop :=
  ∃ row ∈ db.enrollments, ∃ host ∈ db.hosts, ∃ redeemedAt seenAt text,
    row.codeHash = Platform.sha256 code ∧ row.hostId = host.id ∧
    a.hostId = host.id ∧ a.agentToken = host.agentToken ∧
    db' = { db with
      hosts := describe host.id text seenAt db.hosts
      enrollments := redeem row.id redeemedAt db.enrollments } ∧
    ∀ k, Sbj.get (some (parseObjectOrEmpty text).1) k =
      (taken device k).or (Sbj.get (some (parseObjectOrEmpty host.capabilities).1) k)

/-- What holds of the calls that follow a state of the database. -/
structure SingleUse (w : Clocked Db) (events : List Event) : Prop where
  /-- No code is redeemed twice. -/
  once : (trace exec w events).Pairwise fun x y => ∀ code, Redeems code x → ¬ Redeems code y
  /-- A code is not redeemed once its host has a newer one. -/
  superseded : ∀ before ev after, events = before ++ ev :: after → ∀ hostId old new,
    (∃ x ∈ trace exec w before, Creates hostId old x) →
    Creates hostId new (ev, (exec ev (run exec w before)).1) →
    ∀ x ∈ trace exec (exec ev (run exec w before)).2 after, ¬ Redeems old x
  /-- A redemption is one of the host of the code. -/
  redeems : ∀ before ev after, events = before ++ ev :: after → ∀ code,
    Redeems code (ev, (exec ev (run exec w before)).1) →
    ∃ device d₁ d₂ d₃ a, ev.call = .redeem code (some device) d₁ d₂ d₃ ∧
      (exec ev (run exec w before)).1 = .ok (.redeemed a) ∧
      Redemption code device (run exec w before).db a (exec ev (run exec w before)).2.db ∧
      ∀ hostId, (∃ x ∈ trace exec w before, Creates hostId code x) → a.hostId = hostId
  /-- A call that fails changes nothing. -/
  fails : ∀ before ev after, events = before ++ ev :: after → ∀ err,
    (exec ev (run exec w before)).1 = .error err →
    (exec ev (run exec w before)).2.db = (run exec w before).db

section

variable {hostId code : Bytes} {w : Clocked Db}

lemma run_valid (hw : Valid w.db) (events : List Event) : Valid (run exec w events).db :=
  run_invariant (I := fun w : Clocked Db => Valid w.db) exec_valid hw

lemma known_of_mem_trace (hw : Valid w.db) {events : List Event}
    (h : ∃ x ∈ trace exec w events, Creates hostId code x) :
    Known hostId (Platform.sha256 code) (run exec w events) := by
  obtain ⟨x, hx, hcreates⟩ := h
  exact after_of_mem_trace (I := fun w => Valid w.db)
    (A := fun x w => Creates hostId code x → Known hostId (Platform.sha256 code) w) exec_valid
    (fun ev w _ h => known_of_creates h) (fun x ev w _ h hx => (h hx).exec ev) hw x hx hcreates

variable {device : Json} {row : EnrollmentRow} {h : HostRow} {w' : Clocked Db}
  {a : AgentEnrollmentResult}

lemma Redeemed.redemption (hr : Redeemed code device w row h a w') :
    Redemption code device w.db a w'.db := by
  obtain ⟨t₁, t₂, t₃, text, -, -, -, -, htext, rfl⟩ := hr.written
  have hc := capable_parseObjectOrEmpty h.capabilities
  refine ⟨row, hr.enrollment, h, hr.host, t₂, t₃, text, hr.hash, hr.hostId.symm, hr.token.1,
    hr.token.2.2, rfl, fun k => ?_⟩
  rw [parseObjectOrEmpty_bindDump (capable_enrolled hc hr.features) htext,
    get_enrolled hc hr.features]

lemma Redeemed.hostId_eq (hr : Redeemed code device w row h a w') (hw : Valid w.db)
    (hk : Known hostId (Platform.sha256 code) w) : a.hostId = hostId := by
  obtain ⟨e, he, hhost, hhash⟩ := hk
  have hrow : e = row := hw.unique he hr.enrollment (hhash.trans hr.hash.symm)
  rw [hr.token.1, hr.hostId, ← hrow, hhost]

end

/-- **Enrollment codes are single use.** For every sequence of creations and redemptions, of any
hosts and with any failures of SQLite, as the clock goes on. -/
theorem enrollment_single_use (w : Clocked Db) (hw : Valid w.db) (events : List Event) :
    SingleUse w events := by
  refine ⟨?_, ?_, ?_, fun before ev after _ err => exec_error⟩
  · refine trace_pairwise (I := fun w => Valid w.db)
      (A := fun x w => ∀ code, Redeems code x → Dead (Platform.sha256 code) w) exec_valid ?_ ?_ ?_
      hw
    · intro ev w _ code h
      obtain ⟨_, _, _, _, _, _, _, -, -, hr⟩ := exec_redeems h
      exact hr.dead
    · exact fun x ev w _ h code hx => (h code hx).exec ev
    · intro x ev w hw h code hx hr
      obtain ⟨_, _, _, _, _, _, _, -, -, hr⟩ := exec_redeems hr
      exact hr.not_dead hw (h code hx)
  · rintro before ev after - hostId old new hold hnew
    have hvalid := run_valid hw before
    have hdead := dead_of_creates hnew (known_of_mem_trace hw hold)
    exact not_redeems_of_dead (exec_valid ev _ hvalid) hdead after
  · rintro before ev after - code h
    have hvalid := run_valid hw before
    obtain ⟨device, d₁, d₂, d₃, row, host, a, hcall, hok, hr⟩ := exec_redeems h
    exact ⟨device, d₁, d₂, d₃, a, hcall, hok, hr.redemption, fun hostId hx =>
      hr.hostId_eq hvalid (known_of_mem_trace hw hx)⟩

/-- A host, a code of it that is redeemed, and the same code once more. -/
def exampleWorld : Clocked Db :=
  ⟨⟨[⟨lit "h", lit "host", lit "token", none, none, none, none, none, none, [], none, none, true, 0, 0,
    []⟩], [⟨lit "default", lit "Default"⟩], []⟩, 0⟩

def exampleEvents : List Event :=
  let code := lit "0123456789abcdef0123456789abcdef"
  [⟨.create exampleWorld.db (lit "h") (lit "e") code 0 0, none⟩,
    ⟨.redeem code (some emptyObject) 1 0 0, none⟩, ⟨.redeem code (some emptyObject) 1 0 0, none⟩]

omit [Platform] in
theorem enrollment_single_use_twice :
    ((@trace (Clocked Db) Event _ (@exec .sample) exampleWorld exampleEvents).map fun x => x.2.toBool) =
      [true, true, false] ∧ @SingleUse .sample exampleWorld exampleEvents :=
  ⟨by decide +kernel, @enrollment_single_use .sample exampleWorld
    ⟨by decide, by decide, by decide⟩ exampleEvents⟩

end SbEasy.Enrollment
