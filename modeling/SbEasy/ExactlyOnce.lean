import SbEasy.Sessions

/-!
Exactly once: over every run, the requests of a host and boot that change the database are
numbered 1, 2, 3, ..., and the last of them can be repeated at any time for the same answer.
-/

namespace SbEasy

open Center Tx

section

variable [Platform]

/-- The sequence number of an exchange of this host and boot that changes the database. -/
def Call.accepted (c : Call) (db : Db) (host boot : Bytes) : Option ℤ :=
  match c.cmd with
  | .leaseExchange h request =>
    if h = host ∧ requestBoot request = boot ∧ c.next db ≠ db then some (requestSeq request) else none
  | _ => none

/-- The sequence numbers of a run that change the database, in order. -/
def accepted (host boot : Bytes) : Db → List Call → List ℤ
  | _, [] => []
  | db, c :: cs => (c.accepted db host boot).toList ++ accepted host boot (c.next db) cs

variable {host : Bytes} {request : Sbj}

lemma Accepts.accepted {c : Call} {db : Db} {p : Policy} (h : Accepts c db host request p) :
    c.accepted db host (requestBoot request) = some (requestSeq request) := by
  unfold Call.accepted
  rw [h.cmd]
  simp [h.changes]

lemma accepted_step (c : Call) (db : Db) (host boot : Bytes) :
    (c.accepted db host boot = none ∧ (c.next db).sessions.find? (sameSession host boot) =
        db.sessions.find? (sameSession host boot)) ∨
      (c.accepted db host boot = some (lastSeq db host boot + 1) ∧
        lastSeq (c.next db) host boot = lastSeq db host boot + 1) := by
  rcases session_step c db host boot with ⟨hsame, hnone⟩ | ⟨request, p, rfl, h⟩
  · left
    refine ⟨?_, hsame⟩
    unfold Call.accepted
    split
    · rename_i h request hcmd
      rw [if_neg]
      rintro ⟨rfl, hboot, hne⟩
      exact hne (hnone request hcmd hboot)
    · rfl
  · right
    rw [h.accepted, h.lastSeq, h.next]
    exact ⟨rfl, rfl⟩

lemma accepted_run (host boot : Bytes) (db : Db) (cs : List Call) :
    accepted host boot db cs = (List.range (accepted host boot db cs).length).map
      fun k : ℕ => lastSeq db host boot + 1 + k := by
  induction cs generalizing db with
  | nil => rfl
  | cons c cs ih =>
    have hrest := ih (c.next db)
    simp only [accepted]
    rcases accepted_step c db host boot with ⟨hnone, hsame⟩ | ⟨hsome, hlast⟩
    · rw [hnone]
      have hlast : lastSeq (c.next db) host boot = lastSeq db host boot := by
        rw [lastSeq, hsame, ← lastSeq]
      rw [hlast] at hrest
      simpa using hrest
    · rw [hsome, hrest, hlast]
      simp only [Option.toList_some, List.singleton_append, List.length_cons, List.length_map,
        List.length_range, List.range_succ_eq_map, List.map_cons, List.map_map, Nat.cast_zero,
        add_zero, List.cons.injEq, true_and]
      refine List.map_congr_left fun k _ => ?_
      simp only [Function.comp_apply, Nat.succ_eq_add_one, Nat.cast_add, Nat.cast_one]
      omega

variable {db : Db} {cs : List Call} {s : Center} {now : ℤ} {x : LeaseSession} {c : Call}

lemma session_stays {boot : Bytes} (h : accepted host boot db cs = []) :
    (runCalls db cs).sessions.find? (sameSession host boot) =
      db.sessions.find? (sameSession host boot) := by
  induction cs generalizing db with
  | nil => rfl
  | cons c cs ih =>
    simp only [accepted, List.append_eq_nil_iff] at h
    rcases accepted_step c db host boot with ⟨-, hsame⟩ | ⟨hsome, -⟩
    · exact (ih h.2).trans hsame
    · rw [hsome] at h
      simp at h

/-! ### The answer to a repeated request -/

omit [Platform] in
lemma ok_sql_none {s : Center} (h : s.io.sql = none) : Ok sql s () s := by
  simp only [sql, ok_bind, ok_get]
  refine ⟨s, s, ⟨rfl, rfl⟩, ?_⟩
  rw [h]
  simp

omit [Platform] in
lemma ok_query_none {α : Type} (h : s.io.sql = none) (f : Db → α) : Ok (query f) s (f s.db) s := by
  simp only [query, ok_bind, ok_get, ok_pure]
  exact ⟨(), s, ok_sql_none h, s, s, ⟨rfl, rfl⟩, rfl, rfl⟩

/-- The last request again: the stored response, and no change. -/
lemma ok_replay {v : Sbj} (hsql : s.io.sql = none) (hok : RequestOk host request now s.db)
    (hx : s.db.sessions.find? (sameSession host (requestBoot request)) = some x)
    (hseq : requestSeq request = x.requestSeq) (hhash : requestHash request = x.requestHash)
    (hv : JsonParse.sbjParse x.response = .ok v) : Ok (leaseExchange host request now) s v s := by
  have hknown : (s.db.hosts.any fun h => h.id == host && h.enabled) = true := by
    obtain ⟨h, hmem, hid, hen⟩ := hok.host
    exact List.any_eq_true.mpr ⟨h, hmem, by simp [hid, hen]⟩
  have hreports : (requestReports request).all reportOk = true := by
    simpa using hok.reports
  have hlocked : Ok (exchangeLocked host request now) s v s := by
    simp only [exchangeLocked, ok_bind, ok_require]
    refine ⟨_, s, ok_query_none hsql _, (), s, ⟨hknown, rfl⟩, _, s, ok_query_none hsql _, (), s,
      ⟨?_, rfl⟩, ?_⟩
    · simp [hx, hseq, hhash]
    · simp only [hx, Option.any_some, hseq, hhash, beq_self_eq_true, Bool.and_self, hv]
      simp
  simp only [leaseExchange, ok_bind, ok_require, atomically, ok_transaction, ok_pure]
  refine ⟨(), s, ⟨hok.envelope, rfl⟩, (), s, ⟨hreports, rfl⟩, (), s, ⟨by simp [hok.distinct], rfl⟩,
    (), s, ok_sql_none hsql, v, s, hlocked, (), s, ok_sql_none hsql, rfl, rfl⟩

lemma replay_only (hcmd : c.cmd = .leaseExchange host request)
    (hx : db.sessions.find? (sameSession host (requestBoot request)) = some x)
    (hseq : requestSeq request = x.requestSeq) : c.next db = db ∧ ∀ w, c.result db = .ok w →
      JsonParse.sbjParse x.response = .ok w ∧ requestHash request = x.requestHash := by
  rcases c.cases db with ⟨e, he, hdb⟩ | ⟨v, hv, heff⟩
  · refine ⟨hdb, fun w hw => ?_⟩
    rw [he] at hw
    cases hw
  rw [hcmd] at heff
  generalize hnext : c.next db = db' at heff
  cases heff with
  | read hread => simp at hread
  | leaseExchange hok hex =>
    cases hex with
    | replay y hy _ hhash hstored hsame =>
      refine ⟨hsame, fun w hw => ?_⟩
      rw [hx, Option.some_inj] at hy
      subst hy
      rw [hv] at hw
      cases hw
      exact ⟨hstored, hhash⟩
    | new p hnew _ _ =>
      rw [hx] at hnew
      simp only [Option.map_some, Option.getD_some] at hnew
      omega

omit [Platform] in
lemma requestOk_later {now now' : ℤ} (h : requestOk request now = true)
    (h' : 1 ≤ now' ∧ now' ≤ 4102444740) : requestOk request now' = true := by
  simp only [requestOk, Bool.and_eq_true] at h ⊢
  refine ⟨h.1, ?_⟩
  simp only [Bool.not_eq_true', Bool.or_eq_false_iff, decide_eq_false_iff_not]
  omega

lemma runCalls_append (db : Db) (cs ds : List Call) :
    runCalls db (cs ++ ds) = runCalls (runCalls db cs) ds := List.foldl_append

lemma freshAlong_append {cs ds : List Call} :
    freshAlong db (cs ++ ds) = (freshAlong db cs && freshAlong (runCalls db cs) ds) := by
  induction cs generalizing db with
  | nil => simp [freshAlong, runCalls]
  | cons c cs ih =>
    simp only [List.cons_append, freshAlong, ih, Bool.and_assoc]
    rfl

/-- What a call under the number of the accepted `request` gets, when `answer` was given. -/
structure Repeats (db : Db) (host : Bytes) (request answer : Sbj) (c : Call) (request' : Sbj) :
    Prop where
  unchanged : c.next db = db
  same : ∀ v, c.result db = .ok v → v = answer
  content : (requestHash request' = requestHash request → dump request' (-1) = dump request (-1)) →
    ∀ v, c.result db = .ok v → dump request' (-1) = dump request (-1)
  returns : request' = request → c.io.sql = none → 1 ≤ c.now → c.now ≤ 4102444740 →
    (∃ h ∈ db.hosts, h.id = host ∧ h.enabled = true) → c.result db = .ok answer

lemma Accepts.repeats {p : Policy}
    (ha : Accepts c db host request p) (hp : p.Typed) {post : List Call}
    (hlast : SbEasy.accepted host (requestBoot request) (c.next db) post = []) {c' : Call}
    {request' : Sbj} (hcmd : c'.cmd = .leaseExchange host request')
    (hboot : requestBoot request' = requestBoot request)
    (hseq : requestSeq request' = requestSeq request) :
    Repeats (runCalls (c.next db) post) host request p.toSbj c' request' := by
  have hx := (session_stays hlast).trans ha.session
  have hparse : JsonParse.sbjParse (sessionRow host request c.now p).response = .ok p.toSbj := by
    rw [sessionRow_response]
    exact hp.readable.parse (-1)
  have hrow : requestSeq request = (sessionRow host request c.now p).requestSeq ∧
      requestHash request = (sessionRow host request c.now p).requestHash := ⟨rfl, rfl⟩
  generalize sessionRow host request c.now p = x at hx hparse hrow
  obtain ⟨hsame, hall⟩ := replay_only hcmd (hboot ▸ hx) (hseq.trans hrow.1)
  refine ⟨hsame, fun v hv => ?_, fun hcoll v hv => ?_, ?_⟩
  · have h := (hall v hv).1
    rw [hparse] at h
    exact (Except.ok.inj h).symm
  · apply hcoll
    rw [(hall v hv).2, hrow.2]
  · rintro rfl hsql hlow hhigh hhost
    have hok : RequestOk host request' c'.now (runCalls (c.next db) post) :=
      ⟨requestOk_later ha.ok.envelope ⟨hlow, hhigh⟩, ha.ok.reports, ha.ok.distinct, hhost⟩
    have h := ok_replay (s := ⟨runCalls (c.next db) post, c'.clock, c'.io⟩) hsql hok hx
      hrow.1 hrow.2 hparse
    rw [Call.result, Call.exec, hcmd]
    exact congrArg Prod.fst h

/-- **Exactly once**: over every run from empty proxy tables, the requests of a host and boot
that change the database carry the numbers 1, 2, 3, ... in this order. Once a request is
accepted with an answer, and until the next one is, a call with its number changes no table;
it gets that very answer if it succeeds, which takes the same content unless the hash
collides; and it does succeed for the same request on a host that is still enabled. A call
that fails leaves every table as it was. -/
theorem exchange_exactly_once {hosts : List Host} (hhosts : ∀ h ∈ hosts, Utf8.Valid h.id)
    {cs : List Call} (hfresh : freshAlong (Db.fresh hosts) cs = true)
    (hids : ∀ c ∈ cs, HostIds Utf8.Valid c) :
    (∀ host boot, accepted host boot (Db.fresh hosts) cs =
      (List.range (accepted host boot (Db.fresh hosts) cs).length).map fun k : ℕ => (1 + k : ℤ)) ∧
    (∀ (pre : List Call) (c : Call) (post : List Call) (host : Bytes) (request : Sbj),
      cs = pre ++ c :: post → c.cmd = .leaseExchange host request →
      c.next (runCalls (Db.fresh hosts) pre) ≠ runCalls (Db.fresh hosts) pre →
      accepted host (requestBoot request) (c.next (runCalls (Db.fresh hosts) pre)) post = [] →
      ∃ answer, c.result (runCalls (Db.fresh hosts) pre) = .ok answer ∧
        ∀ (c' : Call) (request' : Sbj), c'.cmd = .leaseExchange host request' →
          requestBoot request' = requestBoot request → requestSeq request' = requestSeq request →
          Repeats (runCalls (Db.fresh hosts) cs) host request answer c' request') ∧
    (∀ (c : Call) (e : Err), c.result (runCalls (Db.fresh hosts) cs) = .error e →
      c.next (runCalls (Db.fresh hosts) cs) = runCalls (Db.fresh hosts) cs) := by
  refine ⟨fun host boot => ?_, fun pre c post host request hsplit hcmd hchange hlast => ?_,
    fun c e he => ?_⟩
  · have h := accepted_run host boot (Db.fresh hosts) cs
    simpa [lastSeq, Db.fresh] using h
  · have hrun : runCalls (Db.fresh hosts) cs =
        runCalls (c.next (runCalls (Db.fresh hosts) pre)) post := by
      rw [hsplit, runCalls_append]
      rfl
    rw [hrun]
    rw [hsplit, freshAlong_append, Bool.and_eq_true] at hfresh
    have hpre := steady_run (steady_fresh hhosts) hfresh.1 fun x hx => hids x (by simp [hsplit, hx])
    rcases session_step c (runCalls (Db.fresh hosts) pre) host (requestBoot request) with
      ⟨-, hnone⟩ | ⟨r, p, -, ha⟩
    · exact absurd (hnone request hcmd rfl) hchange
    · obtain rfl := (Cmd.leaseExchange.inj (ha.cmd.symm.trans hcmd)).2
      exact ⟨p.toSbj, ha.result, fun c' request' hcmd' hboot hseq =>
        ha.repeats (hpre.typed ha) hlast hcmd' hboot hseq⟩
  · rcases c.cases (runCalls (Db.fresh hosts) cs) with ⟨_, -, hdb⟩ | ⟨v, hv, -⟩
    · exact hdb
    · rw [hv] at he
      cases he

end

/-- The first request of the sample run, sent again. -/
def sampleAgain : Call :=
  sampleCall (.leaseExchange (lit "self") (.obj [(lit "boot_id", .str (lit "b")),
    (lit "reports", .arr []), (lit "request_seq", .int 1), (lit "version", .int 1)])) []

theorem exchange_exactly_once_sample :
    @accepted .sample (lit "self") (lit "b") (Db.fresh []) sampleCalls = [1] ∧
      (@Call.result .sample sampleAgain (@runCalls .sample (Db.fresh []) sampleCalls)).isOk ∧
      ∀ (c : Call) (e : Err),
        @Call.result .sample c (@runCalls .sample (Db.fresh []) sampleCalls) = .error e →
        @Call.next .sample c (@runCalls .sample (Db.fresh []) sampleCalls) =
          @runCalls .sample (Db.fresh []) sampleCalls := by
  have hids : ∀ c ∈ sampleCalls, HostIds Utf8.Valid c := by
    have hself : Utf8.Valid (lit "self") := Utf8.Valid.ascii (by decide)
    intro c hc id enabled hcmd
    simp only [sampleCalls, sampleCall, List.mem_cons, List.not_mem_nil, or_false] at hc
    rcases hc with rfl | rfl | rfl | rfl | rfl | rfl <;> cases hcmd
    exact Or.inr hself
  refine ⟨by decide +kernel, by decide +kernel, ?_⟩
  exact (@exchange_exactly_once .sample [] (by simp) sampleCalls (by decide +kernel) hids).2.2

end SbEasy
