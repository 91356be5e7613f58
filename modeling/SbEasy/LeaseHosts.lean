import SbEasy.ExchangeEffect

/-!
The nodes that share a user's quota, counted in `lease_locked`: the node of the request is one of
them, so the count is never zero and its failure branch is never taken.
-/

namespace SbEasy

namespace Center

open Tx

/-- How `lease_locked` fails when it counts no node: without a message. -/
def noHosts : Err := ⟨.generic, ""⟩

/-- A condition on the database alone. -/
def OnDb (I : Db → Prop) (s : Center) : Prop := I s.db

variable {α β : Type} {I : Db → Prop}

variable {J : Center → Prop}

lemma avoids_sql : Avoids noHosts J sql := by
  refine avoids_get.seq fun s => ?_
  split
  · exact avoids_throw (by decide)
  · exact avoids_modify
  · exact avoids_pure

lemma avoids_query {f : Db → α} {g : α → Op β}
    (hg : ∀ a, Avoids noHosts (OnDb fun db => I db ∧ a = f db) (g a)) :
    Avoids noHosts (OnDb I) (query f >>= g) := by
  refine avoids_bind ?_ (fun s a s' hs h => ?_) hg
  · exact avoids_sql.seq fun _ => avoids_get.seq fun _ => avoids_pure
  · obtain ⟨rfl, io, rfl⟩ := ok_query h
    exact ⟨hs, rfl⟩

lemma avoids_write {f : Db → Db} : Avoids noHosts J (write f) :=
  avoids_sql.seq fun _ => avoids_modify

lemma avoids_waitMs {user : Bytes} {epoch : ℤ} : Avoids noHosts J (waitMs user epoch) :=
  (avoids_get.seq fun _ => avoids_modify.seq fun _ => avoids_pure).seq fun _ =>
    avoids_get.seq fun _ => avoids_modify.seq fun _ => avoids_pure

lemma avoids_uuidV4 : Avoids noHosts J uuidV4 := by
  refine (avoids_get.seq fun s => ?_).seq fun _ => avoids_pure
  split
  · exact (avoids_require (by decide)).seq fun _ => avoids_modify.seq fun _ => avoids_pure
  · exact avoids_throw (by decide)

lemma avoids_putLease {new : ProxyLease} : Avoids noHosts (OnDb fun _ => True) (putLease new) :=
  avoids_query fun _ =>
    (avoids_require (by decide)).seq fun _ => avoids_modify

/-- The node of the request counts: it is enabled, its host is, and its runtime is ready. -/
lemma hostCount_pos {db : Db} {host : Bytes} {now : ℤ} {node : IngressNode}
    (hhost : db.hosts.any (fun h => h.id == host && h.enabled) = true)
    (hnode : db.ingress.find? (fun n => n.hostId == host) = some node)
    (hready : (node.enabled && runtimeReady db host now) = true) :
    ∀ u ∈ hostUsers db host now, 1 ≤ hostCount db u.id now := by
  intro u hu
  have hbound := (List.mem_filter.mp (mem_orderBy.mp hu)).2
  simp only [Bool.and_eq_true] at hbound hready
  obtain ⟨b, hb, hbu⟩ := List.any_eq_true.mp hbound.1.1.1
  rw [Bool.and_eq_true, beq_iff_eq, beq_iff_eq] at hbu
  have hingress : (db.ingress.any fun n => n.hostId == host && n.enabled) = true :=
    List.any_eq_true.mpr ⟨node, List.mem_of_find?_eq_some hnode, by
      have := List.find?_some hnode
      rw [hready.1, Bool.and_true]
      exact this⟩
  have hreport : (db.reports.any fun r => r.hostId == host && r.supported &&
      r.observedAt ≥ now - runtimeFreshSeconds && r.observedAt ≤ now) = true := by
    have hr := hready.2
    unfold runtimeReady at hr
    split at hr
    · rename_i r hfind
      refine List.any_eq_true.mpr ⟨r, List.mem_of_find?_eq_some hfind, ?_⟩
      have := List.find?_some hfind
      simp_all
    · cases hr
  refine List.countP_pos_iff.mpr ⟨b, hb, ?_⟩
  rw [hbu.1, hbu.2, hingress, hhost, hreport, beq_self_eq_true]
  rfl

lemma hostCount_leases (db : Db) (l : List ProxyLease) (user : Bytes) (now : ℤ) :
    hostCount { db with leases := l } user now = hostCount db user now := rfl

lemma avoids_leaseLocked (host boot : Bytes) (user : ProxyUser) (now : ℤ) :
    Avoids noHosts (OnDb fun db => 1 ≤ hostCount db user.id now) (leaseLocked host boot user now) := by
  unfold leaseLocked
  refine avoids_query fun devices => ?_
  split_ifs
  · exact avoids_pure
  refine avoids_query fun row => avoids_query fun allocated => avoids_query fun hosts => ?_
  refine avoids_bind (J := fun _ _ => True) (avoids_require_of fun s hs => ?_)
    (fun _ _ _ _ _ => trivial) fun _ => ?_
  · rw [hs.2]
    exact decide_eq_true hs.1.1.1.1
  dsimp only
  split_ifs
  · exact avoids_pure
  · refine Avoids.seq ?_ fun _ => avoids_putLease.seq fun _ => avoids_pure
    cases row with
    | some l => exact avoids_pure
    | none => exact avoids_uuidV4

lemma avoids_leasesLocked (host boot : Bytes) (now : ℤ) (us : List ProxyUser) :
    Avoids noHosts (OnDb fun db => ∀ u ∈ us, 1 ≤ hostCount db u.id now)
      (leasesLocked host boot now us) := by
  induction us with
  | nil => exact avoids_sql.seq fun _ => avoids_pure
  | cons u us ih =>
    refine avoids_bind (J := fun _ => OnDb fun db => ∀ v ∈ u :: us, 1 ≤ hostCount db v.id now) avoids_sql ?_
      fun _ => ?_
    · intro s _ s' hs h
      obtain ⟨io, rfl⟩ := ok_sql h
      exact hs
    refine avoids_bind (J := fun _ => OnDb fun db => ∀ v ∈ u :: us, 1 ≤ hostCount db v.id now)
      avoids_waitMs ?_ fun ms => ?_
    · intro s _ s' hs h
      obtain ⟨-, io, -, rfl⟩ := ok_waitMs h
      exact hs
    split_ifs
    · exact ih.mono fun s hs v hv => hs v (List.mem_cons_of_mem u hv)
    · refine avoids_bind (J := fun _ => OnDb fun db => ∀ v ∈ us, 1 ≤ hostCount db v.id now)
        ((avoids_leaseLocked host boot u now).mono fun s hs => hs u List.mem_cons_self) ?_
        fun _ => ih.seq fun _ => avoids_pure
      intro s p s' hs h v hv
      have hv' := hs v (List.mem_cons_of_mem u hv)
      rcases (ok_leaseLocked h).2.2 with ⟨-, -, hdb⟩ | ⟨_, _, -, -, hdb⟩
      · rw [hdb]; exact hv'
      · rw [hdb, hostCount_leases]; exact hv'

/-- The host of the request is known and enabled. -/
def HostUp (host : Bytes) (db : Db) : Prop := db.hosts.any (fun h => h.id == host && h.enabled) = true

lemma avoids_policyLocked (host boot : Bytes) (seq now : ℤ) :
    Avoids noHosts (OnDb (HostUp host)) (policyLocked host boot seq now) := by
  unfold policyLocked
  refine avoids_query fun node => avoids_query fun ready => ?_
  split
  · rename_i node
    split_ifs with hready
    · refine avoids_query fun users => ?_
      refine ((avoids_leasesLocked host boot now users).mono fun s hs => ?_).seq fun _ =>
        avoids_pure
      obtain ⟨⟨⟨hhost, hnode⟩, hr⟩, rfl⟩ := hs
      rw [hr] at hready
      exact hostCount_pos hhost hnode.symm hready
    · exact avoids_pure
  · exact avoids_pure

variable [Platform]

lemma avoids_reportsLocked {host boot : Bytes} {now : ℤ} {rs : List Sbj} :
    Avoids noHosts J (reportsLocked host boot now rs) := by
  induction rs generalizing J with
  | nil => exact avoids_pure
  | cons r rs ih =>
    refine Avoids.seq ?_ fun _ => ih
    unfold reportLocked
    refine Avoids.mono (J := OnDb fun _ => True) (avoids_query fun row => ?_) fun _ _ => trivial
    exact (avoids_require (by decide)).seq fun _ => avoids_write

lemma avoids_exchangeLocked (host : Bytes) (request : Sbj) (now : ℤ) :
    Avoids noHosts (OnDb fun _ => True) (exchangeLocked host request now) := by
  unfold exchangeLocked
  refine avoids_query fun known => ?_
  refine avoids_bind (J := fun _ => OnDb (HostUp host)) (avoids_require (by decide)) ?_ fun _ => ?_
  · intro s _ s' hs h
    obtain ⟨hknown, rfl⟩ := ok_require.mp h
    exact hs.2.symm.trans hknown
  refine avoids_query fun row => ?_
  refine avoids_bind (J := fun _ => OnDb (HostUp host)) (avoids_require (by decide)) ?_ fun _ => ?_
  · intro s _ s' hs h
    obtain ⟨-, rfl⟩ := ok_require.mp h
    exact hs.1
  split
  · split
    · exact avoids_pure
    · exact avoids_throw (by decide)
  · refine avoids_bind (J := fun _ => OnDb (HostUp host)) avoids_reportsLocked ?_ fun _ =>
      (avoids_policyLocked _ _ _ _).seq fun _ => avoids_write.seq fun _ => avoids_pure
    intro s _ s' hs h
    obtain ⟨l, -, hdb, -⟩ := ok_reportsLocked h
    rw [OnDb, HostUp, hdb]
    exact hs

lemma avoids_leaseExchange (host : Bytes) (request : Sbj) (now : ℤ) :
    Avoids noHosts (fun _ => True) (leaseExchange host request now) :=
  (avoids_require (by decide)).seq fun _ => (avoids_require (by decide)).seq fun _ =>
    (avoids_require (by decide)).seq fun _ => avoids_transaction <|
      avoids_sql.seq fun _ => (avoids_exchangeLocked host request now).seq fun _ =>
        avoids_sql.seq fun _ => avoids_pure

end Center
end SbEasy
