import SbEasy.WireGuardUnique

/-!
Quotas of WireGuard peers over whole runs of traffic and synchronisations.

The only record of what a peer has transferred is the counter of the interface, and a peer that
is left out of the configuration loses its counter.
-/

namespace SbEasy.WireGuard.Quota

/-- What the interface counts for a peer. -/
structure Counter where
  publicKey : Bytes
  rx : ℕ
  tx : ℕ

/-- `from_chars_i64_prefix` on a number that `wg show` prints: one that is too large is left
out, and the value stays 0. -/
def readCounter (n : ℕ) : ℤ := if (n : ℤ) ≤ int64Max then n else 0

/-- `sb_wireguard_stats` -/
def statsOf (kernel : List Counter) : List PeerStats :=
  kernel.map fun c => ⟨c.publicKey, readCounter c.rx, readCounter c.tx⟩

/-- `wg syncconf`: the peers of the interface become those of the configuration, and only a peer
that stays keeps its counter. -/
def syncconf (config : List WireguardPeer) (kernel : List Counter) : List Counter :=
  (config.map (·.publicKey)).dedup.map fun k =>
    (kernel.find? (·.publicKey == k)).getD ⟨k, 0, 0⟩

/-- The store, the interface, and the bytes that have been transferred under each key. -/
structure State where
  store : Store
  kernel : List Counter
  carried : Bytes → ℕ

/-- What a synchronisation meets. -/
structure Sync where
  expired : WireguardPeer → Bool
  /-- `wg show` succeeds. -/
  shows : Bool := true
  /-- `wg syncconf` succeeds. -/
  applied : Bool := true

inductive Event
  | traffic (key : Bytes) (rx tx : ℕ)
  | sync (x : Sync)
  | write (store : Store)

/-- The peers of the configuration that `sb_wireguard_sync` writes; where `wg show` fails, there are
no counters. -/
def written (w : State) (x : Sync) : List WireguardPeer :=
  servedPeers x.expired (if x.shows then statsOf w.kernel else []) w.store

def step (w : State) : Event → State
  -- Packets under a key that is not on the interface are dropped.
  | .traffic key rx tx =>
    if w.kernel.any (·.publicKey == key) then
      { w with
        kernel := Table.update (·.publicKey == key)
          (fun c => { c with rx := c.rx + rx, tx := c.tx + tx }) w.kernel
        carried := fun k => if k = key then w.carried k + (rx + tx) else w.carried k }
    else w
  | .sync x => if x.applied then { w with kernel := syncconf (written w x) w.kernel } else w
  | .write store => { w with store := store }

def run (w : State) (events : List Event) : State := events.foldl step w

lemma run_append (w : State) (a b : List Event) : run w (a ++ b) = run (run w a) b :=
  List.foldl_append

lemma run_snoc (w : State) (a : List Event) (e : Event) : run w (a ++ [e]) = step (run w a) e :=
  run_append w a [e]

section

variable (p : WireguardPeer) (w : State) (events : List Event)

/-- The row of the peer is not edited, and no other row has its key. -/
def Kept : Prop := ∀ before after, events = before ++ after →
  p ∈ (run w before).store.listWireguardPeers ∧
    ∀ q ∈ (run w before).store.listWireguardPeers, q.publicKey = p.publicKey → q = p

end

section

variable {p : WireguardPeer} {w : State} {x : Sync}

lemma key_getD (kernel : List Counter) (k : Bytes) :
    ((kernel.find? (·.publicKey == k)).getD ⟨k, 0, 0⟩).publicKey = k := by
  cases h : kernel.find? (·.publicKey == k) with
  | none => rfl
  | some c => simpa using List.find?_some h

/-- The counter of a key after `wg syncconf`. -/
lemma find_syncconf (config : List WireguardPeer) (kernel : List Counter) (k : Bytes) :
    (syncconf config kernel).find? (·.publicKey == k) =
      if k ∈ config.map (·.publicKey) then some ((kernel.find? (·.publicKey == k)).getD ⟨k, 0, 0⟩)
      else none := by
  rw [syncconf]
  have hdedup : k ∈ config.map (·.publicKey) ↔ k ∈ (config.map (·.publicKey)).dedup :=
    List.mem_dedup.symm
  simp only [hdedup]
  induction (config.map (·.publicKey)).dedup with
  | nil => rfl
  | cons k' ks ih =>
    rw [List.map_cons, List.find?_cons, key_getD]
    by_cases hk : k' = k
    · simp [hk]
    · have hk' : k ≠ k' := Ne.symm hk
      have hbeq : (k' == k) = false := beq_eq_false_iff_ne.mpr hk
      simp [hbeq, hk', ih]

end

/-! ### Counters and totals -/

section

variable {p : WireguardPeer} {w : State}

/-- The interface counts what the peer has transferred. -/
def Counted (p : WireguardPeer) (w : State) : Prop :=
  match w.kernel.find? (·.publicKey == p.publicKey) with
  | some c => c.rx + c.tx = w.carried p.publicKey
  | none => w.carried p.publicKey = 0

lemma Counted.traffic (h : Counted p w) (key : Bytes) (rx tx : ℕ) :
    Counted p (step w (.traffic key rx tx)) := by
  rw [step]
  split_ifs with hany
  · unfold Counted at h ⊢
    have hfind : (Table.update (·.publicKey == key) (fun c : Counter =>
        { c with rx := c.rx + rx, tx := c.tx + tx }) w.kernel).find? (·.publicKey == p.publicKey) =
        (w.kernel.find? (·.publicKey == p.publicKey)).map fun c =>
          if c.publicKey == key then { c with rx := c.rx + rx, tx := c.tx + tx } else c := by
      rw [Table.update, List.find?_map]
      congr 2
      funext c
      simp only [Function.comp_apply]
      split_ifs <;> rfl
    simp only [hfind]
    cases hc : w.kernel.find? (·.publicKey == p.publicKey) with
    | none =>
      -- The key that is counted is another one.
      have hne : p.publicKey ≠ key := by
        rintro rfl
        obtain ⟨c, hmem, hkey⟩ := List.any_eq_true.mp hany
        exact absurd hkey (List.find?_eq_none.mp hc c hmem)
      rw [hc] at h
      simpa [hne] using h
    | some c =>
      have hkey : c.publicKey = p.publicKey := by simpa using List.find?_some hc
      rw [hc] at h
      simp only at h
      by_cases he : p.publicKey = key
      · simp only [Option.map_some, hkey, he, beq_self_eq_true, if_true]
        rw [he] at h
        omega
      · simpa [hkey, he] using h
  · exact h

lemma Counted.sync {x : Sync} (h : Counted p w) (hp : x.applied = true → p ∈ written w x) :
    Counted p (step w (.sync x)) := by
  rw [step]
  split_ifs with happlied
  · unfold Counted at h ⊢
    simp only [find_syncconf, if_pos (List.mem_map_of_mem (hp happlied))]
    cases hc : w.kernel.find? (·.publicKey == p.publicKey) with
    | none =>
      rw [hc] at h
      exact h.symm
    | some c =>
      rw [hc] at h
      exact h
  · exact h

lemma Counted.run {events : List Event} (h : Counted p w)
    (hp : ∀ before x after, events = before ++ .sync x :: after → Counted p (run w before) →
      x.applied = true → p ∈ written (run w before) x) : Counted p (run w events) := by
  induction events using List.reverseRecOn with
  | nil => exact h
  | append_singleton events e ih =>
    rw [run_snoc]
    have hbefore : Counted p (Quota.run w events) :=
      ih fun before x after he => hp before x (after ++ [e]) (by rw [he, List.append_assoc]; rfl)
    cases e with
    | traffic key rx tx => exact hbefore.traffic key rx tx
    | sync x => exact hbefore.sync (hp events x [] rfl hbefore)
    | write store => exact hbefore

/-- The interface has no counter of the peer. -/
def Forgotten (p : WireguardPeer) (w : State) : Prop :=
  w.kernel.find? (·.publicKey == p.publicKey) = none

lemma forgotten_sync {x : Sync} (happlied : x.applied = true)
    (hown : ∀ q ∈ w.store.listWireguardPeers, q.publicKey = p.publicKey → q = p)
    (hp : p ∉ written w x) : Forgotten p (step w (.sync x)) := by
  unfold Forgotten
  rw [step, if_pos happlied, find_syncconf, if_neg]
  intro hmem
  obtain ⟨q, hq, hkey⟩ := List.mem_map.mp hmem
  have hlist : q ∈ w.store.listWireguardPeers := (List.mem_filter.mp hq).1
  exact hp (hown q hlist hkey ▸ hq)

lemma Forgotten.traffic (h : Forgotten p w) (key : Bytes) (rx tx : ℕ) :
    Forgotten p (step w (.traffic key rx tx)) := by
  unfold Forgotten at h ⊢
  rw [step]
  split_ifs
  · rw [List.find?_eq_none] at h ⊢
    intro c hc
    obtain ⟨c₀, hc₀, rfl⟩ := Table.mem_update.mp hc
    have := h c₀ hc₀
    split_ifs <;> exact this
  · exact h

end

section

variable {p : WireguardPeer} {w : State} {events : List Event}

/-- A peer that has lost its counter gets it back only from a synchronisation that writes it. -/
lemma Forgotten.run {later : List Event} (hkept : Kept p w later) (h : Forgotten p w)
    (hout : ∀ before x after, later = before ++ .sync x :: after → p ∉ written (run w before) x) :
    Forgotten p (run w later) := by
  induction later using List.reverseRecOn with
  | nil => exact h
  | append_singleton later e ih =>
    rw [run_snoc]
    have hbefore : Forgotten p (Quota.run w later) := by
      refine ih (fun before after he => hkept before (after ++ [e]) (by simp [he])) ?_
      exact fun before x after he => hout before x (after ++ [e]) (by rw [he, List.append_assoc]; rfl)
    cases e with
    | traffic key rx tx => exact hbefore.traffic key rx tx
    | sync x =>
      cases happlied : x.applied with
      | true => exact forgotten_sync happlied (hkept later [.sync x] rfl).2 (hout later x [] rfl)
      | false =>
        rw [step, happlied]
        exact hbefore
    | write store => exact hbefore

end

/-- A peer with a quota of ten bytes. -/
def limited : WireguardPeer where
  id := lit "p"
  name := lit "laptop"
  privateKey := lit "private"
  publicKey := lit "public"
  presharedKey := none
  address := lit "10.59.32.2/24"
  dns := []
  allowedIps := []
  quotaBytes := 10

/-- The peer has just been created. -/
def created : State := ⟨{ peers := [limited] }, [], fun _ => 0⟩

def plain : Sync := ⟨fun _ => false, true, true⟩

end SbEasy.WireGuard.Quota
