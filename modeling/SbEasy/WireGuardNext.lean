import SbEasy.RefreshStep
import SbEasy.WireGuardAddresses

/-!
The address that `sb_store_next_wireguard_address` gives out: the least octet that no peer has. The
server's own octet is not looked at, so the address is free exactly if that octet is not the least.
-/

namespace SbEasy.WireGuard

open JsonParse

/-- An IPv4 address. -/
structure Ipv4 where
  a : ℕ
  b : ℕ
  c : ℕ
  d : ℕ
  lt : a < 256 ∧ b < 256 ∧ c < 256 ∧ d < 256

namespace Ipv4

variable (ip : Ipv4)

/-- The first three octets. -/
def base : Bytes := decimal ip.a ++ 0x2E :: (decimal ip.b ++ 0x2E :: decimal ip.c)

def text : Bytes := ip.base ++ 0x2E :: decimal ip.d

/-- The address is in the /24 network of another. -/
def SameNetwork (ip other : Ipv4) : Prop := ip.a = other.a ∧ ip.b = other.b ∧ ip.c = other.c

end Ipv4

lemma dot_notMem_decimal (n : ℕ) : 0x2E ∉ decimal n := decimal_notMem (by decide) n

lemma append_octet_inj {s t : Bytes} {x y : ℕ}
    (h : s ++ 0x2E :: decimal x = t ++ 0x2E :: decimal y) : s = t ∧ x = y :=
  append_decimal_inj (by decide) h

lemma base_eq_iff {ip other : Ipv4} : ip.base = other.base ↔ ip.SameNetwork other := by
  constructor
  · intro h
    unfold Ipv4.base at h
    rw [← List.cons_append, ← List.append_assoc, ← List.cons_append, ← List.append_assoc] at h
    obtain ⟨hab, hc⟩ := append_octet_inj h
    obtain ⟨ha, hb⟩ := append_octet_inj hab
    exact ⟨decimal_injective ha, hb, hc⟩
  · rintro ⟨ha, hb, hc⟩
    rw [Ipv4.base, Ipv4.base, ha, hb, hc]

/-- A stored address that is well formed: IPv4 with any prefix length, or one without dots. -/
def WellFormed (address : Bytes) : Prop :=
  (∃ ip : Ipv4, peerIp address = ip.text) ∨ 0x2E ∉ peerIp address

/-- A stored peer has the octet `k` in the network of `server`. -/
def HasOctet (s : Store) (server : Ipv4) (k : ℕ) : Prop :=
  ∃ p ∈ s.peers, ∃ ip : Ipv4, peerIp p.address = ip.text ∧ ip.SameNetwork server ∧ ip.d = k

/-- The octet `k` can be given out. -/
def Available (s : Store) (server : Ipv4) (k : ℕ) : Prop :=
  2 ≤ k ∧ k ≤ 254 ∧ k ≠ server.d ∧ ¬ HasOctet s server k

/-- What is given out is the least octet that can be, and there is a conflict if there is none. -/
structure GivesLeast (s : Store) (server : Ipv4) (result : Except Err Bytes) : Prop where
  some : ∀ address, result = .ok address → ∃ k, Available s server k ∧
    (∀ j < k, ¬ Available s server j) ∧
    address = server.base ++ 0x2E :: decimal k ++ lit "/24"
  none : ∀ e, result = .error e →
    e = ⟨.conflict, "No available IPs in subnet"⟩ ∧ ∀ k, ¬ Available s server k

lemma takenOctet_iff {address : Bytes} (h : WellFormed address) (server : Ipv4) {k : ℕ}
    (hk : k < 255) : takenOctet server.base address = some k ↔
      ∃ ip : Ipv4, peerIp address = ip.text ∧ ip.SameNetwork server ∧ ip.d = k := by
  unfold takenOctet
  constructor
  · intro htaken
    rcases h with ⟨ip, hip⟩ | hdot
    · have hword : (ip.d : ℤ) ≤ uint64Max := by
        have := ip.lt.2.2.2
        unfold uint64Max
        omega
      rw [hip, Ipv4.text, splitLastDot_append _ (dot_notMem_decimal _)] at htaken
      simp only [strtoul_decimal hword] at htaken
      split_ifs at htaken with hbase
      rw [Option.filter_eq_some_iff] at htaken
      exact ⟨ip, hip, base_eq_iff.mp hbase, Option.some.inj htaken.1⟩
    · rw [splitLastDot_none hdot] at htaken
      cases htaken
  · rintro ⟨ip, hip, hnet, rfl⟩
    have hword : (ip.d : ℤ) ≤ uint64Max := by
      unfold uint64Max
      omega
    rw [hip, Ipv4.text, splitLastDot_append _ (dot_notMem_decimal _)]
    simp [base_eq_iff.mpr hnet, strtoul_decimal hword, hk]

lemma network_text (server : Ipv4) : network (server.text ++ lit "/24") = server.base := by
  have hchars : ∀ c ∈ server.text, c ≠ 0 ∧ c ≠ 0x2F := by
    intro c hc
    have hdec : ∀ {n : ℕ}, c ∈ decimal n → c ≠ 0 ∧ c ≠ 0x2F := fun h =>
      ⟨(decimal_char h).1, (decimal_char h).2.1⟩
    simp only [Ipv4.text, Ipv4.base, List.mem_append, List.mem_cons] at hc
    rcases hc with (hc | rfl | hc | rfl | hc) | rfl | hc
    · exact hdec hc
    · decide
    · exact hdec hc
    · decide
    · exact hdec hc
    · decide
    · exact hdec hc
  have hip : peerIp (server.text ++ lit "/24") = server.text := peerIp_append hchars (lit "24")
  rw [network, hip, Ipv4.text, splitLastDot_append _ (dot_notMem_decimal _)]

section

variable {s : Store} (hs : ∀ p ∈ s.peers, WellFormed p.address) (server : Ipv4)
include hs

lemma mem_taken_iff {k : ℕ} (hk : k < 255) :
    k ∈ s.peers.filterMap (fun p => takenOctet server.base p.address) ↔ HasOctet s server k := by
  rw [List.mem_filterMap]
  refine exists_congr fun p => and_congr_right fun hp => ?_
  exact takenOctet_iff (hs p hp) server hk

lemma nextWireguardAddress_cases :
    (∃ k, 2 ≤ k ∧ k ≤ 254 ∧ ¬ HasOctet s server k ∧ (∀ j, 2 ≤ j → j < k → HasOctet s server j) ∧
      nextWireguardAddress (server.text ++ lit "/24") s =
        .ok (server.base ++ 0x2E :: decimal k ++ lit "/24")) ∨
    (∀ k, 2 ≤ k → k ≤ 254 → HasOctet s server k) ∧
      nextWireguardAddress (server.text ++ lit "/24") s =
        .error ⟨.conflict, "No available IPs in subnet"⟩ := by
  have htaken : ∀ k, k ≤ 254 → ((!(s.peers.filterMap fun p =>
      takenOctet server.base p.address).contains k) = true ↔ ¬ HasOctet s server k) := by
    intro k hk
    rw [← mem_taken_iff hs server (by omega)]
    simp
  unfold nextWireguardAddress
  rw [network_text]
  dsimp only
  cases hf : (List.range' 2 253).find? fun octet =>
      !(s.peers.filterMap fun p => takenOctet server.base p.address).contains octet with
  | none =>
    refine .inr ⟨fun k h1 h2 => ?_, rfl⟩
    by_contra hno
    have hmem : k ∈ List.range' 2 253 := by
      rw [List.mem_range'_1]
      omega
    exact List.find?_eq_none.mp hf k hmem ((htaken k h2).mpr hno)
  | some k =>
    obtain ⟨hfree, hmem, hleast⟩ := List.find?_range'_eq_some.mp hf
    rw [List.mem_range'_1] at hmem
    refine .inl ⟨k, hmem.1, by omega, (htaken k (by omega)).mp hfree, fun j h1 h2 => ?_, rfl⟩
    by_contra hno
    have hj := hleast j h1 h2
    rw [(htaken j (by omega)).mpr hno] at hj
    cases hj

/-- **Addresses**: for a server with the octet `d`, what is given out is the least octet free of the
peers and of the server if and only if `d` is 1, an octet below `d` is free of the peers, or a peer
has `d`. -/
theorem nextWireguardAddress_least (hd : 1 ≤ server.d ∧ server.d ≤ 254) :
    GivesLeast s server (nextWireguardAddress (server.text ++ lit "/24") s) ↔
      server.d = 1 ∨ (∃ j, 2 ≤ j ∧ j < server.d ∧ ¬ HasOctet s server j) ∨
        HasOctet s server server.d := by
  rcases nextWireguardAddress_cases hs server with ⟨k, h2, h254, hfree, hleast, heq⟩ | ⟨hall, heq⟩
  · rw [heq]
    constructor
    · intro h
      obtain ⟨k', ⟨h2', -, hne, hfree'⟩, -, haddress⟩ := h.some _ rfl
      have hk : k' = k := (append_octet_inj (List.append_cancel_right haddress)).2.symm
      subst hk
      -- The octet given out is not the server's: it is below it, or the server's was passed over.
      rcases Nat.lt_or_gt_of_ne hne with hlt | hgt
      · exact .inr (.inl ⟨k', h2', hlt, hfree'⟩)
      · by_cases h1 : server.d = 1
        · exact .inl h1
        · exact .inr (.inr (hleast _ (by omega) hgt))
    · intro h
      have hne : k ≠ server.d := by
        rintro rfl
        rcases h with h1 | ⟨j, hj2, hlt, hj⟩ | htaken
        · omega
        · exact hj (hleast j hj2 hlt)
        · exact hfree htaken
      refine ⟨fun address haddress => ⟨k, ⟨h2, h254, hne, hfree⟩, fun j hj hfree' => ?_, ?_⟩,
        fun e he => by cases he⟩
      · exact hfree'.2.2.2 (hleast j hfree'.1 hj)
      · exact (Except.ok.inj haddress).symm
  · rw [heq]
    constructor
    · intro _
      by_cases h1 : server.d = 1
      · exact .inl h1
      · exact .inr (.inr (hall _ (by omega) hd.2))
    · intro _
      refine ⟨fun _ h => (by cases h), fun e he => ⟨(Except.error.inj he).symm, fun k hk => ?_⟩⟩
      exact hk.2.2.2 (hall k hk.1 hk.2.1)

end

/-- A server and a peer of another network and one of its own. -/
def hub : Ipv4 := ⟨10, 0, 0, 3, by decide⟩

def hubPeers : Store :=
  { peers := [{ address := lit "10.0.1.2/32" }, { address := lit "10.0.0.4/24" }] }

theorem nextWireguardAddress_least_hub :
    GivesLeast hubPeers hub (nextWireguardAddress (lit "10.0.0.3/24") hubPeers) := by
  have hwell : ∀ p ∈ hubPeers.peers, WellFormed p.address := by
    intro p hp
    simp only [hubPeers, List.mem_cons, List.not_mem_nil, or_false] at hp
    rcases hp with rfl | rfl
    · exact .inl ⟨⟨10, 0, 1, 2, by decide⟩, by decide +kernel⟩
    · exact .inl ⟨⟨10, 0, 0, 4, by decide⟩, by decide +kernel⟩
  have hfree : ¬ HasOctet hubPeers hub 2 := by
    rw [← mem_taken_iff hwell hub (by decide)]
    decide +kernel
  exact (nextWireguardAddress_least hwell hub (by decide)).mpr
    (.inr (.inl ⟨2, by decide, by decide, hfree⟩))

/-- A server whose own octet is the first that no peer has. -/
theorem nextWireguardAddress_own : ∃ server : Ipv4, server.d = 2 ∧
    nextWireguardAddress (server.text ++ lit "/24") {} = .ok (server.text ++ lit "/24") ∧
    ¬ GivesLeast {} server (nextWireguardAddress (server.text ++ lit "/24") {}) := by
  let server : Ipv4 := ⟨10, 0, 0, 2, by decide⟩
  have hown : nextWireguardAddress (server.text ++ lit "/24") {} =
      .ok (server.text ++ lit "/24") := by decide +kernel
  refine ⟨server, rfl, hown, fun h => ?_⟩
  obtain ⟨k, ⟨-, -, hne, -⟩, -, haddress⟩ := h.some _ hown
  exact hne (append_octet_inj (List.append_cancel_right haddress)).2.symm

end SbEasy.WireGuard
