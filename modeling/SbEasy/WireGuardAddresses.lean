import SbEasy.WireGuardRun

/-!
Host addresses of WireGuard peers: which calls keep them distinct from each other and from
the server's own.
-/

namespace SbEasy.WireGuard

open JsonParse

lemma peerIp_append {ip : Bytes} (hip : ∀ c ∈ ip, c ≠ 0 ∧ c ≠ 0x2F) (length : Bytes) :
    peerIp (ip ++ 0x2F :: length) = ip := by
  rw [peerIp, List.takeWhile_append_of_pos (by simpa using hip)]
  simp

lemma peerIp_cstr (address : Bytes) : peerIp (Sbj.cstr address) = peerIp address := by
  unfold peerIp Sbj.cstr
  rw [List.takeWhile_takeWhile]
  congr 1
  funext c
  rw [Bool.eq_iff_iff]
  simp only [Bool.and_eq_true, decide_eq_true_eq]
  tauto

lemma mem_peerIp {address : Bytes} {c : UInt8} (h : c ∈ peerIp address) : c ≠ 0 ∧ c ≠ 0x2F := by
  have := List.mem_takeWhile_imp h
  simpa using this

lemma splitLastDot_some {s network digits : Bytes} (h : splitLastDot s = some (network, digits)) :
    s = network ++ 0x2E :: digits := by
  induction s generalizing network with
  | nil => cases h
  | cons c s ih =>
    rw [splitLastDot] at h
    cases hs : splitLastDot s with
    | some p =>
      rw [hs] at h
      cases h
      rw [List.cons_append, ← ih hs]
    | none =>
      rw [hs] at h
      split_ifs at h with hc
      cases h
      rw [hc, List.nil_append]

lemma splitLastDot_none {s : Bytes} (h : 0x2E ∉ s) : splitLastDot s = none := by
  induction s with
  | nil => rfl
  | cons c s ih =>
    rw [List.mem_cons, not_or] at h
    simp [splitLastDot, ih h.2, Ne.symm h.1]

lemma splitLastDot_append (network : Bytes) {digits : Bytes} (h : 0x2E ∉ digits) :
    splitLastDot (network ++ 0x2E :: digits) = some (network, digits) := by
  induction network with
  | nil => simp [splitLastDot, splitLastDot_none h]
  | cons c network ih => simp [splitLastDot, ih]

lemma decimal_char {n : ℕ} {c : UInt8} (h : c ∈ decimal n) : c ≠ 0 ∧ c ≠ 0x2F ∧ c ≠ 0x2E := by
  have hd := (decimal_digits n).digit c h
  refine ⟨?_, ?_, ?_⟩ <;> rintro rfl <;> cases hd

lemma isSpace_digit {c : UInt8} (h : isDigit c = true) : isSpace c = false := by
  simp only [isDigit, isSpace, Bool.and_eq_true, decide_eq_true_eq, Bool.or_eq_false_iff,
    beq_eq_false_iff_ne, Bool.and_eq_false_iff, decide_eq_false_iff_not, UInt8.le_iff_toNat_le,
    ne_eq, ← UInt8.toNat_inj] at h ⊢
  simp at h ⊢
  omega

lemma strtoul_decimal {n : ℕ} (hn : (n : ℤ) ≤ uint64Max) : strtoul (decimal n) = some n := by
  have h := decimal_digits n
  obtain ⟨d, ds, hs, -⟩ := h.first
  have hd : isDigit d = true := h.digit d (by simp [hs])
  have hminus : d ≠ 0x2D := digit_ne_minus hd
  have hplus : d ≠ 0x2B := by rintro rfl; cases hd
  have hall : (decimal n).takeWhile isDigit = decimal n := List.takeWhile_eq_self_iff.mpr h.digit
  have hdrop : (decimal n).dropWhile isSpace = decimal n := by
    rw [hs, List.dropWhile_cons_of_neg (by simp [isSpace_digit hd])]
  have hhead : (decimal n).head? = some d := by rw [hs]; rfl
  have hne : decimal n ≠ [] := by simp [hs]
  simp [strtoul, hdrop, hhead, hminus, hplus, hall, h.value, hne, hn]

lemma mem_network {server : Bytes} {c : UInt8} (h : c ∈ network server) : c ≠ 0 ∧ c ≠ 0x2F := by
  unfold network at h
  split at h
  · rename_i base digits hs
    exact mem_peerIp (by rw [splitLastDot_some hs]; simp [h])
  · have : ∀ c ∈ lit "10.59.32", c ≠ 0 ∧ c ≠ 0x2F := by decide
    exact this c h

lemma nextWireguardAddress_ok {server address : Bytes} {s : Store}
    (h : nextWireguardAddress server s = .ok address) :
    ∃ octet, 2 ≤ octet ∧ octet < 255 ∧ peerIp address = network server ++ 0x2E :: decimal octet ∧
      octet ∉ s.peers.filterMap fun p => takenOctet (network server) p.address := by
  unfold nextWireguardAddress at h
  simp only at h
  split at h
  · rename_i octet hfind
    cases h
    have hrange := List.mem_of_find?_eq_some hfind
    rw [List.mem_range'_1] at hrange
    refine ⟨octet, hrange.1, by omega, ?_, by simpa using List.find?_some hfind⟩
    have hchars : ∀ c ∈ network server ++ 0x2E :: decimal octet, c ≠ 0 ∧ c ≠ 0x2F := by
      intro c hc
      rcases List.mem_append.mp hc with hc | hc
      · exact mem_network hc
      rcases List.mem_cons.mp hc with rfl | hc
      · decide
      · exact ⟨(decimal_char hc).1, (decimal_char hc).2.1⟩
    exact peerIp_append hchars (lit "24")
  · cases h

lemma nextWireguardAddress_fresh {server address : Bytes} {s : Store}
    (h : nextWireguardAddress server s = .ok address) : peerIp address ∉ hosts s := by
  obtain ⟨octet, -, hlt, haddress, hfree⟩ := nextWireguardAddress_ok h
  intro hmem
  obtain ⟨p, hp, hip⟩ := List.mem_map.mp hmem
  apply hfree
  refine List.mem_filterMap.mpr ⟨p, hp, ?_⟩
  have hdot : 0x2E ∉ decimal octet := fun hc => (decimal_char hc).2.2 rfl
  have hword : (octet : ℤ) ≤ uint64Max := by unfold uint64Max; omega
  rw [takenOctet, hip, haddress, splitLastDot_append _ hdot]
  simp [strtoul_decimal hword, hlt]

end SbEasy.WireGuard
