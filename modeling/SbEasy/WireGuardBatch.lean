import SbEasy.Base64
import SbEasy.WireGuardAddresses

/-!
What an import does to the addresses: a batch has distinct ones apart from the server's, and
the store takes it only if they are apart from those already there.
-/

namespace SbEasy.WireGuard

open JsonParse

/-! ### Batches -/

/-- The text of an address: no NUL byte and no prefix length. -/
def Plain (ip : Bytes) : Prop := ∀ c ∈ ip, c ≠ 0 ∧ c ≠ 0x2F

structure Batch.Valid (b : Batch) : Prop where
  plain : ∀ c ∈ b.clients, Plain c.ip
  distinct : (b.clients.map (·.ip)).Nodup
  server : Plain b.server.address
  apart : ∀ c ∈ b.clients, c.ip ≠ b.server.address

/-- A text without control characters. -/
def Printable (s : Bytes) : Prop := ∀ c ∈ s, 32 ≤ c ∧ c ≠ 127

lemma textField_ok {v : Sbj} {key : Bytes} {optional : Bool} {max : ℕ} {r : Option Bytes}
    (h : textField v key optional max = .ok r) :
    ∀ s ∈ r, Sbj.get (some v) key = some (.str s) ∧ Printable s := by
  simp only [textField] at h
  split at h
  · cases h; simp
  · split at h
    · rename_i s hs
      split at h
      · cases h
      · split at h
        · cases h
        · rename_i hc
          cases h
          simpa [hs, Printable] using hc
    · cases h

lemma readFields_ok {fields : List (Except Err (Option Bytes))} {l : List (Option Bytes)}
    (h : readFields fields = .ok l) : List.Forall₂ (fun f v => f = .ok v) fields l := by
  induction fields generalizing l with
  | nil => cases h; exact .nil
  | cons f fields ih =>
    obtain ⟨rest, hrest, h⟩ := bind_ok h
    obtain ⟨v, hv, h⟩ := bind_ok h
    cases h
    exact .cons hv (ih hrest)

variable {tools : MigrationTools}

/-- A key is thirty-two bytes that are not all zero, encoded. -/
def IsWgKey (tools : MigrationTools) (key : Bytes) : Prop :=
  ∃ raw : Bytes, raw.length = 32 ∧ (∃ x ∈ raw, x ≠ 0) ∧ key = tools.encodeBlock raw

lemma validKey_ok {key : Bytes} (h : validKey tools key = true) : IsWgKey tools key := by
  unfold validKey at h
  rw [Bool.and_eq_true] at h
  cases hd : tools.decodeBlock key with
  | none => rw [hd] at h; cases h.2
  | some d =>
    simp only [hd, Bool.and_eq_true, beq_iff_eq, List.any_eq_true, bne_iff_ne] at h
    exact ⟨d.take 32, by simp [h.2.1.1], h.2.1.2, h.2.2.symm⟩

/-- What holds of a client in a batch. -/
structure WgClient.Checked (tools : MigrationTools) (server : ℕ) (c : WgClient) : Prop where
  texts : ∀ s ∈ [c.id, c.name, c.ip, c.pub] ++ c.priv.toList ++ c.psk.toList, Printable s
  keys : ∀ k ∈ c.pub :: (c.priv.toList ++ c.psk.toList), IsWgKey tools k
  network : ∃ n, tools.inet4 c.ip = some n ∧ n / 256 = server / 256 ∧ n ≠ server ∧
    1 ≤ n % 256 ∧ n % 256 ≤ 254
  derived : ∀ k ∈ c.priv, tools.publicKeyFromPrivate k = some c.pub

structure WgServer.Checked (tools : MigrationTools) (s : WgServer) : Prop where
  texts : ∀ t ∈ [s.privateKey, s.publicKey, s.address], Printable t
  keys : ∀ k ∈ [s.privateKey, s.publicKey], IsWgKey tools k
  number : tools.inet4 s.address = some s.number
  derived : tools.publicKeyFromPrivate s.privateKey = some s.publicKey

lemma plain_of_inet4 {ip : Bytes} {n : ℕ} (hip : Printable ip) (h : tools.inet4 ip = some n) :
    Plain ip := by
  intro c hc
  refine ⟨?_, ?_⟩ <;> rintro rfl
  · exact absurd (hip 0 hc).1 (by decide)
  · exact tools.inet4_slash h hc

lemma readClient_ok {server index : ℕ} {seen : List WgClient} {id : Bytes} {client : Sbj}
    {c : WgClient} (h : readClient tools server seen index id client = .ok c) :
    c.Checked tools server ∧ c.id = id ∧ c.ip ∉ seen.map (·.ip) ∧ c.pub ∉ seen.map (·.pub) := by
  unfold readClient at h
  split_ifs at h with hid hchars
  obtain ⟨fields, hfields, h⟩ := bind_ok h
  have hread := readFields_ok hfields
  split at h
  · rename_i name ip pub priv psk
    simp only [List.forall₂_cons, List.forall₂_nil_right_iff, and_true] at hread
    obtain ⟨hname, hip, hpub, hpriv, hpsk⟩ := hread
    cases hn : tools.inet4 ip with
    | none => rw [hn] at h; cases h
    | some n =>
      simp only [hn] at h
      split_ifs at h with h1 h2 h3
      push Not at h2
      simp only [Bool.not_eq_true, Bool.not_eq_false', Bool.or_eq_false_iff] at h1 h3 hchars
      have hc : c.id = id ∧ c.name = name ∧ c.ip = ip ∧ c.pub = pub ∧ c.priv = priv ∧ c.psk = psk := by
        split at h
        · cases h; simp
        · cases h; simp
        · cases h
      obtain ⟨rfl, rfl, rfl, rfl, rfl, rfl⟩ := hc
      have halnum : ∀ x : UInt8, (isAlnum x || x == 0x2D) = true → 32 ≤ x ∧ x ≠ 127 := by
        rintro ⟨⟨x⟩⟩
        revert x
        decide +kernel
      rw [Option.all_eq_true] at h3
      have hkeys : ∀ {o : Option Bytes}, o.all (validKey tools) = true → ∀ k ∈ o, IsWgKey tools k :=
        fun ho k hk => validKey_ok (by rw [Option.all_eq_true] at ho; exact ho k hk)
      refine ⟨⟨?_, ?_, ⟨n, hn, h2.1, h2.2.1, by omega, by omega⟩, fun k hk => ?_⟩, rfl, h2.2.2.2.2.1,
        h2.2.2.2.2.2⟩
      · simp only [List.forall_mem_append, List.forall_mem_cons, Option.mem_toList]
        exact ⟨⟨⟨fun x hx => halnum x (List.all_eq_true.mp hchars x hx), (textField_ok hname _ rfl).2,
          (textField_ok hip _ rfl).2, (textField_ok hpub _ rfl).2, by simp⟩,
        fun s hs => (textField_ok hpriv s hs).2⟩,
          fun s hs => (textField_ok hpsk s hs).2⟩
      · simp only [List.forall_mem_append, List.forall_mem_cons, Option.mem_toList]
        exact ⟨validKey_ok h1.1.1, hkeys h1.1.2, hkeys h1.2⟩
      · simpa using h3 k hk
  · cases h

lemma readClients_ok {server : ℕ} {seen clients : List WgClient} {rest : List (Bytes × Sbj)}
    (h : readClients tools server seen rest = .ok clients)
    (hseen : ∀ c ∈ seen, c.Checked tools server) (hips : (seen.map (·.ip)).Nodup)
    (hpubs : (seen.map (·.pub)).Nodup) :
    (∀ c ∈ clients, c.Checked tools server) ∧ (clients.map (·.ip)).Nodup ∧
      (clients.map (·.pub)).Nodup ∧ clients.map (·.id) = seen.map (·.id) ++ rest.map Prod.fst := by
  induction rest generalizing seen with
  | nil =>
    cases h
    exact ⟨hseen, hips, hpubs, by simp⟩
  | cons p rest ih =>
    obtain ⟨c, hc, h⟩ := bind_ok h
    obtain ⟨hchecked, hid, hip, hpub⟩ := readClient_ok hc
    have hnew : ∀ {f : WgClient → Bytes}, f c ∉ seen.map f → ∀ x ∈ seen, f x ≠ f c :=
      fun hf x hx he => hf (List.mem_map.mpr ⟨x, hx, he⟩)
    obtain ⟨h1, h2, h3, h4⟩ := ih h (by simpa [or_imp, forall_and] using ⟨hseen, hchecked⟩)
      (Table.nodup_append hips (hnew hip)) (Table.nodup_append hpubs (hnew hpub))
    exact ⟨h1, h2, h3, by simp [h4, hid]⟩

lemma readServer_ok {v : Sbj} {server : WgServer} (h : readServer tools v = .ok server) :
    server.Checked tools := by
  obtain ⟨fields, hfields, h⟩ := bind_ok h
  have hread := readFields_ok hfields
  split at h
  · rename_i privateKey publicKey address
    simp only [List.forall₂_cons, List.forall₂_nil_right_iff, and_true] at hread
    obtain ⟨hpriv, hpub, haddress⟩ := hread
    split at h
    · cases h
    rename_i hkeys
    simp only [Bool.not_eq_true, Bool.or_eq_false_iff, Bool.not_eq_false'] at hkeys
    cases hn : tools.inet4 address with
    | none => rw [hn] at h; cases h
    | some n =>
      simp only [hn] at h
      split_ifs at h with h1 h2
      cases h
      refine ⟨?_, ?_, hn, not_not.mp h2⟩
      · simp [(textField_ok hpriv _ rfl).2, (textField_ok hpub _ rfl).2, (textField_ok haddress _ rfl).2]
      · simp [validKey_ok hkeys.1, validKey_ok hkeys.2]
  · cases h

section

variable [Platform] {configuration options : Option Sbj} {dns : Bytes} {b : Batch}

lemma wgEasyV14Normalize_ok (h : wgEasyV14Normalize tools configuration options dns = .ok b) :
    b.server.Checked tools ∧ readDefaults tools options dns = .ok b.defaults ∧
    (∀ c ∈ b.clients, c.Checked tools b.server.number) ∧ (b.clients.map (·.ip)).Nodup ∧
    (b.clients.map (·.pub)).Nodup ∧ ∃ members,
      Sbj.get configuration (lit "clients") = some (.obj members) ∧
        b.clients.map (·.id) = members.map Prod.fst := by
  unfold wgEasyV14Normalize at h
  split at h
  · rename_i members _ hmembers
    split_ifs at h
    obtain ⟨server, hserver, h⟩ := bind_ok h
    obtain ⟨defaults, hdefaults, h⟩ := bind_ok h
    obtain ⟨clients, hclients, h⟩ := bind_ok h
    cases h
    obtain ⟨h1, h2, h3, h4⟩ := readClients_ok hclients (by simp) (by simp) (by simp)
    exact ⟨readServer_ok hserver, hdefaults, h1, h2, h3, members, hmembers, h4⟩
  · cases h

/-- What `sb_wg_easy_v14_normalize` returns is valid. -/
lemma wgEasyV14Normalize_valid (h : wgEasyV14Normalize tools configuration options dns = .ok b) :
    b.Valid := by
  obtain ⟨hserver, -, hall, hdistinct, -⟩ := wgEasyV14Normalize_ok h
  refine ⟨fun c hc => ?_, hdistinct, plain_of_inet4 (hserver.texts _ (by simp)) hserver.number,
    fun c hc he => ?_⟩
  · obtain ⟨n, hn, -⟩ := (hall c hc).network
    exact plain_of_inet4 ((hall c hc).texts _ (by simp)) hn
  · obtain ⟨n, hn, -, hne, -⟩ := (hall c hc).network
    -- One text has one number.
    rw [he, hserver.number] at hn
    exact hne (Option.some.inj hn).symm

end

variable [Platform]

/-! ### What a batch holds -/

/-- The host address of a peer in a batch. -/
def batchHost (peer : Sbj) : Bytes := peerIp (Sbj.getStr (some peer) (lit "address") [])

variable {c : WgClient} {defaults : ClientDefaults}

omit [Platform] in
lemma get_peerJson {k : Bytes} {v : Sbj}
    (h : (k, v) ∈ [(lit "id", Sbj.str (lit "wg-easy-" ++ c.id)),
      (lit "address", .str (c.ip ++ lit "/24")), (lit "private_key", .str (c.priv.getD [])),
      (lit "public_key", .str c.pub), (lit "preshared_key", Store.optStr c.psk)]) :
    Sbj.get (some (c.peerJson defaults)) k = some v := by
  refine Sbj.get_build (by simp only [List.map_cons, List.map_nil]; decide) ?_
  simp only [List.mem_cons, List.not_mem_nil, or_false] at h
  rcases h with h | h | h | h | h <;> simp [h]

omit [Platform] in
lemma batchHost_peerJson (hc : Plain c.ip) (defaults : ClientDefaults) :
    batchHost (c.peerJson defaults) = c.ip := by
  have hget : Sbj.get (some (c.peerJson defaults)) (lit "address") =
      some (.str (c.ip ++ lit "/24")) := get_peerJson (by simp)
  rw [batchHost, Sbj.getStr, hget, Sbj.asStr, peerIp_cstr]
  exact peerIp_append hc (lit "24")

/-- What holds of a peer as it is written. -/
structure PeerChecked (tools : MigrationTools) (server : ℕ) (peer : Sbj) : Prop where
  address : ∃ ip n, Sbj.get (some peer) (lit "address") = some (.str (ip ++ lit "/24")) ∧
    tools.inet4 ip = some n ∧ n / 256 = server / 256 ∧ n ≠ server ∧ 1 ≤ n % 256 ∧ n % 256 ≤ 254
  keys : ∃ pub priv, Sbj.get (some peer) (lit "public_key") = some (.str pub) ∧ IsWgKey tools pub ∧
    Sbj.get (some peer) (lit "private_key") = some (.str priv) ∧
    (priv ≠ [] → IsWgKey tools priv ∧ tools.publicKeyFromPrivate priv = some pub)
  preshared : ∀ psk, Sbj.get (some peer) (lit "preshared_key") = some (.str psk) → IsWgKey tools psk
  texts : ∀ k s, k ≠ lit "dns" → Sbj.get (some peer) k = some (.str s) → Printable s

omit [Platform] in
lemma WgClient.Checked.peerJson {server : ℕ}
    (h : c.Checked tools server) (hallowed : Printable defaults.allowed) :
    PeerChecked tools server (c.peerJson defaults) := by
  obtain ⟨n, hn⟩ := h.network
  refine ⟨⟨c.ip, n, get_peerJson (by simp), hn⟩, ⟨c.pub, c.priv.getD [], get_peerJson (by simp),
    h.keys _ (by simp), get_peerJson (by simp), fun hne => ?_⟩, fun psk hpsk => ?_,
    fun k s hk hs => ?_⟩
  · cases hpriv : c.priv with
    | none => rw [hpriv] at hne; exact absurd rfl hne
    | some k => exact ⟨h.keys k (by simp [hpriv]), h.derived k hpriv⟩
  · rw [get_peerJson (v := Store.optStr c.psk) (by simp)] at hpsk
    cases hc : c.psk with
    | none => rw [hc] at hpsk; cases hpsk
    | some k =>
      rw [hc] at hpsk
      cases hpsk
      exact h.keys _ (by simp [hc])
  · have hconst : Printable (lit "wg-easy-") ∧ Printable (lit "/24") ∧
        Printable (lit "Imported from wg-easy v14") := by
      unfold Printable
      decide
    have happend : ∀ {a b : Bytes}, Printable a → Printable b → Printable (a ++ b) :=
      fun ha hb x hx => (List.mem_append.mp hx).elim (ha x) (hb x)
    have hmem := Sbj.mem_of_get_build hs
    simp only [List.mem_cons, List.not_mem_nil, or_false, Prod.mk.injEq, Sbj.str.injEq, reduceCtorEq,
      and_false, false_or] at hmem
    rcases hmem with ⟨-, rfl⟩ | ⟨-, rfl⟩ | ⟨-, rfl⟩ | ⟨-, rfl⟩ | ⟨-, rfl⟩ | ⟨-, he⟩ | ⟨he, -⟩ |
      ⟨-, rfl⟩ | ⟨-, rfl⟩
    · exact happend hconst.1 (h.texts _ (by simp))
    · exact h.texts _ (by simp)
    · exact happend (h.texts _ (by simp)) hconst.2.1
    · cases hpriv : c.priv with
      | none => simp [Printable]
      | some k => exact h.texts _ (by simp [hpriv])
    · exact h.texts _ (by simp)
    · cases hc : c.psk with
      | none => rw [hc] at he; cases he
      | some k =>
        rw [hc] at he
        cases he
        exact h.texts _ (by simp [hc])
    · exact absurd he hk
    · exact hallowed
    · exact hconst.2.2

/-- What holds of the settings of a batch as they are written. -/
structure SettingsChecked (tools : MigrationTools) (number : ℕ) (settings : Option Sbj) : Prop where
  key : ∃ privateKey publicKey,
    Sbj.get (Sbj.get settings (lit "wg_server_key")) (lit "private_key") = some (.str privateKey) ∧
    Sbj.get (Sbj.get settings (lit "wg_server_key")) (lit "public_key") = some (.str publicKey) ∧
    IsWgKey tools privateKey ∧ IsWgKey tools publicKey ∧
    tools.publicKeyFromPrivate privateKey = some publicKey ∧ Printable privateKey ∧
    Printable publicKey
  address : ∃ ip, Sbj.get (Sbj.get settings (lit "wireguard_interface")) (lit "address") =
    some (.str (ip ++ lit "/24")) ∧ tools.inet4 ip = some number ∧ Printable ip

section

variable {configuration options : Option Sbj} {dns : Bytes} {b : Batch}

omit [Platform] in
lemma get_toJson {k : Bytes} {v : Sbj}
    (h : (k, v) ∈ [(lit "app_settings", Sbj.build [(lit "wg_server_key", b.serverKey),
        (lit "wireguard_interface", .build [(lit "address", .str b.address)])]),
      (lit "wireguard_peers", .arr b.peers)]) : Sbj.get (some b.toJson) k = some v := by
  refine Sbj.get_build (by simp only [List.map_cons, List.map_nil]; decide) ?_
  simp only [List.mem_cons, List.not_mem_nil, or_false] at h
  rcases h with h | h <;> simp [h]

omit [Platform] in
lemma WgServer.Checked.settings (h : b.server.Checked tools) :
    SettingsChecked tools b.server.number (Sbj.get (some b.toJson) (lit "app_settings")) := by
  have hget : ∀ {k v l}, (k, v) ∈ [(lit "wg_server_key", b.serverKey),
      (lit "wireguard_interface", Sbj.build [(lit "address", .str b.address)])] → v = .build l →
      Sbj.get (Sbj.get (some b.toJson) (lit "app_settings")) k = some (.build l) := by
    rintro k v l hmem rfl
    rw [get_toJson (List.mem_cons_self)]
    exact Sbj.get_build (by simp only [List.map_cons, List.map_nil]; decide) hmem
  refine ⟨⟨b.server.privateKey, b.server.publicKey, ?_, ?_, h.keys _ (by simp), h.keys _ (by simp),
    h.derived, h.texts _ (by simp), h.texts _ (by simp)⟩,
    ⟨b.server.address, ?_, h.number, h.texts _ (by simp)⟩⟩
  · rw [hget (List.mem_cons_self) rfl]
    exact Sbj.get_build (by simp only [List.map_cons, List.map_nil]; decide) (by simp)
  · rw [hget (List.mem_cons_self) rfl]
    exact Sbj.get_build (by simp only [List.map_cons, List.map_nil]; decide) (by simp)
  · rw [hget (List.mem_cons_of_mem _ List.mem_cons_self) rfl]
    exact Sbj.get_build (by simp) (by simp [Batch.address])

end

omit [Platform]

variable [Platform]

/-! ### Rows of a batch -/

omit [Platform] in
lemma cstr_jvStr {v : Sbj} {key fallback s : Bytes} (h : Store.jvStr v key fallback = .ok s) :
    Sbj.cstr s = Sbj.getStr (some v) key (Sbj.cstr fallback) := by
  unfold Store.jvStr at h
  split at h <;> cases h
  · rename_i hv
    simp [Sbj.getStr, hv, Sbj.asStr]
  · rename_i hv
    simp [Sbj.getStr, hv, Sbj.asStr]

lemma peerOfBackup_address {now : Bytes} {v : Sbj} {r : WireguardPeer}
    (h : Store.peerOfBackup now v = .ok (some r)) :
    r.address = Sbj.getStr (some v) (lit "address") [] := by
  obtain ⟨id, -, h⟩ := bind_ok h
  obtain ⟨address, haddress, h⟩ := bind_ok h
  split_ifs at h with hempty
  · cases h
  obtain ⟨name, -, h⟩ := bind_ok h
  obtain ⟨privateKey, -, h⟩ := bind_ok h
  obtain ⟨publicKey, -, h⟩ := bind_ok h
  obtain ⟨dns, -, h⟩ := bind_ok h
  obtain ⟨enabled, -, h⟩ := bind_ok h
  obtain ⟨keepalive, -, h⟩ := bind_ok h
  obtain ⟨allowedIps, -, h⟩ := bind_ok h
  obtain ⟨quota, -, h⟩ := bind_ok h
  obtain ⟨createdAt, -, h⟩ := bind_ok h
  cases h
  exact cstr_jvStr haddress

lemma restorePeers_distinct {now : Bytes} {l : List Sbj} {t t' : List WireguardPeer × ℕ}
    (h : restorePeers now l t = .ok t') (hl : (l.map batchHost).Nodup)
    (ht : (t.1.map fun p => peerIp p.address).Nodup)
    (hnew : ∀ v ∈ l, batchHost v ∉ t.1.map fun p => peerIp p.address) :
    (t'.1.map fun p => peerIp p.address).Nodup ∧
      ∀ p ∈ t'.1, p ∈ t.1 ∨ ∃ v ∈ l, peerIp p.address = batchHost v := by
  induction l generalizing t with
  | nil =>
    cases h
    exact ⟨ht, fun p hp => .inl hp⟩
  | cons v l ih =>
    obtain ⟨t₁, ht₁, h⟩ := bind_ok h
    obtain ⟨row, hrow, ht₁⟩ := bind_ok ht₁
    cases ht₁
    rw [List.map_cons, List.nodup_cons] at hl
    cases row with
    | none =>
      obtain ⟨h1, h2⟩ := ih h hl.2 ht fun u hu => hnew u (by simp [hu])
      refine ⟨h1, fun p hp => (h2 p hp).imp_right ?_⟩
      rintro ⟨u, hu, he⟩
      exact ⟨u, by simp [hu], he⟩
    | some r =>
      have hr : peerIp r.address = batchHost v := by
        rw [peerOfBackup_address hrow]; rfl
      have hsub : ∀ p ∈ (Table.replace Store.clashingPeer r t.1), p ∈ t.1 ∨ p = r := by
        intro p hp
        simp only [Table.replace, List.mem_append, List.mem_filter, List.mem_singleton] at hp
        exact hp.imp_left (·.1)
      have hdistinct : ((Table.replace Store.clashingPeer r t.1).map
          fun p => peerIp p.address).Nodup := by
        rw [Table.replace, List.map_append, List.nodup_append]
        refine ⟨ht.sublist (List.filter_sublist.map _), by simp, ?_⟩
        intro a ha b hb
        rw [List.map_singleton, List.mem_singleton] at hb
        rintro rfl
        rw [hr] at hb
        exact hnew v (by simp) (hb ▸ (List.filter_sublist.map _).subset ha)
      have hfresh : ∀ u ∈ l, batchHost u ∉
          (Table.replace Store.clashingPeer r t.1).map fun p => peerIp p.address := by
        intro u hu hmem
        obtain ⟨p, hp, he⟩ := List.mem_map.mp hmem
        rcases hsub p hp with hp | rfl
        · exact hnew u (by simp [hu]) (List.mem_map.mpr ⟨p, hp, he⟩)
        · rw [hr] at he
          exact hl.1 (List.mem_map.mpr ⟨u, hu, he.symm⟩)
      obtain ⟨h1, h2⟩ := ih h hl.2 hdistinct hfresh
      refine ⟨h1, fun p hp => ?_⟩
      rcases h2 p hp with hp | ⟨u, hu, he⟩
      · rcases hsub p hp with hp | rfl
        · exact .inl hp
        · exact .inr ⟨v, by simp, hr⟩
      · exact .inr ⟨u, by simp [hu], he⟩

/-! ### The import -/

section

variable {now : Bytes} {b : Batch} {s s' : Store}

lemma applyImport_ok (h : applyImport now b s = .ok s') :
    (∃ t, restorePeers now (additions b s) (s.peers, 0) = .ok t ∧ s'.peers = t.1) ∧
      savedInterface s' = some (mergedInterface b s).1.written := by
  obtain ⟨s₁, h₁, h⟩ := bind_ok h
  obtain ⟨s₂, h₂, h⟩ := bind_ok h
  obtain ⟨t, ht, h⟩ := bind_ok h
  obtain ⟨after, -, h⟩ := bind_ok h
  have hsaved := Store.appSetting_put h₂
  have hpeers : s₂.peers = s.peers := by
    obtain ⟨_, -, h₁⟩ := Store.putSetting_ok h₁
    obtain ⟨_, -, h₂⟩ := Store.putSetting_ok h₂
    rw [h₂, h₁]
  split at h
  · cases h
  · cases h
    exact ⟨⟨t, hpeers ▸ ht, rfl⟩, hsaved⟩

omit [Platform] in
lemma snapshotSetting_ok {key : Bytes} {l : List (Bytes × Sbj)} (h : snapshotSetting s key = .ok l)
    {v : Json} (hv : s.appSetting key = some v) : v.1.IsObj := by
  apply v.2.isObj
  rw [snapshotSetting, hv, Option.map_some] at h
  split at h
  · rename_i hnone
    cases hnone
  · rename_i m hm
    rw [Option.some.inj hm]
    rfl
  · cases h

lemma serverAddress_merged (options : WireguardOptions) {digest : Bytes}
    (hd : importDigest b s = .ok digest)
    (h : savedInterface s' = some (mergedInterface b s).1.written) :
    serverAddress options s' = Sbj.cstr (Sbj.cstr b.address) := by
  have hget : Sbj.get (some (mergedInterface b s).1) (lit "address") =
      some (.str (Sbj.cstr b.address)) := by
    obtain ⟨before, hbefore, -⟩ := bind_ok hd
    obtain ⟨key, -, hbefore⟩ := bind_ok hbefore
    obtain ⟨interface, hinterface, -⟩ := bind_ok hbefore
    unfold mergedInterface
    split
    · rename_i old hold
      exact (snapshotSetting_ok hinterface hold).get_set
    · exact Sbj.get_build (by simp) (by simp)
  rw [serverAddress, h, Sbj.get_written, hget]
  rfl

end

omit [Platform] in
lemma peerIp_address {b : Batch} (hb : b.Valid) : peerIp b.address = b.server.address :=
  peerIp_append hb.server (lit "24")

omit [Platform] in
/-- A peer is added only if nobody has its address. -/
lemma importAction_add {existing : List WireguardPeer} {peer : Sbj}
    (h : importAction existing peer = .add) :
    batchHost peer ∉ existing.map fun p => peerIp p.address := by
  intro hmem
  obtain ⟨old, hold, he⟩ := List.mem_map.mp hmem
  have hsame : wgImportSameIp (Sbj.getStr (some peer) (lit "address") [])
      (Sbj.cstr old.address) = true := by
    rw [wgImportSameIp, peerIp_cstr, beq_iff_eq]
    exact he.symm
  simp only [importAction] at h
  split_ifs at h with h1 h2
  simp only [List.any_eq_true, not_exists, not_and] at h1 h2
  have h1 := h1 old hold
  have h2 := h2 old hold
  rw [hsame] at h1 h2
  simp_all

omit [Platform] in
lemma serverConflicts_nil {b : Batch} (hb : b.Valid) {s : Store} (h : serverConflicts b s = [])
    (hs : s.peers ≠ []) (options : WireguardOptions) :
    peerIp (serverAddress options s) = b.server.address := by
  simp only [serverConflicts] at h
  rw [if_neg (by simpa using hs), List.append_eq_nil_iff] at h
  have haddress : Sbj.getStr (savedInterface s) (lit "address") [] = Sbj.cstr b.address := by
    by_contra hne
    have := h.2
    rw [if_neg (by simpa using hne)] at this
    cases this
  have hip : peerIp (Sbj.cstr b.address) = b.server.address := by
    rw [peerIp_cstr, peerIp_address hb]
  unfold Sbj.getStr Sbj.asStr at haddress
  split at haddress
  · rename_i a ha
    rw [serverAddress, ha, ← hip, ← haddress]
  · -- The batch has an address, the settings would have none.
    exfalso
    have hne : Sbj.cstr b.address ≠ [] := by
      have hmem : 0x2F ∈ Sbj.cstr b.address := by
        have hplain : ∀ c ∈ b.server.address, (c != 0) = true := fun c hc => by
          simpa using (hb.server c hc).1
        rw [Batch.address, Sbj.cstr, List.takeWhile_append_of_pos hplain]
        exact List.mem_append_right _ (by decide)
      exact List.ne_nil_of_mem hmem
    exact hne haddress.symm

/-- **Imports** keep the addresses distinct and apart from the server's. -/
theorem wgImport_distinct {now : Bytes} {b : Batch} (hb : b.Valid) {apply : Bool}
    {previewDigest : Option Bytes} {s s' : Store} {report : ImportReport}
    (h : wgImport now b apply previewDigest s = .ok (report, s')) (options : WireguardOptions)
    (hdistinct : (hosts s).Nodup) (hserver : peerIp (serverAddress options s) ∉ hosts s) :
    (hosts s').Nodup ∧ peerIp (serverAddress options s') ∉ hosts s' := by
  obtain ⟨digest, hdigest, h⟩ := bind_ok h
  simp only at h
  split at h
  · cases h
    exact ⟨hdistinct, hserver⟩
  split at h
  · cases h
  rename_i hconflicts
  split at h
  · cases h
  obtain ⟨s₁, happly, h⟩ := bind_ok h
  cases h
  obtain ⟨⟨t, ht, hpeers⟩, hsaved⟩ := applyImport_ok happly
  have hclean : serverConflicts b s = [] := by
    simp only [Bool.not_eq_true, Bool.not_eq_false', List.isEmpty_iff,
      List.append_eq_nil_iff] at hconflicts
    exact hconflicts.1
  -- The hosts of the additions are client addresses, hence distinct and not the server's.
  have hhosts : b.peers.map batchHost = b.clients.map (·.ip) := by
    rw [Batch.peers, List.map_map]
    refine List.map_congr_left fun c hc => ?_
    rw [Function.comp_apply, batchHost_peerJson (hb.plain c hc)]
  have hsub : ((additions b s).map batchHost).Sublist (b.clients.map (·.ip)) := by
    rw [← hhosts]
    exact List.filter_sublist.map _
  have hnew : ∀ v ∈ additions b s, batchHost v ∉ s.peers.map fun p => peerIp p.address := by
    intro v hv
    exact importAction_add (of_decide_eq_true (List.mem_filter.mp hv).2)
  obtain ⟨hnodup, hfrom⟩ := restorePeers_distinct ht (hb.distinct.sublist hsub) hdistinct hnew
  have hown : peerIp (serverAddress options s') = b.server.address := by
    rw [serverAddress_merged options hdigest hsaved, Sbj.cstr_cstr, peerIp_cstr, peerIp_address hb]
  rw [hosts, hpeers, hown]
  refine ⟨hnodup, fun hmem => ?_⟩
  obtain ⟨p, hp, he⟩ := List.mem_map.mp hmem
  rcases hfrom p hp with hp | ⟨v, hv, hv'⟩
  · apply hserver
    rw [serverConflicts_nil hb hclean (List.ne_nil_of_mem hp) options, ← he]
    exact List.mem_map_of_mem hp
  · have hclient := hsub.subset (List.mem_map_of_mem hv)
    obtain ⟨c, hc, hci⟩ := List.mem_map.mp hclient
    exact hb.apart c hc (by rw [hci, ← hv', he])

end SbEasy.WireGuard
