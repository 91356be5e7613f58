import SbEasy.WireGuardBatch

/-!
Address uniqueness, call by call. The store compares whole address texts, so two spellings of
one host pass; and an address is proposed in one call and inserted in another.
-/

namespace SbEasy.WireGuard

open JsonParse

/-- No host address twice, none that is the server's own, and so no address that the server
configuration routes to two peers. -/
structure Unique (options : WireguardOptions) (s : Store) : Prop where
  distinct : (hosts s).Nodup
  server : peerIp (serverAddress options s) ∉ hosts s
  allowed : ∀ expired stats, ((servedPeers expired stats s).map allowedIp).Nodup

/-- The server's own address is none that the store may propose. -/
def Outside (service : Service) (runtime : WireguardOptions) (s : Store) : Prop :=
  ∀ octet ∈ List.range' 2 253,
    peerIp (serverAddress service.options s) ≠ network runtime.address ++ 0x2E :: decimal octet

/-- What is asked of a request at its next call: an address it gives is free and not the server's,
and where the store is to propose one, the server's is outside the range. -/
def Task.Careful (service : Service) (s : Store) : Task → Prop
  | .insert peer .explicit =>
    peerIp peer.address ≠ peerIp (serverAddress service.options s) ∧ peerIp peer.address ∉ hosts s
  | .chooseAddress body runtime =>
    Sbj.isString (Sbj.get (some body.1) (lit "address")) = false → Outside service runtime s
  | .allocate _ runtime => Outside service runtime s
  | _ => True

/-- The call may add peers, or move the server. -/
def Task.adds : Task → Bool
  | .insert _ _ => true
  | .runImport _ apply _ => apply
  | _ => false

/-- The request was given an address that is not inserted yet. -/
def Task.proposed : Task → Bool
  | .insert _ .allocated => true
  | _ => false

/-- No call adds peers while another request waits to insert an address it was given. -/
def Panel.Careful (service : Service) (p : Panel) : Event → Prop
  | .call i _ => ∀ t ∈ p.tasks[i]?, t.Careful service p.store ∧
      (t.adds = true → (p.tasks.eraseIdx i).all (!·.proposed) = true)
  | _ => True

lemma servedPeers_allowed {s : Store} (h : (hosts s).Nodup) (expired : WireguardPeer → Bool)
    (stats : List PeerStats) : ((servedPeers expired stats s).map allowedIp).Nodup := by
  have hips : (s.peers.map allowedIp).Nodup := by
    have : s.peers.map allowedIp = (hosts s).map (· ++ lit "/32") := by
      rw [hosts, List.map_map]
      rfl
    rw [this]
    exact h.map fun a b hab => List.append_cancel_right hab
  have hlist : s.listWireguardPeers.map allowedIp =
      (orderBy (·.address) s.peers).map allowedIp := by
    rw [Store.listWireguardPeers, List.map_map]
    rfl
  have hall : (s.listWireguardPeers.map allowedIp).Nodup := by
    rw [hlist]
    exact ((List.perm_insertionSort _ _).map _).nodup_iff.mpr hips
  exact hall.sublist (List.filter_sublist.map _)

lemma Unique.of {options : WireguardOptions} {s : Store} (h1 : (hosts s).Nodup)
    (h2 : peerIp (serverAddress options s) ∉ hosts s) : Unique options s :=
  ⟨h1, h2, servedPeers_allowed h1⟩

section

variable {s s' : Store}

lemma createWireguardPeer_ok {uuid now : Bytes} {peer out : WireguardPeer}
    (h : createWireguardPeer uuid now peer s = .ok (out, s')) :
    hosts s' = hosts s ++ [peerIp peer.address] ∧ s'.settings = s.settings := by
  simp only [createWireguardPeer] at h
  split_ifs at h <;> cases h <;> simp [hosts]

lemma updateWireguardPeer_ok {now : Bytes} {peer : WireguardPeer}
    (h : updateWireguardPeer now peer s = .ok s') :
    hosts s' = hosts s ∧ s'.settings = s.settings := by
  simp only [updateWireguardPeer] at h
  split_ifs at h
  cases h
  exact ⟨Table.map_update fun r _ _ => rfl, rfl⟩

lemma deleteWireguardPeer_ok {id : Bytes} (h : deleteWireguardPeer id s = .ok s') :
    (hosts s').Sublist (hosts s) ∧ s'.settings = s.settings := by
  simp only [deleteWireguardPeer] at h
  split_ifs at h
  cases h
  exact ⟨List.filter_sublist.map _, rfl⟩

lemma serverAddress_congr (options : WireguardOptions) (h : s'.settings = s.settings) :
    serverAddress options s' = serverAddress options s := by
  simp only [serverAddress, savedInterface, Store.appSetting, h]

lemma Unique.mono {options : WireguardOptions} (hu : Unique options s)
    (hsub : (hosts s').Sublist (hosts s)) (h : s'.settings = s.settings) : Unique options s' := by
  refine .of (hu.distinct.sublist hsub) ?_
  rw [serverAddress_congr options h]
  exact fun hmem => hu.server (hsub.subset hmem)

lemma unique_append {options : WireguardOptions} {ip : Bytes} (hu : Unique options s)
    (h1 : hosts s' = hosts s ++ [ip]) (h2 : s'.settings = s.settings)
    (hne : ip ≠ peerIp (serverAddress options s)) (hfree : ip ∉ hosts s) : Unique options s' := by
  refine .of ?_ ?_
  · rw [h1, List.nodup_append]
    refine ⟨hu.distinct, by simp, fun a ha b hb => ?_⟩
    rintro rfl
    exact hfree (List.mem_singleton.mp hb ▸ ha)
  · rw [h1, serverAddress_congr options h2, List.mem_append, not_or, List.mem_singleton]
    exact ⟨hu.server, Ne.symm hne⟩

end

/-! ### Tasks -/

/-- What holds of a task in flight: a proposed address is free, a batch is valid. -/
def Task.Holds (options : WireguardOptions) (s : Store) : Task → Prop
  | .insert peer .allocated =>
    peerIp peer.address ≠ peerIp (serverAddress options s) ∧ peerIp peer.address ∉ hosts s
  | .runImport batch _ _ => batch.Valid
  | _ => True

lemma Task.Holds.mono {options : WireguardOptions} {s s' : Store} {t : Task} (h : t.Holds options s)
    (hsub : (hosts s').Sublist (hosts s)) (hsettings : s'.settings = s.settings) :
    t.Holds options s' := by
  cases t with
  | insert peer origin =>
    cases origin with
    | explicit => trivial
    | allocated =>
      rw [Task.Holds, serverAddress_congr options hsettings]
      exact ⟨h.1, fun hmem => h.2 (hsub.subset hmem)⟩
  | runImport batch apply digest => exact h
  | _ => trivial

lemma Task.Holds.of_not_proposed {options : WireguardOptions} {s s' : Store} {t : Task}
    (h : t.Holds options s) (hp : t.proposed = false) : t.Holds options s' := by
  cases t with
  | insert peer origin =>
    cases origin with
    | explicit => trivial
    | allocated => cases hp
  | runImport batch apply digest => exact h
  | _ => trivial

variable [Platform] {service : Service} {w : World} {s s' : Store}

variable {runtime : WireguardOptions} {body : Sbj} {address : Bytes} {t : Task} {next : Option Task}

lemma peerOfBody_address {peer : WireguardPeer} (h : peerOfBody w runtime body address = .ok peer) :
    peer.address = address := by
  obtain ⟨name, -, h⟩ := bind_ok h
  obtain ⟨dns, -, h⟩ := bind_ok h
  obtain ⟨keepalive, -, h⟩ := bind_ok h
  obtain ⟨allowedIps, -, h⟩ := bind_ok h
  obtain ⟨quota, -, h⟩ := bind_ok h
  cases h
  rfl

lemma migration_holds
    (h : migration service runtime body = .ok t) (options : WireguardOptions) (s : Store) :
    t.Holds options s := by
  simp only [migration] at h
  split at h
  · cases h
  split at h
  · cases h
  split at h
  · cases h
  obtain ⟨batch, hbatch, h⟩ := bind_ok h
  cases h
  exact wgEasyV14Normalize_valid hbatch

omit [Platform] in
lemma nextWireguardAddress_holds
    (h : nextWireguardAddress runtime.address s = .ok address) (hout : Outside service runtime s) :
    peerIp address ≠ peerIp (serverAddress service.options s) ∧ peerIp address ∉ hosts s := by
  obtain ⟨octet, h2, h255, hip, -⟩ := nextWireguardAddress_ok h
  refine ⟨fun he => hout octet ?_ (by rw [← he, hip]), nextWireguardAddress_fresh h⟩
  rw [List.mem_range'_1]
  omega

/-- What a call leaves. -/
structure Task.Kept (options : WireguardOptions) (s : Store) (t : Task) (next : Option Task)
    (s' : Store) : Prop where
  unique : Unique options s'
  valid : ∀ t' ∈ next, t'.Holds options s'
  same : t.adds = false → (hosts s').Sublist (hosts s) ∧ s'.settings = s.settings
  last : t.adds = true → next = none

omit [Platform] in
lemma Task.Kept.of_same {options : WireguardOptions}
    (hu : Unique options s) (hsub : (hosts s').Sublist (hosts s)) (hsettings : s'.settings = s.settings)
    (hadds : t.adds = false) (hnext : ∀ t' ∈ next, t'.Holds options s') : t.Kept options s next s' :=
  ⟨hu.mono hsub hsettings, hnext, fun _ => ⟨hsub, hsettings⟩, fun h => by rw [hadds] at h; cases h⟩

lemma Task.call_keeps (ht : t.Holds service.options s)
    (hc : t.Careful service s) (hu : Unique service.options s)
    (h : t.call service w s = .ok (next, s')) : t.Kept service.options s next s' := by
  cases t with
  | insert peer origin =>
    obtain ⟨⟨out, s₁⟩, hcreate, h⟩ := bind_ok h
    cases h
    obtain ⟨hhosts, hsettings⟩ := createWireguardPeer_ok hcreate
    have hfree : peerIp peer.address ≠ peerIp (serverAddress service.options s) ∧
        peerIp peer.address ∉ hosts s := by
      cases origin with
      | explicit => exact hc
      | allocated => exact ht
    exact ⟨unique_append hu hhosts hsettings hfree.1 hfree.2, by simp, nofun, fun _ => rfl⟩
  | create body =>
    simp only [Task.call] at h
    split at h
    · cases h
    obtain ⟨runtime, -, h⟩ := bind_ok h
    cases h
    exact .of_same hu (.refl _) rfl rfl (by simp [Task.Holds])
  | chooseAddress body runtime =>
    simp only [Task.call] at h
    split at h
    · obtain ⟨peer, -, h⟩ := bind_ok h
      cases h
      exact .of_same hu (.refl _) rfl rfl (by simp [Task.Holds])
    · rename_i hstring
      obtain ⟨address, haddress, h⟩ := bind_ok h
      obtain ⟨peer, hpeer, h⟩ := bind_ok h
      cases h
      refine .of_same hu (.refl _) rfl rfl fun t' ht' => ?_
      cases ht'
      rw [Task.Holds, peerOfBody_address hpeer]
      refine nextWireguardAddress_holds haddress (hc ?_)
      cases hget : Sbj.get (some body.1) (lit "address") with
      | none => rfl
      | some v =>
        cases v with
        | str a => exact absurd hget (hstring a)
        | _ => rfl
  | provision host =>
    simp only [Task.call] at h
    split at h <;> cases h <;> exact .of_same hu (.refl _) rfl rfl (by simp [Task.Holds])
  | matchName host existing =>
    obtain ⟨runtime, -, h⟩ := bind_ok h
    split at h <;> cases h <;> exact .of_same hu (.refl _) rfl rfl (by simp [Task.Holds])
  | link candidate =>
    obtain ⟨s₁, hupdate, h⟩ := bind_ok h
    cases h
    obtain ⟨hhosts, hsettings⟩ := updateWireguardPeer_ok hupdate
    exact .of_same hu (hhosts ▸ .refl _) hsettings rfl (by simp)
  | allocate host runtime =>
    obtain ⟨allocated, hallocated, h⟩ := bind_ok h
    cases h
    refine .of_same hu (.refl _) rfl rfl fun t' ht' => ?_
    cases ht'
    -- The host part goes over unchanged, whatever prefix length is put behind it.
    have hip : peerIp (peerIp allocated ++ lit "/32") = peerIp allocated :=
      peerIp_append (fun c hc => mem_peerIp hc) (lit "32")
    rw [Task.Holds, hostPeer, hip]
    exact nextWireguardAddress_holds hallocated hc
  | migrate body =>
    obtain ⟨runtime, -, h⟩ := bind_ok h
    obtain ⟨task, htask, h⟩ := bind_ok h
    cases h
    refine .of_same hu (.refl _) rfl rfl fun t' ht' => ?_
    cases ht'
    exact migration_holds htask _ _
  | runImport batch apply previewDigest =>
    obtain ⟨⟨report, s₁⟩, himport, h⟩ := bind_ok h
    cases h
    obtain ⟨h1, h2⟩ := wgImport_distinct ht himport service.options hu.distinct hu.server
    refine ⟨.of h1 h2, by simp, fun happly => ?_, fun _ => rfl⟩
    rw [show apply = false from happly] at himport
    obtain ⟨digest, -, himport⟩ := bind_ok himport
    cases himport
    exact ⟨.refl _, rfl⟩
  | delete id =>
    simp only [Task.call] at h
    split at h <;> cases h
    exact .of_same hu (.refl _) rfl rfl (by simp [Task.Holds])
  | deprovision hostId =>
    simp only [Task.call] at h
    split at h <;> cases h <;> exact .of_same hu (.refl _) rfl rfl (by simp [Task.Holds])
  | remove id =>
    obtain ⟨s₁, hdelete, h⟩ := bind_ok h
    cases h
    obtain ⟨hsub, hsettings⟩ := deleteWireguardPeer_ok hdelete
    exact .of_same hu hsub hsettings rfl (by simp)

end SbEasy.WireGuard
