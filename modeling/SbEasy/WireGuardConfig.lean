import SbEasy.IniText
import SbEasy.WireGuardUnique

/-!
The server configuration as a text that WireGuard reads back: which stored texts can add to
its sections, and when none does.
-/

namespace SbEasy.WireGuard

/-- The preshared key that is written for a peer, if one is. -/
def writtenKeys (p : WireguardPeer) : List Bytes :=
  match p.presharedKey with
  | some k => if k.isEmpty then [] else [k]
  | none => []

/-- The assignments of a peer. -/
def peerEntries (p : WireguardPeer) : List (Bytes × Bytes) :=
  [(lit "PublicKey", p.publicKey)] ++ (writtenKeys p).map (fun k => (lit "PresharedKey", k)) ++
    [(lit "AllowedIPs", allowedIp p)] ++
    if 0 < p.persistentKeepalive then
      [(lit "PersistentKeepalive", decimalInt p.persistentKeepalive)]
    else []

/-- What the configuration is meant to be: the interface, and one section for each peer. -/
def meant (runtime : WireguardOptions) (privateKey : Bytes) (peers : List WireguardPeer) :
    List Ini.Section :=
  ⟨lit "Interface", [(lit "PrivateKey", privateKey), (lit "ListenPort", decimal runtime.port)]⟩ ::
    peers.map fun p => ⟨lit "Peer", peerEntries p⟩

def entryLine (e : Bytes × Bytes) : Ini.Line := .entry e.1 e.2

def peerLines (p : WireguardPeer) : List Ini.Line :=
  [.empty, .comment (lit " Client: " ++ p.name), .header (lit "Peer")] ++
    (peerEntries p).map entryLine

def configLines (runtime : WireguardOptions) (privateKey : Bytes) (peers : List WireguardPeer) :
    List Ini.Line :=
  [.comment (lit " Generated by sb-easy"), .empty, .header (lit "Interface"),
    .entry (lit "PrivateKey") privateKey, .entry (lit "ListenPort") (decimal runtime.port)] ++
    peers.flatMap peerLines

lemma peerSection_eq (p : WireguardPeer) : peerSection p = Ini.render (peerLines p) := by
  unfold peerSection peerLines peerEntries writtenKeys
  cases p.presharedKey with
  | none =>
    simp only
    split_ifs <;> simp [Ini.render, entryLine, Ini.Line.text, lit]
  | some k =>
    simp only
    split_ifs <;> simp [Ini.render, entryLine, Ini.Line.text, lit]

lemma serverConfig_eq (runtime : WireguardOptions) (privateKey : Bytes)
    (expired : WireguardPeer → Bool) (stats : List PeerStats) (s : Store) :
    serverConfig runtime privateKey expired stats s =
      Ini.render (configLines runtime privateKey (servedPeers expired stats s)) := by
  have hpeers : (servedPeers expired stats s).flatMap peerSection =
      Ini.render ((servedPeers expired stats s).flatMap peerLines) := by
    rw [Ini.render, List.flatMap_assoc]
    exact congrArg (List.flatMap · _) (funext peerSection_eq)
  rw [serverConfig, hpeers, configLines, Ini.render_append]
  simp only [Ini.render, List.flatMap_cons, List.flatMap_nil, Ini.Line.text, List.append_assoc,
    List.append_nil]
  rfl

lemma keywords {k : Bytes} (h : k ∈ [lit "PrivateKey", lit "ListenPort", lit "PublicKey",
    lit "PresharedKey", lit "AllowedIPs", lit "PersistentKeepalive"]) : Ini.Keyword k := by
  simp only [List.mem_cons, List.not_mem_nil, or_false] at h
  rcases h with rfl | rfl | rfl | rfl | rfl | rfl <;>
    exact ⟨by decide, by decide, by decide, by decide, by decide, fun _ hc => by cases hc; decide,
      by decide⟩

lemma name_interface : Ini.Name (lit "Interface") := ⟨by decide, by decide⟩
lemma name_peer : Ini.Name (lit "Peer") := ⟨by decide, by decide⟩

lemma peerEntries_keys {p : WireguardPeer} {e : Bytes × Bytes} (h : e ∈ peerEntries p) :
    Ini.Keyword e.1 := by
  refine keywords ?_
  unfold peerEntries at h
  simp only [List.mem_append, List.mem_singleton, List.mem_map] at h
  rcases h with ((rfl | ⟨k, -, rfl⟩) | rfl) | h
  · simp
  · simp
  · simp
  · split_ifs at h
    · rw [List.mem_singleton.mp h]
      simp
    · cases h

lemma configLines_fixed (runtime : WireguardOptions) (privateKey : Bytes)
    (peers : List WireguardPeer) : ∀ l ∈ configLines runtime privateKey peers, l.Fixed := by
  intro l hl
  simp only [configLines, List.mem_append, List.mem_cons, List.not_mem_nil, or_false,
    List.mem_flatMap, peerLines, List.mem_map] at hl
  rcases hl with (rfl | rfl | rfl | rfl | rfl) | ⟨p, -, (rfl | rfl | rfl) | ⟨e, he, rfl⟩⟩
  · trivial
  · trivial
  · exact name_interface
  · exact keywords (by simp)
  · exact keywords (by simp)
  · trivial
  · trivial
  · exact name_peer
  · exact peerEntries_keys he

lemma configLines_tokens (runtime : WireguardOptions) (privateKey : Bytes)
    (peers : List WireguardPeer) :
    (configLines runtime privateKey peers).flatMap Ini.Line.tokens =
      (meant runtime privateKey peers).flatMap Ini.Section.tokens := by
  have hentries : ∀ es : List (Bytes × Bytes), (es.map entryLine).flatMap Ini.Line.tokens =
      es.map fun e => .entry e.1 e.2 := by
    intro es
    induction es with
    | nil => rfl
    | cons e es ih =>
      rw [List.map_cons, List.flatMap_cons, ih]
      rfl
  have hpeer : ∀ p, (peerLines p).flatMap Ini.Line.tokens =
      Ini.Section.tokens ⟨lit "Peer", peerEntries p⟩ := by
    intro p
    rw [peerLines, List.flatMap_append, hentries]
    rfl
  rw [configLines, List.flatMap_append, List.flatMap_assoc]
  simp only [hpeer, meant, List.flatMap_cons, List.flatMap_map, List.flatMap_nil]
  rfl

/-- The name of a peer stays a comment: what follows a line break in it is blank or a comment
again. -/
def InertName (name : Bytes) : Prop := ∀ l ∈ (Ini.lines name).tail, Ini.token l = none

/-- The stored texts of a peer do not reach beyond their places. -/
structure Harmless (p : WireguardPeer) : Prop where
  name : InertName p.name
  publicKey : Ini.Plain p.publicKey
  presharedKey : ∀ k ∈ writtenKeys p, Ini.Plain k
  address : Ini.Plain (allowedIp p)

lemma plain_decimal (n : ℕ) : Ini.Plain (decimal n) := by
  refine .of_nonblank fun c hc => ?_
  have hd := (JsonParse.decimal_digits n).digit c hc
  refine ⟨isSpace_digit hd, ?_⟩
  rintro rfl
  cases hd

lemma sound_comment_iff (name : Bytes) :
    (Ini.Line.comment (lit " Client: " ++ name)).Sound ↔ InertName name := by
  rw [Ini.Line.Sound, Ini.lines_prepend (by decide), InertName]
  cases Ini.lines name <;> rfl

lemma plain_keepalive {p : WireguardPeer} (h : 0 < p.persistentKeepalive) :
    Ini.Plain (decimalInt p.persistentKeepalive) := by
  rw [decimalInt, if_neg (by omega)]
  exact plain_decimal _

lemma peerEntries_plain_iff (p : WireguardPeer) : (∀ e ∈ peerEntries p, Ini.Plain e.2) ↔
    Ini.Plain p.publicKey ∧ (∀ k ∈ writtenKeys p, Ini.Plain k) ∧ Ini.Plain (allowedIp p) := by
  have hkeepalive : ∀ e ∈ (if 0 < p.persistentKeepalive then
      [(lit "PersistentKeepalive", decimalInt p.persistentKeepalive)] else []), Ini.Plain e.2 := by
    intro e he
    split_ifs at he with h
    · rw [List.mem_singleton.mp he]
      exact plain_keepalive h
    · cases he
  simp only [peerEntries, List.forall_mem_append, List.forall_mem_singleton, List.forall_mem_map,
    and_iff_left hkeepalive, and_assoc]

lemma peerLines_sound_iff (p : WireguardPeer) : (∀ l ∈ peerLines p, l.Sound) ↔ Harmless p := by
  simp only [peerLines, List.forall_mem_append, List.forall_mem_cons, List.forall_mem_map]
  rw [sound_comment_iff]
  constructor
  · rintro ⟨⟨-, hname, -⟩, hentries⟩
    obtain ⟨h1, h2, h3⟩ := (peerEntries_plain_iff p).mp hentries
    exact ⟨hname, h1, h2, h3⟩
  · intro h
    exact ⟨⟨trivial, h.name, trivial, by simp⟩,
      (peerEntries_plain_iff p).mpr ⟨h.publicKey, h.presharedKey, h.address⟩⟩

/-- **Which stored texts can change the configuration.** The server configuration reads back as
the interface and one section for each peer that is enabled, unexpired and under its quota
exactly if the server key and the texts of these peers stay in their places. -/
theorem serverConfig_parse_iff (runtime : WireguardOptions) (privateKey : Bytes)
    (expired : WireguardPeer → Bool) (stats : List PeerStats) (s : Store) :
    Ini.parse (serverConfig runtime privateKey expired stats s) =
        some (meant runtime privateKey (servedPeers expired stats s)) ↔
      Ini.Plain privateKey ∧ ∀ p ∈ servedPeers expired stats s, Harmless p := by
  rw [serverConfig_eq, Ini.parse_render_iff (configLines_fixed _ _ _) (configLines_tokens _ _ _),
    configLines]
  simp only [List.forall_mem_append, List.forall_mem_cons, List.forall_mem_flatMap,
    peerLines_sound_iff]
  constructor
  · rintro ⟨⟨-, -, -, hkey, -⟩, hpeers⟩
    exact ⟨hkey, hpeers⟩
  · rintro ⟨hkey, hpeers⟩
    have hcomment : (Ini.Line.comment (lit " Generated by sb-easy")).Sound := by
      rw [Ini.Line.Sound, Ini.lines_of_not_mem (by decide)]
      simp
    exact ⟨⟨hcomment, trivial, trivial, hkey, plain_decimal _, by simp⟩, hpeers⟩

/-- A creation whose name goes on with a section of its own. -/
def injectingEvents : List Event :=
  [.arrive (.create ⟨.build [(lit "name", .str (lit "x\n[Peer]\nPublicKey = evil\nAllowedIPs = 0.0.0.0/0"))],
    Sbj.ordered_build (by simp [Sbj.Ordered])⟩),
    .call 0 (keysOf "a"), .call 0 (keysOf "a"), .call 0 (keysOf "a")]

def injected : Store := (@Panel.run .sample plainService ⟨initialStore, []⟩ injectingEvents).store

/-- The configuration for one peer has two, one of them with all addresses. -/
theorem name_adds_section :
    injected.peers.map (·.publicKey) = [lit "a"] ∧
      (servedPeers (fun _ => false) [] injected).length = 1 ∧
      Ini.parse (serverConfig {} (lit "key") (fun _ => false) [] injected) = some [
        ⟨lit "Interface", [(lit "PrivateKey", lit "key"), (lit "ListenPort", lit "51820")]⟩,
        ⟨lit "Peer", [(lit "PublicKey", lit "evil"), (lit "AllowedIPs", lit "0.0.0.0/0")]⟩,
        ⟨lit "Peer", [(lit "PublicKey", lit "a"), (lit "PresharedKey", lit "a"),
          (lit "AllowedIPs", lit "10.59.32.2/32"), (lit "PersistentKeepalive", lit "25")]⟩] ∧
      Ini.parse (serverConfig {} (lit "key") (fun _ => false) [] injected) ≠
        some (meant {} (lit "key") (servedPeers (fun _ => false) [] injected)) := by
  refine ⟨by decide +kernel, by decide +kernel, by decide +kernel, by decide +kernel⟩

end SbEasy.WireGuard
