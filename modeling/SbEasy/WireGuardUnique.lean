import SbEasy.WireGuardCalls

/-!
Address uniqueness over interleaved requests: two requests at the same time can break it, and it
holds throughout a run that keeps insertions out of the way of proposed addresses.
-/

namespace SbEasy.WireGuard

open JsonParse

namespace Panel

section

variable [Platform] {service : Service}

/-- The addresses are unique, and every request in flight may go on. -/
structure Inv (options : WireguardOptions) (p : Panel) : Prop where
  unique : Unique options p.store
  tasks : ∀ t ∈ p.tasks, t.Holds options p.store

omit [Platform] in
lemma Inv.abandon {options : WireguardOptions} {p : Panel} (h : p.Inv options) (i : ℕ) :
    (p.advance i none p.store).Inv options :=
  ⟨h.unique, fun t ht => h.tasks t (List.mem_of_mem_eraseIdx ht)⟩

lemma Inv.step {p : Panel} (h : p.Inv service.options) {e : Event} (he : p.Careful service e) :
    (p.step service e).Inv service.options := by
  cases e with
  | arrive r =>
    refine ⟨h.unique, fun t ht => ?_⟩
    rcases List.mem_append.mp ht with ht | ht
    · exact h.tasks t ht
    · rw [List.mem_singleton.mp ht]
      cases r <;> trivial
  | abandon i => exact h.abandon i
  | call i w =>
    rw [Panel.step]
    cases ht : p.tasks[i]? with
    | none => exact h
    | some t =>
      obtain ⟨hcareful, halone⟩ := he t ht
      simp only
      split
      · rename_i next s' hcall
        have hkept := Task.call_keeps (h.tasks t (List.mem_of_getElem? ht)) hcareful h.unique hcall
        refine ⟨hkept.unique, fun x hx => ?_⟩
        cases hadds : t.adds with
        | true =>
          -- What is left waits for no address it was given.
          rw [hkept.last hadds] at hx
          have hproposed := List.all_eq_true.mp (halone hadds) x hx
          exact (h.tasks x (List.mem_of_mem_eraseIdx hx)).of_not_proposed (by simpa using hproposed)
        | false =>
          obtain ⟨hsub, hsettings⟩ := hkept.same hadds
          cases next with
          | none => exact (h.tasks x (List.mem_of_mem_eraseIdx hx)).mono hsub hsettings
          | some t' =>
            rcases List.mem_or_eq_of_mem_set hx with hx | rfl
            · exact (h.tasks x hx).mono hsub hsettings
            · exact hkept.valid x rfl
      · exact h.abandon i

/-- Every event of a run meets the conditions, in the state it finds. -/
def CarefulRun (service : Service) : Panel → List Event → Prop
  | _, [] => True
  | p, e :: events => p.Careful service e ∧ CarefulRun service (p.step service e) events

/-- **Address uniqueness.** From a store with distinct addresses and no request in flight, the
addresses stay distinct if requests give free addresses, the server's is outside the range the
store proposes from, and no peer is added while a proposed address waits for its insertion. -/
theorem addresses_unique (service : Service) (s : Store) (hs : Unique service.options s)
    (events : List Event) (h : CarefulRun service ⟨s, []⟩ events) (before after : List Event)
    (he : events = before ++ after) : Unique service.options (run service ⟨s, []⟩ before).store := by
  have hrun : ∀ (before : List Event) (p : Panel), p.Inv service.options →
      CarefulRun service p (before ++ after) → (p.run service before).Inv service.options := by
    intro before
    induction before with
    | nil => exact fun p hp _ => hp
    | cons e before ih => exact fun p hp hc => ih _ (hp.step hc.1) hc.2
  exact (hrun before ⟨s, []⟩ ⟨hs, fun t ht => by cases ht⟩ (he ▸ h)).unique

end
end Panel

/-- The interface settings of `001_initial.sql`. -/
def initialStore : Store where
  settings := [(lit "wireguard_interface", ⟨.build [(lit "interface", .str (lit "wg0")),
    (lit "listen_port", .int 51820), (lit "address", .str (lit "10.59.32.1/24")),
    (lit "dns", .str (lit "10.59.32.1")), (lit "mtu", .int 1420)],
    Sbj.ordered_build (by simp [Sbj.Ordered])⟩)]

def plainService : Service where
  wireguardEnabled := true
  tools := {
    inet4 := fun _ => none, inet6 := fun _ => false, decodeBlock := fun _ => none
    encodeBlock := id, publicKeyFromPrivate := fun _ => none
    inet4_slash := fun h => by cases h }

def keysOf (name : String) : World where
  privateKey := lit name
  publicKey := lit name
  presharedKey := lit name
  uuid := lit name
  now := lit "2026-01-01 00:00:00"

def createLaptop : Event :=
  .arrive (.create ⟨.build [(lit "name", .str (lit "laptop"))],
    Sbj.ordered_build (by simp [Sbj.Ordered])⟩)

/-- Both requests ask for an address before either inserts its peer. -/
def racingEvents : List Event :=
  [createLaptop, .arrive (.provision ⟨lit "h1", lit "edge"⟩),
    .call 0 (keysOf "a"), .call 1 (keysOf "b"), .call 1 (keysOf "b"),
    .call 0 (keysOf "a"), .call 1 (keysOf "b"), .call 0 (keysOf "a"), .call 0 (keysOf "b")]

lemma unique_initialStore : Unique plainService.options initialStore := .of (by decide) (by decide)

/-- The peers have one host address between them, in two spellings. -/
theorem racing_requests_share_address :
    (@Panel.run .sample plainService ⟨initialStore, []⟩ racingEvents).store.peers.map (·.address) =
        [lit "10.59.32.2/24", lit "10.59.32.2/32"] ∧
      ¬ Unique plainService.options
        (@Panel.run .sample plainService ⟨initialStore, []⟩ racingEvents).store := by
  refine ⟨by decide +kernel, fun h => ?_⟩
  have hd := h.distinct
  revert hd
  decide +kernel

/-- A peer with an address of its own, one without and a host, none in the way of another. -/
def carefulEvents : List Event :=
  [createLaptop, .arrive (.provision ⟨lit "h1", lit "edge"⟩),
    .arrive (.create ⟨.build [(lit "name", .str (lit "tv")), (lit "address", .str (lit "10.59.32.9"))],
      Sbj.ordered_build (by simp [Sbj.Ordered])⟩),
    .call 0 (keysOf "a"), .call 1 (keysOf "b"), .call 2 (keysOf "c"), .call 2 (keysOf "c"),
    .call 2 (keysOf "c"), .call 0 (keysOf "a"), .call 0 (keysOf "a"), .call 0 (keysOf "b"),
    .call 0 (keysOf "b"), .call 0 (keysOf "b")]

instance (service : Service) (s : Store) (t : Task) : Decidable (t.Careful service s) := by
  unfold Task.Careful Outside
  split <;> infer_instance

instance (service : Service) (p : Panel) (e : Event) : Decidable (p.Careful service e) := by
  unfold Panel.Careful
  split <;> infer_instance

instance decidableCarefulRun [Platform] (service : Service) :
    ∀ (p : Panel) (events : List Event), Decidable (Panel.CarefulRun service p events)
  | _, [] => .isTrue trivial
  | p, e :: events => @instDecidableAnd _ _ _ (decidableCarefulRun service (p.step service e) events)

theorem addresses_unique_three_peers :
    (@Panel.run .sample plainService ⟨initialStore, []⟩ carefulEvents).store.peers.map (·.address) =
        [lit "10.59.32.9", lit "10.59.32.2/24", lit "10.59.32.3/32"] ∧
      Unique plainService.options
        (@Panel.run .sample plainService ⟨initialStore, []⟩ carefulEvents).store :=
  ⟨by decide +kernel, @Panel.addresses_unique .sample plainService initialStore unique_initialStore
    carefulEvents (by decide +kernel) carefulEvents [] rfl⟩

end SbEasy.WireGuard
