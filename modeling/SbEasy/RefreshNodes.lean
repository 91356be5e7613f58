import SbEasy.RefreshFrame

/-!
Which nodes of a response are in the table after a refresh. A node that has no row under its
fingerprint goes to a row under its name, and that may be the row of an earlier node of the same
response. If names are clear of each other, no row is written twice.
-/

namespace SbEasy.Refresh

open JsonParse

variable [Platform] {q : Query} {w : RefreshWorld} {sub : Bytes} {t₀ t t' : List ProxyRecord}
  {nodes done rest : List ParsedNode} {ids : List Bytes} {a b : ParsedNode} {r : ProxyRecord}

/-- A row of the subscription has a fingerprint of the node. -/
def Known (sub : Bytes) (t : List ProxyRecord) (node : ParsedNode) : Prop :=
  ∃ r ∈ t, r.subscriptionId = some sub ∧ HasFingerprint sub node r

/-- The one node may be shown under the name of the other. -/
def ShownAs (a b : ParsedNode) : Prop := a.tag = b.tag ∨ a.tag ++ lit " [" <+: b.tag

/-- A node without a row under its fingerprint is not taken for another one: it has not the name an
earlier node is shown under, no row under the fingerprint of a node goes under its name, and no row
that it is the user's name of was recorded under the name of an earlier node. -/
structure Clear (sub : Bytes) (t : List ProxyRecord) (nodes : List ParsedNode) : Prop where
  names : nodes.Pairwise fun a b => ¬ Known sub t b → ¬ ShownAs a b
  rows : ∀ b ∈ nodes, ¬ Known sub t b → ∀ a ∈ nodes, ∀ r ∈ t, r.subscriptionId = some sub →
    HasFingerprint sub a r → ¬ HasName b r
  renames : nodes.Pairwise fun a b => ¬ Known sub t b → ∀ r ∈ t, r.subscriptionId = some sub →
    r.sourceTag = some a.tag → r.tag ≠ b.tag

/-- A row that a node of the response was written to. -/
structure Taken (sub : Bytes) (t₀ : List ProxyRecord) (a : ParsedNode) (r : ProxyRecord) :
    Prop where
  fingerprint : r.fingerprint = storedFingerprint sub a
  source : r.sourceTag = some a.tag
  tag : (∃ n, r.tag = displayTag a.tag n) ∨ ∃ r₀ ∈ t₀, r₀.subscriptionId = some sub ∧
    r₀.tag = r.tag ∧ (HasFingerprint sub a r₀ ∨ r₀.sourceTag = some a.tag)

lemma Taken.not_hasName (h : Taken sub t₀ a r) (hnames : ¬ ShownAs a b)
    (hrows : ∀ r ∈ t₀, r.subscriptionId = some sub → HasFingerprint sub a r → ¬ HasName b r)
    (hrenames : ∀ r ∈ t₀, r.subscriptionId = some sub → r.sourceTag = some a.tag → r.tag ≠ b.tag) :
    ¬ HasName b r := by
  rintro (htag | hsource)
  · rcases h.tag with ⟨n, hn⟩ | ⟨r₀, hr₀, hsub, htag₀, hfp | hsource⟩
    · unfold ShownAs at hnames
      rw [← htag, hn] at hnames
      cases n with
      | zero => exact hnames (.inl rfl)
      | succ n => exact hnames (.inr (by simp [displayTag]))
    · exact hrows r₀ hr₀ hsub hfp (.inl (htag₀.trans htag))
    · exact hrenames r₀ hr₀ hsub hsource (htag₀.trans htag)
  · exact hnames (.inl (Option.some.inj (h.source.symm.trans hsource)))

lemma Upserted.taken {uuid now : Bytes} {x : Written} (h : Upserted q sub uuid now b t x t')
    (hold : ∀ r ∈ t, r.id = x.id → r ∈ t₀) : Taken sub t₀ b h.row := by
  obtain ⟨-, hfp, hsource⟩ := h.row_storedAs
  refine ⟨hfp, hsource, ?_⟩
  have hid := h.row_id
  unfold Upserted.row at hid ⊢
  cases hm : matched q sub b t with
  | none => exact .inl ⟨_, rfl⟩
  | some r =>
    rw [hm] at hid
    obtain ⟨hr, hsub, hmatch⟩ := matched_some hm
    cases hren : renamed r with
    | false =>
      left
      simp only [writtenRow, updatedRow, hren, importDisplayTag]
      exact ⟨_, rfl⟩
    | true =>
      have htag : (writtenRow sub b t (some r) uuid now).tag = r.tag := by
        simp [writtenRow, updatedRow, hren]
      rw [htag]
      rcases hmatch with hfp | ⟨-, hname | hname⟩
      · exact .inr ⟨r, hold r hr hid, hsub, rfl, .inl hfp⟩
      · exact .inl ⟨0, hname⟩
      · exact .inr ⟨r, hold r hr hid, hsub, rfl, .inr hname⟩

/-- The table after some nodes, which were written to the rows with `ids`: every one of these rows is
the row of one of the nodes, the others are as before, and so are those of the nodes that follow. -/
structure Progress (sub : Bytes) (t₀ : List ProxyRecord) (done rest : List ParsedNode)
    (ids : List Bytes) (t : List ProxyRecord) : Prop where
  present : ∀ id ∈ ids, ∃ r ∈ t, r.id = id
  old : ∀ r ∈ t, r.id ∉ ids → r ∈ t₀
  taken : ∀ r ∈ t, r.id ∈ ids → ∃ a ∈ done, Taken sub t₀ a r
  known : ∀ r ∈ t₀, r.subscriptionId = some sub → ∀ b ∈ rest, HasFingerprint sub b r →
    r ∈ t ∧ r.id ∉ ids

lemma Progress.found (hp : Progress sub t₀ done (b :: rest) ids t) (h : Known sub t₀ b) :
    Known sub t b := by
  obtain ⟨r, hr, hsub, hfp⟩ := h
  exact ⟨r, (hp.known r hr hsub b List.mem_cons_self hfp).1, hsub, hfp⟩

section

variable {uuid now : Bytes} {x : Written} (hk : Keyed t) (hsha : NoCollision sub nodes)
  (hdistinct : (nodes.map parsedNodeFingerprint).Nodup) (hclear : Clear sub t₀ nodes)
  (hnodes : nodes = done ++ b :: rest) (hp : Progress sub t₀ done (b :: rest) ids t)
  (h : Upserted q sub uuid now b t x t')
include hk hsha hdistinct hclear hnodes hp h

/-- A node is not written to a row that an earlier node was written to. -/
lemma Progress.fresh : x.id ∉ ids := by
  intro hid
  obtain ⟨r, hr, hrid⟩ := hp.present x.id hid
  obtain ⟨a, ha, htaken⟩ := hp.taken r hr (hrid ▸ hid)
  have hbefore := hnodes ▸ hclear.names
  have hrenames := hnodes ▸ hclear.renames
  have hne : a ≠ b := by
    rintro rfl
    rw [hnodes] at hdistinct
    have hnodup := List.nodup_append.mp hdistinct.of_map
    exact hnodup.2.2 a ha a List.mem_cons_self rfl
  have hain : a ∈ nodes := by simp [hnodes, ha]
  have hbin : b ∈ nodes := by simp [hnodes]
  rcases (matched_some (h.matched_of_id hk hr hrid.symm)).2.2 with hfp | ⟨hnone, hname⟩
  · exact hsha.not_both hdistinct hain hbin hne (.inl htaken.fingerprint) hfp
  · have hnew : ¬ Known sub t₀ b := by
      intro hknown
      obtain ⟨y, hy, hsub, hfp⟩ := hp.found hknown
      exact hnone y hy hsub hfp
    refine htaken.not_hasName ?_ (hclear.rows b hbin hnew a hain) ?_ hname
    · exact (List.pairwise_append.mp hbefore).2.2 a ha b List.mem_cons_self hnew
    · exact (List.pairwise_append.mp hrenames).2.2 a ha b List.mem_cons_self hnew

/-- The rows under the fingerprints of later nodes stay as they are. -/
lemma Progress.spared {c : ParsedNode} (hc : c ∈ rest) (hr : r ∈ t₀)
    (hsub : r.subscriptionId = some sub) (hfp : HasFingerprint sub c r) : r.id ≠ x.id := by
  intro hid
  have hrt := (hp.known r hr hsub c (List.mem_cons_of_mem _ hc) hfp).1
  have hbin : b ∈ nodes := by simp [hnodes]
  have hcin : c ∈ nodes := by simp [hnodes, hc]
  have hne : b ≠ c := by
    rintro rfl
    rw [hnodes] at hdistinct
    exact (List.nodup_cons.mp (List.nodup_append.mp hdistinct.of_map).2.1).1 hc
  rcases (matched_some (h.matched_of_id hk hrt hid.symm)).2.2 with hb | ⟨hnone, hname⟩
  · exact hsha.not_both hdistinct hbin hcin hne hb hfp
  · refine hclear.rows b hbin (fun hknown => ?_) c hcin r hr hsub hfp hname
    obtain ⟨y, hy, hsub, hfp⟩ := hp.found hknown
    exact hnone y hy hsub hfp

lemma Progress.step : Progress sub t₀ (done ++ [b]) rest (x.id :: ids) t' := by
  have hfresh := hp.fresh hk hsha hdistinct hclear hnodes h
  refine ⟨fun id hid => ?_, fun r hr hid => ?_, fun r hr hid => ?_, fun r hr hsub c hc hfp => ?_⟩
  · rcases List.mem_cons.mp hid with rfl | hid
    · exact ⟨h.row, h.row_mem hk, h.row_id⟩
    · obtain ⟨r, hr, rfl⟩ := hp.present id hid
      exact ⟨r, (h.mem_iff hk).mpr (.inl ⟨hr, fun he => hfresh (he ▸ hid)⟩), rfl⟩
  · rw [List.mem_cons, not_or] at hid
    rcases (h.mem_iff hk).mp hr with ⟨hr, -⟩ | rfl
    · exact hp.old r hr hid.2
    · exact absurd h.row_id hid.1
  · rcases (h.mem_iff hk).mp hr with ⟨hr, hne⟩ | rfl
    · obtain ⟨a, ha, htaken⟩ := hp.taken r hr ((List.mem_cons.mp hid).resolve_left hne)
      exact ⟨a, List.mem_append_left _ ha, htaken⟩
    · exact ⟨b, by simp, h.taken fun r hr he => hp.old r hr (he ▸ hfresh)⟩
  · have hne := hp.spared hk hsha hdistinct hclear hnodes h hc hr hsub hfp
    obtain ⟨hrt, hid⟩ := hp.known r hr hsub c (List.mem_cons_of_mem _ hc) hfp
    exact ⟨(h.mem_iff hk).mpr (.inl ⟨hrt, hne⟩), by simp [hne, hid]⟩

omit hk hsha hdistinct hclear hnodes in
lemma Progress.updated (hknown : Known sub t₀ b) : x.added = false := by
  obtain ⟨r, hr, hsub, hfp⟩ := hp.found hknown
  obtain ⟨y, hy, -⟩ := matched_of_fingerprint (q := q) hr hsub hfp
  have hx := h.target
  rw [hy] at hx
  rw [hx]

end

/-- **No row is written twice**, and a node with a row under its fingerprint is written to it. -/
lemma Upserts.written_once {i : ℕ} {log : List (ParsedNode × Written)} (hk : Keyed t)
    (hsha : NoCollision sub nodes) (hdistinct : (nodes.map parsedNodeFingerprint).Nodup)
    (hclear : Clear sub t₀ nodes) (h : Upserts q w sub i t log t')
    (hnodes : nodes = done ++ log.map Prod.fst)
    (hp : Progress sub t₀ done (log.map Prod.fst) ids t) :
    (∀ p ∈ log, p.2.id ∉ ids) ∧ (log.map (·.2.id)).Nodup ∧
      ∀ p ∈ log, Known sub t₀ p.1 → p.2.added = false := by
  induction h generalizing done ids with
  | nil => simp
  | @cons i t t₁ t₂ b x log first _ ih =>
    have hfresh := hp.fresh hk hsha hdistinct hclear hnodes first
    have hrest : nodes = done ++ [b] ++ log.map Prod.fst := by simp [hnodes]
    obtain ⟨hids, hnodup, hadded⟩ := ih (first.keyed hk) hrest
      (hp.step hk hsha hdistinct hclear hnodes first)
    refine ⟨?_, ?_, ?_⟩
    · intro p hp'
      rcases List.mem_cons.mp hp' with rfl | hp'
      · exact hfresh
      · exact fun hid => hids p hp' (List.mem_cons_of_mem _ hid)
    · rw [List.map_cons, List.nodup_cons]
      refine ⟨fun hmem => ?_, hnodup⟩
      obtain ⟨p, hp', he⟩ := List.mem_map.mp hmem
      exact hids p hp' (he ▸ List.mem_cons_self)
    · intro p hp'
      rcases List.mem_cons.mp hp' with rfl | hp'
      · exact hp.updated first
      · exact hadded p hp'

/-- The row of a node as a refresh leaves it. -/
structure Settled (sub : Bytes) (node : ParsedNode) (r : ProxyRecord) : Prop where
  stored : StoredAs sub node r
  fingerprint : r.fingerprint = storedFingerprint sub node
  source : r.sourceTag = some node.tag

lemma Upserts.settled {i : ℕ} {log : List (ParsedNode × Written)} (hk : Keyed t)
    (h : Upserts q w sub i t log t')
    (hids : (log.map (·.2.id)).Nodup) : ∀ p ∈ log, ∃ r ∈ t', Settled sub p.1 r := by
  rintro ⟨node, x⟩ hp
  obtain ⟨before, after, rfl⟩ := List.append_of_mem hp
  have hafter : ∀ p ∈ after, p.2.id ≠ x.id := by
    intro p hp he
    rw [List.map_append, List.map_cons, List.nodup_middle, List.nodup_cons] at hids
    exact hids.1 (List.mem_append_right _ (List.mem_map.mpr ⟨p, hp, he⟩))
  obtain ⟨r, hr, -, h1, h2, h3⟩ := h.kept hk rfl hafter
  exact ⟨r, hr, h1, h2, h3⟩

section

variable {now : ℤ} {expected : Subscription} {result : FetchResult} {s s' : Store}
  {written : List Written}

/-- What a refresh that succeeds has done. -/
structure Refreshed (q : Query) (w : RefreshWorld) (now : ℤ) (expected : Subscription)
    (nodes : List ParsedNode) (result : FetchResult) (s : Store) (written : List Written)
    (s' : Store) : Prop where
  length : written.length = nodes.length
  writes : Tx.Ok (upsertNodes q w expected.id 0 nodes) s written { s with nodes := s'.nodes }
  upserts : Upserts q w expected.id 0 s.nodes (nodes.zip written) s'.nodes
  recorded : ∃ interval metadata usage, dumpChecked (fetchMetadata result written) = .ok metadata ∧
    dumpChecked result.usage = .ok usage ∧ s'.subscriptions = Table.update (·.id == expected.id)
      (recordFetch w now interval metadata usage) s.subscriptions
  peers : s'.peers = s.peers
  settings : s'.settings = s.settings

lemma Refreshed.log (h : Refreshed q w now expected nodes result s written s') :
    (nodes.zip written).map Prod.fst = nodes := List.map_fst_zip (by rw [h.length])

lemma Refreshed.once (h : Refreshed q w now expected nodes result s written s')
    (hk : Keyed s.nodes) (hdistinct : (nodes.map parsedNodeFingerprint).Nodup)
    (hsha : NoCollision expected.id nodes) (hclear : Clear expected.id s.nodes nodes) :
    (∀ node ∈ nodes, ∃ r ∈ s'.nodes, Settled expected.id node r) ∧
      ∀ p ∈ nodes.zip written, Known expected.id s.nodes p.1 → p.2.added = false := by
  have hstart : Progress expected.id s.nodes [] ((nodes.zip written).map Prod.fst) [] s.nodes :=
    ⟨by simp, fun _ hr _ => hr, by simp, fun r hr _ _ _ _ => ⟨hr, by simp⟩⟩
  obtain ⟨-, hnodup, hadded⟩ :=
    h.upserts.written_once hk hsha hdistinct hclear (by rw [h.log]; rfl) hstart
  refine ⟨fun node hnode => ?_, hadded⟩
  rw [← h.log] at hnode
  obtain ⟨p, hp, rfl⟩ := List.mem_map.mp hnode
  exact h.upserts.settled hk hnodup p hp

end

instance (sub : Bytes) (node : ParsedNode) (r : ProxyRecord) : Decidable (HasFingerprint sub node r) :=
  inferInstanceAs (Decidable (_ ∨ _))

instance (sub : Bytes) (t : List ProxyRecord) (node : ParsedNode) : Decidable (Known sub t node) :=
  inferInstanceAs (Decidable (∃ r ∈ t, _))

omit [Platform] in
instance (a b : ParsedNode) : Decidable (ShownAs a b) := inferInstanceAs (Decidable (_ ∨ _))

omit [Platform] in
instance (node : ParsedNode) (r : ProxyRecord) : Decidable (HasName node r) :=
  inferInstanceAs (Decidable (_ ∨ _))

omit [Platform]

def numbered : RefreshWorld where
  uuid i := lit "row-" ++ decimal i
  clock _ := lit "2026-01-01 00:00:00"
  datetime _ := lit "2026-01-01 00:00:00"

end SbEasy.Refresh
