import SbEasy.Refresh

/-!
One node of a refresh: which row it goes to, and what the table looks like after it.
-/

namespace SbEasy.Refresh

open JsonParse

/-- The keys of `proxy_nodes`: the primary key and the two `UNIQUE` columns. -/
structure Keyed (t : List ProxyRecord) : Prop where
  ids : (t.map (·.id)).Nodup
  tags : (t.map (·.tag)).Nodup
  fingerprints : (t.map (·.fingerprint)).Nodup

lemma eq_of_nodup_map {α β : Type*} {f : α → β} {l : List α} (h : (l.map f).Nodup) {a b : α}
    (ha : a ∈ l) (hb : b ∈ l) (hab : f a = f b) : a = b :=
  List.inj_on_of_nodup_map h ha hb hab

variable [Platform] {q : Query} {sub : Bytes} {node : ParsedNode} {t t' : List ProxyRecord}

/-- The fingerprint under which a node is stored in a subscription. -/
def storedFingerprint (sub : Bytes) (node : ParsedNode) : Bytes :=
  scopedFingerprint (some sub) (parsedNodeFingerprint node)

/-- A row has one of the fingerprints of a node. -/
def HasFingerprint (sub : Bytes) (node : ParsedNode) (r : ProxyRecord) : Prop :=
  r.fingerprint = storedFingerprint sub node ∨ r.fingerprint = parsedNodeFingerprint node

/-- A row goes under the name of a node. -/
def HasName (node : ParsedNode) (r : ProxyRecord) : Prop :=
  r.tag = node.tag ∨ r.sourceTag = some node.tag

/-- The row that a node is matched to. -/
def matched (q : Query) (sub : Bytes) (node : ParsedNode) (t : List ProxyRecord) :
    Option ProxyRecord :=
  existing q (some sub) (storedFingerprint sub node) (parsedNodeFingerprint node) node.tag t

lemma matched_some {r : ProxyRecord} (h : matched q sub node t = some r) :
    r ∈ t ∧ r.subscriptionId = some sub ∧ (HasFingerprint sub node r ∨
      (∀ x ∈ t, x.subscriptionId = some sub → ¬ HasFingerprint sub node x) ∧ HasName node r) := by
  simp only [matched, existing, Option.or_eq_some_iff] at h
  rcases h with h | ⟨hnone, h⟩
  · have hmem := q.pick_mem h
    simp only [List.mem_filter, Bool.or_eq_true, beq_iff_eq] at hmem
    exact ⟨hmem.1.1, hmem.1.2, .inl hmem.2⟩
  · have hmem := q.pick_mem h
    simp only [List.mem_filter, Bool.and_eq_true, Bool.or_eq_true, beq_iff_eq] at hmem
    refine ⟨hmem.1.1, hmem.1.2, .inr ⟨?_, hmem.2.1⟩⟩
    intro x hx hsub hfp
    have hne : (t.filter (·.subscriptionId == some sub)).filter (fun r =>
        r.fingerprint == storedFingerprint sub node ||
          r.fingerprint == parsedNodeFingerprint node) ≠ [] := by
      refine List.ne_nil_of_mem (a := x) ?_
      simp only [List.mem_filter, Bool.or_eq_true, beq_iff_eq]
      exact ⟨⟨hx, hsub⟩, hfp⟩
    obtain ⟨y, hy⟩ := q.pick_some hne
    rw [hnone] at hy
    cases hy

lemma matched_of_fingerprint {r : ProxyRecord} (hr : r ∈ t) (hsub : r.subscriptionId = some sub)
    (hfp : HasFingerprint sub node r) :
    ∃ x, matched q sub node t = some x ∧ HasFingerprint sub node x := by
  have hne : (t.filter (·.subscriptionId == some sub)).filter (fun r =>
      r.fingerprint == storedFingerprint sub node ||
        r.fingerprint == parsedNodeFingerprint node) ≠ [] := by
    refine List.ne_nil_of_mem (a := r) ?_
    simp only [List.mem_filter, Bool.or_eq_true, beq_iff_eq]
    exact ⟨⟨hr, hsub⟩, hfp⟩
  obtain ⟨x, hx⟩ := q.pick_some hne
  refine ⟨x, ?_, ?_⟩
  · simp only [matched, existing, hx, Option.some_or]
  · have hmem := q.pick_mem hx
    simp only [List.mem_filter, Bool.or_eq_true, beq_iff_eq] at hmem
    exact hmem.2

/-! ### The table after a node -/

/-- The configuration as the table holds it. -/
def storedConfig (node : ParsedNode) : Sbj := node.protocolConfig.1.written

/-- What a row says about a node, apart from its tag. -/
structure StoredAs (sub : Bytes) (node : ParsedNode) (r : ProxyRecord) : Prop where
  subscription : r.subscriptionId = some sub
  nodeType : r.nodeType = node.nodeType
  server : r.server = node.server
  serverPort : r.serverPort = node.serverPort
  config : r.protocolConfig = some (storedConfig node)

/-- The row that is written for a node, from the row it is matched to or as a new one. -/
def writtenRow (sub : Bytes) (node : ParsedNode) (t : List ProxyRecord) (old : Option ProxyRecord)
    (uuid now : Bytes) : ProxyRecord :=
  match old with
  | some r => updatedRow (some sub) node (storedConfig node) (storedFingerprint sub node)
      (importDisplayTag t node.tag (some r.id)) now r
  | none => insertedRow (some sub) node (storedConfig node) (storedFingerprint sub node)
      (importDisplayTag t node.tag none) uuid now

lemma storedAs_writtenRow (old : Option ProxyRecord) (uuid now : Bytes) :
    StoredAs sub node (writtenRow sub node t old uuid now) ∧
      (writtenRow sub node t old uuid now).fingerprint = storedFingerprint sub node ∧
      (writtenRow sub node t old uuid now).sourceTag = some node.tag := by
  cases old with
  | some r => exact ⟨⟨rfl, rfl, rfl, rfl, rfl⟩, rfl, rfl⟩
  | none => exact ⟨⟨rfl, rfl, rfl, rfl, rfl⟩, rfl, rfl⟩

/-- **One node**: it is matched to a row, which is updated, or a row is added. No other row has
the tag or the fingerprint that is written. -/
structure Upserted (q : Query) (sub uuid now : Bytes) (node : ParsedNode) (t : List ProxyRecord)
    (x : Written) (t' : List ProxyRecord) : Prop where
  valid : validateProxy node = .ok ()
  target : x = match matched q sub node t with
    | some r => ⟨r.id, false⟩
    | none => ⟨uuid, true⟩
  fresh : matched q sub node t = none → ∀ y ∈ t, y.id ≠ uuid
  apart : ∀ y ∈ t, y.id ≠ x.id →
    y.tag ≠ (writtenRow sub node t (matched q sub node t) uuid now).tag ∧
      y.fingerprint ≠ storedFingerprint sub node
  table : t' = match matched q sub node t with
    | some r => Table.update (·.id == r.id) (fun y => writtenRow sub node t (some y) uuid now) t
    | none => t ++ [writtenRow sub node t none uuid now]

end SbEasy.Refresh
