import SbEasy.RefreshRun

/-!
What a refresh leaves alone: rows of other subscriptions and of no subscription, identifiers
and switches, and tags that the user has changed.
-/

namespace SbEasy.Refresh

open JsonParse

variable [Platform] {q : Query} {w : RefreshWorld} {sub : Bytes}

/-- The row of one node is not taken for that of another: names and fingerprints differ, and so
do the stored fingerprint of the one and the unscoped fingerprint of the other. -/
structure Separate (sub : Bytes) (a b : ParsedNode) : Prop where
  name : a.tag ≠ b.tag
  stored : storedFingerprint sub a ≠ storedFingerprint sub b
  unscoped : storedFingerprint sub a ≠ parsedNodeFingerprint b

/-- The nodes of a response cannot be taken for each other. -/
structure Apart (sub : Bytes) (nodes : List ParsedNode) : Prop where
  names : (nodes.map (·.tag)).Nodup
  stored : (nodes.map (storedFingerprint sub)).Nodup
  unscoped : ∀ a ∈ nodes, ∀ b ∈ nodes, storedFingerprint sub a ≠ parsedNodeFingerprint b

/-- SHA-256 does not collide on what is hashed for the nodes of a response: hashing a
fingerprint once more, with the subscription, keeps fingerprints apart and does not give the
fingerprint of a node. -/
structure NoCollision (sub : Bytes) (nodes : List ParsedNode) : Prop where
  stored : ∀ a ∈ nodes, ∀ b ∈ nodes, storedFingerprint sub a = storedFingerprint sub b →
    parsedNodeFingerprint a = parsedNodeFingerprint b
  unscoped : ∀ a ∈ nodes, ∀ b ∈ nodes, storedFingerprint sub a ≠ parsedNodeFingerprint b

variable {nodes : List ParsedNode} {a b : ParsedNode}

lemma NoCollision.apart (h : NoCollision sub nodes)
    (hnames : (nodes.map (·.tag)).Nodup) (hfp : (nodes.map parsedNodeFingerprint).Nodup) :
    Apart sub nodes := by
  refine ⟨hnames, List.Nodup.map_on ?_ hfp.of_map, h.unscoped⟩
  intro a ha b hb hab
  exact eq_of_nodup_map hfp ha hb (h.stored a ha b hb hab)

lemma NoCollision.not_both (h : NoCollision sub nodes)
    (hfp : (nodes.map parsedNodeFingerprint).Nodup) (ha : a ∈ nodes) (hb : b ∈ nodes) (hne : a ≠ b)
    {r : ProxyRecord} (hra : HasFingerprint sub a r) : ¬ HasFingerprint sub b r := by
  intro hrb
  rcases hra with hra | hra <;> rcases hrb with hrb | hrb <;> have he := hra.symm.trans hrb
  · exact hne (eq_of_nodup_map hfp ha hb (h.stored a ha b hb he))
  · exact h.unscoped a ha b hb he
  · exact h.unscoped b hb a ha he.symm
  · exact hne (eq_of_nodup_map hfp ha hb he)

lemma Apart.separate (h : Apart sub nodes)
    (ha : a ∈ nodes) (hb : b ∈ nodes) (hne : a ≠ b) : Separate sub a b where
  name he := hne (eq_of_nodup_map h.names ha hb he)
  stored he := hne (eq_of_nodup_map h.stored ha hb he)
  unscoped := h.unscoped a ha b hb

lemma Apart.sublist {nodes' : List ParsedNode} (h : Apart sub nodes)
    (hsub : nodes'.Sublist nodes) : Apart sub nodes' where
  names := h.names.sublist (hsub.map _)
  stored := h.stored.sublist (hsub.map _)
  unscoped a ha b hb := h.unscoped a (hsub.subset ha) b (hsub.subset hb)

lemma Apart.tail (h : Apart sub (a :: nodes)) :
    Apart sub nodes := h.sublist (List.sublist_cons_self _ _)

lemma Apart.head (h : Apart sub (a :: nodes)) (hb : b ∈ nodes) : Separate sub a b := by
  refine h.separate List.mem_cons_self (List.mem_cons_of_mem _ hb) ?_
  rintro rfl
  exact (List.nodup_cons.mp h.names.of_map).1 hb

section

variable {uuid now : Bytes} {node : ParsedNode} {t t' : List ProxyRecord} {x : Written}

lemma Upserted.matched_of_id (hk : Keyed t) (h : Upserted q sub uuid now node t x t')
    {r : ProxyRecord} (hr : r ∈ t) (hid : x.id = r.id) : matched q sub node t = some r := by
  have ht := h.target
  cases hm : matched q sub node t with
  | none =>
    rw [hm] at ht
    rw [ht] at hid
    exact absurd hid.symm (h.fresh hm r hr)
  | some r' =>
    rw [hm] at ht
    rw [ht] at hid
    rw [eq_of_nodup_map hk.ids (matched_some hm).1 hr hid]

lemma Upserted.frame (hk : Keyed t) (h : Upserted q sub uuid now node t x t') {r : ProxyRecord}
    (hsub : r.subscriptionId ≠ some sub) : r ∈ t' ↔ r ∈ t := by
  rw [h.mem_iff hk]
  have hrow : r ≠ h.row := by
    rintro rfl
    exact hsub h.row_storedAs.1.subscription
  constructor
  · rintro (hr | hr)
    · exact hr.1
    · exact absurd hr hrow
  · intro hr
    refine .inl ⟨hr, fun hid => ?_⟩
    exact hsub (matched_some (h.matched_of_id hk hr hid.symm)).2.1

end

namespace Upserts

variable {i : ℕ} {t t' : List ProxyRecord} {log : List (ParsedNode × Written)}

variable {r : ProxyRecord}

lemma frame (hk : Keyed t) (h : Upserts q w sub i t log t')
    (hsub : r.subscriptionId ≠ some sub) : r ∈ t' ↔ r ∈ t := by
  induction h with
  | nil => rfl
  | cons first _ ih => rw [ih (first.keyed hk), first.frame hk hsub]

end Upserts
end SbEasy.Refresh
