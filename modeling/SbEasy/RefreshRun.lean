import SbEasy.RefreshStep

/-!
A whole refresh: the rows that its nodes are written to, one after the other, and what a row
holds in the end.
-/

namespace SbEasy.Refresh

open JsonParse

variable [Platform] {q : Query} {w : RefreshWorld} {sub : Bytes}

section

variable {uuid now : Bytes} {node : ParsedNode} {t t' : List ProxyRecord} {x : Written}

/-- The row that a node is written to. -/
abbrev Upserted.row (_ : Upserted q sub uuid now node t x t') : ProxyRecord :=
  writtenRow sub node t (matched q sub node t) uuid now

lemma Upserted.row_id (h : Upserted q sub uuid now node t x t') : h.row.id = x.id := by
  have ht := h.target
  unfold Upserted.row
  cases hm : matched q sub node t <;> rw [hm] at ht <;> rw [ht] <;> rfl

lemma Upserted.row_storedAs (h : Upserted q sub uuid now node t x t') :
    StoredAs sub node h.row ∧ h.row.fingerprint = storedFingerprint sub node ∧
      h.row.sourceTag = some node.tag :=
  storedAs_writtenRow _ _ _

lemma Upserted.mem_iff (hk : Keyed t) (h : Upserted q sub uuid now node t x t')
    {y : ProxyRecord} : y ∈ t' ↔ (y ∈ t ∧ y.id ≠ x.id) ∨ y = h.row := by
  have ht := h.target
  have htable := h.table
  unfold Upserted.row
  cases hm : matched q sub node t with
  | some r =>
    have hr := (matched_some hm).1
    rw [hm] at ht htable
    rw [htable, ht, Table.mem_update]
    constructor
    · rintro ⟨y₀, hy₀, rfl⟩
      by_cases hid : y₀.id = r.id
      · rw [if_pos (by simpa using hid), eq_of_nodup_map hk.ids hy₀ hr hid]
        exact .inr rfl
      · rw [if_neg (by simpa using hid)]
        exact .inl ⟨hy₀, hid⟩
    · rintro (⟨hy, hid⟩ | rfl)
      · exact ⟨y, hy, by rw [if_neg (by simpa using hid)]⟩
      · exact ⟨r, hr, by rw [if_pos (by simp)]⟩
  | none =>
    rw [hm] at ht htable
    have hfresh := h.fresh hm
    rw [htable, ht, List.mem_append, List.mem_singleton]
    exact or_congr_left ⟨fun hy => ⟨hy, hfresh y hy⟩, fun hy => hy.1⟩

lemma Upserted.row_mem (hk : Keyed t) (h : Upserted q sub uuid now node t x t') : h.row ∈ t' :=
  (h.mem_iff hk).mpr (.inr rfl)

lemma Upserted.ids (hk : Keyed t) (h : Upserted q sub uuid now node t x t') :
    (t'.map (·.id)).Nodup := by
  have htable := h.table
  cases hm : matched q sub node t with
  | some r =>
    have hmap : (Table.update (·.id == r.id) (fun y => writtenRow sub node t (some y) uuid now)
        t).map (·.id) = t.map (·.id) := Table.map_update fun y _ _ => rfl
    rw [hm] at htable
    rw [htable]
    exact (congrArg List.Nodup hmap).mpr hk.ids
  | none =>
    rw [hm] at htable
    rw [htable, List.map_append, List.nodup_append]
    refine ⟨hk.ids, by simp, ?_⟩
    intro a ha b hb
    obtain ⟨y, hy, rfl⟩ := List.mem_map.mp ha
    rw [List.map_singleton, List.mem_singleton] at hb
    rw [hb]
    exact h.fresh hm y hy

lemma Upserted.keyed (hk : Keyed t) (h : Upserted q sub uuid now node t x t') : Keyed t' := by
  have hids := h.ids hk
  refine ⟨hids, ?_, ?_⟩ <;> refine List.Nodup.map_on ?_ hids.of_map <;> intro a ha b hb hab
  · rcases (h.mem_iff hk).mp ha with ⟨ha, hai⟩ | rfl <;>
      rcases (h.mem_iff hk).mp hb with ⟨hb, hbi⟩ | rfl
    · exact eq_of_nodup_map hk.tags ha hb hab
    · exact absurd hab (h.apart a ha hai).1
    · exact absurd hab.symm (h.apart b hb hbi).1
    · rfl
  · have hrow := h.row_storedAs.2.1
    rcases (h.mem_iff hk).mp ha with ⟨ha, hai⟩ | rfl <;>
      rcases (h.mem_iff hk).mp hb with ⟨hb, hbi⟩ | rfl
    · exact eq_of_nodup_map hk.fingerprints ha hb hab
    · exact absurd (hab.trans hrow) (h.apart a ha hai).2
    · exact absurd (hab.symm.trans hrow) (h.apart b hb hbi).2
    · rfl

end

/-! ### After all nodes -/

/-- The nodes of a refresh, each with the row it was written to. -/
inductive Upserts (q : Query) (w : RefreshWorld) (sub : Bytes) :
    ℕ → List ProxyRecord → List (ParsedNode × Written) → List ProxyRecord → Prop
  | nil {i : ℕ} {t : List ProxyRecord} : Upserts q w sub i t [] t
  | cons {i : ℕ} {t t₁ t₂ : List ProxyRecord} {node : ParsedNode} {x : Written}
      {log : List (ParsedNode × Written)}
      (first : Upserted q sub (w.uuid i) (w.clock i) node t x t₁)
      (rest : Upserts q w sub (i + 1) t₁ log t₂) : Upserts q w sub i t ((node, x) :: log) t₂

namespace Upserts

variable {i : ℕ} {t t' : List ProxyRecord} {log : List (ParsedNode × Written)}

lemma keyed (hk : Keyed t) (h : Upserts q w sub i t log t') : Keyed t' := by
  induction h with
  | nil => exact hk
  | cons first _ ih => exact ih (first.keyed hk)

lemma persists (hk : Keyed t) (h : Upserts q w sub i t log t') {r : ProxyRecord} (hr : r ∈ t)
    (hlog : ∀ p ∈ log, p.2.id ≠ r.id) : r ∈ t' := by
  induction h with
  | nil => exact hr
  | cons first _ ih =>
    have hne := hlog _ List.mem_cons_self
    exact ih (first.keyed hk) ((first.mem_iff hk).mpr (.inl ⟨hr, hne.symm⟩))
      fun p hp => hlog p (List.mem_cons_of_mem _ hp)

lemma kept (hk : Keyed t) (h : Upserts q w sub i t log t') {before after : List (ParsedNode × Written)}
    {node : ParsedNode} {x : Written} (hlog : log = before ++ (node, x) :: after)
    (hafter : ∀ p ∈ after, p.2.id ≠ x.id) :
    ∃ r ∈ t', r.id = x.id ∧ StoredAs sub node r ∧
      r.fingerprint = storedFingerprint sub node ∧ r.sourceTag = some node.tag := by
  induction h generalizing before with
  | nil => simp at hlog
  | @cons i t t₁ t₂ node' x' log first rest ih =>
    cases before with
    | nil =>
      obtain ⟨⟨rfl, rfl⟩, rfl⟩ := by simpa using hlog
      obtain ⟨h1, h2, h3⟩ := first.row_storedAs
      refine ⟨first.row, ?_, first.row_id, h1, h2, h3⟩
      refine rest.persists (first.keyed hk) (first.row_mem hk) fun p hp => ?_
      rw [first.row_id]
      exact hafter p hp
    | cons p before =>
      rw [List.cons_append, List.cons.injEq] at hlog
      exact ih (first.keyed hk) hlog.2

end Upserts
end SbEasy.Refresh
