import SbEasy.Render

/-!
The tags of the generated outbounds: when they are distinct, and which outbounds are called
`direct` and `auto`.
-/

namespace SbEasy.Render

open Sbj (IsObj Has)

lemma stringIs_iff {v : Option Sbj} {t : Bytes} :
    Sbj.stringIs v t = true ↔ v = some (.str t) := by
  unfold Sbj.stringIs
  split <;> simp_all

def tagOf (o : Sbj) : Option Sbj := Sbj.get (some o) (lit "tag")
def typeOf (o : Sbj) : Option Sbj := Sbj.get (some o) (lit "type")

/-! ### The entries of the nodes -/

/-- The node types that are proxies. Every other type becomes a direct outbound. -/
def proxyTypes : List Bytes :=
  [lit "shadowsocks", lit "vmess", lit "trojan", lit "vless", lit "hysteria2", lit "tuic",
    lit "http", lit "socks"]

def outboundType (node : ProxyNode) : Bytes :=
  if node.type ∈ proxyTypes then node.type else lit "direct"

/-- The enabled nodes with the tags they get. -/
def taggedNodes : List ProxyNode → List (Bytes × ℕ) → List (ProxyNode × Bytes)
  | [], _ => []
  | node :: nodes, seen =>
    if !node.enabled then taggedNodes nodes seen
    else
      (node, numberedTag node.tag (nextOccurrence seen node.tag)) ::
        taggedNodes nodes (SortedAssoc.set seen node.tag (nextOccurrence seen node.tag))

def nodeTags (nodes : List ProxyNode) : List Bytes := (taggedNodes nodes []).map Prod.snd

lemma taggedNodes_fst (nodes : List ProxyNode) (seen : List (Bytes × ℕ)) :
    (taggedNodes nodes seen).map Prod.fst = nodes.filter fun node => node.enabled := by
  induction nodes generalizing seen with
  | nil => rfl
  | cons node nodes ih =>
    rw [taggedNodes]
    cases hen : node.enabled with
    | false => simpa [hen] using ih seen
    | true => simp [hen, ih]

/-! ### The numbers of the tags -/

def enabledNodes (nodes : List ProxyNode) : List ProxyNode := nodes.filter fun node => node.enabled

/-- How many of the nodes have a tag. -/
def occurrences (nodes : List ProxyNode) (tag : Bytes) : ℕ := nodes.countP (·.tag == tag)

lemma numberedTag_of_lt {k : ℕ} (h : 1 < k) (tag : Bytes) :
    numberedTag tag k = tag ++ [0x20] ++ 0x23 :: decimal k := by
  rw [numberedTag, if_pos h]
  simp [show lit " #" = [0x20, 0x23] by decide]

lemma numberedTag_of_le {k : ℕ} (h : k ≤ 1) (tag : Bytes) : numberedTag tag k = tag :=
  if_neg (by omega)

/-- Two nodes with one tag have one number, or the one is called like the other with a number. -/
lemma numberedTag_eq {a b : Bytes} {j k : ℕ} (hj : 1 ≤ j) (hk : 1 ≤ k)
    (h : numberedTag a j = numberedTag b k) :
    a = b ∧ j = k ∨ 1 < k ∧ a = numberedTag b k ∨ 1 < j ∧ b = numberedTag a j := by
  by_cases hj1 : 1 < j
  · by_cases hk1 : 1 < k
    · rw [numberedTag_of_lt hj1, numberedTag_of_lt hk1] at h
      obtain ⟨hab, hjk⟩ := JsonParse.append_decimal_inj (by decide) h
      exact Or.inl ⟨List.append_cancel_right hab, hjk⟩
    · rw [numberedTag_of_le (show k ≤ 1 by omega)] at h
      exact Or.inr (Or.inr ⟨hj1, h.symm⟩)
  · rw [numberedTag_of_le (show j ≤ 1 by omega)] at h
    by_cases hk1 : 1 < k
    · exact Or.inr (Or.inl ⟨hk1, h⟩)
    · rw [numberedTag_of_le (show k ≤ 1 by omega)] at h
      exact Or.inl ⟨h, by omega⟩

/-- The counters after some nodes. -/
structure Counted (seen : List (Bytes × ℕ)) (done : List ProxyNode) : Prop where
  sorted : SortedAssoc.Sorted seen
  counts : ∀ tag, (SortedAssoc.get seen tag).getD 0 = occurrences done tag

section

variable {seen : List (Bytes × ℕ)} {done nodes : List ProxyNode} {node : ProxyNode}
  {p : ProxyNode × Bytes}

lemma counted_nil : Counted [] [] := ⟨List.Pairwise.nil, fun tag => by simp [occurrences]⟩

lemma Counted.nextOccurrence (h : Counted seen done) (hfew : done.length + 1 < 2 ^ 32)
    (tag : Bytes) : nextOccurrence seen tag = occurrences done tag + 1 := by
  have hle : occurrences done tag ≤ done.length := List.countP_le_length
  have hcount := h.counts tag
  unfold Render.nextOccurrence
  cases hget : SortedAssoc.get seen tag with
  | none =>
    rw [hget] at hcount
    simp [← hcount]
  | some previous =>
    rw [hget, Option.getD_some] at hcount
    rw [hcount]
    exact Nat.mod_eq_of_lt (by omega)

lemma Counted.next (h : Counted seen done) (node : ProxyNode) :
    Counted (SortedAssoc.set seen node.tag (occurrences done node.tag + 1)) (done ++ [node]) := by
  refine ⟨SortedAssoc.sorted_set h.sorted _, fun tag => ?_⟩
  unfold occurrences
  rw [List.countP_append, List.countP_singleton]
  by_cases ht : tag = node.tag
  · subst ht
    simp [SortedAssoc.get_set_self h.sorted]
  · rw [SortedAssoc.get_set_of_ne h.sorted _ ht, if_neg (by simpa using Ne.symm ht)]
    exact h.counts tag

lemma taggedNodes_cons (h : Counted seen done)
    (hfew : (done ++ enabledNodes (node :: nodes)).length < 2 ^ 32) (hen : node.enabled = true) :
    taggedNodes (node :: nodes) seen =
      (node, numberedTag node.tag (occurrences done node.tag + 1)) :: taggedNodes nodes
        (SortedAssoc.set seen node.tag (occurrences done node.tag + 1)) := by
  have hlength : done.length + 1 < 2 ^ 32 := by
    simp only [enabledNodes, List.filter_cons, hen, if_true, List.length_append,
      List.length_cons] at hfew
    omega
  rw [taggedNodes, h.nextOccurrence hlength]
  simp [hen]

lemma taggedNodes_skip (hen : node.enabled = false) :
    taggedNodes (node :: nodes) seen = taggedNodes nodes seen := by
  rw [taggedNodes]
  simp [hen]

lemma done_append (hen : node.enabled = true) (done : List ProxyNode) :
    done ++ enabledNodes (node :: nodes) = done ++ [node] ++ enabledNodes nodes := by
  simp [enabledNodes, hen]

lemma enabledNodes_skip (hen : node.enabled = false) :
    enabledNodes (node :: nodes) = enabledNodes nodes := by
  simp [enabledNodes, hen]

/-- The number of a node among those with its name. -/
lemma mem_taggedNodes (h : Counted seen done)
    (hfew : (done ++ enabledNodes nodes).length < 2 ^ 32) (hp : p ∈ taggedNodes nodes seen) :
    p.1 ∈ enabledNodes nodes ∧ ∃ k, p.2 = numberedTag p.1.tag k ∧ occurrences done p.1.tag < k ∧
      k ≤ occurrences (done ++ enabledNodes nodes) p.1.tag ∧
      (k = 1 → (done ++ enabledNodes nodes).find? (·.tag == p.1.tag) = some p.1) := by
  induction nodes generalizing seen done with
  | nil => cases hp
  | cons node nodes ih =>
    cases hen : node.enabled with
    | false =>
      rw [taggedNodes_skip hen] at hp
      rw [enabledNodes_skip hen] at hfew ⊢
      exact ih h hfew hp
    | true =>
      rw [taggedNodes_cons h hfew hen] at hp
      rw [done_append hen] at hfew ⊢
      rcases List.mem_cons.mp hp with rfl | hp
      · refine ⟨by simp [enabledNodes, hen], _, rfl, by simp, ?_, fun hk => ?_⟩
        · simp [occurrences, List.countP_append]
        · have hnone : done.find? (·.tag == node.tag) = none := by
            rw [List.find?_eq_none]
            exact List.countP_eq_zero.mp (Nat.succ_injective hk)
          simp [List.find?_append, hnone]
      · obtain ⟨hmem, k, hk, hlt, hrest⟩ := ih (h.next node) hfew hp
        refine ⟨?_, k, hk, lt_of_le_of_lt ?_ hlt, hrest⟩
        · simp only [enabledNodes, List.filter_cons, hen, if_true]
          exact List.mem_cons_of_mem _ hmem
        · simp [occurrences, List.countP_append]

/-- The tags of the enabled nodes keep clear of each other and of the groups: none is `auto`, the
first node called `direct` is no proxy, and none is called like the k-th node of another name. -/
structure Separate (nodes : List ProxyNode) : Prop where
  few : (enabledNodes nodes).length < 2 ^ 32
  auto : ∀ node ∈ enabledNodes nodes, node.tag ≠ lit "auto"
  direct : ∀ node ∈ (enabledNodes nodes).find? (·.tag == lit "direct"), node.type ∉ proxyTypes
  numbered : ∀ a ∈ enabledNodes nodes, ∀ b ∈ enabledNodes nodes,
    ∀ k ≤ occurrences (enabledNodes nodes) a.tag, 2 ≤ k →
      b.tag ≠ a.tag ++ lit " #" ++ decimal k

lemma taggedNodes_nodup {all : List ProxyNode} (h : Counted seen done)
    (hfew : all.length < 2 ^ 32) (hall : all = done ++ enabledNodes nodes)
    (hnumbered : ∀ a ∈ all, ∀ b ∈ all, ∀ k ≤ occurrences all a.tag, 2 ≤ k →
      b.tag ≠ a.tag ++ lit " #" ++ decimal k) :
    ((taggedNodes nodes seen).map Prod.snd).Nodup := by
  induction nodes generalizing seen done with
  | nil => exact List.nodup_nil
  | cons node nodes ih =>
    cases hen : node.enabled with
    | false =>
      rw [taggedNodes_skip hen]
      exact ih h (by rw [hall, enabledNodes_skip hen])
    | true =>
      rw [taggedNodes_cons h (hall ▸ hfew) hen, List.map_cons, List.nodup_cons]
      rw [done_append hen] at hall
      refine ⟨fun hmem => ?_, ih (h.next node) hall⟩
      obtain ⟨p, hp, he⟩ := List.mem_map.mp hmem
      obtain ⟨hin, k, hk, hlt, hle, -⟩ := mem_taggedNodes (h.next node) (hall ▸ hfew) hp
      rw [← hall] at hle
      have hnode : node ∈ all := by simp [hall]
      have hother : p.1 ∈ all := by simp [hall, hin]
      have hfirst : occurrences done node.tag + 1 ≤ occurrences all node.tag := by
        simp [hall, occurrences, List.countP_append]
      have hclash : ∀ {a b : ProxyNode} {k : ℕ}, a ∈ all → b ∈ all → k ≤ occurrences all a.tag →
          1 < k → b.tag ≠ numberedTag a.tag k := by
        intro a b k ha hb hk h1
        rw [numberedTag, if_pos h1]
        exact hnumbered a ha b hb k hk h1
      rcases numberedTag_eq (by omega) (by omega) (hk ▸ he) with ⟨hsame, rfl⟩ | ⟨h1, hb⟩ | ⟨h1, hb⟩
      · -- The later of two nodes with one name has a greater number.
        rw [hsame] at hlt
        simp [occurrences, List.countP_append] at hlt
      · exact hclash hnode hother hfirst h1 hb
      · exact hclash hother hnode hle h1 hb

end

section

variable {nodes : List ProxyNode} (h : Separate nodes)
include h

lemma Separate.mem {p : ProxyNode × Bytes} (hp : p ∈ taggedNodes nodes []) :
    p.1 ∈ enabledNodes nodes ∧ ∃ k, p.2 = numberedTag p.1.tag k ∧
      (k ≤ 1 → (enabledNodes nodes).find? (·.tag == p.1.tag) = some p.1) := by
  obtain ⟨hin, k, hk, hlt, -, hfirst⟩ := mem_taggedNodes counted_nil (by simpa using h.few) hp
  exact ⟨hin, k, hk, fun hle => hfirst (by omega)⟩

lemma Separate.distinct : (nodeTags nodes).Nodup :=
  taggedNodes_nodup counted_nil h.few rfl h.numbered

end

section

variable {o : Sbj} {v : Option Sbj}

lemma has_copyIfPresent {k k' : Bytes} (h : Has o k v) (hk : k ≠ k') (source : Sbj) :
    Has (copyIfPresent o source k') k v := by
  unfold copyIfPresent
  cases Sbj.get (some source) k' with
  | none => exact h
  | some w => exact h.set hk w

lemma has_copyAll {k : Bytes} (h : Has o k v) (source : Sbj) {keys : List Bytes} (hk : k ∉ keys) :
    Has (copyAll o source keys) k v := by
  induction keys generalizing o with
  | nil => exact h
  | cons k' keys ih =>
    have hk' : k ≠ k' := fun he => hk (he ▸ List.mem_cons_self)
    exact ih (has_copyIfPresent h hk' source) fun hm => hk (List.mem_cons_of_mem _ hm)

end

lemma has_base (type : Bytes) (node : ProxyNode) :
    Has (outboundBase type node) (lit "type") (some (.str type)) :=
  (((Has.set_self Sbj.isObj_nil _ _).set (by decide) _).set (by decide) _).set (by decide) _

variable [Platform]

lemma generateOutbound_type {node : ProxyNode} {o : Sbj} (h : generateOutbound node = .ok o) :
    Has o (lit "type") (some (.str (outboundType node))) := by
  have base (hp : node.type ∈ proxyTypes) :
      Has (outboundBase node.type node) (lit "type") (some (.str (outboundType node))) := by
    rw [outboundType, if_pos hp]
    exact has_base node.type node
  unfold generateOutbound at h
  simp only at h
  split_ifs at h with h1 h2 h3 h4 h5 h6 h7 h8
  · cases h
    exact ((base (by simp [proxyTypes, h1])).set (by decide) _).set (by decide) _
  · cases hv : valueInt (some node.protocolConfig) (lit "alter_id") 0 with
    | error e => rw [hv] at h; cases h
    | ok n =>
      rw [hv] at h
      cases h
      exact has_copyAll ((((base (by simp [proxyTypes, h2])).set (by decide) _).set (by decide) _).set
        (by decide) _) _ (by decide)
  · cases h
    exact has_copyAll ((base (by simp [proxyTypes, h3])).set (by decide) _) _ (by decide)
  · cases h
    exact has_copyAll ((((base (by simp [proxyTypes, h4])).set (by decide) _).set (by decide) _).set
      (by decide) _) _ (by decide)
  · cases h
    exact has_copyAll ((base (by simp [proxyTypes, h5])).set (by decide) _) _ (by decide)
  · cases h
    exact has_copyAll (((((base (by simp [proxyTypes, h6])).set (by decide) _).set (by decide) _).set
      (by decide) _).set (by decide) _) _ (by decide)
  · cases h
    exact has_copyAll (base (by simp [proxyTypes, h7])) _ (by decide)
  · cases h
    exact has_copyAll (base (by simp [proxyTypes, h8])) _ (by decide)
  · cases h
    rw [show outboundType node = lit "direct" by
      simp [outboundType, proxyTypes, h1, h2, h3, h4, h5, h6, h7, h8]]
    exact (Has.set_self Sbj.isObj_nil _ _).set (by decide) _

/-- The entry of a node under its tag. -/
def EntryOf (p : ProxyNode × Bytes) (o : Sbj) : Prop :=
  ∃ b, generateOutbound p.1 = .ok b ∧ o = b.set (lit "tag") (.str p.2)

lemma EntryOf.tag {p : ProxyNode × Bytes} {o : Sbj} (h : EntryOf p o) :
    tagOf o = some (.str p.2) := by
  obtain ⟨b, hb, rfl⟩ := h
  exact (generateOutbound_type hb).obj.get_set

lemma EntryOf.type {p : ProxyNode × Bytes} {o : Sbj} (h : EntryOf p o) :
    typeOf o = some (.str (outboundType p.1)) := by
  obtain ⟨b, hb, rfl⟩ := h
  exact ((generateOutbound_type hb).set (by decide) _).get

variable {tags : List Bytes} {obs : List Sbj}

lemma nodeOutbounds_ok {nodes : List ProxyNode} {seen : List (Bytes × ℕ)} {entries : List Sbj}
    (h : nodeOutbounds nodes seen = .ok (entries, tags)) :
    List.Forall₂ EntryOf (taggedNodes nodes seen) entries ∧
      tags = (taggedNodes nodes seen).map Prod.snd := by
  induction nodes generalizing seen entries tags with
  | nil =>
    simp only [nodeOutbounds, Except.ok.injEq, Prod.mk.injEq] at h
    obtain ⟨rfl, rfl⟩ := h
    exact ⟨.nil, rfl⟩
  | cons node nodes ih =>
    rw [nodeOutbounds] at h
    rw [taggedNodes]
    split_ifs at h ⊢
    · exact ih h
    · cases hb : generateOutbound node with
      | error e => rw [hb] at h; cases h
      | ok b =>
        simp only [hb, bind, Except.bind] at h
        cases hrest : nodeOutbounds nodes
            (SortedAssoc.set seen node.tag (nextOccurrence seen node.tag)) with
        | error e => rw [hrest] at h; cases h
        | ok r =>
          obtain ⟨rest, tags'⟩ := r
          rw [hrest] at h
          simp only [pure, Except.pure, Except.ok.injEq, Prod.mk.injEq] at h
          obtain ⟨rfl, rfl⟩ := h
          obtain ⟨hall, rfl⟩ := ih hrest
          exact ⟨.cons ⟨b, hb, rfl⟩ hall, rfl⟩

/-! ### The groups -/

omit [Platform] in
lemma urltest_tag (tags : List Bytes) : tagOf (urltest tags) = some (.str (lit "auto")) :=
  ((((Has.set_self (Sbj.isObj_nil.set _ _) _ _).set (by decide) _).set (by decide) _).set
    (by decide) _ |>.set (by decide) _).get

omit [Platform] in
lemma urltest_type (tags : List Bytes) : typeOf (urltest tags) = some (.str (lit "urltest")) :=
  (((((Has.set_self Sbj.isObj_nil _ _).set (by decide) _).set (by decide) _).set
    (by decide) _).set (by decide) _ |>.set (by decide) _).get

omit [Platform] in
lemma urltest_members (tags : List Bytes) :
    Sbj.get (some (urltest tags)) (lit "outbounds") = some (.arr (tags.map Sbj.str)) :=
  (((Has.set_self ((Sbj.isObj_nil.set _ _).set _ _) _ _).set (by decide) _).set
    (by decide) _ |>.set (by decide) _).get

omit [Platform] in
lemma direct_tag (tag : Bytes) : tagOf (directOutbound tag) = some (.str tag) :=
  (Has.set_self (Sbj.isObj_nil.set _ _) _ _).get

omit [Platform] in
lemma direct_type (tag : Bytes) : typeOf (directOutbound tag) = some (.str (lit "direct")) :=
  ((Has.set_self Sbj.isObj_nil _ _).set (by decide) _).get

omit [Platform] in
lemma selector_tag (tag : Bytes) (outbounds : List Sbj) :
    tagOf (selector tag outbounds) = some (.str tag) :=
  (((Has.set_self (Sbj.isObj_nil.set _ _) _ _).set (by decide) _).set (by decide) _).get

/-- Outbounds whose tags are these strings, one after the other. -/
def Tagged (outbounds : List Sbj) (tags : List Bytes) : Prop :=
  outbounds.map tagOf = tags.map fun t => some (Sbj.str t)

omit [Platform] in
lemma Tagged.append {obs' : List Sbj} {tags' : List Bytes} (h : Tagged obs tags)
    (h' : Tagged obs' tags') : Tagged (obs ++ obs') (tags ++ tags') := by
  rw [Tagged, List.map_append, List.map_append, h, h']

omit [Platform] in
lemma Tagged.one {o : Sbj} {tag : Bytes} (h : tagOf o = some (.str tag)) : Tagged [o] [tag] := by
  rw [Tagged, List.map_singleton, List.map_singleton, h]

omit [Platform] in
lemma Tagged.mem (h : Tagged obs tags) {t : Bytes} :
    (∃ o ∈ obs, tagOf o = some (.str t)) ↔ t ∈ tags := by
  have : (some (Sbj.str t)) ∈ obs.map tagOf ↔ t ∈ tags := by
    rw [h, List.mem_map]
    constructor
    · rintro ⟨t', ht', he⟩
      cases he
      exact ht'
    · intro ht
      exact ⟨t, ht, rfl⟩
  rw [← this, List.mem_map]

omit [Platform] in
lemma Tagged.nodup (h : Tagged obs tags) : (obs.map tagOf).Nodup ↔ tags.Nodup := by
  have hinj : Function.Injective fun t : Bytes => some (Sbj.str t) := by
    intro a b he
    cases he
    rfl
  rw [h, List.nodup_map_iff hinj]

omit [Platform] in
lemma Tagged.length (h : Tagged obs tags) : tags.length = obs.length := by
  simpa using (congrArg List.length h).symm

omit [Platform] in
lemma outboundsHaveTag_iff {t : Bytes} :
    outboundsHaveTag obs t = true ↔ ∃ o ∈ obs, tagOf o = some (.str t) := by
  rw [outboundsHaveTag, List.any_eq_true]
  exact exists_congr fun o => and_congr_right fun _ => stringIs_iff

lemma tagged_entries {ps : List (ProxyNode × Bytes)} {entries : List Sbj}
    (h : List.Forall₂ EntryOf ps entries) : Tagged entries (ps.map Prod.snd) := by
  induction h with
  | nil => rfl
  | cons he _ ih => exact Tagged.append (.one he.tag) ih

/-- The tags of the outbounds, group by group. -/
def urltestTags (tags : List Bytes) : List Bytes :=
  if tags.isEmpty then tags else tags ++ [lit "auto"]

def directTags (tags : List Bytes) : List Bytes :=
  if lit "direct" ∈ tags then tags else tags ++ [lit "direct"]

omit [Platform] in
lemma Tagged.withUrltest (h : Tagged obs tags) :
    Tagged (Render.withUrltest obs tags) (urltestTags tags) := by
  unfold Render.withUrltest urltestTags
  split_ifs
  · exact h
  · exact h.append (.one (urltest_tag tags))

omit [Platform] in
lemma Tagged.withDirect (h : Tagged obs tags) :
    Tagged (Render.withDirect obs) (directTags tags) := by
  have hiff : outboundsHaveTag obs (lit "direct") = true ↔ lit "direct" ∈ tags := by
    rw [outboundsHaveTag_iff, h.mem]
  unfold Render.withDirect directTags
  by_cases hd : lit "direct" ∈ tags
  · rw [if_pos hd, if_pos (hiff.mpr hd)]
    exact h
  · rw [if_neg hd, if_neg (fun ht => hd (hiff.mp ht))]
    exact h.append (.one (direct_tag _))

omit [Platform] in
lemma Tagged.withSelector (h : Tagged obs tags) (proxySelector : Option Bytes) :
    Tagged (Render.withSelector obs proxySelector) (tags ++ proxySelector.toList) := by
  cases proxySelector with
  | none =>
    rw [Option.toList_none, List.append_nil]
    exact h
  | some tag => exact h.append (.one (selector_tag tag obs))

omit [Platform] in
/-- The tag of the selector is free: the loop over its candidates ends. -/
lemma selectorTag_free (h : Tagged obs tags) : selectorTag obs ∉ tags := by
  have hgrow : Function.Injective fun n => (fun t : Bytes => t ++ lit " group")^[n] (lit "Proxy") :=
    FreshName.injective_of_length (fun l => by simp [lit]) _
  have hused : ∀ t, outboundsHaveTag obs t = true → t ∈ tags :=
    fun t ht => h.mem.mp (outboundsHaveTag_iff.mp ht)
  have hfree := FreshName.search_free hgrow hused h.length.le
  intro hm
  have := outboundsHaveTag_iff.mpr (h.mem.mpr hm)
  rw [selectorTag] at this
  rw [hfree] at this
  cases this

end SbEasy.Render
