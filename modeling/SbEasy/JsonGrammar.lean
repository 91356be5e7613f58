import SbEasy.GrammarLeaves

/-!
`sbj_parse` reads the JSON texts of RFC 8259 that are nested at most 512 deep, and
`sbj_parse_strict` those of them without a duplicate key.

Soundness is an induction over the fuel of the parser, completeness one over the
derivation.
-/

namespace SbEasy

open JsonParse
open Rfc8259 (Tree Ws Value Items Members Member Text)

namespace Rfc8259.Tree

variable [Platform]

mutual
/-- The value of a tree; of the members with one key the last one stays. -/
def value : Tree → Sbj
  | .null => .null
  | .bool b => .bool b
  | .number s => numberValue s (isFloat s)
  | .string s => .str s
  | .array ts => .arr (valueItems ts)
  | .object ms => .obj (valueMembers [] ms)
def valueItems : List Tree → List Sbj
  | [] => []
  | t :: ts => t.value :: valueItems ts
def valueMembers : List (Bytes × Sbj) → List (Bytes × Tree) → List (Bytes × Sbj)
  | o, [] => o
  | o, m :: ms => valueMembers (SortedAssoc.set o m.1 m.2.value) ms
end

lemma get_valueMembers {o : List (Bytes × Sbj)} (ho : SortedAssoc.Sorted o)
    (ms : List (Bytes × Tree)) (k : Bytes) : SortedAssoc.get (valueMembers o ms) k =
      ((ms.reverse.find? fun m => m.1 = k).map fun m => m.2.value).or (SortedAssoc.get o k) := by
  induction ms generalizing o with
  | nil => rfl
  | cons m ms ih =>
    rw [valueMembers, ih (SortedAssoc.sorted_set ho _), List.reverse_cons, List.find?_append]
    cases ms.reverse.find? fun m => decide (m.1 = k) with
    | some x => rfl
    | none =>
      by_cases hk : m.1 = k
      · simp [hk, SortedAssoc.get_set_self ho]
      · simp [hk, SortedAssoc.get_set_of_ne ho _ (Ne.symm hk)]

end Rfc8259.Tree

namespace JsonParse

variable [Platform]

/-! ### Soundness -/

/-- What the parser has found in a text, with `room` for containers left. -/
structure Reads (strict : Bool) (room : ℕ) (t : Tree) (v : Sbj) : Prop where
  depth : t.depth ≤ room
  distinct : strict = true → t.DistinctKeys
  value : v = t.value

structure ReadsItems (strict : Bool) (room : ℕ) (ts : List Tree) : Prop where
  depth : Tree.depthItems ts ≤ room
  distinct : strict = true → Tree.DistinctItems ts

/-- The members that follow those of `o`. -/
structure ReadsMembers (strict : Bool) (room : ℕ) (o : List (Bytes × Sbj))
    (ms : List (Bytes × Tree)) : Prop where
  depth : Tree.depthMembers ms ≤ room
  distinct : strict = true → Tree.DistinctMembers ms
  fresh : strict = true → ∀ m ∈ ms, SortedAssoc.get o m.1 = none
  nodup : strict = true → (ms.map Prod.fst).Nodup

variable {strict : Bool} {room : ℕ} {o : List (Bytes × Sbj)} {ms : List (Bytes × Tree)} {s : Bytes}

lemma ReadsItems.cons {t : Tree} {ts : List Tree} {v : Sbj}
    (h : Reads strict room t v) (hs : ReadsItems strict room ts) :
    ReadsItems strict room (t :: ts) :=
  ⟨max_le h.depth hs.depth, fun hst => ⟨h.distinct hst, hs.distinct hst⟩⟩

omit [Platform] in
lemma ReadsMembers.nil : ReadsMembers strict room o [] :=
  ⟨Nat.zero_le _, fun _ => trivial, by simp, by simp⟩

lemma ReadsMembers.cons {k : Bytes} {t : Tree} {v : Sbj} (ho : SortedAssoc.Sorted o)
    (hk : strict = true → SortedAssoc.get o k = none) (h : Reads strict room t v)
    (hs : ReadsMembers strict room (SortedAssoc.set o k v) ms) :
    ReadsMembers strict room o ((k, t) :: ms) := by
  -- A later member with the key would have found it in the object.
  have hne : strict = true → ∀ m ∈ ms, m.1 ≠ k := by
    intro hst m hm he
    have := hs.fresh hst m hm
    rw [he, SortedAssoc.get_set_self ho] at this
    cases this
  refine ⟨max_le h.depth hs.depth, fun hst => ⟨h.distinct hst, hs.distinct hst⟩, ?_, ?_⟩
  · intro hst m hm
    rcases List.mem_cons.mp hm with rfl | hm
    · exact hk hst
    · rw [← SortedAssoc.get_set_of_ne ho v (hne hst m hm)]
      exact hs.fresh hst m hm
  · intro hst
    rw [List.map_cons, List.nodup_cons]
    refine ⟨fun hm => ?_, hs.nodup hst⟩
    obtain ⟨m, hm, he⟩ := List.mem_map.mp hm
    exact hne hst m hm he

omit [Platform] in
lemma ReadsMembers.tail {k : Bytes} {t : Tree} (h : ReadsMembers strict room o ((k, t) :: ms))
    (ho : SortedAssoc.Sorted o) (v : Sbj) : ReadsMembers strict room (SortedAssoc.set o k v) ms := by
  refine ⟨le_trans (le_max_right _ _) h.depth, fun hst => (h.distinct hst).2, ?_, ?_⟩
  · intro hst m hm
    have hne : m.1 ≠ k := by
      intro he
      have := (List.nodup_cons.mp (h.nodup hst)).1
      exact this (List.mem_map.mpr ⟨m, hm, he⟩)
    rw [SortedAssoc.get_set_of_ne ho v hne]
    exact h.fresh hst m (List.mem_cons_of_mem _ hm)
  · intro hst
    exact (List.nodup_cons.mp (h.nodup hst)).2

/-- The three parser functions derive what they read, at one amount of fuel. -/
structure Derives (strict : Bool) (fuel : ℕ) : Prop where
  value : ∀ {depth s v r}, parseValue strict fuel depth s = .ok (v, r) →
    ∃ t w q, s = w ++ (q ++ r) ∧ Ws w ∧ Value t q ∧ Reads strict (maxDepth - depth) t v
  members : ∀ {depth o s v r}, SortedAssoc.Sorted o →
    parseMembers strict fuel depth o s = .ok (v, r) →
    ∃ ms w q w', s = w ++ (q ++ (w' ++ (0x7D :: r))) ∧ Ws w ∧ Members ms q ∧ Ws w' ∧
      v = .obj (Tree.valueMembers o ms) ∧ ReadsMembers strict (maxDepth - depth) o ms
  items : ∀ {depth a s v r}, parseItems strict fuel depth a s = .ok (v, r) →
    ∃ ts w q w', s = w ++ (q ++ (w' ++ (0x5D :: r))) ∧ Ws w ∧ Items ts q ∧ Ws w' ∧
      v = .arr (a ++ Tree.valueItems ts) ∧ ReadsItems strict (maxDepth - depth) ts

omit [Platform] in
lemma matchLit_sound {l r : Bytes} (h : matchLit l s = some r) : s = l ++ r := by
  unfold matchLit at h
  split_ifs at h with hp
  obtain ⟨t, rfl⟩ := hp
  rw [List.drop_left] at h
  rw [Option.some.inj h]

lemma parseScalar_sound {r : Bytes} {v : Sbj} (h : parseScalar s = .ok (v, r)) :
    ∃ t q, s = q ++ r ∧ Value t q ∧ Reads strict room t v := by
  unfold parseScalar at h
  cases h1 : matchLit (lit "true") s with
  | some r1 =>
    simp only [h1] at h
    cases h
    exact ⟨.bool true, _, matchLit_sound h1, .true, Nat.zero_le _, fun _ => trivial, rfl⟩
  | none =>
  cases h2 : matchLit (lit "false") s with
  | some r2 =>
    simp only [h1, h2] at h
    cases h
    exact ⟨.bool false, _, matchLit_sound h2, .false, Nat.zero_le _, fun _ => trivial, rfl⟩
  | none =>
  cases h3 : matchLit (lit "null") s with
  | some r3 =>
    simp only [h1, h2, h3] at h
    cases h
    exact ⟨.null, _, matchLit_sound h3, .null, Nat.zero_le _, fun _ => trivial, rfl⟩
  | none =>
    simp only [h1, h2, h3] at h
    split_ifs at h
    obtain ⟨q, hs, hq, rfl⟩ := parseNumber_sound h
    exact ⟨.number q, q, hs, .number hq, Nat.zero_le _, fun _ => trivial, rfl⟩

section Step

variable {strict : Bool} {fuel depth : ℕ} {s r : Bytes} {v : Sbj}

lemma parseValue_sound (ih : Derives strict fuel)
    (h : parseValue strict (fuel + 1) depth s = .ok (v, r)) :
    ∃ t w q, s = w ++ (q ++ r) ∧ Ws w ∧ Value t q ∧ Reads strict (maxDepth - depth) t v := by
  rw [parseValue] at h
  obtain ⟨w, hw, hs⟩ := skipWs_ws s
  cases hc : skipWs s with
  | nil => rw [hc] at h; cases h
  | cons c rest =>
    rw [hc] at h hs
    simp only at h
    obtain ⟨w1, hw1, hrest⟩ := skipWs_ws rest
    have hroom : depth + 1 ≤ maxDepth → maxDepth - (depth + 1) + 1 ≤ maxDepth - depth := by omega
    split_ifs at h with c1 c2 c3 c4 c5
    · subst c1
      cases he : eat 0x7D (skipWs rest) with
      | some r' =>
        rw [he] at h
        cases h
        refine ⟨.object [], w, _, ?_, hw, .emptyObject hw1, by simp [Tree.depth, Tree.depthMembers]; omega,
          fun _ => ⟨by simp, trivial⟩, rfl⟩
        rw [hs, hrest, eat_eq_some he]
        simp
      | none =>
        rw [he] at h
        obtain ⟨ms, w2, q, w3, hq, hw2, hms, hw3, rfl, hread⟩ := ih.members .nil h
        refine ⟨.object ms, w, _, ?_, hw, .object (w := w1 ++ w2) ?_ hms hw3, ?_, ?_, rfl⟩
        · rw [hs, hrest, hq]
          simp
        · exact List.forall_mem_append.mpr ⟨hw1, hw2⟩
        · exact le_trans (Nat.succ_le_succ hread.depth) (hroom (not_lt.mp c2))
        · exact fun hst => ⟨hread.nodup hst, hread.distinct hst⟩
    · subst c3
      cases he : eat 0x5D (skipWs rest) with
      | some r' =>
        rw [he] at h
        cases h
        refine ⟨.array [], w, _, ?_, hw, .emptyArray hw1, by simp [Tree.depth, Tree.depthItems]; omega,
          fun _ => trivial, rfl⟩
        rw [hs, hrest, eat_eq_some he]
        simp
      | none =>
        rw [he] at h
        obtain ⟨ts, w2, q, w3, hq, hw2, hts, hw3, rfl, hread⟩ := ih.items h
        refine ⟨.array ts, w, _, ?_, hw, .array (w := w1 ++ w2) ?_ hts hw3, ?_, ?_, rfl⟩
        · rw [hs, hrest, hq]
          simp
        · exact List.forall_mem_append.mpr ⟨hw1, hw2⟩
        · exact le_trans (Nat.succ_le_succ hread.depth) (hroom (not_lt.mp c4))
        · exact hread.distinct
    · subst c5
      cases hstr : parseString rest with
      | error e => rw [hstr] at h; cases h
      | ok p =>
        obtain ⟨b, r'⟩ := p
        rw [hstr] at h
        cases h
        obtain ⟨q, hq, hchars⟩ := parseString_sound hstr
        refine ⟨.string b, w, _, ?_, hw, .string hchars, Nat.zero_le _, fun _ => trivial, rfl⟩
        rw [hs, hq]
        simp
    · obtain ⟨t, q, hq, ht, hread⟩ := parseScalar_sound h
      exact ⟨t, w, q, by rw [hs, hq], hw, ht, hread⟩

lemma parseItems_sound (ih : Derives strict fuel) {a : List Sbj}
    (h : parseItems strict (fuel + 1) depth a s = .ok (v, r)) :
    ∃ ts w q w', s = w ++ (q ++ (w' ++ (0x5D :: r))) ∧ Ws w ∧ Items ts q ∧ Ws w' ∧
      v = .arr (a ++ Tree.valueItems ts) ∧ ReadsItems strict (maxDepth - depth) ts := by
  rw [parseItems] at h
  cases hv : parseValue strict fuel depth s with
  | error e => rw [hv] at h; cases h
  | ok p =>
    obtain ⟨x, r1⟩ := p
    obtain ⟨t, w, q, hs, hw, ht, hread⟩ := ih.value hv
    obtain ⟨w1, hw1, hr1⟩ := skipWs_ws r1
    simp only [hv] at h
    split at h
    · rename_i r2 he
      obtain ⟨ts, w2, q2, w3, hr2, hw2, hts, hw3, rfl, hreads⟩ := ih.items h
      refine ⟨t :: ts, w, _, w3, ?_, hw, .more ht hw1 hw2 hts, hw3, ?_, .cons hread hreads⟩
      · rw [hs, hr1, eat_eq_some he, hr2]
        simp
      · rw [hread.value]
        simp [Tree.valueItems]
    · rename_i r2 _ he
      cases h
      refine ⟨[t], w, q, w1, ?_, hw, .last ht, hw1, ?_, .cons hread ⟨Nat.zero_le _, fun _ => trivial⟩⟩
      · rw [hs, hr1, eat_eq_some he]
      · rw [hread.value]
        simp [Tree.valueItems]
    · cases h

lemma parseMembers_sound (ih : Derives strict fuel) {o : List (Bytes × Sbj)}
    (ho : SortedAssoc.Sorted o) (h : parseMembers strict (fuel + 1) depth o s = .ok (v, r)) :
    ∃ ms w q w', s = w ++ (q ++ (w' ++ (0x7D :: r))) ∧ Ws w ∧ Members ms q ∧ Ws w' ∧
      v = .obj (Tree.valueMembers o ms) ∧ ReadsMembers strict (maxDepth - depth) o ms := by
  rw [parseMembers] at h
  obtain ⟨w, hw, hs⟩ := skipWs_ws s
  cases hquote : eat 0x22 (skipWs s) with
  | none => rw [hquote] at h; cases h
  | some s1 =>
  simp only [hquote] at h
  cases hkey : parseString s1 with
  | error e => rw [hkey] at h; cases h
  | ok p =>
  obtain ⟨k, s2⟩ := p
  obtain ⟨qk, hs1, hk⟩ := parseString_sound hkey
  obtain ⟨w1, hw1, hs2⟩ := skipWs_ws s2
  simp only [hkey] at h
  split_ifs at h with hdup
  cases hcolon : eat 0x3A (skipWs s2) with
  | none => rw [hcolon] at h; cases h
  | some s3 =>
  simp only [hcolon] at h
  cases hv : parseValue strict fuel depth s3 with
  | error e => rw [hv] at h; cases h
  | ok p =>
  obtain ⟨x, s4⟩ := p
  obtain ⟨t, w2, qv, hs3, hw2, ht, hread⟩ := ih.value hv
  obtain ⟨w3, hw3, hs4⟩ := skipWs_ws s4
  have hnew : strict = true → SortedAssoc.get o k = none := by
    rintro rfl
    simpa using hdup
  have hmember : Member k t _ := .mk hk hw1 hw2 ht
  simp only [hv] at h
  split at h
  · rename_i r2 he
    obtain ⟨ms, w4, q, w5, hr2, hw4, hms, hw5, rfl, hreads⟩ :=
      ih.members (SortedAssoc.sorted_set ho x) h
    refine ⟨(k, t) :: ms, w, _, w5, ?_, hw, .more hmember hw3 hw4 hms, hw5, ?_,
      .cons ho hnew hread hreads⟩
    · rw [hs, eat_eq_some hquote, hs1, hs2, eat_eq_some hcolon, hs3, hs4, eat_eq_some he, hr2]
      simp
    · rw [hread.value, Tree.valueMembers]
  · rename_i r2 _ he
    cases h
    refine ⟨[(k, t)], w, _, w3, ?_, hw, .last hmember, hw3, ?_, .cons ho hnew hread .nil⟩
    · rw [hs, eat_eq_some hquote, hs1, hs2, eat_eq_some hcolon, hs3, hs4, eat_eq_some he]
      simp
    · rw [hread.value, Tree.valueMembers, Tree.valueMembers]
  · cases h

end Step

lemma derives (strict : Bool) (fuel : ℕ) : Derives strict fuel := by
  induction fuel with
  | zero =>
    refine ⟨?_, ?_, ?_⟩
    · intro depth s v r h; simp [parseValue] at h
    · intro depth o s v r _ h; simp [parseMembers] at h
    · intro depth a s v r h; simp [parseItems] at h
  | succ fuel ih =>
    exact ⟨parseValue_sound ih, fun ho h => parseMembers_sound ih ho h, parseItems_sound ih⟩

/-! ### Completeness -/

omit [Platform] in
/-- A value starts with a byte that is neither white space nor a closing bracket. -/
lemma value_head {t : Tree} (h : Value t s) : ∃ c r, s = c :: r ∧ isWs c = false ∧ c ≠ 0x5D := by
  have hnum : ∀ d : UInt8, d = 0x2D ∨ isDigit d = true → isWs d = false ∧ d ≠ 0x5D := by
    rintro ⟨⟨d⟩⟩
    revert d
    decide +kernel
  cases h with
  | number hq =>
    obtain ⟨c, r, rfl, hc⟩ := number_head hq
    exact ⟨c, r, rfl, hnum c hc⟩
  | _ => exact ⟨_, _, rfl, rfl, by decide⟩

omit [Platform] in
lemma items_head {ts : List Tree} (h : Items ts s) :
    ∃ c r, s = c :: r ∧ isWs c = false ∧ c ≠ 0x5D := by
  cases h with
  | last hv => exact value_head hv
  | more hv _ _ _ =>
    obtain ⟨c, r, rfl, hc⟩ := value_head hv
    exact ⟨c, _, rfl, hc⟩

omit [Platform] in
lemma members_head (h : Members ms s) : ∃ r, s = 0x22 :: r := by
  cases h with
  | last hm => cases hm; exact ⟨_, rfl⟩
  | more hm _ _ _ => cases hm; exact ⟨_, rfl⟩

omit [Platform] in
lemma member_length {k : Bytes} {t : Tree} (h : Member k t s) : 3 ≤ s.length := by
  cases h
  simp
  omega

lemma parseValue_ws {w : Bytes} (hw : Ws w) (strict : Bool) (fuel depth : ℕ)
    (s : Bytes) :
    parseValue strict (fuel + 1) depth (w ++ s) = parseValue strict (fuel + 1) depth s := by
  simp only [parseValue, skipWs_append hw]

/-- The first byte of a number sends the parser to `parse_number`. -/
lemma parseValue_number {c : UInt8} (hc : c = 0x2D ∨ isDigit c = true) (strict : Bool)
    (fuel depth : ℕ) (r : Bytes) :
    parseValue strict (fuel + 1) depth (c :: r) = parseNumber (c :: r) := by
  have hlow : ∀ d : UInt8, d = 0x2D ∨ isDigit d = true →
      isWs d = false ∧ d ≠ 0x7B ∧ d ≠ 0x5B ∧ d ≠ 0x22 ∧ d ≠ 0x74 ∧ d ≠ 0x66 ∧ d ≠ 0x6E := by
    rintro ⟨⟨d⟩⟩
    revert d
    decide +kernel
  obtain ⟨hw, h1, h2, h3, h4, h5, h6⟩ := hlow c hc
  have hmatch : ∀ (d : UInt8) (l : Bytes), c ≠ d → matchLit (d :: l) (c :: r) = none := by
    intro d l hd
    simp [matchLit, Ne.symm hd]
  have hnum : ((c :: r).head?.any fun c => c == 0x2D || isDigit c) = true := by
    rcases hc with rfl | hc
    · rfl
    · simp [hc]
  simp only [parseValue, skipWs_cons hw, h1, h2, h3, if_false, parseScalar]
  rw [show matchLit (lit "true") (c :: r) = none from hmatch _ _ h4,
    show matchLit (lit "false") (c :: r) = none from hmatch _ _ h5,
    show matchLit (lit "null") (c :: r) = none from hmatch _ _ h6]
  simp only [hnum, if_true]

section Round

variable {strict : Bool} {fuel depth : ℕ} {o : List (Bytes × Sbj)} {k q w w1 w2 s r r' : Bytes}
  {v : Sbj}

omit [Platform] in
lemma no_duplicate (hnew : strict = true → SortedAssoc.get o k = none) :
    (strict && (SortedAssoc.get o k).isSome) = false := by
  cases strict with
  | false => rfl
  | true => rw [hnew rfl]; rfl

lemma parseMembers_member (hw : Ws w) (hk : Rfc8259.Chars k q) (hw1 : Ws w1) (hw2 : Ws w2)
    (hnew : strict = true → SortedAssoc.get o k = none)
    (hv : parseValue strict (fuel + 1) depth s = .ok (v, r)) :
    parseMembers strict (fuel + 2) depth o
        (w ++ (0x22 :: (q ++ (0x22 :: (w1 ++ (0x3A :: (w2 ++ s))))))) =
      match eat 0x2C (skipWs r), eat 0x7D (skipWs r) with
      | some r, _ => parseMembers strict (fuel + 1) depth (SortedAssoc.set o k v) r
      | none, some r => .ok (.obj (SortedAssoc.set o k v), r)
      | none, none => .error ⟨"expected ',' or '\x7d'", (skipWs r).length⟩ := by
  rw [← parseValue_ws hw2] at hv
  rw [parseMembers]
  simp only [skipWs_append hw, skipWs_append hw1,
    skipWs_cons (c := 0x22) rfl, skipWs_cons (c := 0x3A) rfl,
    eat_cons_self, parseString_complete hk, no_duplicate hnew, Bool.false_eq_true, if_false]
  generalize parseValue strict (fuel + 1) depth (w2 ++ s) = x at hv ⊢
  subst hv
  rfl

lemma parseValue_array (hd : depth < maxDepth) : parseValue strict (fuel + 1) depth (0x5B :: s) =
    match eat 0x5D (skipWs s) with
    | some r => .ok (.arr [], r)
    | none => parseItems strict fuel (depth + 1) [] (skipWs s) := by
  rw [parseValue, skipWs_cons rfl]
  exact if_neg (Nat.not_lt.mpr hd)

lemma parseValue_object (hd : depth < maxDepth) : parseValue strict (fuel + 1) depth (0x7B :: s) =
    match eat 0x7D (skipWs s) with
    | some r => .ok (.obj [], r)
    | none => parseMembers strict fuel (depth + 1) [] (skipWs s) := by
  rw [parseValue, skipWs_cons rfl]
  exact if_neg (Nat.not_lt.mpr hd)

lemma parseItems_more {a : List Sbj}
    (h : parseValue strict fuel depth s = .ok (v, r)) (hr : skipWs r = 0x2C :: r') :
    parseItems strict (fuel + 1) depth a s = parseItems strict fuel depth (a ++ [v]) r' := by
  simp only [parseItems, h, hr, eat_cons_self]

lemma parseItems_last {a : List Sbj}
    (h : parseValue strict fuel depth s = .ok (v, r)) (hr : skipWs r = 0x5D :: r') :
    parseItems strict (fuel + 1) depth a s = .ok (.arr (a ++ [v]), r') := by
  simp only [parseItems, h, hr, eat_cons_self, eat_cons_ne (show (0x5D : UInt8) ≠ 0x2C by decide)]

end Round

mutual
lemma parseValue_complete {t : Tree} {s : Bytes} (h : Value t s) (strict : Bool) (fuel depth : ℕ)
    (rest : Bytes) (hfuel : 2 * s.length ≤ fuel) (hdepth : t.depth ≤ maxDepth - depth)
    (hdist : strict = true → t.DistinctKeys) (hr : Stops rest) :
    parseValue strict fuel depth (s ++ rest) = .ok (t.value, rest) := by
  obtain ⟨f, rfl⟩ : ∃ f, fuel = f + 1 := by
    obtain ⟨c, r, rfl, -⟩ := value_head h
    simp only [List.length_cons] at hfuel
    exact ⟨fuel - 1, by omega⟩
  match h with
  | .null => simp [parseValue, skipWs, isWs, lit, parseScalar, matchLit, Tree.value]
  | .true => simp [parseValue, skipWs, isWs, lit, parseScalar, matchLit, Tree.value]
  | .false => simp [parseValue, skipWs, isWs, lit, parseScalar, matchLit, Tree.value]
  | .number hq =>
    obtain ⟨c, r, hcr, hc⟩ := number_head hq
    have := parseNumber_complete hq hr
    rw [hcr, List.cons_append] at this ⊢
    rw [parseValue_number hc, this, Tree.value]
  | .string hq =>
    simp only [List.cons_append, List.append_assoc, List.nil_append, parseValue,
      skipWs_cons (c := 0x22) rfl]
    rw [if_neg (by decide), if_neg (by decide), if_pos trivial, parseString_complete hq]
    rfl
  | .emptyArray hw =>
    simp only [Tree.depth] at hdepth
    rw [List.cons_append, List.append_assoc, parseValue_array (by omega), skipWs_append hw]
    rfl
  | .emptyObject hw =>
    simp only [Tree.depth] at hdepth
    rw [List.cons_append, List.append_assoc, parseValue_object (by omega), skipWs_append hw]
    rfl
  | @Value.array ts w q w' hw hts hw' =>
    simp only [Tree.depth] at hdepth
    simp only [List.length_cons, List.length_append, List.length_nil] at hfuel
    have ih := parseItems_complete hts strict f (depth + 1) [] [] w' rest (by omega) (by omega)
      hdist (by simp [Ws]) hw'
    obtain ⟨c, r, rfl, hws, hne⟩ := items_head hts
    simp only [List.cons_append, List.append_assoc, List.nil_append] at ih ⊢
    rw [parseValue_array (by omega), skipWs_append hw, skipWs_cons hws, eat_cons_ne hne]
    exact ih
  | @Value.object ms w q w' hw hms hw' =>
    simp only [Tree.depth] at hdepth
    simp only [List.length_cons, List.length_append, List.length_nil] at hfuel
    have ih := parseMembers_complete hms strict f (depth + 1) [] [] w' rest (by omega) .nil
      ⟨by omega, fun hst => (hdist hst).2, fun _ _ _ => rfl,
        fun hst => (hdist hst).1⟩ (by simp [Ws]) hw'
    obtain ⟨r, rfl⟩ := members_head hms
    simp only [List.cons_append, List.append_assoc, List.nil_append] at ih ⊢
    rw [parseValue_object (by omega), skipWs_append hw, skipWs_cons rfl, eat_cons_ne (by decide)]
    exact ih
lemma parseItems_complete {ts : List Tree} {s : Bytes} (h : Items ts s) (strict : Bool)
    (fuel depth : ℕ) (a : List Sbj) (w w' rest : Bytes) (hfuel : 2 * s.length + 1 ≤ fuel)
    (hdepth : Tree.depthItems ts ≤ maxDepth - depth)
    (hdist : strict = true → Tree.DistinctItems ts) (hw : Ws w) (hw' : Ws w') :
    parseItems strict fuel depth a (w ++ (s ++ (w' ++ (0x5D :: rest)))) =
      .ok (.arr (a ++ Tree.valueItems ts), rest) := by
  match h with
  | .last hv =>
    obtain ⟨f, rfl⟩ : ∃ f, fuel = f + 1 + 1 := by
      obtain ⟨c, r, rfl, -⟩ := value_head hv
      simp only [List.length_cons] at hfuel
      exact ⟨fuel - 2, by omega⟩
    simp only [Tree.depthItems] at hdepth
    have ih := parseValue_complete hv strict (f + 1) depth (w' ++ (0x5D :: rest)) (by omega)
      (by omega) (fun hst => (hdist hst).1) (stops_append hw' (by simp))
    rw [← parseValue_ws hw] at ih
    rw [parseItems_last ih (by rw [skipWs_append hw']; rfl)]
    rfl
  | @Items.more t ts q w1 w2 q' hv hw1 hw2 hts =>
    obtain ⟨f, rfl⟩ : ∃ f, fuel = f + 1 + 1 := by
      obtain ⟨c, r, rfl, -⟩ := value_head hv
      simp only [List.length_append, List.length_cons] at hfuel
      exact ⟨fuel - 2, by omega⟩
    simp only [Tree.depthItems] at hdepth
    simp only [List.length_append, List.length_cons] at hfuel
    have ih := parseValue_complete hv strict (f + 1) depth
      (w1 ++ (0x2C :: (w2 ++ (q' ++ (w' ++ (0x5D :: rest)))))) (by omega) (by omega)
      (fun hst => (hdist hst).1) (stops_append hw1 (by simp))
    rw [← parseValue_ws hw] at ih
    simp only [List.append_assoc, List.cons_append]
    rw [parseItems_more ih (by rw [skipWs_append hw1]; rfl),
      parseItems_complete hts strict (f + 1) depth _ w2 w' rest (by omega) (by omega)
        (fun hst => (hdist hst).2) hw2 hw',
      Tree.valueItems, List.append_assoc]
    rfl
lemma parseMembers_complete {ms : List (Bytes × Tree)} {s : Bytes} (h : Members ms s)
    (strict : Bool) (fuel depth : ℕ) (o : List (Bytes × Sbj)) (w w' rest : Bytes)
    (hfuel : 2 * s.length + 1 ≤ fuel) (ho : SortedAssoc.Sorted o)
    (hread : ReadsMembers strict (maxDepth - depth) o ms) (hw : Ws w) (hw' : Ws w') :
    parseMembers strict fuel depth o (w ++ (s ++ (w' ++ (0x7D :: rest)))) =
      .ok (.obj (Tree.valueMembers o ms), rest) := by
  match h with
  | .last hm =>
    obtain ⟨f, rfl⟩ : ∃ f, fuel = f + 2 := by
      have := member_length hm
      exact ⟨fuel - 2, by omega⟩
    obtain ⟨hd, hdist, hfresh, -⟩ := hread
    simp only [Tree.depthMembers] at hd
    obtain ⟨qk, w1, w2, q, rfl, hk, hw1, hw2, ih⟩ := parseMember_complete hm strict (f + 1) depth
      (w' ++ (0x7D :: rest)) (by omega) (by omega) (fun hst => (hdist hst).1)
      (stops_append hw' (by simp))
    simp only [List.append_assoc, List.cons_append]
    rw [parseMembers_member hw hk hw1 hw2 (fun hst => hfresh hst _ List.mem_cons_self) ih,
      skipWs_append hw']
    rfl
  | @Members.more k t ms p w3 w4 q' hm hw3 hw4 hms =>
    simp only [List.length_cons, List.length_append] at hfuel
    obtain ⟨f, rfl⟩ : ∃ f, fuel = f + 2 := ⟨fuel - 2, by omega⟩
    have htail := hread.tail ho
    obtain ⟨hd, hdist, hfresh, -⟩ := hread
    simp only [Tree.depthMembers] at hd
    obtain ⟨qk, w1, w2, q, rfl, hk, hw1, hw2, ih⟩ := parseMember_complete hm strict (f + 1) depth
      (w3 ++ (0x2C :: (w4 ++ (q' ++ (w' ++ (0x7D :: rest)))))) (by omega) (by omega)
      (fun hst => (hdist hst).1) (stops_append hw3 (by simp))
    simp only [List.append_assoc, List.cons_append]
    rw [parseMembers_member hw hk hw1 hw2 (fun hst => hfresh hst _ List.mem_cons_self) ih,
      skipWs_append hw3]
    exact parseMembers_complete hms strict (f + 1) depth _ w4 w' rest (by omega)
      (SortedAssoc.sorted_set ho _) (htail _) hw4 hw'
lemma parseMember_complete {k : Bytes} {t : Tree} {s : Bytes} (h : Member k t s) (strict : Bool)
    (fuel depth : ℕ) (rest : Bytes) (hfuel : 2 * s.length ≤ fuel + 2)
    (hdepth : t.depth ≤ maxDepth - depth) (hdist : strict = true → t.DistinctKeys)
    (hr : Stops rest) : ∃ q w1 w2 p, s = 0x22 :: (q ++ (0x22 :: (w1 ++ (0x3A :: (w2 ++ p))))) ∧
      Rfc8259.Chars k q ∧ Ws w1 ∧ Ws w2 ∧
      parseValue strict fuel depth (p ++ rest) = .ok (t.value, rest) := by
  match h with
  | .mk hk hw1 hw2 hv =>
    simp only [List.length_cons, List.length_append] at hfuel
    exact ⟨_, _, _, _, rfl, hk, hw1, hw2,
      parseValue_complete hv strict fuel depth rest (by omega) hdepth hdist hr⟩
end

lemma parseDocument_iff (strict : Bool) (text : Bytes) (v : Sbj) :
    parseDocument strict text = .ok v ↔
      ∃ t, Text t text ∧ t.depth ≤ maxDepth ∧ (strict = true → t.DistinctKeys) ∧ v = t.value := by
  constructor
  · intro h
    unfold parseDocument at h
    cases hv : parseValue strict (2 * text.length + 1) 0 text with
    | error e => rw [hv] at h; cases h
    | ok p =>
      obtain ⟨x, r⟩ := p
      simp only [hv] at h
      split_ifs at h with hr
      cases h
      obtain ⟨t, w, q, hs, hw, ht, hread⟩ := (derives strict _).value hv
      obtain ⟨w', hw', hr'⟩ := skipWs_ws r
      rw [hr, List.append_nil] at hr'
      exact ⟨t, ⟨w, q, w', by rw [hs, hr'], hw, ht, hw'⟩, hread.depth, hread.distinct, hread.value⟩
  · rintro ⟨t, ⟨w, q, w', rfl, hw, ht, hw'⟩, hdepth, hdist, rfl⟩
    have hv := parseValue_complete ht strict (2 * (w ++ (q ++ w')).length + 1) 0 w'
      (by simp only [List.length_append]; omega) (by omega) hdist
      (by simpa using stops_append (s := []) hw' (by simp))
    rw [← parseValue_ws hw] at hv
    have hend : skipWs w' = [] := by
      rw [← List.append_nil w', skipWs_append hw']
      rfl
    rw [parseDocument, hv]
    simp only [hend, if_true]

lemma lax_iff_document (text : Bytes) (v : Sbj) :
    sbjParse text = .ok v ↔ parseDocument false text = .ok v := by
  unfold sbjParse
  cases parseDocument false text with
  | error e => simp [Except.mapError]
  | ok x => simp [Except.mapError]

end JsonParse
end SbEasy
