import Mathlib.Tactic

/-!
Association lists kept sorted by key, looked up by binary search.

The search halves the window `[lo, hi)` until it finds the key or the window is empty; on
a sorted list the place where it stops splits the list into the smaller and the larger
keys, and everything else about lookup and replacement is read off that split.
-/

namespace SbEasy.SortedAssoc

variable {κ : Type*} {α : Type*} [Ord κ]

/-- Binary search in the window `[lo, hi)`: the index of the key and `true`, or the place
where the key belongs and `false`. -/
def search (keys : List κ) (k : κ) : ℕ → ℕ → ℕ → ℕ × Bool
  | 0, lo, _ => (lo, false)
  | fuel + 1, lo, hi =>
    if lo < hi then
      let mid := lo + (hi - lo) / 2
      match keys[mid]? with
      | none => (lo, false)
      | some m =>
        match compare m k with
        | .eq => (mid, true)
        | .lt => search keys k fuel (mid + 1) hi
        | .gt => search keys k fuel lo mid
    else (lo, false)

/-- The search over a whole association list. -/
def find (m : List (κ × α)) (k : κ) : ℕ × Bool :=
  search (m.map Prod.fst) k m.length 0 m.length

def get (m : List (κ × α)) (k : κ) : Option α :=
  if (find m k).2 then (m[(find m k).1]?).map Prod.snd else none

/-- Replace the value of a key, or insert the pair where the key belongs. -/
def set (m : List (κ × α)) (k : κ) (v : α) : List (κ × α) :=
  if (find m k).2 then m.modify (find m k).1 fun p => (p.1, v)
  else m.take (find m k).1 ++ (k, v) :: m.drop (find m k).1

/-- Removal of a key. -/
def del (m : List (κ × α)) (k : κ) : List (κ × α) :=
  if (find m k).2 then m.eraseIdx (find m k).1 else m

/-- Keys strictly increase along the list. -/
def Sorted (m : List (κ × α)) : Prop := m.Pairwise fun p q => compare p.1 q.1 = .lt

instance (m : List (κ × α)) : Decidable (Sorted m) :=
  inferInstanceAs (Decidable (m.Pairwise _))

@[simp] lemma get_nil (k : κ) : get ([] : List (κ × α)) k = none := by
  simp [get, find, search]

lemma get_map {β : Type*} (f : α → β) (m : List (κ × α)) (k : κ) :
    get (m.map fun p => (p.1, f p.2)) k = (get m k).map f := by
  have hfind : find (m.map fun p => (p.1, f p.2)) k = find m k := by
    simp [find, Function.comp_def]
  unfold get
  rw [hfind]
  split_ifs
  · simp [Function.comp_def]
  · rfl

lemma sorted_map {β : Type*} (f : α → β) {m : List (κ × α)} (hs : Sorted m) :
    Sorted (m.map fun p => (p.1, f p.2)) :=
  List.pairwise_map.mpr hs

variable [Std.TransOrd κ] [Std.LawfulEqOrd κ]

/-- What a finished search says about the list. -/
structure Found (keys : List κ) (k : κ) (r : ℕ × Bool) : Prop where
  le : r.1 ≤ keys.length
  before : ∀ j x, j < r.1 → keys[j]? = some x → compare x k = .lt
  at_ : r.2 = true → keys[r.1]? = some k
  after : r.2 = false → ∀ j x, r.1 ≤ j → keys[j]? = some x → compare x k = .gt

lemma search_found {keys : List κ} {k : κ}
    (hs : keys.Pairwise fun p q => compare p q = .lt) (fuel lo hi : ℕ) (hf : hi - lo ≤ fuel)
    (hhi : hi ≤ keys.length) (hlo : lo ≤ hi)
    (hb : ∀ j x, j < lo → keys[j]? = some x → compare x k = .lt)
    (ha : ∀ j x, hi ≤ j → keys[j]? = some x → compare x k = .gt) :
    Found keys k (search keys k fuel lo hi) := by
  have hmono : ∀ (i j : ℕ) (x y : κ), i < j → keys[i]? = some x → keys[j]? = some y →
      compare x y = .lt := by
    intro i j x y hij hx hy
    obtain ⟨h1, rfl⟩ := List.getElem?_eq_some_iff.mp hx
    obtain ⟨h2, rfl⟩ := List.getElem?_eq_some_iff.mp hy
    exact List.pairwise_iff_getElem.mp hs i j h1 h2 hij
  induction fuel generalizing lo hi with
  | zero =>
    have : lo = hi := by omega
    subst this
    exact ⟨hhi, hb, by simp [search], fun _ => ha⟩
  | succ fuel ih =>
    unfold search
    by_cases hlt : lo < hi
    · simp only [hlt, if_true]
      set mid := lo + (hi - lo) / 2 with hmid
      have hml : mid < keys.length := by omega
      have hm : keys[mid]? = some keys[mid] := List.getElem?_eq_getElem hml
      rw [hm]
      simp only
      rcases hc : compare keys[mid] k with _ | _ | _
      · refine ih (mid + 1) hi (by omega) hhi (by omega) (fun j x hj hx => ?_) ha
        rcases Nat.lt_succ_iff_lt_or_eq.mp hj with h | rfl
        · exact Std.TransCmp.lt_trans (hmono j mid x _ h hx hm) hc
        · rw [hm] at hx; cases hx; exact hc
      · have he := Std.LawfulEqOrd.eq_of_compare hc
        refine ⟨by simp only; omega, fun j x hj hx => ?_, fun _ => by simp only; rw [hm, he],
          by simp⟩
        rw [← he]; exact hmono j mid x _ hj hx hm
      · refine ih lo mid (by omega) (by omega) (by omega) hb (fun j x hj hx => ?_)
        rcases Nat.lt_or_eq_of_le hj with h | rfl
        · exact Std.TransCmp.gt_trans (Std.OrientedCmp.gt_of_lt (hmono mid j _ x h hm hx)) hc
        · rw [hm] at hx; cases hx; exact hc
    · have : lo = hi := by omega
      subst this
      simp only [Nat.lt_irrefl, if_false]
      exact ⟨hhi, hb, by simp, fun _ => ha⟩

lemma find_found {m : List (κ × α)} (hs : Sorted m) (k : κ) :
    Found (m.map Prod.fst) k (find m k) :=
  search_found (List.pairwise_map.mpr hs) _ _ _ (by omega) (by simp) (by omega)
    (by omega) (fun j x hj hx => by
      obtain ⟨h, -⟩ := List.getElem?_eq_some_iff.mp hx
      simp at h; omega)

/-- How a sorted list falls apart around a key: the smaller pairs, the pair of the key
itself if there is one, the larger pairs. -/
structure Split (m : List (κ × α)) (k : κ) (l old r : List (κ × α)) : Prop where
  eq : m = l ++ old ++ r
  lt : ∀ p ∈ l, compare p.1 k = .lt
  gt : ∀ p ∈ r, compare p.1 k = .gt
  mid : old = [] ∨ ∃ w, old = [(k, w)]

lemma exists_split {m : List (κ × α)} (hs : Sorted m) (k : κ) :
    ∃ l old r, Split m k l old r ∧ (∀ v, set m k v = l ++ (k, v) :: r) ∧
      get m k = old.head?.map Prod.snd := by
  obtain ⟨hle, hbef, hat, haft⟩ := find_found hs k
  set i := (find m k).1 with hi
  rw [List.length_map] at hle
  have hl : ∀ p ∈ m.take i, compare p.1 k = .lt := by
    intro p hp
    obtain ⟨j, hj, rfl⟩ := List.mem_iff_getElem.mp hp
    rw [List.length_take] at hj
    refine hbef j _ (by omega) ?_
    rw [List.getElem?_map, List.getElem?_eq_getElem (by omega), List.getElem_take]; rfl
  cases hfd : (find m k).2 with
  | false =>
    refine ⟨m.take i, [], m.drop i, ⟨by simp, hl, ?_, Or.inl rfl⟩, fun v => ?_, ?_⟩
    · intro p hp
      obtain ⟨j, hj, rfl⟩ := List.mem_iff_getElem.mp hp
      rw [List.length_drop] at hj
      refine haft hfd (i + j) _ (by omega) ?_
      rw [List.getElem?_map, List.getElem?_eq_getElem (by omega), List.getElem_drop]; rfl
    · simp only [set, hfd, Bool.false_eq_true, if_false]
      rw [← hi]
    · simp [get, hfd]
  | true =>
    have hk := hat hfd
    obtain ⟨hlt, hk'⟩ := List.getElem?_eq_some_iff.mp hk
    rw [List.length_map] at hlt
    rw [List.getElem_map] at hk'
    have hdrop : m.drop i = (k, m[i].2) :: m.drop (i + 1) := by
      rw [List.drop_eq_getElem_cons hlt, ← hk']
    refine ⟨m.take i, [(k, m[i].2)], m.drop (i + 1), ⟨?_, hl, ?_, Or.inr ⟨_, rfl⟩⟩, fun v => ?_, ?_⟩
    · rw [List.append_assoc, List.singleton_append, ← hdrop, List.take_append_drop]
    · intro p hp
      obtain ⟨j, hj, rfl⟩ := List.mem_iff_getElem.mp hp
      rw [List.length_drop] at hj
      rw [List.getElem_drop, ← hk']
      exact Std.OrientedCmp.gt_of_lt (List.pairwise_iff_getElem.mp hs _ _ hlt (by omega) (by omega))
    · simp only [set, hfd, if_true]
      rw [← hi, List.modify_eq_take_drop, hdrop]
      simp
    · simp [get, hfd, ← hi, List.getElem?_eq_getElem hlt]

variable {m : List (κ × α)} {k : κ}

/-- A sorted list holds at most one value for a key, and `get` reads it. -/
lemma get_eq_some_iff (hs : Sorted m) {w : α} : get m k = some w ↔ (k, w) ∈ m := by
  obtain ⟨l, old, r, hsp, -, hget⟩ := exists_split hs k
  have hne : ∀ p, p ∈ l ∨ p ∈ r → p.1 ≠ k := by
    rintro p (hp | hp) rfl
    · have := hsp.lt p hp; simp at this
    · have := hsp.gt p hp; simp at this
  rw [hget, hsp.eq]
  rcases hsp.mid with rfl | ⟨w', rfl⟩
  · simp only [List.head?_nil, Option.map_none, List.append_nil, List.mem_append]
    exact ⟨by simp, fun h => absurd rfl (hne (k, w) h)⟩
  · simp only [List.head?_cons, Option.map_some, Option.some.injEq, List.mem_append,
      List.mem_singleton, Prod.mk.injEq, true_and]
    refine ⟨fun h => Or.inl (Or.inr h.symm), ?_⟩
    rintro ((h | h) | h)
    · exact absurd rfl (hne _ (Or.inl h))
    · exact h.symm
    · exact absurd rfl (hne _ (Or.inr h))

lemma sorted_set (hs : Sorted m) (v : α) : Sorted (set m k v) := by
  obtain ⟨l, old, r, hsp, hset, -⟩ := exists_split hs k
  rw [hset]
  have h1 : Sorted (l ++ (old ++ r)) := by rw [← List.append_assoc, ← hsp.eq]; exact hs
  have h2 : Sorted (old ++ r) := (List.pairwise_append.mp h1).2.1
  refine List.pairwise_append.mpr ⟨(List.pairwise_append.mp h1).1,
    List.pairwise_cons.mpr ⟨fun p hp => Std.OrientedCmp.lt_of_gt (hsp.gt p hp),
      (List.pairwise_append.mp h2).2.1⟩, fun p hp q hq => ?_⟩
  rcases List.mem_cons.mp hq with rfl | hq
  · exact hsp.lt p hp
  · exact (List.pairwise_append.mp h1).2.2 p hp q (by simp [hq])

lemma mem_set (hs : Sorted m) {v : α} {p : κ × α} (hp : p ∈ set m k v) :
    p = (k, v) ∨ p ∈ m := by
  obtain ⟨l, old, r, hsp, hset, -⟩ := exists_split hs k
  rw [hset] at hp
  rw [hsp.eq]
  simp only [List.mem_append, List.mem_cons] at hp ⊢
  tauto

lemma get_set_self (hs : Sorted m) (v : α) : get (set m k v) k = some v := by
  obtain ⟨l, old, r, -, hset, -⟩ := exists_split hs k
  rw [get_eq_some_iff (sorted_set hs v), hset]
  simp

lemma get_set_of_ne (hs : Sorted m) (v : α) {k' : κ} (hk : k' ≠ k) :
    get (set m k v) k' = get m k' := by
  obtain ⟨l, old, r, hsp, hset, -⟩ := exists_split hs k
  refine Option.ext fun w => ?_
  rw [get_eq_some_iff (sorted_set hs v), get_eq_some_iff hs, hset, hsp.eq]
  rcases hsp.mid with rfl | ⟨w', rfl⟩ <;> simp [hk]

lemma set_last (hs : Sorted m) (v : α) (h : ∀ p ∈ m, compare p.1 k = .lt) :
    set m k v = m ++ [(k, v)] := by
  obtain ⟨l, old, r, hsp, hset, -⟩ := exists_split hs k
  have hr : r = [] := by
    refine List.eq_nil_iff_forall_not_mem.mpr fun p hp => ?_
    have h1 := hsp.gt p hp
    rw [h p (by rw [hsp.eq]; simp [hp])] at h1; cases h1
  have ho : old = [] := by
    rcases hsp.mid with rfl | ⟨w, rfl⟩
    · rfl
    · have h1 := h (k, w) (by rw [hsp.eq]; simp)
      simp at h1
  rw [hset, hsp.eq, hr, ho]; simp

lemma length_set (hs : Sorted m) (v : α) (h : get m k = none) :
    (set m k v).length = m.length + 1 := by
  obtain ⟨l, old, r, hsp, hset, hget⟩ := exists_split hs k
  rw [hset, hsp.eq]
  rcases hsp.mid with rfl | ⟨w, rfl⟩
  · simp; omega
  · rw [h] at hget; simp at hget

omit [Std.TransOrd κ] in
lemma ne_of_compare {x y : κ} (h : compare x y ≠ .eq) : x ≠ y := by
  rintro rfl
  exact h Std.ReflCmp.compare_self

omit [Std.TransOrd κ] [Std.LawfulEqOrd κ] in
lemma sorted_del (hs : Sorted m) : Sorted (del m k) := by
  unfold del
  split_ifs
  · exact List.Pairwise.sublist (List.eraseIdx_sublist _ _) hs
  · exact hs

lemma mem_del (hs : Sorted m) {p : κ × α} : p ∈ del m k ↔ p ∈ m ∧ p.1 ≠ k := by
  obtain ⟨-, hbef, hat, haft⟩ := find_found hs k
  unfold del
  cases hfd : (find m k).2 with
  | false =>
    refine ⟨fun hp => ⟨hp, ?_⟩, fun hp => hp.1⟩
    simp only [Bool.false_eq_true, if_false] at hp
    obtain ⟨j, hj, rfl⟩ := List.mem_iff_getElem.mp hp
    have hkey : (m.map Prod.fst)[j]? = some m[j].1 := by simp [hj]
    rcases Nat.lt_or_ge j (find m k).1 with hlt | hge
    · exact ne_of_compare (by rw [hbef j _ hlt hkey]; simp)
    · exact ne_of_compare (by rw [haft hfd j _ hge hkey]; simp)
  | true =>
    obtain ⟨hi, hk⟩ := List.getElem?_eq_some_iff.mp (hat hfd)
    rw [List.length_map] at hi
    rw [List.getElem_map] at hk
    simp only [if_true, List.mem_eraseIdx_iff_getElem]
    constructor
    · rintro ⟨j, hj, hne, rfl⟩
      refine ⟨List.getElem_mem hj, ne_of_compare ?_⟩
      rw [← hk]
      rcases Nat.lt_or_gt_of_ne hne with hlt | hgt
      · rw [List.pairwise_iff_getElem.mp hs _ _ hj hi hlt]
        simp
      · rw [Std.OrientedCmp.gt_of_lt (List.pairwise_iff_getElem.mp hs _ _ hi hj hgt)]
        simp
    · rintro ⟨hp, hne⟩
      obtain ⟨j, hj, rfl⟩ := List.mem_iff_getElem.mp hp
      refine ⟨j, hj, ?_, rfl⟩
      rintro rfl
      exact hne hk

lemma get_del_self (hs : Sorted m) : get (del m k) k = none := by
  refine Option.eq_none_iff_forall_ne_some.mpr fun w hw => ?_
  rw [get_eq_some_iff (sorted_del hs), mem_del hs] at hw
  exact hw.2 rfl

lemma get_del_of_ne (hs : Sorted m) {k' : κ} (hk : k' ≠ k) : get (del m k) k' = get m k' := by
  refine Option.ext fun w => ?_
  rw [get_eq_some_iff (sorted_del hs), get_eq_some_iff hs, mem_del hs]
  simp [hk]

lemma ext_get {m' : List (κ × α)} (hs : Sorted m) (hs' : Sorted m')
    (h : ∀ k, get m k = get m' k) : m = m' := by
  have hnodup : ∀ {l : List (κ × α)}, Sorted l → l.Nodup := fun hl =>
    hl.imp fun hlt he => by
      rw [he] at hlt
      simp at hlt
  have hperm : m.Perm m' := by
    refine (List.perm_ext_iff_of_nodup (hnodup hs) (hnodup hs')).mpr fun p => ?_
    rw [← get_eq_some_iff hs, ← get_eq_some_iff hs', h]
  refine hperm.eq_of_pairwise (fun p q _ _ hpq hqp => ?_) hs hs'
  rw [Std.OrientedCmp.gt_of_lt hpq] at hqp
  cases hqp

end SbEasy.SortedAssoc
