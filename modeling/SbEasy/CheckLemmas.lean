import SbEasy.GoPolicy
import SbEasy.PolicyJson
import SbEasy.RuntimeChecks

/-!
What the single checks of the runtime and of the engine say: distinct texts, identifiers, keys,
integers, and objects of which all keys are known.
-/

namespace SbEasy

lemma adjacentEqual_of_nodup {l : List Bytes} (h : l.Nodup) : adjacentEqual l = false := by
  induction l with
  | nil => rfl
  | cons a l ih =>
    cases l with
    | nil => rfl
    | cons b l =>
      rw [List.nodup_cons, List.mem_cons, not_or] at h
      simp [adjacentEqual, h.1.1, ih h.2]

lemma nodup_of_adjacent {l : List Bytes} (hs : l.Pairwise fun a b => (compare a b).isLE = true)
    (h : adjacentEqual l = false) : l.Nodup := by
  induction l with
  | nil => exact .nil
  | cons a l ih =>
    rw [List.pairwise_cons] at hs
    cases l with
    | nil => simp
    | cons b l =>
      simp only [adjacentEqual, Bool.or_eq_false_iff, beq_eq_false_iff_ne] at h
      refine List.nodup_cons.mpr ⟨fun hmem => ?_, ih hs.2 h.2⟩
      -- A copy further down would put the neighbour between two equal texts.
      have hab := hs.1 b (by simp)
      have hba : (compare b a).isLE = true := by
        rcases List.mem_cons.mp hmem with rfl | hmem
        · exact absurd rfl h.1
        · exact (List.pairwise_cons.mp hs.2).1 a hmem
      exact h.1 (Std.LawfulEqOrd.eq_of_compare (Std.OrientedCmp.isLE_antisymm hab hba))

lemma orderBy_sorted (l : List Bytes) :
    (orderBy (fun i => i) l).Pairwise fun a b => (compare a b).isLE = true := by
  have htrans : IsTrans Bytes fun a b => (compare a b).isLE = true :=
    ⟨fun a b c h1 h2 => Std.TransCmp.isLE_trans h1 h2⟩
  have htotal : Std.Total fun a b : Bytes => (compare a b).isLE = true := by
    refine ⟨fun a b => ?_⟩
    have hswap : compare b a = (compare a b).swap := Std.OrientedCmp.eq_swap
    rw [hswap]
    cases compare a b <;> simp [Ordering.isLE]
  exact List.pairwise_insertionSort _ _

lemma distinct_iff {l : List Bytes} : distinct l = true ↔ l.Nodup := by
  have hperm := orderBy_perm (fun i => i) l
  rw [distinct, Bool.not_eq_true']
  constructor
  · intro h
    exact hperm.nodup_iff.mp (nodup_of_adjacent (orderBy_sorted l) h)
  · intro h
    exact adjacentEqual_of_nodup (hperm.nodup_iff.mpr h)

lemma allowed_eq (c : UInt8) : allowed.contains c = proxyIdByte c := by
  obtain ⟨⟨c⟩⟩ := c
  revert c
  decide +kernel

lemma identifier_str (s : Bytes) : identifier (some (.str s)) = proxyID s := by
  have hlen : (s.length == 0) = decide (s.length < 1) := by
    rw [Bool.eq_iff_iff]
    simp
  simp only [identifier, proxyID, allowed_eq, hlen]

lemma identifier_some {v : Option Sbj} (h : identifier v = true) :
    ∃ s, v = some (.str s) ∧ proxyID s = true := by
  match v, h with
  | some (.str s), h => exact ⟨s, rfl, by rwa [← identifier_str]⟩

lemma cstr_of_ne_zero {s : Bytes} (h : ∀ c ∈ s, c ≠ 0) : Sbj.cstr s = s := by
  rw [Sbj.cstr, List.takeWhile_eq_self_iff]
  simpa using h

lemma length_cstr {s : Bytes} : s.length = (Sbj.cstr s).length ↔ ∀ c ∈ s, c ≠ 0 := by
  constructor
  · intro h
    have heq : Sbj.cstr s = s := (List.takeWhile_prefix _).eq_of_length h.symm
    rw [Sbj.cstr, List.takeWhile_eq_self_iff] at heq
    simpa using heq
  · intro h
    rw [cstr_of_ne_zero h]

lemma proxyIdByte_ne_zero {c : UInt8} (h : proxyIdByte c = true) : c ≠ 0 := by
  rintro rfl
  revert h
  decide

lemma cstr_of_proxyID {s : Bytes} (h : proxyID s = true) : Sbj.cstr s = s := by
  simp only [proxyID, Bool.and_eq_true, List.all_eq_true] at h
  exact cstr_of_ne_zero fun c hc => proxyIdByte_ne_zero (h.2 c hc)

lemma keyValid_str (s : Bytes) : keyValid (some (.str s)) = true ↔ IsKey s := by
  simp only [keyValid, Bool.and_eq_true, beq_iff_eq]
  constructor
  · rintro ⟨hlen, h⟩
    split at h
    · rename_i key hkey
      simp only [Bool.and_eq_true, beq_iff_eq] at h
      refine ⟨key, h.1, ?_⟩
      -- The canonical text is as long as the whole string, which therefore has no NUL byte.
      have hcstr : (Sbj.cstr s).length = s.length := by
        rw [← h.2, length_b64Encode, h.1, hlen]
      rw [h.2]
      exact ((List.takeWhile_prefix _).eq_of_length hcstr).symm
    · cases h
  · intro h
    have hcstr : Sbj.cstr s = s := cstr_of_ne_zero fun c hc => (h.ascii c hc).2
    refine ⟨h.length, ?_⟩
    obtain ⟨raw, hraw, rfl⟩ := h
    simp [b64DecodeStrict_encode, hraw, hcstr]

lemma keyValid_some {v : Option Sbj} (h : keyValid v = true) : ∃ s, v = some (.str s) ∧ IsKey s := by
  match v, h with
  | some (.str s), h => exact ⟨s, rfl, (keyValid_str s).mp h⟩

lemma proxyKey_iff (s : Bytes) : proxyKey s = true ↔ IsKey s := by
  constructor
  · intro h
    unfold proxyKey at h
    split at h
    · cases h
    · simp only [Bool.and_eq_true, beq_iff_eq] at h
      exact ⟨_, h.1, h.2.symm⟩
  · rintro ⟨raw, hraw, rfl⟩
    simp [proxyKey, decodeString_encode, hraw]

lemma proxyID_valid {s : Bytes} (h : proxyID s = true) : Utf8.Valid s := by
  have hascii : ∀ c : UInt8, proxyIdByte c = true → c < 0x80 := by
    rintro ⟨⟨c⟩⟩
    revert c
    decide +kernel
  simp only [proxyID, Bool.and_eq_true, List.all_eq_true] at h
  exact Utf8.Valid.ascii fun c hc => hascii c (h.2 c hc)

lemma members_eq {o m : List (Bytes × Sbj)} (ho : SortedAssoc.Sorted o) (hm : SortedAssoc.Sorted m)
    (hlen : o.length = m.length) (h : ∀ p ∈ m, SortedAssoc.get o p.1 = some p.2) : o = m := by
  have hsub : m ⊆ o := fun p hp => (SortedAssoc.get_eq_some_iff ho).mp (h p hp)
  have hnodup : m.Nodup := by
    refine hm.imp fun {p q} hpq => ?_
    rintro rfl
    simp at hpq
  have hperm : m.Perm o := (hnodup.subperm hsub).perm_of_length_le (by omega)
  refine (hperm.eq_of_pairwise ?_ hm ho).symm
  intro p q _ _ hpq hqp
  rw [Std.OrientedCmp.gt_of_lt hpq] at hqp
  cases hqp

lemma obj_eq {v : Sbj} (hv : v.Wf) {m : List (Bytes × Sbj)} (hm : keysOk (m.map Prod.fst) = true)
    (hlen : (Sbj.members (some v)).length = m.length)
    (hobj : Sbj.isObject (some v) = true) (h : ∀ p ∈ m, Sbj.get (some v) p.1 = some p.2) :
    v = .obj m := by
  match v, hobj with
  | .obj o, _ =>
    simp only [keysOk, Bool.and_eq_true, decide_eq_true_eq, List.pairwise_map] at hm
    rw [members_eq hv.1 hm.1 hlen h]

lemma wf_get {v w : Sbj} (hv : v.Wf) {k : Bytes} (h : Sbj.get (some v) k = some w) : w.Wf := by
  cases v with
  | obj o =>
    have hmem : (k, w) ∈ o := (SortedAssoc.get_eq_some_iff hv.1).mp h
    exact (Sbj.wfMembers_iff.mp hv.2 _ hmem).2
  | _ => simp [Sbj.get, Sbj.members] at h

variable [Platform]

variable {v : Sbj} {k : Bytes} {i : ℤ}

lemma integer_some (hv : v.Wf) {lo hi : ℤ} (hlo : 0 ≤ lo) (h : integer (some v) k lo hi = true) :
    ∃ i, Sbj.get (some v) k = some (.int i) ∧ lo ≤ i ∧ i ≤ hi := by
  simp only [integer, Bool.and_eq_true, decide_eq_true_eq] at h
  obtain ⟨⟨hint, hmin⟩, hmax⟩ := h
  cases hg : Sbj.get (some v) k with
  | none => rw [hg] at hint; cases hint
  | some w =>
    rw [hg] at hint hmin hmax
    cases w with
    | int i => exact ⟨i, rfl, hmin, hmax⟩
    | uint u =>
      have hu : int64Max < u ∧ (u : ℤ) ≤ uint64Max := wf_get hv hg
      have hneg : Int.bmod u (2 ^ 64) = u - 18446744073709551616 := by
        rw [int64Max, uint64Max] at hu
        rw [Int.bmod_def]
        norm_num
        omega
      unfold Sbj.asInt at hmin
      simp only [hneg] at hmin
      rw [uint64Max] at hu
      omega
    | _ => cases hint

lemma integer_int (hg : Sbj.get (some v) k = some (.int i))
    (lo hi : ℤ) : integer (some v) k lo hi = true ↔ lo ≤ i ∧ i ≤ hi := by
  simp only [integer, hg, Bool.and_eq_true, decide_eq_true_eq]
  change (true = true ∧ lo ≤ i) ∧ i ≤ hi ↔ _
  simp

lemma getInt_int (hg : Sbj.get (some v) k = some (.int i)) (fb : ℤ) :
    Sbj.getInt (some v) k fb = i := by
  rw [Sbj.getInt, hg]
  rfl

end SbEasy
