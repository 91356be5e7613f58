import SbEasy.EnrollmentRun

/-!
What an enrollment makes of the capabilities of a host, and the keys that every call keeps
unique.
-/

namespace SbEasy

namespace Sbj

variable {o v : Sbj} {k : Bytes} {n : ℕ}

lemma IsObj.written (h : o.IsObj) : o.written.IsObj := by
  obtain ⟨m, rfl, hm⟩ := h
  refine ⟨writtenMembers m, rfl, ?_⟩
  rw [writtenMembers_eq]
  exact SortedAssoc.sorted_map _ hm

lemma written_set (h : o.IsObj) : (o.set k v).written = o.written.set k v.written := by
  refine (h.set k v).written.ext (h.written.set k _) fun k' => ?_
  by_cases hk : k' = k
  · subst hk
    rw [get_written, h.get_set, h.written.get_set, Option.map_some]
  · rw [get_written, h.get_set_ne hk, h.written.get_set_ne hk, get_written]

lemma nesting_set_le (h : o.IsObj) (hv : v.nesting = 0) (ho : o.nesting ≤ n) :
    (o.set k v).nesting ≤ n := by
  obtain ⟨m, rfl, hm⟩ := h
  simp only [set, nesting] at ho ⊢
  have hle : nestingMembers (SortedAssoc.set m k v) ≤ n - 1 := by
    rw [nestingMembers_le]
    intro p hp
    rcases SortedAssoc.mem_set hm hp with rfl | hp
    · rw [hv]
      exact Nat.zero_le _
    · exact (nestingMembers_le.mp le_rfl p hp).trans (by omega)
  omega

end Sbj

namespace Enrollment

/-! ### Capabilities -/

/-- An object as a column holds it. -/
structure Capable (c : Json) : Prop where
  isObj : c.1.IsObj
  written : c.1.written = c.1
  fits : c.1.nesting ≤ JsonParse.maxDepth

/-- A value without members. -/
structure Plain (v : Sbj) : Prop where
  written : v.written = v
  flat : v.nesting = 0

lemma capable_empty : Capable emptyObject := ⟨Sbj.isObj_nil, rfl, by decide⟩

lemma capable_parseObjectOrEmpty (c : Column) : Capable (parseObjectOrEmpty c) := by
  cases c with
  | none => exact capable_empty
  | some v =>
    simp only [parseObjectOrEmpty]
    split_ifs with hobj
    · exact ⟨v.1.2.isObj hobj, v.2.1.written, v.2.2⟩
    · exact capable_empty

section

variable {device c : Json} {accept : Sbj → Bool} {key : Bytes} {keys : List Bytes}

lemma capable_takeOver (hc : Capable c)
    (hplain : ∀ v, Sbj.get (some device.1) key = some v → accept v = true → Plain v) :
    Capable (takeOver device accept c key) := by
  unfold takeOver
  split
  · exact hc
  · rename_i v hv
    split_ifs with ha
    · have hp := hplain v hv ha
      refine ⟨hc.isObj.set key v, ?_, Sbj.nesting_set_le hc.isObj hp.flat hc.fits⟩
      rw [Sbj.written_set hc.isObj, hc.written, hp.written]
    · exact hc

lemma get_takeOver (hc : c.1.IsObj) (k : Bytes) :
    Sbj.get (some (takeOver device accept c key).1) k =
      if k = key then ((Sbj.get (some device.1) key).filter accept).or (Sbj.get (some c.1) k)
      else Sbj.get (some c.1) k := by
  unfold takeOver
  split
  · rename_i hnone
    simp [hnone]
  · rename_i v hv
    by_cases ha : accept v = true
    · rw [if_pos ha]
      by_cases hk : k = key
      · subst hk
        rw [hc.get_set, if_pos rfl, hv]
        simp [Option.filter, ha]
      · rw [hc.get_set_ne hk, if_neg hk]
    · rw [if_neg ha, hv]
      simp [Option.filter, ha]

lemma capable_foldl (hc : Capable c) (hplain : ∀ key ∈ keys, ∀ v,
      Sbj.get (some device.1) key = some v → accept v = true → Plain v) :
    Capable (keys.foldl (takeOver device accept) c) := by
  induction keys generalizing c with
  | nil => exact hc
  | cons key keys ih =>
    exact ih (capable_takeOver hc (hplain key (by simp))) fun k hk => hplain k (by simp [hk])

lemma get_foldl (hc : Capable c) (hplain : ∀ key ∈ keys, ∀ v,
      Sbj.get (some device.1) key = some v → accept v = true → Plain v) (k : Bytes) :
    Sbj.get (some (keys.foldl (takeOver device accept) c).1) k =
      if k ∈ keys then ((Sbj.get (some device.1) k).filter accept).or (Sbj.get (some c.1) k)
      else Sbj.get (some c.1) k := by
  induction keys generalizing c with
  | nil => simp
  | cons key keys ih =>
    rw [List.foldl_cons, ih (capable_takeOver hc (hplain key (by simp))) fun k hk =>
      hplain k (by simp [hk]), get_takeOver hc.isObj]
    by_cases hk : k = key
    · subst hk
      by_cases hmem : k ∈ keys
      · simp [hmem, ← Option.or_assoc]
      · simp [hmem]
    · simp [hk]

end

/-- What the capabilities of a host take over from a device. -/
def taken (device : Json) (k : Bytes) : Option Sbj :=
  if k ∈ featureKeys then Sbj.get (some device.1) k
  else if k ∈ descriptiveKeys then (Sbj.get (some device.1) k).filter isFilledString
  else none

lemma plain_of_isFilledString {v : Sbj} (h : isFilledString v = true) : Plain v := by
  cases v with
  | str s => exact ⟨rfl, rfl⟩
  | _ => cases h

lemma plain_of_checkFeature {device v : Sbj} {name : String} (h : checkFeature device name = .ok ())
    (hv : Sbj.get (some device) (lit name) = some v) : Plain v := by
  unfold checkFeature at h
  rw [hv] at h
  cases v with
  | bool b => exact ⟨rfl, rfl⟩
  | _ => cases h

lemma plain_of_forM {device : Sbj} {names : List String}
    (h : names.forM (checkFeature device) = .ok ()) :
    ∀ key ∈ names.map lit, ∀ v, Sbj.get (some device) key = some v → Plain v := by
  induction names with
  | nil => simp
  | cons name names ih =>
    obtain ⟨⟨⟩, hname, h⟩ := bind_ok h
    intro key hkey v hv
    rcases List.mem_cons.mp hkey with rfl | hkey
    · exact plain_of_checkFeature hname hv
    · exact ih h key hkey v hv

lemma plain_of_checkFeatures {device : Sbj} (h : checkFeatures device = .ok ()) :
    ∀ key ∈ featureKeys, ∀ v, Sbj.get (some device) key = some v → Plain v :=
  plain_of_forM h

section

variable {device c : Json}

lemma capable_described (device : Json) (hc : Capable c) :
    Capable (descriptiveKeys.foldl (takeOver device isFilledString) c) :=
  capable_foldl hc fun _ _ _ _ h => plain_of_isFilledString h

lemma capable_enrolled (hc : Capable c) (hf : checkFeatures device.1 = .ok ()) :
    Capable (enrolled device c) :=
  capable_foldl (capable_described device hc) fun key hkey v hv _ =>
    plain_of_checkFeatures hf key hkey v hv

/-- The capabilities are the old ones but for what is taken over. -/
lemma get_enrolled (hc : Capable c) (hf : checkFeatures device.1 = .ok ()) (k : Bytes) :
    Sbj.get (some (enrolled device c).1) k = (taken device k).or (Sbj.get (some c.1) k) := by
  have hapart : k ∈ featureKeys → k ∉ descriptiveKeys := by
    intro hk
    fin_cases hk <;> decide
  rw [enrolled, get_foldl (capable_described device hc) fun key hkey v hv _ =>
    plain_of_checkFeatures hf key hkey v hv, get_foldl hc fun _ _ _ _ h => plain_of_isFilledString h]
  unfold taken
  by_cases hk : k ∈ featureKeys
  · rw [if_pos hk, if_pos hk, if_neg (hapart hk)]
    cases Sbj.get (some device.1) k <;> rfl
  · rw [if_neg hk, if_neg hk]
    by_cases hd : k ∈ descriptiveKeys
    · rw [if_pos hd, if_pos hd]
    · rw [if_neg hd, if_neg hd, Option.none_or]

lemma parseObjectOrEmpty_bindDump {text : Column} (hc : Capable c) (h : bindDump c = .ok text) :
    parseObjectOrEmpty text = c := by
  unfold bindDump at h
  split at h
  · cases h
  · rename_i v hv
    have hval : v = c := Subtype.ext ((dumpChecked_ok hv).trans hc.written)
    subst hval
    rw [dif_pos hc.fits] at h
    cases h
    exact if_pos hc.isObj.isObject

end

/-- The primary keys and the hashes of the codes are unique. -/
structure Valid (db : Db) : Prop where
  hosts : (db.hosts.map (·.id)).Nodup
  ids : (db.enrollments.map (·.id)).Nodup
  hashes : (db.enrollments.map (·.codeHash)).Nodup

variable [Platform]

section

variable {hostId id code : Bytes} {device : Json} {w w' : Clocked Db} {e : EnrollmentRow} {h : HostRow}

lemma Created.valid {a : AgentEnrollment} (hc : Created hostId id code w a w') (hw : Valid w.db) :
    Valid w'.db := by
  obtain ⟨t₁, t₂, -, -, -, rfl⟩ := hc.written
  have hkeep : ∀ x ∈ supersede hostId t₁ w.db.enrollments,
      ∃ x' ∈ w.db.enrollments, x.id = x'.id ∧ x.codeHash = x'.codeHash := by
    intro x hx
    obtain ⟨x', hx', rfl⟩ := List.mem_map.mp hx
    refine ⟨x', hx', ?_⟩
    split_ifs
    · exact ⟨rfl, rfl⟩
    · exact ⟨rfl, rfl⟩
  refine ⟨hw.hosts, Table.nodup_append ?_ fun x hx => ?_, Table.nodup_append ?_ fun x hx => ?_⟩
  · exact Table.nodup_update hw.ids fun _ _ _ => rfl
  · obtain ⟨x', hx', hsame, -⟩ := hkeep x hx
    rw [hsame]
    exact hc.newId x' hx'
  · exact Table.nodup_update hw.hashes fun _ _ _ => rfl
  · obtain ⟨x', hx', -, hsame⟩ := hkeep x hx
    rw [hsame]
    exact hc.newHash x' hx'

lemma Redeemed.valid {a : AgentEnrollmentResult} (hr : Redeemed code device w e h a w')
    (hw : Valid w.db) : Valid w'.db := by
  obtain ⟨t₁, t₂, t₃, text, -, -, -, -, -, rfl⟩ := hr.written
  exact ⟨Table.nodup_update hw.hosts fun _ _ _ => rfl, Table.nodup_update hw.ids fun _ _ _ => rfl,
    Table.nodup_update hw.hashes fun _ _ _ => rfl⟩

end

lemma exec_valid (e : Event) (w : Clocked Db) (hw : Valid w.db) : Valid (exec e w).2.db := by
  obtain ⟨err, -, h⟩ | ⟨seen, hostId, id, code, d₁, d₂, a, -, -, h⟩ |
    ⟨code, device, d₁, d₂, d₃, row, host, a, -, -, h⟩ := exec_cases e w
  · rwa [h]
  · exact h.valid hw
  · exact h.valid hw

/-- What an enrollment leaves alone in a host. -/
def HostRow.kept (h : HostRow) : HostRow :=
  { h with capabilities := none, lastSeen := none, updatedAt := 0 }

/-- Hosts are kept, and so are their tokens. -/
lemma hosts_kept (w : Clocked Db) (events : List Event) :
    (Trace.run exec w events).db.hosts.map HostRow.kept = w.db.hosts.map HostRow.kept := by
  refine Trace.run_invariant (I := fun w' : Clocked Db => w'.db.hosts.map _ = _)
    (fun e w' hw => ?_) rfl
  rw [← hw]
  obtain ⟨_, -, h⟩ | ⟨_, _, _, _, _, _, _, -, -, h⟩ | ⟨_, _, _, _, _, _, _, _, -, -, h⟩ :=
    exec_cases e w'
  · rw [h]
  · obtain ⟨_, _, -, -, -, heq⟩ := h.written
    rw [heq]
  · obtain ⟨_, _, _, _, -, -, -, -, -, heq⟩ := h.written
    rw [heq]
    exact Table.map_update fun _ _ _ => rfl

end Enrollment
end SbEasy
