import SbEasy.GoPolicy
import SbEasy.Users

/-!
Identifiers: those that `sb_uuid_v4` makes and those that a request may bring are identifiers to
the engine as well.
-/

namespace SbEasy

/-- An identifier made by `sb_uuid_v4`. -/
def IsUuid (id : Bytes) : Prop := ∃ raw : Bytes, raw.length = 16 ∧ id = uuidText raw

lemma identifierByte_hexByte (b : UInt8) : ∀ c ∈ hexByte b, identifierByte c = true := by
  obtain ⟨⟨b⟩⟩ := b
  revert b
  decide +kernel

lemma identifierByte_flatMap (s : Bytes) : ∀ c ∈ s.flatMap hexByte, identifierByte c = true := by
  intro c hc
  obtain ⟨b, -, hb⟩ := List.mem_flatMap.mp hc
  exact identifierByte_hexByte b c hb

lemma length_hexByte (b : UInt8) : (hexByte b).length = 2 := rfl

lemma identifierByte_lt (c : UInt8) (h : identifierByte c = true) : c < 0x80 := by
  obtain ⟨⟨c⟩⟩ := c
  revert c
  decide +kernel

lemma IsUuid.bytes {id : Bytes} (h : IsUuid id) : ∀ c ∈ id, identifierByte c = true := by
  obtain ⟨raw, -, rfl⟩ := h
  intro c hc
  simp only [uuidText, List.mem_append, List.mem_cons] at hc
  rcases hc with ((((hc | rfl | hc) | rfl | hc) | rfl | hc) | rfl | hc)
  all_goals first | exact identifierByte_flatMap _ _ hc | decide

lemma IsUuid.length {id : Bytes} (h : IsUuid id) : id.length = 36 := by
  obtain ⟨raw, hraw, rfl⟩ := h
  simp [uuidText, length_hexByte, hraw]

lemma IsUuid.valid {id : Bytes} (h : IsUuid id) : Utf8.Valid id :=
  Utf8.Valid.ascii fun c hc => identifierByte_lt c (h.bytes c hc)

lemma proxyIdByte_of_identifierByte {c : UInt8} (h : identifierByte c = true) :
    proxyIdByte c = true := by
  simp only [identifierByte, proxyIdByte, Bool.or_eq_true] at h ⊢
  tauto

lemma IsUuid.proxyID {id : Bytes} (h : IsUuid id) : proxyID id = true := by
  have hlen := h.length
  simp only [SbEasy.proxyID, Bool.and_eq_true, List.all_eq_true]
  exact ⟨by simp [hlen], fun c hc => proxyIdByte_of_identifierByte (h.bytes c hc)⟩

/-- What `text_ok` takes for an identifier, the engine does too. -/
lemma proxyID_of_textOk {s : Bytes} (h : textOk (some (.str s)) 128 true = true) :
    proxyID s = true := by
  simp only [textOk, Bool.and_eq_true, Bool.not_eq_true', List.isEmpty_eq_false_iff,
    decide_eq_true_eq, List.all_eq_true, Bool.or_eq_false_iff, Bool.true_and,
    Bool.not_eq_false'] at h
  obtain ⟨⟨⟨hne, hlen⟩, -⟩, hbytes⟩ := h
  simp only [proxyID, Bool.and_eq_true, List.all_eq_true]
  refine ⟨by simp [hne, hlen], fun c hc => proxyIdByte_of_identifierByte (hbytes c hc).2⟩

lemma proxyIdByte_lt (c : UInt8) (h : proxyIdByte c = true) : c < 0x80 := by
  obtain ⟨⟨c⟩⟩ := c
  revert c
  decide +kernel

lemma valid_of_proxyID {s : Bytes} (h : proxyID s = true) : Utf8.Valid s := by
  simp only [proxyID, Bool.and_eq_true, List.all_eq_true] at h
  exact Utf8.Valid.ascii fun c hc => proxyIdByte_lt c (h.2 c hc)

end SbEasy
