import SbEasy.AuthCrypto

/-!
A session token determines the identifier of its session.
-/

namespace SbEasy.Auth

open JsonParse

lemma random_injective : Function.Injective random := base64urlEncode_injective

/-! ### The identifier in a token -/

lemma payload_eq (user : User) (id : Bytes) (now : ℤ) : payload user id now = .obj [
    (lit "exp", .int (now + sessionSeconds)), (lit "iat", .int now), (lit "jti", .str id),
    (lit "role", .str (Sbj.cstr user.role)), (lit "sub", .str user.id),
    (lit "username", .str user.username)] := by
  cbv

lemma dump_payload [Platform] (user : User) (id : Bytes) (now : ℤ) : ∃ rest,
    dump (payload user id now) (-1) = lit "\x7b\"exp\":" ++ (decimalInt (now + sessionSeconds) ++
      0x2C :: (lit "\"iat\":" ++ (decimalInt now ++ 0x2C :: (lit "\"jti\":\"" ++
        (escaped id ++ 0x22 :: rest))))) := by
  have hexp : lit "\x7b\"exp\":" = 0x7B :: (dumpString (lit "exp") ++ lit ":") := by decide
  have hiat : lit "\"iat\":" = dumpString (lit "iat") ++ lit ":" := by decide
  have hjti : lit "\"jti\":\"" = dumpString (lit "jti") ++ lit ":" ++ [0x22] := by decide
  refine ⟨dumpMembers (-1) 1 [(lit "role", .str (Sbj.cstr user.role)), (lit "sub", .str user.id),
    (lit "username", .str user.username)] ++ [0x7D], ?_⟩
  rw [payload_eq, hexp, hiat, hjti, dump, dumpValue]
  simp only [dumpValue, dumpMembers, newline, dumpString_eq id]
  simp

lemma decimalInt_char {i : ℤ} {c : UInt8} (h : c ∈ decimalInt i) : c ≠ 0 ∧ c ≠ 0x2C := by
  have hdigits : ∀ {n : ℕ}, c ∈ decimal n → c ≠ 0 ∧ c ≠ 0x2C := by
    intro n hmem
    have hdigit := (decimal_digits n).digit c hmem
    constructor
    · rintro rfl
      cases hdigit
    · rintro rfl
      cases hdigit
  unfold decimalInt at h
  split_ifs at h
  · rcases List.mem_cons.mp h with rfl | h
    · decide
    · exact hdigits h
  · exact hdigits h

lemma random_char {raw : Bytes} {c : UInt8} (hc : c ∈ random raw) :
    c ≠ 0 ∧ c ≠ 0x22 ∧ c ≠ 0x2E ∧ escape c = none := by
  refine b64Encode_forall (P := fun c => c ≠ 0 ∧ c ≠ 0x22 ∧ c ≠ 0x2E ∧ escape c = none) ?_
    (by decide) raw c hc
  decide +kernel

lemma escaped_eq_self {t : Bytes} (h : ∀ c ∈ t, escape c = none) : escaped t = t := by
  induction t with
  | nil => rfl
  | cons c t ih =>
    have hrest := ih fun x hx => h x (by simp [hx])
    simp only [escaped, List.flatMap_cons, h c (by simp)] at hrest ⊢
    rw [hrest]
    rfl

lemma zero_notMem_decimalInt (i : ℤ) : 0 ∉ decimalInt i := fun h => (decimalInt_char h).1 rfl

lemma zero_notMem_dumpString (t : Bytes) : 0 ∉ dumpString t := by
  have hescape : ∀ a : UInt8, 0 ∉ (escape a).getD [a] := by
    rintro ⟨⟨a⟩⟩
    revert a
    decide +kernel
  simp [dumpString_eq, escaped, hescape]

lemma cstr_payload [Platform] (user : User) (raw : Bytes) (now : ℤ) : ∃ rest,
    Sbj.cstr (dump (payload user (random raw) now) (-1)) =
      lit "\x7b\"exp\":" ++ (decimalInt (now + sessionSeconds) ++
      0x2C :: (lit "\"iat\":" ++ (decimalInt now ++ 0x2C :: (lit "\"jti\":\"" ++
        (random raw ++ 0x22 :: rest))))) := by
  obtain ⟨rest, hdump⟩ := dump_payload user (random raw) now
  rw [escaped_eq_self fun c hc => (random_char hc).2.2.2] at hdump
  have hzero : 0 ∉ dump (payload user (random raw) now) (-1) := by
    rw [payload_eq]
    simp [dump, dumpValue, dumpMembers, newline, zero_notMem_dumpString, zero_notMem_decimalInt, lit]
  exact ⟨rest, (Sbj.cstr_eq_self hzero).trans hdump⟩

lemma dot_notMem_base64urlEncode (t : Bytes) : 0x2E ∉ base64urlEncode t :=
  fun h => (random_char h).2.2.1 rfl

lemma eq_of_append_cons {a b a' b' : Bytes} {c : UInt8} (ha : c ∉ a) (ha' : c ∉ a')
    (h : a ++ c :: b = a' ++ c :: b') : a = a' ∧ b = b' := by
  have hspan : ∀ {a b : Bytes}, c ∉ a → (a ++ c :: b).takeWhile (· != c) = a := by
    intro a b ha
    rw [List.takeWhile_append_of_pos fun x hx => by simpa using fun he : x = c => ha (he ▸ hx)]
    simp
  have hfirst := congrArg (List.takeWhile (· != c)) h
  rw [hspan ha, hspan ha'] at hfirst
  subst hfirst
  exact ⟨rfl, (List.cons.inj (List.append_cancel_left h)).2⟩

/-- **The identifier of a session** is determined by its token. -/
theorem raw_of_signed [Platform] [Crypto] {s : Security} {user user' : User} {raw raw' : Bytes}
    {now now' : ℤ}
    (h : signed s (payload user (random raw) now) = signed s (payload user' (random raw') now')) :
    raw = raw' := by
  simp only [signed, List.append_assoc, List.append_cancel_left_eq] at h
  obtain ⟨hjson, -⟩ :=
    eq_of_append_cons (dot_notMem_base64urlEncode _) (dot_notMem_base64urlEncode _) h
  have htext := base64urlEncode_injective hjson
  obtain ⟨rest, hrest⟩ := cstr_payload user raw now
  obtain ⟨rest', hrest'⟩ := cstr_payload user' raw' now'
  rw [hrest, hrest', List.append_cancel_left_eq] at htext
  have hcomma : ∀ i, (0x2C : UInt8) ∉ decimalInt i := fun i hi => (decimalInt_char hi).2 rfl
  have hquote : ∀ raw, (0x22 : UInt8) ∉ random raw := fun raw hmem => (random_char hmem).2.1 rfl
  obtain ⟨-, htext⟩ := eq_of_append_cons (hcomma _) (hcomma _) htext
  rw [List.append_cancel_left_eq] at htext
  obtain ⟨-, htext⟩ := eq_of_append_cons (hcomma _) (hcomma _) htext
  rw [List.append_cancel_left_eq] at htext
  exact random_injective (eq_of_append_cons (hquote _) (hquote _) htext).1

end SbEasy.Auth
