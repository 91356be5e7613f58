import SbEasy.AuthToken
import SbEasy.PolicyJson

/-!
The tokens of `auth.c`: a token is read back as it was made, and has one spelling.
-/

namespace SbEasy.Auth

open JsonParse

/-- The claims of `sb_auth_create_token_n`. -/
def tokenPayload (userId username role : Bytes) (issuedAt : ℤ) : Sbj :=
  Sbj.build [(lit "sub", .str (Sbj.cstr userId)), (lit "username", .str username),
    (lit "role", .str (Sbj.cstr role)), (lit "exp", .int (issuedAt + sessionSeconds)),
    (lit "iat", .int issuedAt)]

def tokenHeader : Sbj := Sbj.build [(lit "alg", .str (lit "HS256")), (lit "typ", .str (lit "JWT"))]

section

variable [Platform] [Crypto] (s : Security)

def jsonSegment (v : Sbj) : Bytes := base64urlEncode (Sbj.cstr (dump v (-1)))

/-- `sb_auth_create_token_n` at a time. -/
def createTokenN (userId username role : Bytes) (issuedAt : ℤ) : Option Bytes :=
  if s.jwtSecret.isEmpty then none
  else
    let unsigned_ :=
      jsonSegment tokenHeader ++ 0x2E :: jsonSegment (tokenPayload userId username role issuedAt)
    some (unsigned_ ++ 0x2E :: base64urlEncode (Crypto.hmacSha256 s.jwtSecret unsigned_))

end

/-- The bytes of the header and of the payload. -/
def decodedParts (token : Bytes) : Option (Bytes × Bytes) := do
  let (first, second, _) ← segments token
  let header ← b64urlDecode first
  let payload ← b64urlDecode second
  some (header, payload)

/-! ### Segments -/

lemma segments_append {a b c : Bytes} (ha : 0x2E ∉ a) (hb : 0x2E ∉ b) (hc : 0x2E ∉ c) :
    segments (a ++ 0x2E :: (b ++ 0x2E :: c)) = some (a, b, c) := by
  have hnot : ∀ {t : Bytes}, 0x2E ∉ t → ∀ x ∈ t, (x != 0x2E) = true := fun ht x hx => by
    simpa using fun he : x = 0x2E => ht (he ▸ hx)
  simp [segments, List.takeWhile_append_of_pos (hnot ha), List.dropWhile_append_of_pos (hnot ha),
    List.takeWhile_append_of_pos (hnot hb), List.dropWhile_append_of_pos (hnot hb), hc]

lemma segments_eq {token a b c : Bytes} (h : segments token = some (a, b, c)) :
    token = a ++ 0x2E :: (b ++ 0x2E :: c) := by
  have hsplit : ∀ t : Bytes, t.dropWhile (· != 0x2E) ≠ [] →
      t = t.takeWhile (· != 0x2E) ++ 0x2E :: (t.dropWhile (· != 0x2E)).tail := by
    intro t ht
    obtain ⟨x, rest, hrest⟩ := List.exists_cons_of_ne_nil ht
    have hdot := List.head_dropWhile_not (· != 0x2E) ht
    simp only [hrest, List.head_cons, bne_eq_false_iff_eq] at hdot
    subst hdot
    rw [hrest, List.tail_cons, ← hrest, List.takeWhile_append_dropWhile]
  simp only [segments] at h
  split_ifs at h with hdots
  cases h
  simp only [Bool.or_eq_true, List.isEmpty_iff, not_or] at hdots
  rw [← hsplit _ hdots.1.2]
  exact hsplit _ hdots.1.1

lemma b64urlDecode_iff {text raw : Bytes} : b64urlDecode text = some raw ↔
    text.length % 4 ≠ 1 ∧ (∀ c ∈ text, isUrlAlphabet c = true) ∧
      b64Decode .lenient text = some raw ∧ base64urlEncode raw = text := by
  have hdecoded : (if text.isEmpty then some [] else b64Decode .lenient text) =
      b64Decode .lenient text := by
    cases text <;> rfl
  have hbind : b64urlDecode text = if text.length % 4 = 1 ∨ !text.all isUrlAlphabet then none
      else (if text.isEmpty then some [] else b64Decode .lenient text).bind fun decoded =>
        if base64urlEncode decoded = text then some decoded else none := by
    unfold b64urlDecode
    cases text <;> rfl
  rw [hbind, hdecoded]
  constructor
  · intro h
    split_ifs at h with hshape
    obtain ⟨decoded, hlenient, h⟩ := Option.bind_eq_some_iff.mp h
    split_ifs at h with hsame
    cases h
    simp only [not_or, Bool.not_eq_true', Bool.not_eq_false, List.all_eq_true] at hshape
    exact ⟨hshape.1, hshape.2, hlenient, hsame⟩
  · rintro ⟨hlength, hall, hlenient, hsame⟩
    rw [if_neg (by simpa [hlength] using hall), hlenient]
    exact if_pos hsame

/-- On its alphabet the lenient decoder accepts what the strict one does. -/
lemma b64Decode_lenient {t b : Bytes} (ht : ∀ c ∈ t, isUrlAlphabet c = true)
    (h : b64Decode .url t = some b) : b64Decode .lenient t = some b := by
  have hchar : ∀ c : UInt8, isUrlAlphabet c = true →
      isSpace c = false ∧ b64ValueOf .lenient c = b64ValueOf .url c := by
    rintro ⟨⟨c⟩⟩
    revert c
    decide +kernel
  have hstep : ∀ st, ∀ c ∈ t, b64DecodeStep .lenient st c = b64DecodeStep .url st c := by
    intro st c hc
    obtain ⟨hspace, hvalue⟩ := hchar c (ht c hc)
    simp [b64DecodeStep, hspace, hvalue]
  have hrun : ∀ st, t.foldlM (b64DecodeStep .lenient) st = t.foldlM (b64DecodeStep .url) st := by
    clear h ht
    induction t with
    | nil => exact fun _ => rfl
    | cons c t ih =>
      intro st
      rw [List.foldlM_cons, List.foldlM_cons, hstep st c (by simp)]
      exact congrArg _ (funext (ih fun st c hc => hstep st c (by simp [hc])))
  unfold b64Decode at h ⊢
  rw [hrun]
  obtain ⟨st, hst, h⟩ := Option.bind_eq_some_iff.mp h
  rw [hst]
  simp only [reduceCtorEq, false_and, true_and, if_false, ne_eq, not_false_eq_true] at h
  split_ifs at h with hcount hpads hbits
  simpa [hcount, hpads] using h

lemma b64urlDecode_encode (raw : Bytes) : b64urlDecode (base64urlEncode raw) = some raw := by
  have halphabet : ∀ c ∈ base64urlEncode raw, isUrlAlphabet c = true :=
    b64Encode_forall (by decide +kernel) (by decide) raw
  have hdecode : b64Decode .url (base64urlEncode raw) = some raw :=
    @b64Decode_encode .url (by decide) raw
  obtain ⟨ds, p, -, htext, hlength, rfl, -⟩ := (b64Decode_iff (by decide) _ raw).mp hdecode
  refine b64urlDecode_iff.mpr ⟨?_, halphabet, b64Decode_lenient halphabet hdecode, rfl⟩
  simpa [htext] using hlength

variable [Platform]

lemma b64urlDecode_of_segment {text : Bytes} {v : Sbj} (h : decodeJsonSegment text = some v) :
    ∃ raw, b64urlDecode text = some raw := by
  obtain ⟨raw, hraw, -⟩ := Option.bind_eq_some_iff.mp h
  exact ⟨raw, hraw⟩

lemma decodeJsonSegment_jsonSegment {m : List (Bytes × Sbj)} (hread : Readable maxDepth (.obj m))
    (hzero : 0 ∉ dump (.obj m) (-1)) :
    decodeJsonSegment (jsonSegment (.obj m)) = some (.obj m) := by
  rw [decodeJsonSegment, jsonSegment, Sbj.cstr_eq_self hzero, b64urlDecode_encode]
  simp [hread.parse]

variable [Crypto] {s : Security}

lemma verifyToken_some {token : Bytes} {now : ℤ} {claims : Claims}
    (h : verifyToken s token now = some claims) :
    ∃ first second last header payload, segments token = some (first, second, last) ∧
      b64urlDecode first = some header ∧ b64urlDecode second = some payload ∧
      b64urlDecode last = some (Crypto.hmacSha256 s.jwtSecret (first ++ 0x2E :: second)) := by
  unfold verifyToken at h
  split_ifs at h
  obtain ⟨⟨first, second, last⟩, hsegments, h⟩ := Option.bind_eq_some_iff.mp h
  obtain ⟨_, hheader, h⟩ := Option.bind_eq_some_iff.mp h
  obtain ⟨_, hpayload, h⟩ := Option.bind_eq_some_iff.mp h
  obtain ⟨supplied, hlast, h⟩ := Option.bind_eq_some_iff.mp h
  split_ifs at h with _ hmac
  obtain ⟨header, hheader⟩ := b64urlDecode_of_segment hheader
  obtain ⟨payload, hpayload⟩ := b64urlDecode_of_segment hpayload
  exact ⟨first, second, last, header, payload, hsegments, hheader, hpayload,
    by rw [not_not.mp hmac, hlast]⟩

/-! ### Tokens -/

omit [Platform] [Crypto] in
lemma tokenPayload_eq (userId username role : Bytes) (issuedAt : ℤ) :
    tokenPayload userId username role issuedAt = .obj [
      (lit "exp", .int (issuedAt + sessionSeconds)), (lit "iat", .int issuedAt),
      (lit "role", .str (Sbj.cstr role)), (lit "sub", .str (Sbj.cstr userId)),
      (lit "username", .str username)] := by
  cbv

omit [Platform] [Crypto] in
lemma tokenHeader_eq :
    tokenHeader = .obj [(lit "alg", .str (lit "HS256")), (lit "typ", .str (lit "JWT"))] := by
  cbv

omit [Platform] [Crypto] in
lemma get_tokenPayload (userId username role : Bytes) (issuedAt : ℤ) :
    ∀ p, p = tokenPayload userId username role issuedAt →
      Sbj.get (some p) (lit "sub") = some (.str (Sbj.cstr userId)) ∧
      Sbj.get (some p) (lit "username") = some (.str username) ∧
      Sbj.get (some p) (lit "role") = some (.str (Sbj.cstr role)) ∧
      Sbj.get (some p) (lit "exp") = some (.int (issuedAt + sessionSeconds)) ∧
      Sbj.get (some p) (lit "iat") = some (.int issuedAt) := by
  rintro p rfl
  exact ⟨by cbv, by cbv, by cbv, by cbv, by cbv⟩

omit [Platform] [Crypto] in
lemma getStr_tokenHeader : Sbj.getStr (some tokenHeader) (lit "alg") [] = lit "HS256" := by cbv

omit [Crypto] in
lemma segment_tokenPayload {userId username role : Bytes} {issuedAt : ℤ}
    (hu : Utf8.Valid (Sbj.cstr userId)) (hn : Utf8.Valid username)
    (hr : Utf8.Valid (Sbj.cstr role)) (hmin : int64Min ≤ issuedAt)
    (hmax : issuedAt + sessionSeconds ≤ int64Max) :
    decodeJsonSegment (jsonSegment (tokenPayload userId username role issuedAt)) =
      some (tokenPayload userId username role issuedAt) := by
  have hseconds : 0 ≤ sessionSeconds := by decide
  rw [tokenPayload_eq]
  refine decodeJsonSegment_jsonSegment (.obj (by cbv) ?_) ?_
  · simp only [List.forall_mem_cons, List.not_mem_nil, false_implies, implies_true, and_true]
    exact ⟨.int ⟨by omega, hmax⟩, .int ⟨hmin, by omega⟩, .str hr, .str hu, .str hn⟩
  · simp [dump, dumpValue, dumpMembers, newline, zero_notMem_dumpString, zero_notMem_decimalInt, lit]

omit [Crypto] in
lemma segment_tokenHeader : decodeJsonSegment (jsonSegment tokenHeader) = some tokenHeader := by
  rw [tokenHeader_eq]
  refine decodeJsonSegment_jsonSegment (.obj (by cbv) ?_) ?_
  · simp only [List.forall_mem_cons, List.not_mem_nil, false_implies, implies_true, and_true]
    exact ⟨.str (.ascii (by decide)), .str (.ascii (by decide))⟩
  · simp [dump, dumpValue, dumpMembers, newline, zero_notMem_dumpString, lit]

/-- **Tokens are faithful and not malleable**: a token is accepted before its expiry and yields what
it was made for, and two spellings that are accepted differ in their header or their payload. -/
theorem token_faithful (s : Security) :
    (∀ (userId username role : Bytes) (issuedAt now : ℤ), s.jwtSecret ≠ [] →
      (∀ message, (Crypto.hmacSha256 s.jwtSecret message).length = 32) →
      Utf8.Valid userId → 0 ∉ userId → Utf8.Valid username → Utf8.Valid role → 0 ∉ role →
      int64Min ≤ issuedAt → issuedAt + sessionSeconds ≤ int64Max → now < issuedAt + sessionSeconds →
      ∃ token, createTokenN s userId username role issuedAt = some token ∧
        verifyToken s token now =
          some ⟨userId, username, role, issuedAt + sessionSeconds, issuedAt⟩) ∧
    ∀ (token token' : Bytes) (now now' : ℤ) (claims claims' : Claims),
      verifyToken s token now = some claims → verifyToken s token' now' = some claims' →
      token ≠ token' → decodedParts token ≠ decodedParts token' := by
  constructor
  · intro userId username role issuedAt now hsecret hmac hu hu0 hn hr hr0 hmin hmax hnow
    have hempty : s.jwtSecret.isEmpty = false := by simpa using hsecret
    refine ⟨_, if_neg (by simp [hempty]), ?_⟩
    rw [← Sbj.cstr_eq_self hu0] at hu
    rw [← Sbj.cstr_eq_self hr0] at hr
    have hpayload := segment_tokenPayload hu hn hr hmin hmax
    obtain ⟨hsub, hname, hrole, hexp, hiat⟩ := get_tokenPayload userId username role issuedAt _ rfl
    generalize tokenPayload userId username role issuedAt = payload at *
    have hsegments := segments_append (a := jsonSegment tokenHeader) (b := jsonSegment payload)
      (dot_notMem_base64urlEncode _) (dot_notMem_base64urlEncode _)
      (dot_notMem_base64urlEncode (Crypto.hmacSha256 s.jwtSecret
        (jsonSegment tokenHeader ++ 0x2E :: jsonSegment payload)))
    simp only [List.append_assoc, List.cons_append, verifyToken, hempty, Bool.false_eq_true, if_false,
      hsegments, Option.bind_eq_bind, Option.bind_some, segment_tokenHeader, hpayload,
      b64urlDecode_encode, getStr_tokenHeader, hmac, ne_eq, not_true_eq_false, or_self]
    rw [hsub, hname, hrole]
    dsimp only
    rw [hexp, hiat, Sbj.cstr_eq_self hu0, Sbj.cstr_eq_self hu0, Sbj.cstr_eq_self hr0,
      Sbj.cstr_eq_self hr0]
    exact (if_neg (by simp [Sbj.isInteger])).trans (if_neg (not_le.mpr hnow))
  · intro token token' now now' claims claims' h h' hne heq
    obtain ⟨a, b, c, header, payload, hseg, ha, hb, hc⟩ := verifyToken_some h
    obtain ⟨a', b', c', header', payload', hseg', ha', hb', hc'⟩ := verifyToken_some h'
    have hparts : header = header' ∧ payload = payload' := by
      simpa [decodedParts, hseg, ha, hb, hseg', ha', hb'] using heq
    obtain ⟨rfl, rfl⟩ := hparts
    obtain rfl := (b64urlDecode_iff.mp ha).2.2.2.symm.trans (b64urlDecode_iff.mp ha').2.2.2
    obtain rfl := (b64urlDecode_iff.mp hb).2.2.2.symm.trans (b64urlDecode_iff.mp hb').2.2.2
    obtain rfl := (b64urlDecode_iff.mp hc).2.2.2.symm.trans (b64urlDecode_iff.mp hc').2.2.2
    exact hne ((segments_eq hseg).trans (segments_eq hseg').symm)

omit [Platform] [Crypto]

/-- A hash for runs on fixed inputs. -/
abbrev Crypto.fixed : Crypto := { Crypto.sample with hmacSha256 := fun _ _ => List.replicate 32 7 }

theorem token_faithful_sample :
    ∃ token, @createTokenN .sample .fixed ⟨[1], false⟩ (lit "u") [0x61, 0] (lit "admin") 5 = some token ∧
      @verifyToken .sample .fixed ⟨[1], false⟩ token 6 =
        some ⟨lit "u", [0x61, 0], lit "admin", 5 + sessionSeconds, 5⟩ :=
  (@token_faithful .sample .fixed ⟨[1], false⟩).1 _ _ _ _ _ (by decide) (fun _ => rfl)
    (.ascii (by decide)) (by decide) (.ascii (by decide)) (.ascii (by decide)) (by decide) (by decide)
    (by decide) (by decide)

end SbEasy.Auth
