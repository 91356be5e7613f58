import SbEasy.Base64Exact
import SbEasy.Store

/-!
The cryptographic pieces of `auth_security.c` and the session tokens of `auth.c`.

The primitives of OpenSSL are parameters. Random texts are the encodings of the bytes that
`RAND_bytes` has filled in.
-/

namespace SbEasy.Auth

open JsonParse

/-- What the program takes from OpenSSL. -/
class Crypto where
  /-- `HMAC(EVP_sha256(), …)` of a message under a key. -/
  hmacSha256 : Bytes → Bytes → Bytes
  /-- `HMAC(EVP_sha1(), …)` of a message under a key. -/
  hmacSha1 : Bytes → Bytes → Option Bytes
  /-- AES-256-GCM with key, nonce, additional data and plaintext: the ciphertext and the tag. -/
  gcmEncrypt : Bytes → Bytes → Bytes → Bytes → Option Bytes
  gcmDecrypt : Bytes → Bytes → Bytes → Bytes → Option Bytes

/-- A text folded into 32 bytes. -/
def foldedDigest (text : Bytes) : Bytes :=
  text.foldl (fun digest c => digest.tail ++ [digest.headD 0 ^^^ c]) (List.replicate 32 0)

/-- Simple primitives, for runs on fixed inputs. -/
abbrev Crypto.sample : Crypto where
  hmacSha256 key message := foldedDigest (key ++ message)
  hmacSha1 _ message := some (List.replicate 12 0 ++ message)
  gcmEncrypt _ _ _ plain := some (plain ++ List.replicate 16 0)
  gcmDecrypt _ _ _ data := some (data.take (data.length - 16))

/-- `sb_auth_security`, apart from the database. -/
structure Security where
  jwtSecret : Bytes
  allowLoopbackOidc : Bool

/-- `sb_auth_sec_token` -/
def token (text : Bytes) (max : ℕ) : Bool :=
  !text.isEmpty && decide (text.length ≤ max) && text.all fun c => 33 ≤ c && c ≤ 126

/-- `label_valid` -/
def labelValid : Option Bytes → Bool
  | none => true
  | some label =>
    decide (label.length ≤ 128) && (label.all fun c => !(c < 32 || c == 127)) &&
      (Sbj.validateUtf8 (.str label)).toBool

section

variable [Crypto] (s : Security)

/-- `sb_auth_sec_random`, on the bytes that were drawn. -/
def random (raw : Bytes) : Bytes := base64urlEncode raw

/-- `sb_auth_sec_hash` -/
def hash (purpose text : Bytes) : Bytes :=
  hexEncode (Crypto.hmacSha256 s.jwtSecret (lit "sb-easy:auth:v1:" ++ purpose ++ 0 :: text))

def encryptionKey : Bytes := Crypto.hmacSha256 s.jwtSecret (lit "sb-easy:auth:v1:encryption-key")

/-- `sb_auth_sec_encrypt` -/
def encrypt (purpose plaintext nonce : Bytes) : Except Err Bytes :=
  if 65536 < plaintext.length ∨ 1024 < purpose.length then
    .error ⟨.validation, "Invalid encrypted secret"⟩
  else
    match Crypto.gcmEncrypt (encryptionKey s) nonce purpose plaintext with
    | none => .error ⟨.generic, "Secret encryption failed"⟩
    | some data => .ok (base64urlEncode (1 :: nonce ++ data))

/-- `sb_auth_sec_decrypt` -/
def decrypt (purpose envelope : Bytes) : Except Err Bytes :=
  let unavailable := Except.error ⟨.auth, "Encrypted secret is unavailable"⟩
  if 90000 < envelope.length ∨ 1024 < purpose.length then unavailable
  else
    match base64urlDecodeStrict envelope with
    | none => unavailable
    | some raw =>
      if raw.length < 29 ∨ raw.head? ≠ some 1 then unavailable
      else
        match Crypto.gcmDecrypt (encryptionKey s) ((raw.drop 1).take 12) purpose (raw.drop 13) with
        | none => unavailable
        | some plain => if plain.contains 0 then unavailable else .ok plain

end

/-- The loop of `base32_decode`: the accumulator, its bits, and what is written. -/
def base32Step (st : ℕ × ℕ × Bytes) (c : UInt8) : Option (ℕ × ℕ × Bytes) :=
  let value :=
    if 0x41 ≤ c ∧ c ≤ 0x5A then some (c - 0x41).toNat
    else if 0x32 ≤ c ∧ c ≤ 0x37 then some ((c - 0x32).toNat + 26)
    else none
  value.map fun v =>
    let acc := ((st.1 <<< 5) ||| v) % 2 ^ 32
    let bits := st.2.1 + 5
    if bits ≥ 8 then (acc, bits - 8, st.2.2 ++ [(acc >>> (bits - 8)).toUInt8]) else (acc, bits, st.2.2)

/-- `base32_decode` -/
def base32Decode (text : Bytes) : Option Bytes :=
  if text.length < 16 ∨ 128 < text.length then none
  else do
    let (acc, bits, out) ← text.foldlM base32Step (0, 0, [])
    if bits ≠ 0 ∧ acc &&& (1 <<< bits - 1) ≠ 0 then none else some out

def base32Alphabet : Bytes := lit "ABCDEFGHIJKLMNOPQRSTUVWXYZ234567"

/-- The inner loop of `totp_secret_new`, which runs at most twice. -/
def base32Drain : ℕ → ℕ → ℕ → Bytes → ℕ × Bytes
  | 0, _, bits, out => (bits, out)
  | fuel + 1, acc, bits, out =>
    if bits ≥ 5 then
      base32Drain fuel acc (bits - 5) (out ++ [base32Alphabet.getD ((acc >>> (bits - 5)) &&& 31) 0])
    else (bits, out)

/-- `totp_secret_new`, on the bytes that were drawn. -/
def totpSecretNew (raw : Bytes) : Bytes :=
  let step (st : ℕ × ℕ × Bytes) (c : UInt8) : ℕ × ℕ × Bytes :=
    let acc := ((st.1 <<< 8) ||| c.toNat) % 2 ^ 32
    (acc, base32Drain 3 acc (st.2.1 + 8) st.2.2)
  (raw.foldl step (0, 0, [])).2.2

/-- The eight bytes of a counter, the highest first. -/
def counterBytes (step : ℕ) : Bytes :=
  (List.range 8).map fun i => (step >>> (8 * (7 - i))).toUInt8

/-- `%0*u` -/
def padded (digits n : ℕ) : Bytes := List.replicate (digits - (decimal n).length) 0x30 ++ decimal n

/-- `sb_auth_totp_code` -/
def totpCode [Crypto] (base32Secret : Bytes) (now : ℤ) (digits : ℕ) : Except Err Bytes :=
  if now < 0 ∨ (digits ≠ 6 ∧ digits ≠ 8) then .error ⟨.validation, "Invalid TOTP input"⟩
  else
    match base32Decode base32Secret with
    | none => .error ⟨.validation, "Invalid TOTP input"⟩
    | some secret =>
      match Crypto.hmacSha1 secret (counterBytes (now.toNat / 30)) with
      | none => .error ⟨.generic, "TOTP computation failed"⟩
      | some mac =>
        if mac.length ≠ 20 then .error ⟨.generic, "TOTP computation failed"⟩
        else
          let at' (i : ℕ) := (mac.getD ((mac.getD 19 0 &&& 15).toNat + i) 0).toNat
          let binary := ((at' 0 &&& 127) <<< 24) ||| (at' 1 <<< 16) ||| (at' 2 <<< 8) ||| at' 3
          .ok (padded digits (binary % (if digits = 6 then 1000000 else 100000000)))

/-- `users` -/
structure User where
  id : Bytes
  username : Bytes
  role : Bytes
  deriving DecidableEq

def sessionSeconds : ℤ := 72 * 60 * 60

/-- The payload of a session token. -/
def payload (user : User) (id : Bytes) (now : ℤ) : Sbj :=
  Sbj.build [(lit "sub", .str user.id), (lit "username", .str user.username),
    (lit "role", .str (Sbj.cstr user.role)), (lit "jti", .str id), (lit "iat", .int now),
    (lit "exp", .int (now + sessionSeconds))]

/-- A payload behind the header of HS256, signed. -/
def signed [Platform] [Crypto] (s : Security) (payload : Sbj) : Bytes :=
  let json := Sbj.cstr (dump payload (-1))
  let unsigned_ := lit "eyJhbGciOiJIUzI1NiIsInR5cCI6IkpXVCJ9." ++ base64urlEncode json
  unsigned_ ++ 0x2E :: base64urlEncode (Crypto.hmacSha256 s.jwtSecret unsigned_)

/-- `sb_auth_claims` -/
structure Claims where
  subject : Bytes
  username : Bytes
  role : Bytes
  expiresAt : ℤ
  issuedAt : ℤ

def isUrlAlphabet (c : UInt8) : Bool := isAlnum c || c == 0x2D || c == 0x5F

/-- `b64url_decode` of `auth.c`: what does not encode to the same text again is rejected. -/
def b64urlDecode (text : Bytes) : Option Bytes :=
  if text.length % 4 = 1 ∨ !text.all isUrlAlphabet then none
  else do
    let decoded ← if text.isEmpty then some [] else b64Decode .lenient text
    if base64urlEncode decoded = text then some decoded else none

/-- `decode_json_segment` -/
def decodeJsonSegment [Platform] (text : Bytes) : Option Sbj := do
  let raw ← b64urlDecode text
  match sbjParse raw with
  | .ok (.obj m) => some (.obj m)
  | _ => none

/-- The three parts of a token, which has two dots. -/
def segments (token : Bytes) : Option (Bytes × Bytes × Bytes) :=
  let notDot (c : UInt8) := c != 0x2E
  let first := token.takeWhile notDot
  let rest := token.dropWhile notDot
  let second := rest.tail.takeWhile notDot
  let last := rest.tail.dropWhile notDot
  if rest.isEmpty || last.isEmpty || last.tail.contains 0x2E then none
  else some (first, second, last.tail)

/-- `sb_auth_verify_token` at a time. -/
def verifyToken [Platform] [Crypto] (s : Security) (token : Bytes) (now : ℤ) : Option Claims := do
  if s.jwtSecret.isEmpty then none
  else
    let (first, second, last) ← segments token
    let header ← decodeJsonSegment first
    let payload ← decodeJsonSegment second
    let supplied ← b64urlDecode last
    if Sbj.getStr (some header) (lit "alg") [] ≠ lit "HS256" ∨ supplied.length ≠ 32 then none
    else if Crypto.hmacSha256 s.jwtSecret (first ++ 0x2E :: second) ≠ supplied then none
    else
      match Sbj.get (some payload) (lit "sub"), Sbj.get (some payload) (lit "username"),
        Sbj.get (some payload) (lit "role") with
      | some (.str sub), some (.str user), some (.str role) =>
        let exp := Sbj.get (some payload) (lit "exp")
        let iat := Sbj.get (some payload) (lit "iat")
        if !(Sbj.isInteger exp && Sbj.isInteger iat) then none
        else if Sbj.asInt exp 0 ≤ now then none
        else some ⟨Sbj.cstr sub, user, Sbj.cstr role, Sbj.asInt exp 0, Sbj.asInt iat 0⟩
      | _, _, _ => none

end SbEasy.Auth
