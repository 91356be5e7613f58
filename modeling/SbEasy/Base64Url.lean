import SbEasy.Base64

/-!
The other encodings of `util.c`: base64url without padding, hexadecimal and URL encoding.
-/

namespace SbEasy

/-- `sb_base64url_decode_strict` -/
def base64urlDecodeStrict (t : Bytes) : Option Bytes := b64Decode .url t

/-- `sb_base64url_encode` -/
def base64urlEncode (raw : Bytes) : Bytes := b64Encode b64Url false raw

/-- `sb_hex_encode` -/
def hexEncode (raw : Bytes) : Bytes := raw.flatMap hexByte

/-- A digit of `%02X` -/
def upperHexDigit (n : UInt8) : UInt8 := if n < 10 then 0x30 + n else 0x37 + n

/-- `sb_url_encode` -/
def urlEncode (s : Bytes) : Bytes :=
  s.flatMap fun c =>
    if isAlnum c || c == 0x2D || c == 0x5F || c == 0x2E || c == 0x7E then [c]
    else [0x25, upperHexDigit (c >>> 4), upperHexDigit (c &&& 0x0F)]

end SbEasy
