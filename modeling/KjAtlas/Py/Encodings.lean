import KjAtlas.Py.Json

/-! # The encodings of a JSON body

`json.loads` of bytes looks at the first four to tell which of UTF-8, UTF-16 and
UTF-32 they are in, and decodes them with halves of surrogate pairs let through.
-/

namespace KjAtlas.Py

open Js (Text)

inductive Encoding where
  | utf8
  | utf8Sig
  /-- UTF-16, in the byte order of its mark. -/
  | utf16
  | utf16Be
  | utf16Le
  /-- UTF-32, in the byte order of its mark. -/
  | utf32
  | utf32Be
  | utf32Le
  deriving DecidableEq

def Encoding.isWide : Encoding → Bool
  | .utf8 | .utf8Sig => false
  | .utf16 | .utf16Be | .utf16Le | .utf32 | .utf32Be | .utf32Le => true

/-- `json.detect_encoding`. -/
def detectEncoding (bytes : Bytes) : Encoding :=
  if [0x00, 0x00, 0xFE, 0xFF].isPrefixOf bytes || [0xFF, 0xFE, 0x00, 0x00].isPrefixOf bytes then
    .utf32
  else if [0xFE, 0xFF].isPrefixOf bytes || [0xFF, 0xFE].isPrefixOf bytes then .utf16
  else if [0xEF, 0xBB, 0xBF].isPrefixOf bytes then .utf8Sig
  else match bytes with
    | b0 :: b1 :: b2 :: b3 :: _ =>
        if b0 = 0 then (if b1 = 0 then .utf32Be else .utf16Be)
        else if b1 = 0 then (if b2 = 0 ∧ b3 = 0 then .utf32Le else .utf16Le)
        else .utf8
    | [b0, b1] => if b0 = 0 then .utf16Be else if b1 = 0 then .utf16Le else .utf8
    | _ => .utf8

/-! ## Decoding -/

/-- The character of a code point. Half of a surrogate pair is no character here: the
replacement character stands for it, which JSON treats as it treats the half. -/
def scalar (code : Nat) : Char := if code.isValidChar then Char.ofNat code else '\uFFFD'

def isContinuation (byte : UInt8) : Bool := 0x80 ≤ byte.toNat && byte.toNat < 0xC0

/-- The code points of two, three and four bytes. -/
def codePoint2 (a b : UInt8) : Nat := 64 * (a.toNat % 32) + b.toNat % 64

def codePoint3 (a b c : UInt8) : Nat :=
  4096 * (a.toNat % 16) + 64 * (b.toNat % 64) + c.toNat % 64

def codePoint4 (a b c d : UInt8) : Nat :=
  262144 * (a.toNat % 8) + 4096 * (b.toNat % 64) + 64 * (c.toNat % 64) + d.toNat % 64

/-- `bytes.decode("utf-8", "surrogatepass")`. -/
def decodeUtf8 : Bytes → Option Text
  | [] => some []
  | a :: rest =>
      if a.toNat < 0x80 then do
        return scalar a.toNat :: (← decodeUtf8 rest)
      else match rest with
        | [] => none
        | b :: rest =>
            if 0xC2 ≤ a.toNat ∧ a.toNat < 0xE0 ∧ isContinuation b then do
              return scalar (codePoint2 a b) :: (← decodeUtf8 rest)
            else match rest with
              | [] => none
              | c :: rest =>
                  if 0xE0 ≤ a.toNat ∧ a.toNat < 0xF0 ∧ isContinuation b ∧ isContinuation c ∧
                      0x800 ≤ codePoint3 a b c then do
                    return scalar (codePoint3 a b c) :: (← decodeUtf8 rest)
                  else match rest with
                    | [] => none
                    | d :: rest =>
                        if 0xF0 ≤ a.toNat ∧ a.toNat < 0xF5 ∧ isContinuation b ∧
                            isContinuation c ∧ isContinuation d ∧
                            0x10000 ≤ codePoint4 a b c d ∧ codePoint4 a b c d < 0x110000 then do
                          return scalar (codePoint4 a b c d) :: (← decodeUtf8 rest)
                        else none

/-- The code units of UTF-16. An odd byte at the end is an error. -/
def units16 (bigEndian : Bool) : Bytes → Option (List Nat)
  | [] => some []
  | [_] => none
  | a :: b :: rest => do
      let unit := if bigEndian then 256 * a.toNat + b.toNat else 256 * b.toNat + a.toNat
      return unit :: (← units16 bigEndian rest)

/-- The characters of code units: a high half and a low half are one character. -/
def joinSurrogates : List Nat → Text
  | [] => []
  | [unit] => [scalar unit]
  | high :: low :: rest =>
      if (0xD800 ≤ high ∧ high < 0xDC00) ∧ (0xDC00 ≤ low ∧ low < 0xE000) then
        scalar (0x10000 + 1024 * (high - 0xD800) + (low - 0xDC00)) :: joinSurrogates rest
      else scalar high :: joinSurrogates (low :: rest)

def decodeUtf16 (bigEndian : Bool) (bytes : Bytes) : Option Text :=
  (units16 bigEndian bytes).map joinSurrogates

def decodeUtf32 (bigEndian : Bool) : Bytes → Option Text
  | [] => some []
  | a :: b :: c :: d :: rest => do
      let code :=
        if bigEndian then 16777216 * a.toNat + 65536 * b.toNat + 256 * c.toNat + d.toNat
        else 16777216 * d.toNat + 65536 * c.toNat + 256 * b.toNat + a.toNat
      if code < 0x110000 then return scalar code :: (← decodeUtf32 bigEndian rest) else none
  | _ => none

/-- `bytes.decode(encoding, "surrogatepass")`. -/
def Encoding.decode (bytes : Bytes) : Encoding → Option Text
  | .utf8 => decodeUtf8 bytes
  | .utf8Sig => decodeUtf8 (bytes.drop 3)
  | .utf16 => decodeUtf16 ([0xFE, 0xFF].isPrefixOf bytes) (bytes.drop 2)
  | .utf16Be => decodeUtf16 true bytes
  | .utf16Le => decodeUtf16 false bytes
  | .utf32 => decodeUtf32 ([0x00, 0x00, 0xFE, 0xFF].isPrefixOf bytes) (bytes.drop 4)
  | .utf32Be => decodeUtf32 true bytes
  | .utf32Le => decodeUtf32 false bytes

/-- The text that `json.loads` makes of bytes before it reads a value. -/
def jsonText (bytes : Bytes) : Option Text := (detectEncoding bytes).decode bytes

end KjAtlas.Py
