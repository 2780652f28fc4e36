/-!
# UTF-8

Strict decoding of UTF-8: shortest forms only, no surrogates, nothing above U+10FFFF. A failure
says where the first sequence begins that is not UTF-8.
-/

namespace StopWait.Text

/-- Whether a byte continues a sequence, given the least and greatest values it may have. -/
def within (low high : Nat) (b : UInt8) : Bool := low ≤ b.toNat && b.toNat ≤ high

/-- The payload bits of a continuation byte. -/
def tailBits (b : UInt8) : Nat := b.toNat % 64

/-- The first character of a byte string, and the number of bytes it takes. -/
def decodeChar? : List UInt8 → Option (Char × Nat)
  | [] => none
  | a :: rest =>
    let n := a.toNat
    if n < 0x80 then some (Char.ofNat n, 1)
    else if n < 0xC2 then none
    else if n < 0xE0 then
      match rest with
      | b :: _ =>
        if within 0x80 0xBF b then some (Char.ofNat (n % 32 * 64 + tailBits b), 2) else none
      | _ => none
    else if n < 0xF0 then
      match rest with
      | b :: c :: _ =>
        if within (if n = 0xE0 then 0xA0 else 0x80) (if n = 0xED then 0x9F else 0xBF) b
            && within 0x80 0xBF c then
          some (Char.ofNat ((n % 16 * 64 + tailBits b) * 64 + tailBits c), 3)
        else none
      | _ => none
    else if n < 0xF5 then
      match rest with
      | b :: c :: d :: _ =>
        if within (if n = 0xF0 then 0x90 else 0x80) (if n = 0xF4 then 0x8F else 0xBF) b
            && within 0x80 0xBF c && within 0x80 0xBF d then
          some (Char.ofNat (((n % 8 * 64 + tailBits b) * 64 + tailBits c) * 64 + tailBits d), 4)
        else none
      | _ => none
    else none

/-- Decodes what is left after `skip` bytes of the current character, `offset` bytes into the
string. The error is the position of the first sequence that is not UTF-8. -/
def decodeFrom (offset skip : Nat) : List UInt8 → Except Nat (List Char)
  | [] => .ok []
  | b :: bs =>
    match skip with
    | k + 1 => decodeFrom (offset + 1) k bs
    | 0 =>
      match decodeChar? (b :: bs) with
      | none => .error offset
      | some (c, len) =>
        match decodeFrom (offset + 1) (len - 1) bs with
        | .ok cs => .ok (c :: cs)
        | .error p => .error p

/-- Decodes a byte string, or gives the position of the first sequence that is not UTF-8. -/
def decodeUtf8 (bytes : List UInt8) : Except Nat (List Char) := decodeFrom 0 0 bytes

end StopWait.Text
