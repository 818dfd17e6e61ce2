import WlanpiCore.Lib.Text

/-!
# `base64.urlsafe_b64decode`

The decoder skips every character that is not of the alphabet, and stops at the padding of a
complete group.
-/

namespace WlanpiCore.Base64

/-- The six bits of a character. -/
def sextet (c : Char) : Option Nat :=
  let n := c.toNat
  if 0x41 ≤ n ∧ n ≤ 0x5a then some (n - 0x41)
  else if 0x61 ≤ n ∧ n ≤ 0x7a then some (n - 0x61 + 26)
  else if 0x30 ≤ n ∧ n ≤ 0x39 then some (n - 0x30 + 52)
  else if c = '-' ∨ c = '+' then some 62
  else if c = '_' ∨ c = '/' then some 63
  else none

/-- The loop of `a2b_base64`: how many characters of a group were read, what is left of the last
one, and how much padding. `none` is a `binascii.Error`. -/
def scan : (quad left pads : Nat) → Text → Option Bytes
  | quad, _, _, [] => if quad = 0 then some [] else none
  | quad, left, pads, c :: rest =>
    if c = '=' then
      if 2 ≤ quad then
        if 4 ≤ quad + pads + 1 then some [] else scan quad left (pads + 1) rest
      else scan quad left pads rest
    else match sextet c with
      | none => scan quad left pads rest
      | some n =>
        match quad with
        | 0 => scan 1 n 0 rest
        | 1 => (UInt8.ofNat (left * 4 + n / 16) :: ·) <$> scan 2 (n % 16) 0 rest
        | 2 => (UInt8.ofNat (left * 16 + n / 4) :: ·) <$> scan 3 (n % 4) 0 rest
        | _ => (UInt8.ofNat (left * 64 + n) :: ·) <$> scan 0 0 0 rest

/-- What decoding raises. -/
inductive Error where
  /-- The `ValueError` for a character that is not ASCII. -/
  | notAscii
  | binascii

def urlsafeDecode (t : Text) : Except Error Bytes :=
  if t.any fun c => 0x80 ≤ c.toNat then .error .notAscii
  else match scan 0 0 0 t with
    | none => .error .binascii
    | some bytes => .ok bytes

example : scan 0 0 0 "eyJhIjoxfQ==".toList = some (Text.encode "\x7b\"a\":1\x7d".toList) := by
  decide +kernel

end WlanpiCore.Base64
