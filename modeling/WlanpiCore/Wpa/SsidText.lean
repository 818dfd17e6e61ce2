import WlanpiCore.Lib.Json

/-!
# SSIDs as `wpa_cli` and `iw` print them

`ssid_text` reads an SSID back from the text that either program prints. wpa_supplicant escapes
quotes, backslashes and control characters by a letter and other bytes by `\xNN`; iw knows only
`\xNN`, and uses it for the backslash and a space at either end as well.

**Theorem (`ssidText_escape`).** For every byte string, both printed forms come back as the bytes
decoded, with `\xNN` for what is no UTF-8, or as nothing when all bytes are NUL.

The reader is a scan with a count of the bytes that belong to the escape before; each byte's printed
form is read as that byte whatever follows (`Reads`), so an SSID that looks like an escape is no
exception.
-/

namespace WlanpiCore.SsidText

open Text

/-! ## The reader -/

/-- The value of a byte that is a hexadecimal digit. -/
def hexDigit (b : UInt8) : Option Nat := Json.hexDigit (Char.ofNat b.toNat)

/-- `_SSID_CONTROL.get(token, token)` -/
def control (token : UInt8) : UInt8 :=
  if token = 0x65 then 0x1b
  else if token = 0x6e then 0x0a
  else if token = 0x72 then 0x0d
  else if token = 0x74 then 0x09
  else token

/-- What a backslash and the bytes after it match of `_SSID_ESCAPE`: the byte they stand for, and
the length of the token. -/
def escapeToken : Bytes → Option (UInt8 × Nat)
  | [] => none
  | c :: rest =>
    match if c = 0x78 then rest else [] with
    | hi :: lo :: _ =>
      match hexDigit hi, hexDigit lo with
      | some a, some b => some (UInt8.ofNat (16 * a + b), 3)
      | _, _ => some (control c, 1)
    | _ => some (control c, 1)

/-- `_SSID_ESCAPE.sub`, after `skip` more bytes of the last token. -/
def unescapeFrom : Nat → Bytes → Bytes
  | _, [] => []
  | skip + 1, _ :: rest => unescapeFrom skip rest
  | 0, b :: rest =>
    if b = 0x5c then
      match escapeToken rest with
      | some (value, length) => value :: unescapeFrom length rest
      | none => b :: unescapeFrom 0 rest
    else b :: unescapeFrom 0 rest

def unescape (bytes : Bytes) : Bytes := unescapeFrom 0 bytes

/-- `\xNN` -/
def escapeByte (b : UInt8) : Text :=
  ['\\', 'x', Nat.digitChar (b.toNat / 16), Nat.digitChar (b.toNat % 16)]

/-- `bytes.decode("utf-8", "backslashreplace")` with a bound on the number of characters. The bytes
that a decoder skips after a broken character start none, so each is replaced on its own. -/
def decodeReplaceFuel : Nat → Bytes → Text
  | _, [] => []
  | 0, _ => []
  | n + 1, b :: bytes =>
    match decodeChar (b :: bytes) with
    | some (c, rest) => c :: decodeReplaceFuel n rest
    | none => escapeByte b ++ decodeReplaceFuel n bytes

def decodeReplace (bytes : Bytes) : Text := decodeReplaceFuel bytes.length bytes

/-- The text of the raw bytes of an SSID. -/
def rawText (raw : Bytes) : Text := if raw.all (· = 0) then [] else decodeReplace raw

def ssidText (escaped : Text) : Text := rawText (unescape (encode escaped))

example : ssidText "caf\\xe9".toList = "caf\\xe9".toList ∧ ssidText "\\x00\\x00".toList = [] ∧
    ssidText "\\\\x41\\".toList = "\\x41\\".toList := by decide +kernel

/-! ## The printers -/

/-- wpa_supplicant's escape of one byte. -/
def wpaByte (b : UInt8) : Text :=
  if b = 0x22 then ['\\', '"']
  else if b = 0x5c then ['\\', '\\']
  else if b = 0x1b then ['\\', 'e']
  else if b = 0x0a then ['\\', 'n']
  else if b = 0x0d then ['\\', 'r']
  else if b = 0x09 then ['\\', 't']
  else if 32 ≤ b.toNat ∧ b.toNat ≤ 126 then [Char.ofNat b.toNat]
  else escapeByte b

def wpaEscape (bytes : Bytes) : Text := bytes.flatMap wpaByte

/-- iw's escape of one byte, `edge` being whether it is the first or the last. -/
def iwByte (edge : Bool) (b : UInt8) : Text :=
  if 32 < b.toNat ∧ b.toNat ≤ 126 ∧ b ≠ 0x5c then [Char.ofNat b.toNat]
  else if b = 0x20 ∧ edge = false then [' ']
  else escapeByte b

def iwEscape (bytes : Bytes) : Text :=
  bytes.zipIdx.flatMap fun (b, i) => iwByte (i = 0 || i + 1 = bytes.length) b

/-! ## Reading a printed byte -/

/-- A printed text is read as this byte, whatever follows. -/
def Reads (t : Text) (b : UInt8) : Prop :=
  ∀ rest, unescapeFrom 0 (encode t ++ rest) = b :: unescapeFrom 0 rest

theorem unescapeFrom_plain {b : UInt8} (h : b ≠ 0x5c) (rest : Bytes) :
    unescapeFrom 0 (b :: rest) = b :: unescapeFrom 0 rest := by
  simp [unescapeFrom, h]

/-- A backslash and a byte that is no `x`. -/
theorem unescapeFrom_letter {c : UInt8} (h : c ≠ 0x78) (rest : Bytes) :
    unescapeFrom 0 (0x5c :: c :: rest) = control c :: unescapeFrom 0 rest := by
  have htoken : escapeToken (c :: rest) = some (control c, 1) := by
    simp [escapeToken, h]
  simp [unescapeFrom, htoken]

theorem unescapeFrom_hex {hi lo : UInt8} {a b : Nat} (hhi : hexDigit hi = some a)
    (hlo : hexDigit lo = some b) (rest : Bytes) :
    unescapeFrom 0 (0x5c :: 0x78 :: hi :: lo :: rest) =
      UInt8.ofNat (16 * a + b) :: unescapeFrom 0 rest := by
  have htoken : escapeToken (0x78 :: hi :: lo :: rest) = some (UInt8.ofNat (16 * a + b), 3) := by
    simp [escapeToken, hhi, hlo]
  simp [unescapeFrom, htoken]

theorem encode_append (a b : Text) : encode (a ++ b) = encode a ++ encode b := List.flatMap_append

theorem encode_ascii {n : Nat} (h : n < 128) : encode [Char.ofNat n] = [UInt8.ofNat n] := by
  have hchar : (Char.ofNat n).toNat = n := toNat_ofNat_of_valid (by omega)
  have hdef : (Char.ofNat n).val.toNat = n := hchar
  simp only [encode, List.flatMap_cons, List.flatMap_nil, List.append_nil,
    String.utf8EncodeChar, hdef]
  rw [if_pos (by omega)]

theorem digit_ascii : ∀ n < 16, encode [Nat.digitChar n] = [UInt8.ofNat (Nat.digitChar n).toNat] ∧
    hexDigit (UInt8.ofNat (Nat.digitChar n).toNat) = some n := by decide

/-- `\xNN` is read as the byte NN. -/
theorem reads_escapeByte (b : UInt8) : Reads (escapeByte b) b := by
  intro rest
  have hb : b.toNat < 256 := b.toNat_lt
  obtain ⟨hhi, hhi'⟩ := digit_ascii (b.toNat / 16) (by omega)
  obtain ⟨hlo, hlo'⟩ := digit_ascii (b.toNat % 16) (by omega)
  have hencode : encode (escapeByte b) = 0x5c :: 0x78 ::
      UInt8.ofNat (Nat.digitChar (b.toNat / 16)).toNat ::
      [UInt8.ofNat (Nat.digitChar (b.toNat % 16)).toNat] := by
    have hsplit : escapeByte b = ['\\'] ++ (['x'] ++ ([Nat.digitChar (b.toNat / 16)] ++
        [Nat.digitChar (b.toNat % 16)])) := rfl
    rw [hsplit, encode_append, encode_append, encode_append, hhi, hlo]
    rfl
  have hvalue : UInt8.ofNat (16 * (b.toNat / 16) + b.toNat % 16) = b := by
    rw [Nat.div_add_mod, UInt8.ofNat_toNat]
  rw [hencode]
  show unescapeFrom 0 (0x5c :: 0x78 :: _ :: _ :: rest) = _
  rw [unescapeFrom_hex hhi' hlo', hvalue]

theorem reads_literal {b : UInt8} (h : b.toNat < 128) (hne : b ≠ 0x5c) :
    Reads [Char.ofNat b.toNat] b := by
  intro rest
  rw [encode_ascii h, UInt8.ofNat_toNat]
  exact unescapeFrom_plain hne rest

theorem reads_letter {c : Char} {b : UInt8} (hc : encode [c] = [UInt8.ofNat c.toNat])
    (hx : UInt8.ofNat c.toNat ≠ 0x78) (hb : control (UInt8.ofNat c.toNat) = b) : Reads
    ['\\', c] b := by
  intro rest
  have hencode : encode ['\\', c] = [0x5c, UInt8.ofNat c.toNat] := by
    have hsplit : ['\\', c] = ['\\'] ++ [c] := rfl
    rw [hsplit, encode_append, hc]
    rfl
  rw [hencode]
  show unescapeFrom 0 (0x5c :: _ :: rest) = _
  rw [unescapeFrom_letter hx, hb]

theorem reads_wpaByte (b : UInt8) : Reads (wpaByte b) b := by
  unfold wpaByte
  split_ifs with hquote hslash he hn hr ht hprint
  · exact reads_letter rfl (by decide) hquote.symm
  · exact reads_letter rfl (by decide) hslash.symm
  · exact reads_letter rfl (by decide) he.symm
  · exact reads_letter rfl (by decide) hn.symm
  · exact reads_letter rfl (by decide) hr.symm
  · exact reads_letter rfl (by decide) ht.symm
  · exact reads_literal (by omega) hslash
  · exact reads_escapeByte b

theorem reads_iwByte (edge : Bool) (b : UInt8) : Reads (iwByte edge b) b := by
  unfold iwByte
  split_ifs with hprint hspace
  · exact reads_literal (by omega) hprint.2.2
  · obtain ⟨rfl, -⟩ := hspace
    exact reads_literal (b := 0x20) (by decide) (by decide)
  · exact reads_escapeByte b

/-! ## Whole SSIDs -/

/-- Printed bytes in a row are read one after the other. -/
theorem unescape_flatMap {α : Type} {print : α → Text} {byte : α → UInt8}
    (h : ∀ a, Reads (print a) (byte a)) (l : List α) :
    unescape (encode (l.flatMap print)) = l.map byte := by
  induction l with
  | nil => rfl
  | cons a l ih =>
    rw [List.flatMap_cons, encode_append, List.map_cons, ← ih]
    exact h a (encode (l.flatMap print))

theorem unescape_wpaEscape (bytes : Bytes) : unescape (encode (wpaEscape bytes)) = bytes := by
  have h := @unescape_flatMap _ _ id reads_wpaByte bytes
  rwa [List.map_id] at h

theorem unescape_iwEscape (bytes : Bytes) : unescape (encode (iwEscape bytes)) = bytes := by
  have h := @unescape_flatMap _ _ Prod.fst
    (fun p : UInt8 × Nat => reads_iwByte (p.2 = 0 || p.2 + 1 = bytes.length) p.1) bytes.zipIdx
  rw [List.zipIdx_map_fst] at h
  exact h

theorem ssidText_wpaEscape (bytes : Bytes) : ssidText (wpaEscape bytes) = rawText bytes := by
  rw [ssidText, unescape_wpaEscape]

theorem ssidText_iwEscape (bytes : Bytes) : ssidText (iwEscape bytes) = rawText bytes := by
  rw [ssidText, unescape_iwEscape]

/-- Both printed forms of an SSID come back as its text: nothing when all its bytes are null, else
the decoded bytes. -/
theorem ssidText_escape (bytes : Bytes) :
    ssidText (wpaEscape bytes) = (if bytes.all (· = 0) then [] else decodeReplace bytes) ∧
      ssidText (iwEscape bytes) = if bytes.all (· = 0) then [] else decodeReplace bytes :=
  ⟨ssidText_wpaEscape bytes, ssidText_iwEscape bytes⟩

end WlanpiCore.SsidText
