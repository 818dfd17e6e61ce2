import WlanpiCore.Network.WlanLink

/-!
# What `iw link` prints

An output of `iw link`, as far as `_parse_iw_link` depends on it (`Report`): a first line, lines of
seven kinds in any order and number, links with such lines of their own, and below the line of the
MLD's statistics such lines again. A line of none of the kinds (the flags, the DTIM period and the
beacon interval of the BSS, an empty one) may stand anywhere.

**Theorem (`parseIwLink_report`).** The parser reads back what is printed: the address in the first
line, of every kind of line the last one, and for every link its number, its address and the
frequency below it.

One line says the same wherever it stands (`read_line`), and what lines say one after the other is
what the last of each kind says (`Association.hear`), so the order does not matter.
-/

namespace WlanpiCore.WlanLink

open Text SsidText

/-! ## The lines -/

/-- A value on a line: it is all on that line and has no margins. -/
abbrev Value := { t : Text // strip t = t ∧ ∀ c ∈ t, isLineBreak c = false }

abbrev Mac := { t : Text // t.length = 17 ∧ ∀ c ∈ t, isMacChar c = true }

def decimal (n : Nat) : Text := Nat.toDigits 10 n

def signed (z : Int) : Text := if z < 0 then '-' :: decimal z.natAbs else decimal z.natAbs

/-- How the lines that the parser reads begin. -/
def keys : List String :=
  ["Link ", "SSID:", "freq:", "MLD ", "signal:", "rx bitrate:", "tx bitrate:", "RX:", "TX:"]

/-- How the lines begin that say whether there is an association. -/
def statusKeys : List String := ["Not connected", "Connected to "]

/-- A line that says nothing to the parser. -/
def isSilent (line : Text) : Bool :=
  line.all (!isLineBreak ·) && (keys.all fun key => !key.toList.isPrefixOf (strip line)) &&
    statusKeys.all fun key => !key.toList.isPrefixOf line

abbrev Silent := { t : Text // isSilent t = true }

inductive Direction where
  | rx
  | tx

inductive Line where
  | ssid (bytes : Bytes)
  | freq (value : Value)
  | signal (dbm : Int)
  | bitrate (direction : Direction) (rate : Value)
  | counter (direction : Direction) (bytes packets : Nat)
  | other (line : Silent)

def bitrateKey : Direction → String
  | .rx => "rx bitrate"
  | .tx => "tx bitrate"

def counterKey : Direction → String
  | .rx => "RX: "
  | .tx => "TX: "

/-- A line without its indentation. -/
def Line.text : Line → Text
  | .ssid bytes => "SSID: ".toList ++ iwEscape bytes
  | .freq value => "freq: ".toList ++ value.val
  | .signal dbm => "signal: ".toList ++ signed dbm ++ " dBm".toList
  | .bitrate direction rate => (bitrateKey direction).toList ++ ": ".toList ++ rate.val
  | .counter direction bytes packets =>
    (counterKey direction).toList ++ decimal bytes ++ " bytes (".toList ++ decimal packets ++
      " packets)".toList
  | .other line => line.val

/-- A line as it is printed, after so many tabs; another line is as it is. -/
def Line.printed (tabs : Nat) : Line → Text
  | .other line => line.val
  | line => List.replicate tabs '\t' ++ line.text

/-! ## The output -/

/-- The first line: the association, or one that is not indented. -/
inductive First where
  | connected (bssid : Mac) (iface : Value)
  | other (line : Silent) (h : line.val.head?.any (!isSpace ·) = true)

def First.text : First → Text
  | .connected bssid iface =>
    "Connected to ".toList ++ bssid.val ++ " (on ".toList ++ iface.val ++ ")".toList
  | .other line _ => line.val

def First.bssid : First → Option Text
  | .connected bssid _ => some bssid.val
  | .other _ _ => none

/-- A link of an MLO association and the lines below it. -/
structure SetUpLink where
  linkId : Nat
  bssid : Mac
  lines : List Line

def SetUpLink.header (link : SetUpLink) : Text :=
  "Link ".toList ++ decimal link.linkId ++ " BSSID ".toList ++ link.bssid.val

def SetUpLink.printed (link : SetUpLink) : List Text :=
  ('\t' :: link.header) :: link.lines.map (Line.printed 2)

/-- The statistics of the MLD and the lines below. -/
structure Stats where
  address : Mac
  lines : List Line

def Stats.header (stats : Stats) : Text :=
  "MLD ".toList ++ stats.address.val ++ " stats:".toList

def Stats.printed (stats : Stats) : List Text := stats.header :: stats.lines.map (Line.printed 1)

structure Report where
  first : First
  lines : List Line
  links : List SetUpLink
  stats : Option Stats

/-- The lines below the first. -/
def Report.rest (r : Report) : List Text :=
  r.lines.map (Line.printed 1) ++ r.links.flatMap SetUpLink.printed ++
    r.stats.toList.flatMap Stats.printed

def Report.printed (r : Report) : List Text := r.first.text :: r.rest

def Report.output (r : Report) : Text := r.printed.flatMap (· ++ ['\n'])

/-! ## What the lines say -/

section

variable {ν : Type} (float : Text → Option ν)

def Line.ssid? : Line → Option Text
  | .ssid bytes => some (rawText bytes)
  | _ => none

def Line.freq? : Line → Option ν
  | .freq value => float value.val
  | _ => none

def Line.signal? : Line → Option ν
  | .signal dbm => float (signed dbm)
  | _ => none

def Line.rxBitrate? : Line → Option Text
  | .bitrate .rx rate => some rate.val
  | _ => none

def Line.txBitrate? : Line → Option Text
  | .bitrate .tx rate => some rate.val
  | _ => none

def Line.rxBytes? : Line → Option Nat
  | .counter .rx bytes _ => some bytes
  | _ => none

def Line.txBytes? : Line → Option Nat
  | .counter .tx bytes _ => some bytes
  | _ => none

/-- What the last line says that says anything. -/
def last {α : Type} (f : Line → Option α) (lines : List Line) : Option α :=
  (lines.filterMap f).getLast?

/-- The lines that belong to no link. -/
def Report.own (r : Report) : List Line := r.lines ++ r.stats.toList.flatMap (·.lines)

def Report.all (r : Report) : List Line :=
  r.lines ++ r.links.flatMap (·.lines) ++ r.stats.toList.flatMap (·.lines)

/-- What is to be read in a report. -/
def Report.association (r : Report) : Association ν where
  bssid := r.first.bssid
  ssid := last Line.ssid? r.all
  freqMhz := last (Line.freq? float) r.own
  signalDbm := last (Line.signal? float) r.all
  rxBitrate := last Line.rxBitrate? r.all
  txBitrate := last Line.txBitrate? r.all
  rxBytes := last Line.rxBytes? r.all
  txBytes := last Line.txBytes? r.all
  links := r.links.map fun link =>
    ⟨link.linkId, link.bssid.val, last (Line.freq? float) link.lines⟩

end

/-! ## What is printed stays on its line -/

/-- Characters that a line is made of. -/
def Inline (t : Text) : Prop := ∀ c ∈ t, isLineBreak c = false

theorem Inline.append {a b : Text} (ha : Inline a) (hb : Inline b) : Inline (a ++ b) := by
  intro c hc
  rcases List.mem_append.1 hc with hc | hc
  · exact ha c hc
  · exact hb c hc

theorem inline_literal {t : Text} (h : (t.all fun c => isLineBreak c == false) = true) : Inline t :=
  forall_of_all h

theorem inline_of_solid {t : Text} (h : ∀ c ∈ t, isSpace c = false) : Inline t := by
  intro c hc
  by_contra hbreak
  have hspace := isSpace_of_isLineBreak (by simpa using hbreak)
  exact Bool.false_ne_true ((h c hc).symm.trans hspace)

theorem isSpace_macChar {c : Char} (h : isMacChar c = true) : isSpace c = false := by
  simp only [isMacChar, Bool.or_eq_true, Bool.and_eq_true, decide_eq_true_eq] at h
  rcases h with ((hdigit | hlower) | hupper) | rfl
  · exact isSpace_digit hdigit
  · by_contra hspace
    simp only [isSpace, List.contains_eq_mem, List.mem_cons, List.not_mem_nil, or_false,
      Bool.or_eq_true, Bool.and_eq_true, decide_eq_true_eq, Bool.not_eq_false] at hspace
    omega
  · by_contra hspace
    simp only [isSpace, List.contains_eq_mem, List.mem_cons, List.not_mem_nil, or_false,
      Bool.or_eq_true, Bool.and_eq_true, decide_eq_true_eq, Bool.not_eq_false] at hspace
    omega
  · decide

theorem isDigit_decimal {n : Nat} {c : Char} (h : c ∈ decimal n) : c.isDigit = true :=
  Nat.isDigit_of_mem_toDigits (by decide) (by decide) h

theorem inline_decimal (n : Nat) : Inline (decimal n) :=
  inline_of_solid fun _ hc => isSpace_digit (isDigit_decimal hc)

theorem inline_signed (z : Int) : Inline (signed z) := by
  unfold signed
  split_ifs
  · exact Inline.append (a := ['-']) (inline_literal (by decide)) (inline_decimal _)
  · exact inline_decimal _

theorem solid_mac (m : Mac) : ∀ c ∈ m.val, isSpace c = false :=
  fun c hc => isSpace_macChar (m.property.2 c hc)

theorem solid_escapeByte (b : UInt8) : ∀ c ∈ escapeByte b, isSpace c = false := by
  have hdigit : ∀ n < 16, isSpace (Nat.digitChar n) = false := by decide
  have hb := b.toNat_lt
  intro c hc
  simp only [escapeByte, List.mem_cons, List.not_mem_nil, or_false] at hc
  rcases hc with rfl | rfl | rfl | rfl
  · decide
  · decide
  · exact hdigit _ (by omega)
  · exact hdigit _ (by omega)

theorem isSpace_printable {n : Nat} (h : 32 < n ∧ n ≤ 126) : isSpace (Char.ofNat n) = false := by
  have hnat : (Char.ofNat n).toNat = n := toNat_ofNat_of_valid (by omega)
  by_contra hspace
  simp only [isSpace, hnat, List.contains_eq_mem, List.mem_cons, List.not_mem_nil, or_false,
    Bool.or_eq_true, Bool.and_eq_true, decide_eq_true_eq, Bool.not_eq_false] at hspace
  omega

theorem solid_iwByte (b : UInt8) : ∀ c ∈ iwByte true b, isSpace c = false := by
  intro c hc
  unfold iwByte at hc
  split_ifs at hc with hplain hspace
  · rw [List.mem_singleton.1 hc]
    exact isSpace_printable ⟨hplain.1, hplain.2.1⟩
  · exact absurd hspace.2 (by decide)
  · exact solid_escapeByte b c hc

theorem inline_iwByte (edge : Bool) (b : UInt8) : Inline (iwByte edge b) := by
  by_cases hspace : iwByte edge b = [' ']
  · rw [hspace]
    exact inline_literal (by decide)
  · have hsame : iwByte edge b = iwByte true b := by
      unfold iwByte at hspace ⊢
      split_ifs at hspace ⊢ <;> simp_all
    rw [hsame]
    exact inline_of_solid (solid_iwByte b)

theorem iwByte_ne_nil (edge : Bool) (b : UInt8) : iwByte edge b ≠ [] := by
  unfold iwByte escapeByte
  split_ifs <;> exact List.cons_ne_nil _ _

theorem inline_iwEscape (bytes : Bytes) : Inline (iwEscape bytes) := by
  intro c hc
  obtain ⟨p, -, hc⟩ := List.mem_flatMap.1 hc
  exact inline_iwByte _ _ c hc

theorem mem_head?_append {c : Char} {a b : Text} (ha : a ≠ []) (h : c ∈ (a ++ b).head?) :
    c ∈ a := by
  rw [List.head?_append_of_ne_nil a ha] at h
  exact List.mem_of_mem_head? h

theorem mem_getLast?_append {c : Char} {a b : Text} (hb : b ≠ []) (h : c ∈ (a ++ b).getLast?) :
    c ∈ b := by
  rw [List.getLast?_append_of_ne_nil a hb] at h
  exact List.mem_of_getLast? h

/-- `iw` escapes a space at either end of an SSID. -/
theorem strip_iwEscape (bytes : Bytes) : strip (iwEscape bytes) = iwEscape bytes := by
  apply strip_eq_self
  · cases bytes with
    | nil => exact fun c hc => by cases hc
    | cons b bytes =>
      obtain ⟨rest, hrest⟩ : ∃ rest, iwEscape (b :: bytes) = iwByte true b ++ rest := ⟨_, rfl⟩
      rw [hrest]
      exact fun c hc => solid_iwByte b c (mem_head?_append (iwByte_ne_nil true b) hc)
  · rcases List.eq_nil_or_concat' bytes with rfl | ⟨bytes, b, rfl⟩
    · exact fun c hc => by cases hc
    · obtain ⟨rest, hrest⟩ : ∃ rest, iwEscape (bytes ++ [b]) = rest ++ iwByte true b :=
        ⟨_, by simp [iwEscape, List.zipIdx_append]; rfl⟩
      rw [hrest]
      exact fun c hc => solid_iwByte b c (mem_getLast?_append (iwByte_ne_nil true b) hc)

/-! ## Patterns on what is printed -/

theorem after_append (part : String) (t : Text) : after part (part.toList ++ t) = some t := by
  simp [after, List.isPrefixOf_iff_prefix]

theorem digits_decimal (n : Nat) {c : Char} (hc : c.isDigit = false) (t : Text) :
    digits (decimal n ++ c :: t) = decimal n := by
  rw [digits, List.takeWhile_append_of_pos fun d hd => isDigit_decimal hd, List.takeWhile_cons, hc]
  exact List.append_nil _

theorem decimal_ne_nil (n : Nat) : decimal n ≠ [] := Nat.toDigits_ne_nil

theorem digitsValue_decimal (n : Nat) : digitsValue (decimal n) = n := Nat.ofDigitChars_ten_toDigits

theorem mac_val (m : Mac) : mac m.val = some m.val := by
  obtain ⟨t, hlength, hall⟩ := m
  rw [mac, List.take_of_length_le hlength.le, if_pos ⟨hlength, List.all_eq_true.2 hall⟩]

theorem mac_append (m : Mac) (t : Text) : mac (m.val ++ t) = some m.val := by
  obtain ⟨m, hlength, hall⟩ := m
  have htake : (m ++ t).take 17 = m := by
    rw [← hlength]
    exact List.take_left
  rw [mac, htake, if_pos ⟨hlength, List.all_eq_true.2 hall⟩]

theorem mloLink_line (linkId : Nat) (bssid : Mac) :
    mloLink ("Link ".toList ++ (decimal linkId ++ (" BSSID ".toList ++ bssid.val))) =
      some (linkId, bssid.val) := by
  have hdigits : digits (decimal linkId ++ (" BSSID ".toList ++ bssid.val)) = decimal linkId :=
    digits_decimal linkId (by decide) _
  simp only [mloLink, after_append, Option.bind_eq_bind, Option.bind_some, hdigits,
    decimal_ne_nil, if_false, List.drop_left, mac_val, digitsValue_decimal]
  rfl

/-- A search passes over what the pattern cannot begin with. -/
theorem search_append {α : Type} {pattern : Text → Option α} {a : Text}
    (h : ∀ c ∈ a, ∀ t, pattern (c :: t) = none) (b : Text) :
    search pattern (a ++ b) = search pattern b := by
  induction a with
  | nil => rfl
  | cons c a ih =>
    rw [List.cons_append, search, List.tails_cons, List.findSome?_cons,
      h c List.mem_cons_self]
    exact ih fun d hd => h d (List.mem_cons_of_mem c hd)

theorem search_here {α : Type} {pattern : Text → Option α} {t : Text} {a : α}
    (h : pattern t = some a) : search pattern t = some a := by
  cases t with
  | nil => simp [search, h]
  | cons c t => rw [search, List.tails_cons, List.findSome?_cons, h]

theorem digits_cons {c : Char} (hc : c.isDigit = false) (t : Text) : digits (c :: t) = [] := by
  simp [digits, hc]

theorem search_byteCount (key : Text) (hkey : key.all (fun c => !c.isDigit) = true) (n : Nat)
    (t : Text) : search byteCount (key ++ (decimal n ++ (" bytes".toList ++ t))) = some n := by
  rw [search_append]
  · apply search_here
    have hdigits : digits (decimal n ++ (" bytes".toList ++ t)) = decimal n :=
      digits_decimal n (by decide) _
    rw [byteCount, hdigits, if_neg (decimal_ne_nil n), List.drop_left, after_append,
      digitsValue_decimal]
    rfl
  · intro c hc t
    have hc' : c.isDigit = false := by simpa using List.all_eq_true.1 hkey c hc
    rw [byteCount, digits_cons hc', if_pos rfl]

theorem unsigned_decimal (n : Nat) (t : Text) : unsigned (decimal n ++ ' ' :: t) = some
    (decimal n) := by
  rw [unsigned, digits_decimal n (by decide), if_neg (decimal_ne_nil n), List.drop_left]
  rfl

theorem dbm_signed (z : Int) (t : Text) : dbm (signed z ++ ' ' :: t) = some (signed z) := by
  unfold signed
  split_ifs
  · show (unsigned (decimal z.natAbs ++ ' ' :: t)).map ('-' :: ·) = _
    rw [unsigned_decimal]
    rfl
  · obtain ⟨d, ds, hd⟩ := List.exists_cons_of_ne_nil (decimal_ne_nil z.natAbs)
    have hdigit : d.isDigit = true := isDigit_decimal (hd ▸ List.mem_cons_self)
    have hunsigned := unsigned_decimal z.natAbs t
    rw [hd] at hunsigned ⊢
    unfold dbm
    split
    · rename_i heq
      rw [(List.cons.inj heq).1] at hdigit
      exact absurd hdigit (by decide)
    · exact hunsigned

theorem search_dbm {key : Text} (hkey : key.all (fun c => !c.isDigit && c ≠ '-') = true) (z : Int)
    (t : Text) : search dbm (key ++ (signed z ++ ' ' :: t)) = some (signed z) := by
  rw [search_append]
  · exact search_here (dbm_signed z t)
  · intro c hc t
    have hc' : c.isDigit = false ∧ c ≠ '-' := by simpa using List.all_eq_true.1 hkey c hc
    unfold dbm
    split
    · rename_i heq
      exact absurd (List.cons.inj heq).1 hc'.2
    · rw [unsigned, digits_cons hc'.1, if_pos rfl]

/-! ## Reading a line -/

section

variable {ν : Type} {float : Text → Option ν}

theorem strip_tabs (tabs : Nat) (t : Text) : strip (List.replicate tabs '\t' ++ t) = strip t := by
  induction tabs with
  | zero => rfl
  | succ tabs ih => exact (strip_cons (by decide) _).trans ih

theorem strip_printed (tabs : Nat) (line : Line) : strip (line.printed tabs) = strip line.text := by
  cases line with
  | other line => rfl
  | ssid bytes => exact strip_tabs tabs _
  | freq value => exact strip_tabs tabs _
  | signal dbm => exact strip_tabs tabs _
  | bitrate direction rate => exact strip_tabs tabs _
  | counter direction bytes packets => exact strip_tabs tabs _

theorem afterColon_value (key : Text) (hkey : ':' ∉ key) {value : Text}
    (hvalue : strip value = value) :
    afterColon (key ++ ':' :: rstrip (' ' :: value)) = value := by
  rw [afterColon_key key hkey, strip_cons (by decide), hvalue]

/-- A line that ends with a character is stripped at the front only. -/
theorem strip_solid {a b : Text} (ha : a.head?.any (!isSpace ·) = true) (hb : b ≠ [])
    (hsolid : ∀ c ∈ b, isSpace c = false) : strip (a ++ b) = a ++ b := by
  apply strip_eq_self
  · cases a with
    | nil => cases ha
    | cons c a =>
      intro d hd
      obtain rfl : c = d := Option.some.inj hd
      simpa using ha
  · exact fun c hc => hsolid c (mem_getLast?_append hb hc)

theorem mac_ne_nil (m : Mac) : m.val ≠ [] := by
  intro hnil
  have hlength := m.property.1
  rw [hnil] at hlength
  cases hlength

/-- What the lines say of the association, but for the frequency and the links. -/
def Association.hear (a : Association ν) (float : Text → Option ν) (lines : List Line) :
    Association ν :=
  { a with
    ssid := (last Line.ssid? lines).or a.ssid
    signalDbm := (last (Line.signal? float) lines).or a.signalDbm
    rxBitrate := (last Line.rxBitrate? lines).or a.rxBitrate
    txBitrate := (last Line.txBitrate? lines).or a.txBitrate
    rxBytes := (last Line.rxBytes? lines).or a.rxBytes
    txBytes := (last Line.txBytes? lines).or a.txBytes }

/-- What the lines say to the loop: a frequency is that of the link, if there is one. -/
def State.hear (s : State ν) (float : Text → Option ν) (lines : List Line) : State ν :=
  match s.link with
  | none =>
    ⟨{ s.parsed.hear float lines with
      freqMhz := (last (Line.freq? float) lines).or s.parsed.freqMhz }, none⟩
  | some link =>
    ⟨s.parsed.hear float lines,
      some { link with freqMhz := (last (Line.freq? float) lines).or link.freqMhz }⟩

theorem last_append {α : Type} (f : Line → Option α) (lines more : List Line) :
    last f (lines ++ more) = (last f more).or (last f lines) := by
  rw [last, List.filterMap_append, List.getLast?_append]
  rfl

theorem Association.hear_append (a : Association ν) (lines more : List Line) :
    (a.hear float lines).hear float more = a.hear float (lines ++ more) := by
  simp only [Association.hear, last_append, Option.or_assoc]

theorem State.hear_nil (s : State ν) : s.hear float [] = s := by
  obtain ⟨parsed, link⟩ := s
  cases link <;> rfl

theorem State.hear_append (s : State ν) (lines more : List Line) :
    (s.hear float lines).hear float more = s.hear float (lines ++ more) := by
  obtain ⟨parsed, link⟩ := s
  cases link <;> simp only [State.hear, Association.hear, last_append, Option.or_assoc]

theorem last_freq (value : Value) : last (Line.freq? float) [.freq value] = float value.val := by
  cases hfloat : float value.val <;> simp [last, Line.freq?, hfloat]

theorem last_signal (z : Int) : last (Line.signal? float) [.signal z] = float (signed z) := by
  cases hfloat : float (signed z) <;> simp [last, Line.signal?, hfloat]

theorem read_ssidLine (s : State ν) (bytes : Bytes) :
    s.read float (strip (Line.ssid bytes).text) = s.hear float [.ssid bytes] := by
  have hstrip : strip (Line.ssid bytes).text =
      "SSID".toList ++ ':' :: rstrip (' ' :: iwEscape bytes) :=
    strip_key "SSID".toList rfl (' ' :: iwEscape bytes)
  rw [hstrip, read_ssid, strip_cons (by decide), strip_iwEscape, ssidText_iwEscape]
  obtain ⟨parsed, link⟩ := s
  cases link <;> rfl

/-- What a line about a frequency says, if it has one: it is that of the link, if there is one. -/
def State.hearFreq (s : State ν) (freq : Option ν) : State ν :=
  match freq, s.link with
  | none, _ => s
  | some freq, some link => { s with link := some { link with freqMhz := some freq } }
  | some freq, none => { s with parsed := { s.parsed with freqMhz := some freq } }

theorem read_freqLine (s : State ν) (value : Value) :
    s.read float (strip (Line.freq value).text) = s.hear float [.freq value] := by
  have hstrip : strip (Line.freq value).text = "freq".toList ++ ':' :: rstrip (' ' :: value.val) :=
    strip_key "freq".toList rfl (' ' :: value.val)
  have hvalue := afterColon_value "freq".toList (by decide) value.property.1
  have hread (line : Text) : s.read float ("freq".toList ++ ':' :: line) =
      s.hearFreq (float (afterColon ("freq".toList ++ ':' :: line))) := rfl
  rw [hstrip, hread, hvalue]
  unfold State.hear Association.hear
  rw [last_freq]
  obtain ⟨parsed, link⟩ := s
  cases float value.val <;> cases link <;> rfl

def State.hearSignal (s : State ν) : Option ν → State ν
  | none => s
  | some signal => { s with parsed := { s.parsed with signalDbm := some signal } }

theorem read_signalLine (s : State ν) (z : Int) :
    s.read float (strip (Line.signal z).text) = s.hear float [.signal z] := by
  have hsolid : ∀ c ∈ "dBm".toList, isSpace c = false := forall_of_all (by decide)
  have hstrip : strip (Line.signal z).text =
      "signal: ".toList ++ (signed z ++ ' ' :: "dBm".toList) := by
    have hstrip := strip_solid (a := "signal: ".toList ++ signed z ++ [' ']) rfl
      (List.cons_ne_nil 'd' "Bm".toList) hsolid
    show strip ("signal: ".toList ++ signed z ++ " dBm".toList) = _
    simpa using hstrip
  have hread (line : Text) : s.read float ("signal: ".toList ++ line) =
      s.hearSignal ((search dbm ("signal: ".toList ++ line)).bind float) := rfl
  rw [hstrip, hread, search_dbm (by decide), Option.bind_some]
  unfold State.hear Association.hear
  rw [last_signal]
  obtain ⟨parsed, link⟩ := s
  cases float (signed z) <;> cases link <;> rfl

/-- What a line about a bitrate says, of either direction. -/
def State.hearBitrate (s : State ν) (rate : Text) : Direction → State ν
  | .rx => { s with parsed := { s.parsed with rxBitrate := some rate } }
  | .tx => { s with parsed := { s.parsed with txBitrate := some rate } }

theorem read_bitrateLine (s : State ν) (direction : Direction) (rate : Value) :
    s.read float (strip (Line.bitrate direction rate).text) =
      s.hear float [.bitrate direction rate] := by
  have hkey : (bitrateKey direction).toList.head?.all (!isSpace ·) = true ∧
      ':' ∉ (bitrateKey direction).toList := by
    cases direction <;> decide
  have hstrip : strip (Line.bitrate direction rate).text =
      (bitrateKey direction).toList ++ ':' :: rstrip (' ' :: rate.val) := by
    have htext : (Line.bitrate direction rate).text =
      (bitrateKey direction).toList ++ ':' :: ' ' :: rate.val := List.append_assoc _ _ _
    rw [htext, strip_key (bitrateKey direction).toList hkey.1]
  have hvalue := afterColon_value (bitrateKey direction).toList hkey.2 rate.property.1
  have hread (line : Text) : s.read float ((bitrateKey direction).toList ++ ':' :: line) =
      s.hearBitrate (afterColon ((bitrateKey direction).toList ++ ':' :: line)) direction := by
    cases direction <;> rfl
  rw [hstrip, hread, hvalue]
  obtain ⟨parsed, link⟩ := s
  cases direction <;> cases link <;> rfl

/-- What a counter says, of either direction. -/
def State.hearBytes (s : State ν) (bytes : Nat) : Direction → State ν
  | .rx => { s with parsed := { s.parsed with rxBytes := some bytes } }
  | .tx => { s with parsed := { s.parsed with txBytes := some bytes } }

def State.hearCounter (s : State ν) (count : Option Nat) (direction : Direction) : State ν :=
  match count with
  | none => s
  | some count => s.hearBytes count direction

theorem read_counterLine (s : State ν) (direction : Direction) (bytes packets : Nat) :
    s.read float (strip (Line.counter direction bytes packets).text) =
      s.hear float [.counter direction bytes packets] := by
  have hkey : ((counterKey direction).toList.all fun c => !c.isDigit) = true := by
    cases direction <;> decide
  have hsolid : ∀ c ∈ "packets)".toList, isSpace c = false := forall_of_all (by decide)
  have hhead : ((counterKey direction).toList ++ decimal bytes ++ " bytes (".toList ++
      decimal packets ++ [' ']).head?.any (!isSpace ·) = true := by
    cases direction <;> rfl
  have hstrip : strip (Line.counter direction bytes packets).text =
      (counterKey direction).toList ++ (decimal bytes ++ (" bytes".toList ++
        (" (".toList ++ decimal packets ++ " packets)".toList))) := by
    have hstrip := strip_solid hhead (List.cons_ne_nil 'p' "ackets)".toList) hsolid
    show strip ((counterKey direction).toList ++ decimal bytes ++ " bytes (".toList ++
      decimal packets ++ " packets)".toList) = _
    simpa using hstrip
  have hread (line : Text) : s.read float ((counterKey direction).toList ++ line) =
      s.hearCounter (search byteCount ((counterKey direction).toList ++ line)) direction := by
    cases direction <;> rfl
  rw [hstrip, hread, search_byteCount _ hkey]
  obtain ⟨parsed, link⟩ := s
  cases direction <;> cases link <;> rfl

theorem read_silent (s : State ν) (line : Silent) : s.read float (strip line.val) = s := by
  obtain ⟨line, hline⟩ := line
  simp only [isSilent, keys, Bool.and_eq_true, List.all_cons, List.all_nil, Bool.and_true,
    Bool.not_eq_true'] at hline
  obtain ⟨⟨-, hlink, hssid, hfreq, hmld, hsignal, hrx, htx, hrxBytes, htxBytes⟩, -⟩ := hline
  have hmlo : mloLink (strip line) = none := by
    rw [mloLink, after, hlink]
    rfl
  rw [State.read, hmlo, hssid, hfreq, hmld, hsignal, hrx, htx, hrxBytes, htxBytes]
  rfl

/-- **A line says the same wherever it stands.** -/
theorem read_line (s : State ν) (tabs : Nat) (line : Line) :
    s.read float (strip (line.printed tabs)) = s.hear float [line] := by
  rw [strip_printed]
  cases line with
  | ssid bytes => exact read_ssidLine s bytes
  | freq value => exact read_freqLine s value
  | signal z => exact read_signalLine s z
  | bitrate direction rate => exact read_bitrateLine s direction rate
  | counter direction bytes packets => exact read_counterLine s direction bytes packets
  | other line =>
    refine (read_silent s line).trans ?_
    obtain ⟨parsed, link⟩ := s
    cases link <;> rfl

/-! ## Reading the output -/

/-- Lines one after the other, by induction on them. -/
theorem read_lines (s : State ν) (tabs : Nat) (lines : List Line) :
    ((lines.map (Line.printed tabs)).map strip).foldl (State.read float) s =
      s.hear float lines := by
  induction lines generalizing s with
  | nil => exact s.hear_nil.symm
  | cons line lines ih =>
    rw [List.map_cons, List.map_cons, List.foldl_cons, read_line, ih, State.hear_append]
    rfl

theorem strip_linkHeader (link : SetUpLink) : strip link.header =
    "Link ".toList ++ (decimal link.linkId ++ (" BSSID ".toList ++ link.bssid.val)) := by
  have hsolid := strip_solid (a := "Link ".toList ++ decimal link.linkId ++ " BSSID ".toList) rfl
    (mac_ne_nil link.bssid) (solid_mac link.bssid)
  rw [SetUpLink.header, hsolid, List.append_assoc, List.append_assoc]

/-- A link closes the one before it, and the frequency below is its own. -/
theorem read_link (s : State ν) (link : SetUpLink) :
    (link.printed.map strip).foldl (State.read float) s =
      ⟨s.close.hear float link.lines,
        some ⟨link.linkId, link.bssid.val, last (Line.freq? float) link.lines⟩⟩ := by
  have hopen : s.read float (strip ('\t' :: link.header)) =
      ⟨s.close, some ⟨link.linkId, link.bssid.val, none⟩⟩ := by
    rw [strip_cons (by decide), strip_linkHeader, State.read, mloLink_line]
  rw [SetUpLink.printed, List.map_cons, List.foldl_cons, hopen, read_lines]
  simp only [State.hear, Option.or_none]

/-- The links, by induction on them. -/
theorem read_links (links : List SetUpLink) (s : State ν) :
    (((links.flatMap SetUpLink.printed).map strip).foldl (State.read float) s).close =
      { s.close.hear float (links.flatMap (·.lines)) with
        links := s.close.links ++ links.map fun link =>
          ⟨link.linkId, link.bssid.val, last (Line.freq? float) link.lines⟩ } := by
  induction links generalizing s with
  | nil => simp [Association.hear, last]
  | cons link links ih =>
    rw [List.flatMap_cons, List.map_append, List.foldl_append, read_link, ih]
    simp [State.close, Association.hear, last_append, Option.or_assoc]

theorem read_statsHeader (s : State ν) (stats : Stats) :
    s.read float (strip stats.header) = ⟨s.close, none⟩ := by
  have hsolid : ∀ c ∈ "stats:".toList, isSpace c = false := forall_of_all (by decide)
  have hstrip : strip stats.header = "MLD ".toList ++ (stats.address.val ++ " stats:".toList) := by
    have hstrip := strip_solid (a := "MLD ".toList ++ stats.address.val ++ [' ']) rfl
      (List.cons_ne_nil 's' "tats:".toList) hsolid
    simpa [Stats.header] using hstrip
  have hsuffix : "stats:".toList.isSuffixOf
      ("MLD ".toList ++ (stats.address.val ++ " stats:".toList)) = true :=
    List.isSuffixOf_iff_suffix.2 ⟨"MLD ".toList ++ stats.address.val ++ [' '], by simp⟩
  have hread (line : Text) : s.read float ("MLD ".toList ++ line) =
      if "stats:".toList.isSuffixOf ("MLD ".toList ++ line) then ⟨s.close, none⟩ else s := rfl
  rw [hstrip, hread, if_pos hsuffix]

/-- What the lines outside the links say: their frequency is the association's. -/
def Association.hearOwn (a : Association ν) (float : Text → Option ν) (lines : List Line) :
    Association ν :=
  { a.hear float lines with freqMhz := (last (Line.freq? float) lines).or a.freqMhz }

theorem close_hear (a : Association ν) (lines : List Line) :
    (State.hear ⟨a, none⟩ float lines).close = a.hearOwn float lines := by
  simp [State.hear, State.close, Association.hearOwn, Association.hear]

theorem read_stats (stats : Option Stats) (s : State ν) :
    (((stats.toList.flatMap Stats.printed).map strip).foldl (State.read float) s).close =
      s.close.hearOwn float (stats.toList.flatMap (·.lines)) := by
  cases stats with
  | none => rfl
  | some stats =>
    rw [Option.toList_some, List.flatMap_singleton, List.flatMap_singleton, Stats.printed,
      List.map_cons, List.foldl_cons, read_statsHeader, read_lines, close_hear]

theorem read_first (s : State ν) (first : First) : s.read float (strip first.text) = s := by
  cases first with
  | other line h => exact read_silent s line
  | connected bssid iface =>
    have hsolid : ∀ c ∈ [')'], isSpace c = false := forall_of_all (by decide)
    have hstrip : strip (First.connected bssid iface).text = (First.connected bssid iface).text :=
      strip_solid (a := "Connected to ".toList ++ bssid.val ++ " (on ".toList ++ iface.val) rfl
        (List.cons_ne_nil ')' []) hsolid
    rw [hstrip]
    rfl

/-- The loop over all lines of a report. -/
theorem read_report (r : Report) :
    ((r.printed.map strip).foldl (State.read float) ⟨{ bssid := r.first.bssid }, none⟩).close =
      r.association float := by
  rw [Report.printed, List.map_cons, List.foldl_cons, read_first, Report.rest, List.map_append,
    List.map_append, List.foldl_append, List.foldl_append, read_lines, read_stats,
    read_links, close_hear]
  simp [Report.association, Association.hearOwn, Association.hear, Report.all, Report.own,
    last_append, Option.or_assoc]

/-! ## The status lines -/

theorem inline_silent (line : Silent) : Inline line.val := by
  have hline := line.property
  simp only [isSilent, Bool.and_eq_true] at hline
  intro c hc
  simpa using List.all_eq_true.1 hline.1.1 c hc

theorem inline_text (line : Line) : Inline line.text := by
  cases line with
  | ssid bytes =>
    exact (inline_literal (t := "SSID: ".toList) (by decide)).append (inline_iwEscape bytes)
  | freq value => exact (inline_literal (t := "freq: ".toList) (by decide)).append value.property.2
  | signal z =>
    exact ((inline_literal (t := "signal: ".toList) (by decide)).append (inline_signed z)).append
      (inline_literal (by decide))
  | bitrate direction rate =>
    have hkey : Inline (bitrateKey direction).toList := by
      cases direction <;> exact inline_literal (by decide)
    exact (hkey.append (inline_literal (by decide))).append rate.property.2
  | counter direction bytes packets =>
    have hkey : Inline (counterKey direction).toList := by
      cases direction <;> exact inline_literal (by decide)
    exact (((hkey.append (inline_decimal bytes)).append (inline_literal (by decide))).append
      (inline_decimal packets)).append (inline_literal (by decide))
  | other line => exact inline_silent line

/-- A line below the first, which says nothing of the status. -/
structure Below (line : Text) : Prop where
  inline : Inline line
  status : ∀ key ∈ statusKeys, ¬key.toList <+: line

theorem status_of_head {line : Text} (hN : line.head? ≠ some 'N') (hC : line.head? ≠ some 'C') :
    ∀ key ∈ statusKeys, ¬key.toList <+: line := by
  intro key hkey ⟨rest, hrest⟩
  rcases List.mem_cons.1 hkey with rfl | hkey
  · exact hN (hrest ▸ rfl)
  · obtain rfl := List.mem_singleton.1 hkey
    exact hC (hrest ▸ rfl)

theorem below_silent (line : Silent) : Below line.val where
  inline := inline_silent line
  status := by
    have hline := line.property
    simp only [isSilent, Bool.and_eq_true] at hline
    intro key hkey hprefix
    have hnot := List.all_eq_true.1 hline.2 key hkey
    rw [List.isPrefixOf_iff_prefix.2 hprefix] at hnot
    cases hnot

theorem below_indented {t : Text} (h : Inline t) (tabs : Nat) :
    Below (List.replicate (tabs + 1) '\t' ++ t) where
  inline := by
    refine Inline.append ?_ h
    intro c hc
    rw [List.eq_of_mem_replicate hc]
    decide
  status := status_of_head (fun h => by cases h) fun h => by cases h

theorem below_printed (tabs : Nat) (line : Line) : Below (line.printed (tabs + 1)) := by
  cases line with
  | other line => exact below_silent line
  | ssid bytes => exact below_indented (inline_text _) tabs
  | freq value => exact below_indented (inline_text _) tabs
  | signal z => exact below_indented (inline_text _) tabs
  | bitrate direction rate => exact below_indented (inline_text _) tabs
  | counter direction bytes packets => exact below_indented (inline_text _) tabs

theorem below_lines (tabs : Nat) (lines : List Line) :
    ∀ line ∈ lines.map (Line.printed (tabs + 1)), Below line := by
  intro line hline
  obtain ⟨line, -, rfl⟩ := List.mem_map.1 hline
  exact below_printed tabs line

theorem below_link (link : SetUpLink) : ∀ line ∈ link.printed, Below line := by
  have hheader : Inline link.header :=
    (((inline_literal (by decide)).append (inline_decimal link.linkId)).append
      (inline_literal (by decide))).append (inline_of_solid (solid_mac link.bssid))
  exact List.forall_mem_cons.2 ⟨below_indented hheader 0, below_lines 1 link.lines⟩

theorem below_stats (stats : Stats) : ∀ line ∈ stats.printed, Below line := by
  have hheader : Inline stats.header :=
    ((inline_literal (by decide)).append (inline_of_solid (solid_mac stats.address))).append
      (inline_literal (by decide))
  exact List.forall_mem_cons.2
    ⟨⟨hheader, status_of_head (fun h => by cases h) fun h => by cases h⟩, below_lines 0 stats.lines⟩

theorem below_rest (r : Report) : ∀ line ∈ r.rest, Below line := by
  intro line hline
  simp only [Report.rest, List.mem_append, List.mem_flatMap] at hline
  rcases hline with (hline | ⟨link, -, hline⟩) | ⟨stats, -, hline⟩
  · exact below_lines 0 r.lines line hline
  · exact below_link link line hline
  · exact below_stats stats line hline

theorem inline_first (first : First) : Inline first.text := by
  cases first with
  | other line h => exact inline_silent line
  | connected bssid iface =>
    exact ((((inline_literal (by decide)).append (inline_of_solid (solid_mac bssid))).append
      (inline_literal (by decide))).append iface.property.2).append (inline_literal (by decide))

theorem inline_report (r : Report) : ∀ line ∈ r.printed, Inline line :=
  List.forall_mem_cons.2 ⟨inline_first r.first, fun line hline => (below_rest r line hline).inline⟩

/-! ## The report -/

theorem first_head (first : First) : first.text.head?.any (!isSpace ·) = true := by
  cases first with
  | other line h => exact h
  | connected bssid iface => rfl

theorem output_eq (r : Report) : r.output = r.first.text ++ '\n' :: r.rest.flatMap
    (· ++ ['\n']) := by
  simp [Report.output, Report.printed]

/-- The output begins with no white space. -/
theorem strip_output (r : Report) : strip r.output = rstrip r.output := by
  have hlstrip : lstrip r.output = r.output := by
    have hhead := first_head r.first
    rw [output_eq]
    cases hfirst : r.first.text with
    | nil =>
      rw [hfirst] at hhead
      cases hhead
    | cons c rest =>
      rw [hfirst] at hhead
      have hc : isSpace c = false := by simpa using hhead
      simp [lstrip, hc]
  exact congrArg rstrip hlstrip

theorem strip_output_le (r : Report) : strip r.output <+: r.output := by
  rw [strip_output]
  exact List.rdropWhile_prefix isSpace r.output

/-- The status patterns see the beginnings of the lines. -/
theorem mem_splitOn_output (r : Report) {line : Text}
    (hline : line ∈ (strip r.output).splitOn '\n') :
    ∃ line', (line' ∈ r.printed ∨ line' = []) ∧ line <+: line' := by
  obtain ⟨line', hline', hle⟩ := mem_splitOn_prefix (strip_output_le r) hline
  have hno : ∀ line ∈ r.printed, '\n' ∉ line :=
    fun line hline hmem => absurd (inline_report r line hline '\n' hmem) (by decide)
  rw [Report.output, splitOn_flatMap hno, List.mem_append, List.mem_singleton] at hline'
  exact ⟨line', hline', hle⟩

/-- A status that no line begins with is none of the output. -/
theorem no_status (r : Report) (key : String) (hkey : key.toList ≠ [])
    (h : ∀ line ∈ r.printed, ¬key.toList <+: line) :
    ∀ line ∈ (strip r.output).splitOn '\n', key.toList.isPrefixOf line = false := by
  intro line hline
  rw [Bool.eq_false_iff]
  intro hprefix
  obtain ⟨line', hline' | rfl, hle⟩ := mem_splitOn_output r hline
  · exact h line' hline' ((List.isPrefixOf_iff_prefix.1 hprefix).trans hle)
  · exact hkey (List.prefix_nil.1 ((List.isPrefixOf_iff_prefix.1 hprefix).trans hle))

theorem output_not_notConnected (r : Report) : saysNotConnected (strip r.output) = false := by
  have hfirst : ¬"Not connected".toList <+: r.first.text := by
    cases r.first with
    | other line h => exact (below_silent line).status _ (by simp [statusKeys])
    | connected bssid iface => exact fun ⟨rest, hrest⟩ => by cases hrest
  have hnone := no_status r "Not connected" (by decide) (List.forall_mem_cons.2
    ⟨hfirst, fun line hline => (below_rest r line hline).status _ (by simp [statusKeys])⟩)
  rw [saysNotConnected, List.any_eq_false]
  intro line hline
  rw [hnone line hline]
  exact Bool.false_ne_true

/-- The first line of an output that begins with a line is that line. -/
theorem head?_splitOn {line rest : Text} (hline : '\n' ∉ line)
    (hrest : rest = [] ∨ ∃ more, rest = '\n' :: more) :
    ((line ++ rest).splitOn '\n').head? = some line := by
  rcases hrest with rfl | ⟨more, rfl⟩
  · rw [List.append_nil, List.splitOn_eq_singleton hline]
    rfl
  · rw [List.splitOn_append_cons_self, List.splitOn_eq_singleton hline]
    rfl

theorem connectedTo_output (r : Report) : connectedTo (strip r.output) = r.first.bssid := by
  cases hfirst : r.first with
  | other line h =>
    have hnone := no_status r "Connected to " (by decide) (List.forall_mem_cons.2
      ⟨by rw [hfirst]; exact (below_silent line).status _ (by simp [statusKeys]),
        fun line hline => (below_rest r line hline).status _ (by simp [statusKeys])⟩)
    refine List.findSome?_eq_none_iff.2 fun line hline => ?_
    rw [after, hnone line hline]
    rfl
  | connected bssid iface =>
    have hbssid : (after "Connected to " r.first.text).bind mac = some bssid.val := by
      have hsplit : r.first.text = "Connected to ".toList ++ (bssid.val ++ (" (on ".toList ++
          iface.val ++ ")".toList)) := by
        rw [hfirst]
        show "Connected to ".toList ++ bssid.val ++ " (on ".toList ++ iface.val ++ ")".toList = _
        simp only [List.append_assoc]
      rw [hsplit, after_append, Option.bind_some, mac_append]
    have hno : '\n' ∉ r.first.text := fun hmem =>
      absurd (inline_first r.first '\n' hmem) (by decide)
    obtain ⟨rest, hstrip, hrest⟩ : ∃ rest, strip r.output = r.first.text ++ rest ∧
        (rest = [] ∨ ∃ more, rest = '\n' :: more) := by
      have hkeep (rest : Text) : rstrip (r.first.text ++ rest) = r.first.text ++ rstrip rest := by
        have happend (rest : Text) : r.first.text ++ rest =
            ("Connected to ".toList ++ bssid.val ++ " (on ".toList ++ iface.val) ++
              ')' :: rest := by
          rw [hfirst]
          exact List.append_assoc _ _ _
        rw [happend, happend, rstrip_keep (by decide)]
      refine ⟨_, (strip_output r).trans ((congrArg rstrip (output_eq r)).trans (hkeep _)), ?_⟩
      obtain ⟨tail, htail⟩ := List.rdropWhile_prefix isSpace
        ('\n' :: r.rest.flatMap (· ++ ['\n']))
      cases hrest : rstrip ('\n' :: r.rest.flatMap (· ++ ['\n'])) with
      | nil => exact .inl rfl
      | cons c more =>
        have hc := congrArg List.head? htail
        rw [show List.rdropWhile isSpace _ = c :: more from hrest] at hc
        exact .inr ⟨more, by rw [Option.some.inj hc]⟩
    have hhead := head?_splitOn hno hrest
    rw [connectedTo, hstrip]
    obtain ⟨lines, hlines⟩ := List.head?_eq_some_iff.1 hhead
    rw [hlines, List.findSome?_cons, hbssid]
    rfl

/-- **What `iw link` prints is read back**, in any order of the lines. -/
theorem parseIwLink_report (float : Text → Option ν) (r : Report) :
    parseIwLink float r.output = some (r.association float) := by
  have hne : strip r.output ≠ [] := by
    intro hnil
    obtain ⟨c, hc, hsolid⟩ := (Option.any_eq_true _ _).1 (first_head r.first)
    have hmem : c ∈ r.output := by
      rw [output_eq]
      exact List.mem_append_left _ (List.mem_of_mem_head? hc)
    rw [strip_eq_nil.1 hnil c hmem] at hsolid
    cases hsolid
  unfold parseIwLink
  dsimp only
  rw [if_neg (by simp [hne, output_not_notConnected r]), connectedTo_output, foldl_read,
    Report.output, trimmed_flatMap (inline_report r), ← foldl_trimmed read_nil, read_report]

end

/-! ## An output -/

/-- An association with the flags of its BSS. -/
def home : Report where
  first := .connected ⟨"68:51:34:7c:32:13".toList, by decide, forall_of_all (by decide)⟩
    ⟨"wlan0".toList, by decide, forall_of_all (by decide)⟩
  lines :=
    [.ssid (encode "home".toList),
      .freq ⟨"5200.0".toList, by decide, forall_of_all (by decide)⟩,
      .counter .rx 2112666 22185, .signal (-48), .other ⟨[], by decide⟩,
      .other ⟨"\tbss flags:\tshort-slot-time".toList, by decide⟩]
  links := []
  stats := none

example : home.output =
    ("Connected to 68:51:34:7c:32:13 (on wlan0)\n\tSSID: home\n\tfreq: 5200.0\n" ++
      "\tRX: 2112666 bytes (22185 packets)\n\tsignal: -48 dBm\n" ++
      "\n\tbss flags:\tshort-slot-time\n").toList := by
  decide +kernel

end WlanpiCore.WlanLink
