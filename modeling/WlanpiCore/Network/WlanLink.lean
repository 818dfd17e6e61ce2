import Mathlib.Data.List.Infix
import WlanpiCore.Lib.Lines
import WlanpiCore.Wpa.SsidText

/-!
# The association that `iw link` reports

`_parse_iw_link`. The SSID in its input is the access point's choice, so the parser must not take
any of it for something that `iw` says.

**Theorem (`parseIwLink_ssid_inert`).** Whatever else is in the output, the text on the SSID's line
changes nothing of the result but the SSID.
-/

namespace WlanpiCore.WlanLink

open Text SsidText

/-! ## Patterns -/

/-- `re.search`: what a pattern makes of the first position where it matches. -/
def search {α : Type} (pattern : Text → Option α) (t : Text) : Option α := t.tails.findSome? pattern

/-- What follows a literal. -/
def after (part : String) (t : Text) : Option Text :=
  if part.toList.isPrefixOf t then some (t.drop part.toList.length) else none

/-- `\d+`, as far as it goes, of the digits that `iw` prints. -/
def digits (t : Text) : Text := t.takeWhile Char.isDigit

def isMacChar (c : Char) : Bool :=
  c.isDigit || (97 ≤ c.toNat && c.toNat ≤ 102) || (65 ≤ c.toNat && c.toNat ≤ 70) || c = ':'

/-- `[0-9a-fA-F:]{17}` -/
def mac (t : Text) : Option Text :=
  if (t.take 17).length = 17 ∧ (t.take 17).all isMacChar = true then some (t.take 17) else none

/-- `_MLO_LINK` -/
def mloLink (line : Text) : Option (Nat × Text) := do
  let rest ← after "Link " line
  if digits rest = [] then none
  let address ← (after " BSSID " (rest.drop (digits rest).length)).bind mac
  return (digitsValue (digits rest), address)

/-- `\d+(?:\.\d+)?` -/
def unsigned (t : Text) : Option Text :=
  if digits t = [] then none
  else match t.drop (digits t).length with
    | '.' :: more =>
      if digits more = [] then some (digits t) else some (digits t ++ '.' :: digits more)
    | _ => some (digits t)

/-- `_DBM` -/
def dbm (t : Text) : Option Text :=
  match t with
  | '-' :: rest => (unsigned rest).map ('-' :: ·)
  | _ => unsigned t

/-- `(\d+) bytes` -/
def byteCount (t : Text) : Option Nat :=
  if digits t = [] then none
  else (after " bytes" (t.drop (digits t).length)).map fun _ => digitsValue (digits t)

/-! ## The parser -/

section

variable {ν : Type}

structure Link (ν : Type) where
  linkId : Nat
  bssid : Text
  freqMhz : Option ν

/-- What is parsed of an output that reports an association; it is managed if there is a BSSID. -/
structure Association (ν : Type) where
  bssid : Option Text
  ssid : Option Text := none
  freqMhz : Option ν := none
  signalDbm : Option ν := none
  rxBitrate : Option Text := none
  txBitrate : Option Text := none
  rxBytes : Option Nat := none
  txBytes : Option Nat := none
  links : List (Link ν) := []

/-- The state of the loop: `link` is the last of the links, as long as its lines go on. -/
structure State (ν : Type) where
  parsed : Association ν
  link : Option (Link ν)

/-- The association with the link that is being read. -/
def State.close (s : State ν) : Association ν :=
  { s.parsed with links := s.parsed.links ++ s.link.toList }

/-- `line.split(":", 1)[1].strip()` -/
def afterColon (line : Text) : Text := strip ((line.dropWhile (· ≠ ':')).drop 1)

-- Python's `float`; `none` is a `ValueError`.
variable (float : Text → Option ν)

/-- One turn of the loop, on a stripped line. -/
def State.read (s : State ν) (line : Text) : State ν :=
  match mloLink line with
  | some (linkId, bssid) => ⟨s.close, some ⟨linkId, bssid, none⟩⟩
  | none =>
    if "SSID:".toList.isPrefixOf line then
      { s with parsed := { s.parsed with ssid := some (ssidText (afterColon line)) } }
    else if "freq:".toList.isPrefixOf line then
      match float (afterColon line), s.link with
      | none, _ => s
      | some freq, some link => { s with link := some { link with freqMhz := some freq } }
      | some freq, none => { s with parsed := { s.parsed with freqMhz := some freq } }
    else if "MLD ".toList.isPrefixOf line && "stats:".toList.isSuffixOf line then ⟨s.close, none⟩
    else if "signal:".toList.isPrefixOf line then
      match (search dbm line).bind float with
      | none => s
      | some signal => { s with parsed := { s.parsed with signalDbm := some signal } }
    else if "rx bitrate:".toList.isPrefixOf line then
      { s with parsed := { s.parsed with rxBitrate := some (afterColon line) } }
    else if "tx bitrate:".toList.isPrefixOf line then
      { s with parsed := { s.parsed with txBitrate := some (afterColon line) } }
    else if "RX:".toList.isPrefixOf line then
      match search byteCount line with
      | none => s
      | some count => { s with parsed := { s.parsed with rxBytes := some count } }
    else if "TX:".toList.isPrefixOf line then
      match search byteCount line with
      | none => s
      | some count => { s with parsed := { s.parsed with txBytes := some count } }
    else s

/-- `re.search(r"^Not connected", text, re.M)` -/
def saysNotConnected (text : Text) : Bool :=
  (text.splitOn '\n').any "Not connected".toList.isPrefixOf

/-- `re.search(r"^Connected to ([0-9a-fA-F:]\x7b17\x7d)", text, re.M)` -/
def connectedTo (text : Text) : Option Text :=
  (text.splitOn '\n').findSome? fun line => (after "Connected to " line).bind mac

/-- `_parse_iw_link`; `none` is not connected. -/
def parseIwLink (stdout : Text) : Option (Association ν) :=
  let text := strip stdout
  if text = [] ∨ saysNotConnected text = true then none
  else
    some (((splitlines text).map strip).foldl (State.read float)
      ⟨{ bssid := connectedTo text }, none⟩).close

end

/-! ## A line with a key -/

theorem strip_key (key : Text) (hkey : key.head?.all (!isSpace ·) = true) (value : Text) :
    strip (key ++ ':' :: value) = key ++ ':' :: rstrip value := by
  have hlstrip : lstrip (key ++ ':' :: value) = key ++ ':' :: value := by
    cases key with
    | nil => rfl
    | cons c key =>
      have hc : isSpace c = false := by simpa using hkey
      simp [lstrip, hc]
  show rstrip (lstrip (key ++ ':' :: value)) = _
  rw [hlstrip, rstrip_keep (by decide)]

theorem afterColon_key (key : Text) (hkey : ':' ∉ key) (value : Text) :
    afterColon (key ++ ':' :: rstrip value) = strip value := by
  have hdrop : (key ++ ':' :: rstrip value).dropWhile (· ≠ ':') = ':' :: rstrip value := by
    rw [List.dropWhile_append_of_pos]
    · simp
    · intro c hc
      simpa using fun heq : c = ':' => hkey (heq ▸ hc)
  rw [afterColon, hdrop]
  exact strip_rstrip value

section

variable {ν : Type} {float : Text → Option ν}

theorem read_nil (s : State ν) : s.read float [] = s := rfl

theorem read_ssid (s : State ν) (value : Text) :
    s.read float ("SSID".toList ++ ':' :: rstrip value) =
      { s with parsed := { s.parsed with ssid := some (ssidText (strip value)) } } := by
  rw [← afterColon_key "SSID".toList (by decide) value]
  rfl

/-! ## The SSID is inert -/

def Association.hideSsid (a : Association ν) : Association ν := { a with ssid := none }

def State.hideSsid (s : State ν) : State ν := { s with parsed := s.parsed.hideSsid }

/-- One turn sees nothing of the SSID. -/
theorem read_hideSsid (s : State ν) (line : Text) :
    (s.read float line).hideSsid = (s.hideSsid.read float line).hideSsid := by
  unfold State.read
  cases mloLink line with
  | some link => rfl
  | none =>
    dsimp only
    split_ifs
    · rfl
    · rcases float (afterColon line) with _ | freq
      · rfl
      · rcases hlink : s.link with _ | link
        · simp [State.hideSsid, Association.hideSsid, hlink]
        · simp [State.hideSsid, Association.hideSsid, hlink]
    · rfl
    · rcases (search dbm line).bind float with _ | signal <;> rfl
    · rfl
    · rfl
    · rcases search byteCount line with _ | count <;> rfl
    · rcases search byteCount line with _ | count <;> rfl
    · rfl

/-- The loop, by induction on the lines. -/
theorem foldl_hideSsid (lines : List Text) :
    ∀ s : State ν, (lines.foldl (State.read float) s).hideSsid =
      (lines.foldl (State.read float) s.hideSsid).hideSsid := by
  induction lines with
  | nil => exact fun s => rfl
  | cons line lines ih =>
    intro s
    rw [List.foldl_cons, List.foldl_cons, ih, read_hideSsid, ← ih]

theorem foldl_close_hideSsid {s s' : State ν} (h : s.hideSsid = s'.hideSsid) (lines : List Text) :
    (lines.foldl (State.read float) s).close.hideSsid =
      (lines.foldl (State.read float) s').close.hideSsid := by
  have hclose (s : State ν) : s.close.hideSsid = s.hideSsid.close := rfl
  rw [hclose, hclose, foldl_hideSsid, h, ← foldl_hideSsid]

/-- An output with a line for the SSID. -/
def withSsid (head value tail : Text) : Text :=
  head ++ '\n' :: ("\tSSID:".toList ++ value ++ '\n' :: tail)

/-- The lines of an output, the SSID's among them, as the status patterns see them. -/
theorem splitOn_ssid {head : Text} (hhead : head.head?.any (!isSpace ·) = true) (tail : Text) :
    ∃ rest, ∀ value : Text, (∀ c ∈ value, isLineBreak c = false) → ∃ value',
      (strip (withSsid head value tail)).splitOn '\n' =
        head.splitOn '\n' ++ ("\tSSID:".toList ++ value') :: rest := by
  refine ⟨if rstrip tail = [] then [] else (rstrip tail).splitOn '\n', fun value hvalue => ?_⟩
  have hno : '\n' ∉ value := fun hmem => absurd (hvalue '\n' hmem) (by decide)
  have hlstrip (t : Text) : lstrip (head ++ t) = head ++ t := by
    cases head with
    | nil => cases hhead
    | cons c head =>
      have hc : isSpace c = false := by simpa using hhead
      simp [lstrip, hc]
  have hstrip : strip (withSsid head value tail) =
      head ++ '\n' :: ("\tSSID:".toList ++ rstrip (value ++ '\n' :: tail)) := by
    show rstrip (lstrip (head ++ _)) = _
    rw [hlstrip]
    have hkeep := rstrip_keep (c := ':') (by decide) (head ++ "\n\tSSID".toList)
      (value ++ '\n' :: tail)
    simpa using hkeep
  rw [hstrip, List.splitOn_append_cons_self]
  have hline {value' : Text} (hvalue' : '\n' ∉ value') : '\n' ∉ "\tSSID:".toList ++ value' := by
    intro hmem
    rcases List.mem_append.1 hmem with hmem | hmem
    · exact absurd hmem (by decide)
    · exact hvalue' hmem
  by_cases htail : rstrip tail = []
  · have hblank : ∀ c ∈ '\n' :: tail, isSpace c = true := by
      intro c hc
      rcases List.mem_cons.1 hc with rfl | hc
      · decide
      · exact List.rdropWhile_eq_nil_iff.1 htail c hc
    refine ⟨rstrip value, ?_⟩
    rw [rstrip_blank value hblank, if_pos htail,
      List.splitOn_eq_singleton (hline fun hmem => hno (mem_of_mem_rstrip hmem))]
  · have hkeep : rstrip (value ++ '\n' :: tail) = value ++ '\n' :: rstrip tail := by
      have happend := rstrip_append (a := value ++ ['\n']) htail
      simpa using happend
    refine ⟨value, ?_⟩
    rw [hkeep, if_neg htail, ← List.append_assoc, List.splitOn_append_cons_self,
      List.splitOn_eq_singleton (hline hno)]
    rfl

theorem trim_ssid (value : Text) :
    trim ("\tSSID:".toList ++ value) = ["SSID".toList ++ ':' :: rstrip value] := by
  have hstrip : strip ("\tSSID:".toList ++ value) = "SSID".toList ++ ':' :: rstrip value :=
    (strip_cons (by decide) _).trans (strip_key "SSID".toList rfl value)
  rw [trim, hstrip, if_neg (by simp)]

theorem trimmed_ssid (head tail : Text) {value : Text}
    (hvalue : ∀ c ∈ value, isLineBreak c = false) :
    trimmed (withSsid head value tail) =
      trimmed head ++ ("SSID".toList ++ ':' :: rstrip value) :: trimmed tail := by
  have hkey : ∀ c ∈ "\tSSID:".toList, isLineBreak c = false := forall_of_all (by decide)
  have hline : ∀ c ∈ "\tSSID:".toList ++ value, isLineBreak c = false := by
    intro c hc
    rcases List.mem_append.1 hc with hc | hc
    · exact hkey c hc
    · exact hvalue c hc
  rw [withSsid, trimmed_append, trimmed_append, trimmed_line hline, trim_ssid]
  rfl

/-- The loop over an output is a loop over its lines without their margins. -/
theorem foldl_read (s : State ν) (t : Text) :
    ((splitlines (strip t)).map strip).foldl (State.read float) s =
      (trimmed t).foldl (State.read float) s := by
  rw [foldl_trimmed read_nil]
  show (trimmed (strip t)).foldl _ s = _
  rw [trimmed_strip]

/-- **The text of the SSID's line changes nothing but the SSID**, where the output does not begin
with white space. -/
theorem parseIwLink_ssid_inert {head : Text} (hhead : head.head?.any (!isSpace ·) = true)
    {value value' : Text} (tail : Text) (hvalue : ∀ c ∈ value, isLineBreak c = false)
    (hvalue' : ∀ c ∈ value', isLineBreak c = false) :
    (parseIwLink float (withSsid head value tail)).map Association.hideSsid =
      (parseIwLink float (withSsid head value' tail)).map Association.hideSsid := by
  obtain ⟨rest, hsplit⟩ := splitOn_ssid hhead tail
  obtain ⟨shown, hshown⟩ := hsplit value hvalue
  obtain ⟨shown', hshown'⟩ := hsplit value' hvalue'
  have hne (value : Text) : strip (withSsid head value tail) ≠ [] := by
    intro hnil
    have hblank := strip_eq_nil.1 hnil
    obtain ⟨c, hc, hsolid⟩ := (Option.any_eq_true _ _).1 hhead
    rw [hblank c (List.mem_append_left _ (List.mem_of_mem_head? hc))] at hsolid
    cases hsolid
  have hstatus : saysNotConnected (strip (withSsid head value tail)) =
      saysNotConnected (strip (withSsid head value' tail)) := by
    unfold saysNotConnected
    rw [hshown, hshown', List.any_append, List.any_append]
    rfl
  have hbssid : connectedTo (strip (withSsid head value tail)) =
      connectedTo (strip (withSsid head value' tail)) := by
    unfold connectedTo
    rw [hshown, hshown', List.findSome?_append, List.findSome?_append]
    rfl
  unfold parseIwLink
  dsimp only
  rw [hstatus]
  by_cases hnot : saysNotConnected (strip (withSsid head value' tail)) = true
  · rw [if_pos (Or.inr hnot), if_pos (Or.inr hnot)]
  · rw [if_neg (by simp [hne, hnot]), if_neg (by simp [hne, hnot]), hbssid, foldl_read, foldl_read,
      trimmed_ssid head tail hvalue, trimmed_ssid head tail hvalue']
    refine congrArg some ?_
    rw [List.foldl_append, List.foldl_append, List.foldl_cons, List.foldl_cons,
      read_ssid, read_ssid]
    apply foldl_close_hideSsid
    rfl

theorem parseIwLink_ssid_inert_signal :
    ("Connected to 00:11:22:33:44:55 (on wlan0)".toList.head?.any (!isSpace ·) = true) ∧
      (parseIwLink int (withSsid
          "Connected to 00:11:22:33:44:55 (on wlan0)".toList " home".toList
          "\tfreq: 5180".toList)).map Association.hideSsid =
        (parseIwLink int (withSsid
          "Connected to 00:11:22:33:44:55 (on wlan0)".toList " freq: 2412 signal: -30 dBm".toList
          "\tfreq: 5180".toList)).map Association.hideSsid :=
  ⟨by decide, parseIwLink_ssid_inert (by decide) _ (forall_of_all (by decide))
    (forall_of_all (by decide))⟩

end

end WlanpiCore.WlanLink
