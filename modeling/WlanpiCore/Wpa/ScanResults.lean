import WlanpiCore.Lib.KeepBest
import WlanpiCore.Lib.Lines
import WlanpiCore.Wpa.SsidText

/-!
# The parsers of scan results

`parse_wpa_scan_results` reads the table of `wpa_cli scan_results`, `parse_iw_scan_output` the
blocks of `iw dev <iface> scan`. Both skip what they cannot read, keep the best sighting of each
network in a dictionary, and sort.

**Theorem (`scanLaw_iff`).** Both return the best of each BSSID among what they accept, exactly when
no block of the `iw` text has a number that the code converts and does not expect to fail: an
infinite `signal:` or `freq:`, which raises an `OverflowError` where a `ValueError` is skipped, or
a channel width of more digits than `int` takes.
-/

namespace WlanpiCore.ScanResults

open Text KeepBest

inductive Exc where
  | valueError
  | overflowError
  deriving DecidableEq

/-- The interpreter: `int(text)` with `none` for its `ValueError`, `int(float(text))`, and its
Unicode database. -/
structure Python where
  int : Text → Option Int
  intOfFloat : Text → Except Exc Int
  unicode : Unicode

/-- `\w` -/
def Python.isWord (py : Python) (c : Char) : Bool := py.unicode.alphanumeric c || c == '_'

/-! ## Text -/

/-- `part in t` -/
def contains (part t : Text) : Bool := t.tails.any part.isPrefixOf

/-- A letter of a pattern under `re.IGNORECASE`, where four letters beyond ASCII match as well. -/
def sameLetter (p c : Char) : Bool :=
  p.toLower == c.toLower || p.toLower == 'i' && (c == '\u0130' || c == '\u0131') ||
    p.toLower == 's' && c == '\u017f' || p.toLower == 'k' && c == '\u212a'

/-- What follows a literal pattern at the start of a text, letter case aside. -/
def afterIgnoring : Text → Text → Option Text
  | [], t => some t
  | _ :: _, [] => none
  | p :: part, c :: t => if sameLetter p c then afterIgnoring part t else none

/-- `re.search(part, t, re.I)` for a literal pattern. -/
def searchIgnoring (part : String) (t : Text) : Bool :=
  t.tails.any fun rest => (afterIgnoring part.toList rest).isSome

/-- `re.search(r"\bpart\b", t, re.I)` for a word, after a character that is one of a word or not. -/
def searchWord (py : Python) (part : Text) (inWord : Bool) : Text → Bool
  | [] => false
  | c :: t =>
    (!inWord && (afterIgnoring part (c :: t)).any fun rest => !rest.head?.any py.isWord) ||
      searchWord py part (py.isWord c) t

/-- `t.split(":", 1)[1]` of a text with a colon. -/
def afterColon (t : Text) : Text := (t.dropWhile (· ≠ ':')).drop 1

/-- `str.replace(old, new)`, after `skip` more characters of what is replaced. -/
def replaceFrom (old new : Text) : Nat → Text → Text
  | _, [] => []
  | skip + 1, _ :: t => replaceFrom old new skip t
  | 0, c :: t =>
    if old.isPrefixOf (c :: t) then new ++ replaceFrom old new (old.length - 1) t
    else c :: replaceFrom old new 0 t

def startsWith (part : String) (t : Text) : Bool := part.toList.isPrefixOf t

/-! ## Fields -/

def freqToChannel (freq : Int) : Option Int :=
  if freq = 2484 then some 14
  else if 2412 ≤ freq ∧ freq ≤ 2484 then some ((freq - 2412) / 5 + 1)
  else if 5160 ≤ freq ∧ freq ≤ 5885 then some ((freq - 5180) / 5 + 36)
  else if 5955 ≤ freq ∧ freq ≤ 7115 then some ((freq - 5955) / 5 + 1)
  else none

section Fields

variable (py : Python)

/-- `_classify_akms` -/
def classifyAkms (akms : List Text) : String :=
  let names := akms.map (upper py.unicode)
  if names.any fun n =>
      "PSK".toList.isSuffixOf n || contains "PSK/".toList n || contains "PSK-".toList n
        then "wpa-psk"
  else if names.any (contains "SAE".toList) then "sae"
  else if names.any fun n => contains "EAP".toList n || contains "802.1X".toList n then "wpa-eap"
  else if names.any (contains "OWE".toList) then "owe"
  else "unknown"

/-- `\[(?:WPA2?|RSN)-([^\]]*)\]` at the start of a text: the group, and the length of the match. -/
def groupAt (t : Text) : Option (Text × Nat) :=
  ["[WPA2-", "[WPA-", "[RSN-"].findSome? fun opening =>
    if startsWith opening t then
      let body := t.drop opening.length
      let group := body.takeWhile (· ≠ ']')
      if group.length < body.length then some (group, opening.length + group.length + 1) else none
    else none

/-- `re.findall`, after `skip` more characters of the last match. -/
def groupsFrom : Nat → Text → List Text
  | _, [] => []
  | skip + 1, _ :: t => groupsFrom skip t
  | 0, c :: t =>
    match groupAt (c :: t) with
    | some (group, length) => group :: groupsFrom (length - 1) t
    | none => groupsFrom 0 t

def parseKeyMgmt (flags : Text) : String :=
  let groups := groupsFrom 0 flags
  if groups ≠ [] then classifyAkms py (groups.flatMap (·.splitOn '+'))
  else if contains "WEP".toList flags then "wep"
  else if contains "[ESS]".toList flags then "open"
  else "unknown"

/-- `_parse_secondary_channel_offset` -/
def secondaryChannelOffset (block : Text) : Option Text :=
  (splitlines block).findSome? fun line =>
    if startsWith "* secondary channel offset:" (strip line) then
      let raw := lower py.unicode (strip (afterColon (strip line)))
      some (if raw = "no secondary".toList then "none".toList
        else if raw = "above control channel".toList then "above".toList
        else if raw = "below control channel".toList then "below".toList
        else raw)
    else none

/-- `channel width:\s*(\d+)\s*MHz` at the start of a text. -/
def widthAt (t : Text) : Option Text :=
  match afterIgnoring "channel width:".toList t with
  | none => none
  | some rest =>
    let body := rest.dropWhile isSpace
    let digits := body.takeWhile py.unicode.decimal
    let unit := (body.drop digits.length).dropWhile isSpace
    if digits ≠ [] && (afterIgnoring "MHz".toList unit).isSome then some digits else none

/-- The digits of the first channel width of a block. -/
def widthDigits (block : Text) : Option Text :=
  (splitlines block).findSome? fun line => (strip line).tails.findSome? (widthAt py)

/-- `_parse_channel_width` -/
def channelWidth (block : Text) : Except Exc (Option Int) :=
  match widthDigits py block with
  | some digits =>
    match py.int digits with
    | some n => .ok (some n)
    | none => .error .valueError
  | none =>
    if searchIgnoring "HT operation:" block &&
        !searchIgnoring "secondary channel offset: no secondary" block then .ok (some 40)
    else .ok none

structure BssLoad where
  stations : Option Int := none
  utilization : Option Int := none
  deriving DecidableEq

/-- One line of the loop of `_parse_bss_load`. What is no number leaves the last one. -/
def bssLoadLine (load : BssLoad) (line : Text) : BssLoad :=
  if startsWith "* station count:" (strip line) then
    { load with stations := (py.int (strip (afterColon (strip line)))).or load.stations }
  else if startsWith "* channel utilisation:" (strip line) then
    let raw := strip (afterColon (strip line))
    let value := if raw.contains '/' then strip (raw.takeWhile (· ≠ '/')) else raw
    { load with utilization := (py.int value).or load.utilization }
  else load

/-- `_parse_bss_load` -/
def bssLoad (block : Text) : Option BssLoad :=
  let load := (splitlines block).foldl (bssLoadLine py) {}
  if load.stations = none ∧ load.utilization = none then none else some load

/-- `_parse_iw_flags` -/
def iwFlags (block : Text) : Option Text :=
  (splitlines block).findSome? fun line =>
    if startsWith "capability:" (strip line) then some (strip (afterColon (strip line))) else none

/-- `_detect_amendments` -/
def amendments (block : Text) : List String :=
  [("n", searchIgnoring "HT capabilities:" block), ("ac", searchIgnoring "VHT " block),
    ("ax", searchIgnoring "HE " block), ("be", searchIgnoring "EHT " block),
    ("k", searchIgnoring "RM enabled" block || searchIgnoring "Radio Measurement" block),
    ("v", searchIgnoring "WNM" block || searchIgnoring "BSS Transition" block),
    ("r", searchWord py "FT".toList false block || searchIgnoring "FT over" block)].filterMap
      fun test => if test.2 then some test.1 else none

/-- `_parse_primary_channel`: the first line that names one decides. -/
def primaryChannel (block : Text) (freq : Int) : Option Int :=
  match (splitlines block).find? fun line => startsWith "* primary channel:" (strip line) with
  | some line => (py.int (strip (afterColon (strip line)))).or (freqToChannel freq)
  | none => freqToChannel freq

end Fields

/-- A network as both parsers return it. -/
structure Entry where
  ssid : Text
  bssid : Text
  signal : Int
  freq : Int
  keyMgmt : String
  minrate : Int := 1000000
  flags : Option Text
  primaryChannel : Option Int
  channelWidth : Option Int := none
  secondaryChannelOffset : Option Text := none
  bssLoad : Option BssLoad := none
  amendments : List String := []
  raw : Option Text := none
  deriving DecidableEq

/-- The end of both loops: what was read, if anything, goes into the dictionary if it is new or
better. -/
def sight (seen : List Entry) : Option Entry → List Entry
  | none => seen
  | some entry => insertBest Entry.bssid Entry.signal seen entry

/-! ## `wpa_cli scan_results` -/

section Wpa

variable (py : Python) (includeHidden : Bool)

/-- One line of `parse_wpa_scan_results`. A line of four fields has an empty SSID. -/
def wpaLine (line : Text) : Option Entry :=
  if strip line = [] then none
  else
    let parts := line.splitOn '\t'
    match if parts.length = 4 then parts ++ [[]] else parts with
    | bssid :: freqStr :: signalStr :: flags :: escapedSsid :: _ =>
      let ssid := SsidText.ssidText escapedSsid
      if !includeHidden && ssid = [] then none
      else
        match py.int freqStr, py.int signalStr with
        | some freq, some signal =>
          some { ssid, bssid := lower py.unicode bssid, signal, freq, keyMgmt :=
            parseKeyMgmt py flags,
                 flags := some flags, primaryChannel := freqToChannel freq }
        | _, _ => none
    | _ => none

/-- `parse_wpa_scan_results`. The first line is the header. -/
def parseWpaScanResults (text : Text) : List Entry :=
  sortByRank Entry.signal
    (((splitlines text).drop 1).foldl (fun seen line => sight seen (wpaLine py includeHidden line))
      [])

end Wpa

/-! ## `iw scan` -/

/-- One line of `split_iw_bss_blocks`, with the blocks so far and the lines of the current one. -/
def blockStep (s : List Text × List Text) (line : Text) : List Text × List Text :=
  if startsWith "BSS " line then
    (if s.2 ≠ [] then s.1 ++ [['\n'].intercalate s.2] else s.1, [line])
  else if s.2 ≠ [] then (s.1, s.2 ++ [line])
  else s

def splitIwBssBlocks (text : Text) : List Text :=
  let s := (splitlines text).foldl blockStep ([], [])
  if s.2 ≠ [] then s.1 ++ [['\n'].intercalate s.2] else s.1

/-- The variables of the loop of `parse_iw_bss_block`. -/
structure BlockState where
  ssid : Text := []
  signal : Int := 0
  freq : Int := 0
  akms : List Text := []
  hasWpa : Bool := false
  privacy : Option Bool := none

section Iw

variable (py : Python)

/-- `int(float(stripped.split()[1]))`, where an `IndexError` and a `ValueError` keep the old value.
-/
def numberOf (stripped : Text) (old : Int) : Except Exc Int :=
  match (words stripped)[1]? with
  | none => .ok old
  | some word =>
    match py.intOfFloat word with
    | .ok n => .ok n
    | .error .valueError => .ok old
    | .error .overflowError => .error .overflowError

/-- One line of the loop of `parse_iw_bss_block`. -/
def blockLine (s : BlockState) (line : Text) : Except Exc BlockState :=
  let stripped := strip line
  if startsWith "SSID:" stripped then
    .ok { s with ssid := SsidText.ssidText (strip (afterColon stripped)) }
  else if startsWith "signal:" stripped then
    (numberOf py stripped s.signal).map fun signal => { s with signal }
  else if startsWith "freq:" stripped then
    (numberOf py stripped s.freq).map fun freq => { s with freq }
  else if startsWith "RSN:" stripped || startsWith "WPA:" stripped
    then .ok { s with hasWpa := true }
  else if startsWith "* Authentication suites:" stripped then
    let suites := replaceFrom "IEEE 802.1X".toList "802.1X".toList 0 (afterColon stripped)
    .ok { s with akms := s.akms ++ words suites }
  else if startsWith "capability:" stripped then
    .ok { s with privacy := some (contains "Privacy".toList stripped) }
  else .ok s

/-- `[0-9a-f:]` under `re.IGNORECASE` -/
def isAddressChar (c : Char) : Bool :=
  c.isDigit || 'a' ≤ c.toLower && c.toLower ≤ 'f' || c == ':'

/-- The group of `BSS ([0-9a-f:]+)` at the start of a block. -/
def blockAddress (block : Text) : Option Text :=
  match afterIgnoring "BSS ".toList block with
  | none => none
  | some rest =>
    if rest.takeWhile isAddressChar = [] then none else some (rest.takeWhile isAddressChar)

def keyMgmtOf (s : BlockState) : String :=
  if s.akms ≠ [] then classifyAkms py s.akms
  else if s.hasWpa then "wpa-psk"
  else
    match s.privacy with
    | some privacy => if privacy then "wep" else "open"
    | none => "unknown"

inductive Detail where
  | short
  | full
  deriving DecidableEq

def parseIwBssBlock (includeHidden : Bool) (detail : Detail) (block : Text) :
    Except Exc (Option Entry) :=
  match blockAddress block with
  | none => .ok none
  | some address =>
    match (splitlines block).foldlM (blockLine py) {} with
    | .error e => .error e
    | .ok s =>
      if !includeHidden && s.ssid = [] then .ok none
      else
        match channelWidth py block with
        | .error e => .error e
        | .ok width =>
          .ok (some
            { ssid := s.ssid, bssid := lower py.unicode address, signal := s.signal, freq := s.freq,
              keyMgmt := keyMgmtOf py s, flags := iwFlags block,
              primaryChannel := primaryChannel py block s.freq, channelWidth := width,
              secondaryChannelOffset := secondaryChannelOffset py block, bssLoad :=
                bssLoad py block,
              amendments := amendments py block,
              raw := if detail = .full then some block else none })

/-- One turn of the loop of `parse_iw_scan_output`. -/
def sightBlock (includeHidden : Bool) (detail : Detail) (seen : List Entry) (block : Text) :
    Except Exc (List Entry) :=
  (parseIwBssBlock py includeHidden detail block).map (sight seen)

/-- `parse_iw_scan_output`, for a detail level that `normalize_scan_detail` knows. -/
def parseIwScanOutput (includeHidden : Bool) (detail : Detail) (text : Text) :
    Except Exc (List Entry) :=
  ((splitIwBssBlocks text).foldlM (sightBlock py includeHidden detail) []).map
    (sortByRank Entry.signal)

end Iw

/-! ## What is accepted -/

section Accepted

variable (py : Python) (includeHidden : Bool)

/-- Hidden networks are accepted, or the SSID is not empty. -/
def Entry.shown (e : Entry) : Bool := includeHidden || e.ssid ≠ []

/-- The lines that parse, and have an SSID if hidden networks are left out. -/
def acceptedLines (text : Text) : List Entry :=
  (((splitlines text).drop 1).filterMap (wpaLine py true)).filter (Entry.shown includeHidden)

/-- The blocks that parse, and have an SSID if hidden networks are left out. -/
def acceptedBlocks (detail : Detail) (text : Text) : List Entry :=
  ((splitIwBssBlocks text).filterMap fun block =>
    (parseIwBssBlock py true detail block).toOption.join).filter (Entry.shown includeHidden)

/-- An entry is known by the BSSID of its line or block, in lower case. -/
def Keyed (detail : Detail) : Prop :=
  (∀ line e, wpaLine py true line = some e →
    (line.splitOn '\t').head?.map (lower py.unicode) = some e.bssid) ∧
  ∀ block e, parseIwBssBlock py true detail block = .ok (some e) →
    (blockAddress block).map (lower py.unicode) = some e.bssid

/-- Both parsers return the best sighting of each network among what they accept. -/
def ScanLaw (detail : Detail) (wpaText iwText : Text) : Prop :=
  Keyed py detail ∧
  IsBest Entry.bssid Entry.signal (acceptedLines py includeHidden wpaText)
      (parseWpaScanResults py includeHidden wpaText) ∧
    ∃ networks, parseIwScanOutput py includeHidden detail iwText = .ok networks ∧
      IsBest Entry.bssid Entry.signal (acceptedBlocks py includeHidden detail iwText) networks

/-- A `signal:` or `freq:` line whose number is infinite. -/
def Infinite (line : Text) : Prop :=
  (startsWith "signal:" (strip line) = true ∨ startsWith "freq:" (strip line) = true) ∧
    ∃ word, (words (strip line))[1]? = some word ∧ py.intOfFloat word = .error .overflowError

/-- The SSID that a line sets. -/
def lineSsid (line : Text) : Option Text :=
  if startsWith "SSID:" (strip line) then
    some (SsidText.ssidText (strip (afterColon (strip line))))
  else none

/-- The SSID of a block: that of its last `SSID:` line. -/
def blockSsid (block : Text) : Text := ((splitlines block).filterMap lineSsid).getLastD []

/-- A block with a number whose conversion is not expected to fail: an infinite one, or a channel
width of too many digits in a block that is shown. -/
def Breaks (block : Text) : Prop :=
  blockAddress block ≠ none ∧
    ((∃ line ∈ splitlines block, Infinite py line) ∨
      (includeHidden = true ∨ blockSsid block ≠ []) ∧
        ∃ digits, widthDigits py block = some digits ∧ py.int digits = none)

end Accepted

/-! ## `wpa_cli` -/

section Wpa

variable {py : Python} {includeHidden : Bool}

/-- The test that both parsers make before they build a network. -/
theorem Entry.filter_shown (e : Entry) :
    (some e).filter (Entry.shown includeHidden) =
      if !includeHidden && decide (e.ssid = []) then none else some e := by
  rw [Option.filter_some]
  unfold Entry.shown
  cases includeHidden with
  | true => simp
  | false => by_cases h : e.ssid = [] <;> simp [h]

/-- Hidden networks are left out of what parses, wherever the parser does it. -/
theorem wpaLine_eq (line : Text) :
    wpaLine py includeHidden line = (wpaLine py true line).filter (Entry.shown includeHidden) := by
  unfold wpaLine
  by_cases hblank : strip line = []
  · rw [if_pos hblank, if_pos hblank]
    rfl
  rw [if_neg hblank, if_neg hblank]
  dsimp only
  split
  · rename_i bssid freqStr signalStr flags escapedSsid rest heq
    have hnever : ¬(!true && decide (SsidText.ssidText escapedSsid = [])) = true := by simp
    rw [if_neg hnever]
    cases py.int freqStr with
    | none => simp
    | some freq =>
      cases py.int signalStr with
      | none => simp
      | some signal =>
        dsimp only
        rw [Entry.filter_shown]
  · rfl

theorem wpaLine_bssid {line : Text} {e : Entry} (h : wpaLine py includeHidden line = some e) :
    (line.splitOn '\t').head?.map (lower py.unicode) = some e.bssid := by
  unfold wpaLine at h
  split_ifs at h
  dsimp only at h
  split at h
  · rename_i bssid freqStr signalStr flags escapedSsid rest heq
    have hhead : (line.splitOn '\t').head? = some bssid := by
      split_ifs at heq with hfour
      · rw [List.append_eq_cons_iff] at heq
        obtain ⟨hnil, -⟩ | ⟨rest', hline, -⟩ := heq
        · rw [hnil] at hfour
          cases hfour
        · rw [hline]
          rfl
      · rw [heq]
        rfl
    rw [hhead]
    split_ifs at h
    split at h
    · obtain rfl := Option.some.inj h
      rfl
    · cases h
  · cases h

/-- The loops collect what is read. -/
theorem foldl_sight {α : Type} (f : α → Option Entry) (l : List α) : ∀ seen,
    l.foldl (fun seen a => sight seen (f a)) seen =
      (l.filterMap f).foldl (insertBest Entry.bssid Entry.signal) seen := by
  induction l with
  | nil => exact fun _ => rfl
  | cons a l ih =>
    intro seen
    rw [List.foldl_cons, ih]
    cases hf : f a with
    | none =>
      rw [List.filterMap_cons_none hf]
      rfl
    | some b =>
      rw [List.filterMap_cons_some hf, List.foldl_cons]
      rfl

theorem parseWpaScanResults_eq (text : Text) :
    parseWpaScanResults py includeHidden text =
      keepBest Entry.bssid Entry.signal (acceptedLines py includeHidden text) := by
  have hlines : acceptedLines py includeHidden text =
      ((splitlines text).drop 1).filterMap (wpaLine py includeHidden) := by
    unfold acceptedLines
    rw [List.filter_filterMap]
    exact List.filterMap_congr fun line _ => (wpaLine_eq line).symm
  unfold parseWpaScanResults keepBest collect
  rw [hlines, foldl_sight]

end Wpa

/-! ## `iw` -/

section Iw

variable {py : Python} {includeHidden : Bool} {detail : Detail}

theorem numberOf_error {line : Text} {old : Int} :
    (∃ e, numberOf py (strip line) old = .error e) ↔
      ∃ word, (words (strip line))[1]? = some word ∧
        py.intOfFloat word = .error .overflowError := by
  unfold numberOf
  cases (words (strip line))[1]? with
  | none => simp
  | some word =>
    dsimp only
    cases hword : py.intOfFloat word with
    | ok n => simp [hword]
    | error e => cases e <;> simp [hword]

theorem map_error {ε α β : Type} {x : Except ε α} {f : α → β} :
    (∃ e, x.map f = .error e) ↔ ∃ e, x = .error e := by
  cases x <;> simp [Except.map]

/-- A loop whose turns raise whatever came before raises at the first item that does. -/
theorem foldlM_error {ε α β : Type} {f : β → α → Except ε β} {Raises : α → Prop}
    (hf : ∀ s a, (∃ e, f s a = .error e) ↔ Raises a) {l : List α} : ∀ {s : β},
      (∃ e, l.foldlM f s = .error e) ↔ ∃ a ∈ l, Raises a := by
  induction l with
  | nil =>
    intro s
    refine iff_of_false ?_ ?_
    · intro ⟨e, he⟩
      cases he
    · intro ⟨a, ha, _⟩
      cases ha
  | cons a l ih =>
    intro s
    rw [List.foldlM_cons, List.exists_mem_cons_iff, ← hf s]
    cases ha : f s a with
    | error e => exact iff_of_true ⟨e, rfl⟩ (.inl ⟨e, rfl⟩)
    | ok s' =>
      rw [← @ih s']
      refine ⟨.inr, fun h => h.elim ?_ id⟩
      intro ⟨e, he⟩
      cases he

/-- The words that `parse_iw_bss_block` looks for start in different ways. -/
theorem startsWith_exclusive {part : String} (part' : String) {t : Text}
    (h : startsWith part t = true) (hlen : part.toList.length ≤ part'.toList.length)
    (hpart : part.toList.isPrefixOf part'.toList = false) : startsWith part' t = false := by
  apply Bool.eq_false_of_not_eq_true
  intro h'
  unfold startsWith at h h'
  rw [List.isPrefixOf_iff_prefix] at h h'
  rw [List.isPrefixOf_iff_prefix.2 (List.prefix_of_prefix_length_le h h' hlen)] at hpart
  cases hpart

theorem blockLine_error {s : BlockState} {line : Text} :
    (∃ e, blockLine py s line = .error e) ↔ Infinite py line := by
  unfold blockLine Infinite
  dsimp only
  by_cases h₁ : startsWith "SSID:" (strip line) = true
  · have hsignal := startsWith_exclusive "signal:" h₁ (by decide) (by decide)
    have hfreq := startsWith_exclusive "freq:" h₁ (by decide) (by decide)
    rw [if_pos h₁]
    simp [hsignal, hfreq]
  rw [if_neg h₁]
  by_cases h₂ : startsWith "signal:" (strip line) = true
  · rw [if_pos h₂, map_error, numberOf_error]
    simp [h₂]
  rw [if_neg h₂]
  by_cases h₃ : startsWith "freq:" (strip line) = true
  · rw [if_pos h₃, map_error, numberOf_error]
    simp [h₃]
  rw [if_neg h₃]
  refine iff_of_false ?_ ?_
  · intro ⟨e, he⟩
    split_ifs at he
  · intro ⟨h, _⟩
    exact h.elim h₂ h₃

theorem blockLine_ssid {s s' : BlockState} {line : Text} (h : blockLine py s line = .ok s') :
    s'.ssid = (lineSsid line).getD s.ssid := by
  unfold blockLine at h
  unfold lineSsid
  dsimp only at h
  by_cases h₁ : startsWith "SSID:" (strip line) = true
  · rw [if_pos h₁] at h ⊢
    obtain rfl := Except.ok.inj h
    rfl
  rw [if_neg h₁] at h ⊢
  show s'.ssid = s.ssid
  have hmap (f : Int → BlockState) (hf : ∀ n, (f n).ssid = s.ssid) {x : Except Exc Int}
      (hx : x.map f = .ok s') : s'.ssid = s.ssid := by
    cases x with
    | error e => cases hx
    | ok n =>
      obtain rfl := Except.ok.inj hx
      exact hf n
  split_ifs at h
  · exact hmap (fun signal => { s with signal }) (fun _ => rfl) h
  · exact hmap (fun freq => { s with freq }) (fun _ => rfl) h
  all_goals
    obtain rfl := Except.ok.inj h
    rfl

theorem foldlM_blockLine_ssid {lines : List Text} : ∀ {s s' : BlockState},
    lines.foldlM (blockLine py) s = .ok s' →
      s'.ssid = (lines.filterMap lineSsid).getLastD s.ssid := by
  induction lines with
  | nil =>
    intro s s' h
    obtain rfl := Except.ok.inj h
    rfl
  | cons line lines ih =>
    intro s s' h
    rw [List.foldlM_cons] at h
    cases hline : blockLine py s line with
    | error e =>
      rw [hline] at h
      cases h
    | ok s₁ =>
      rw [hline] at h
      rw [ih h, blockLine_ssid hline]
      cases hssid : lineSsid line with
      | none =>
        rw [List.filterMap_cons_none hssid]
        rfl
      | some t =>
        rw [List.filterMap_cons_some hssid, List.getLastD_cons]
        rfl

theorem channelWidth_error {block : Text} :
    (∃ e, channelWidth py block = .error e) ↔
      ∃ digits, widthDigits py block = some digits ∧ py.int digits = none := by
  unfold channelWidth
  cases widthDigits py block with
  | some digits => cases hint : py.int digits <;> simp [hint]
  | none =>
    dsimp only
    split_ifs <;> simp

/-- **A block raises exactly when it breaks.** -/
theorem parseIwBssBlock_error {block : Text} :
    (∃ e, parseIwBssBlock py includeHidden detail block = .error e) ↔
      Breaks py includeHidden block := by
  unfold parseIwBssBlock Breaks
  cases hblock : blockAddress block with
  | none => simp
  | some address =>
    dsimp only
    have hlines : (∃ e, (splitlines block).foldlM (blockLine py) {} = .error e) ↔
        ∃ line ∈ splitlines block, Infinite py line := by
      refine foldlM_error fun s line => ?_
      exact blockLine_error
    rw [← hlines, ← channelWidth_error]
    cases hstate : (splitlines block).foldlM (blockLine py) {} with
    | error e => simp
    | ok s =>
      have hssid : s.ssid = blockSsid block := foldlM_blockLine_ssid hstate
      dsimp only
      rw [← hssid]
      by_cases hidden : (!includeHidden && decide (s.ssid = [])) = true
      · rw [if_pos hidden]
        simp only [Bool.and_eq_true, Bool.not_eq_true', decide_eq_true_eq] at hidden
        simp [hidden.1, hidden.2]
      · rw [if_neg hidden]
        have hshown : includeHidden = true ∨ s.ssid ≠ [] := by
          simp only [Bool.and_eq_true, Bool.not_eq_true', decide_eq_true_eq, not_and] at hidden
          cases includeHidden with
          | true => exact .inl rfl
          | false => exact .inr (hidden rfl)
        cases channelWidth py block with
        | error e => simp [hshown]
        | ok width => simp

/-- Hidden networks are left out of what parses, wherever the parser does it. -/
theorem parseIwBssBlock_ok {block : Text} {o : Option Entry}
    (h : parseIwBssBlock py includeHidden detail block = .ok o) :
    o =
      (parseIwBssBlock py true detail block).toOption.join.filter (Entry.shown includeHidden) := by
  unfold parseIwBssBlock at h ⊢
  cases hblock : blockAddress block with
  | none =>
    rw [hblock] at h
    obtain rfl := Except.ok.inj h
    rfl
  | some address =>
    rw [hblock] at h
    dsimp only at h ⊢
    cases hstate : (splitlines block).foldlM (blockLine py) {} with
    | error e =>
      rw [hstate] at h
      cases h
    | ok s =>
      rw [hstate] at h
      dsimp only at h ⊢
      have hnever : ¬(!true && decide (s.ssid = [])) = true := by simp
      rw [if_neg hnever]
      by_cases hidden : (!includeHidden && decide (s.ssid = [])) = true
      · rw [if_pos hidden] at h
        obtain rfl := Except.ok.inj h
        cases channelWidth py block with
        | error e => rfl
        | ok width => exact ((Entry.filter_shown _).trans (if_pos hidden)).symm
      · rw [if_neg hidden] at h
        cases hwidth : channelWidth py block with
        | error e =>
          rw [hwidth] at h
          cases h
        | ok width =>
          rw [hwidth] at h
          obtain rfl := Except.ok.inj h
          exact ((Entry.filter_shown _).trans (if_neg hidden)).symm

theorem parseIwBssBlock_bssid {block : Text} {e : Entry}
    (h : parseIwBssBlock py includeHidden detail block = .ok (some e)) :
    (blockAddress block).map (lower py.unicode) = some e.bssid := by
  unfold parseIwBssBlock at h
  cases haddress : blockAddress block with
  | none =>
    rw [haddress] at h
    cases h
  | some address =>
    rw [haddress] at h
    dsimp only at h
    split at h
    · cases h
    · split at h
      · cases h
      · split at h
        · cases h
        · obtain rfl := Option.some.inj (Except.ok.inj h)
          rfl

theorem foldlM_sightBlock_ok {blocks : List Text} : ∀ {seen r : List Entry},
    blocks.foldlM (sightBlock py includeHidden detail) seen = .ok r →
      r =
        ((blocks.filterMap fun block => (parseIwBssBlock py true detail block).toOption.join).filter
        (Entry.shown includeHidden)).foldl (insertBest Entry.bssid Entry.signal) seen := by
  induction blocks with
  | nil =>
    intro seen r h
    exact (Except.ok.inj h).symm
  | cons block blocks ih =>
    intro seen r h
    rw [List.foldlM_cons] at h
    cases hblock : parseIwBssBlock py includeHidden detail block with
    | error e =>
      have hsight : sightBlock py includeHidden detail seen block = .error e := by
        unfold sightBlock
        rw [hblock]
        rfl
      rw [hsight] at h
      cases h
    | ok o =>
      have hsight : sightBlock py includeHidden detail seen block = .ok (sight seen o) := by
        unfold sightBlock
        rw [hblock]
        rfl
      rw [hsight] at h
      have hrest := ih h
      rw [hrest, List.filter_filterMap, List.filter_filterMap, List.filterMap_cons,
        ← parseIwBssBlock_ok hblock]
      cases o with
      | none => rfl
      | some entry => rfl

end Iw

/-- **Both parsers keep the best sighting of each network exactly when no block breaks.** -/
theorem scanLaw_iff (py : Python) (includeHidden : Bool) (detail : Detail) (wpaText iwText : Text) :
    ScanLaw py includeHidden detail wpaText iwText ↔
      ∀ block ∈ splitIwBssBlocks iwText, ¬Breaks py includeHidden block := by
  have herror : (∃ e, (splitIwBssBlocks iwText).foldlM (sightBlock py includeHidden detail) [] =
      .error e) ↔ ∃ block ∈ splitIwBssBlocks iwText, Breaks py includeHidden block := by
    refine foldlM_error fun seen block => ?_
    unfold sightBlock
    rw [map_error]
    exact parseIwBssBlock_error
  constructor
  · rintro ⟨-, -, networks, hnetworks, -⟩ block hblock hbreaks
    obtain ⟨e, he⟩ := herror.2 ⟨block, hblock, hbreaks⟩
    unfold parseIwScanOutput at hnetworks
    rw [he] at hnetworks
    cases hnetworks
  · intro hsound
    refine ⟨⟨fun _ _ => wpaLine_bssid, fun _ _ => parseIwBssBlock_bssid⟩, ?_, ?_⟩
    · rw [parseWpaScanResults_eq]
      exact isBest_keepBest _
    · cases hfold : (splitIwBssBlocks iwText).foldlM (sightBlock py includeHidden detail) [] with
      | error e =>
        obtain ⟨block, hblock, hbreaks⟩ := herror.1 ⟨e, hfold⟩
        exact absurd hbreaks (hsound block hblock)
      | ok seen =>
        refine ⟨keepBest Entry.bssid Entry.signal (acceptedBlocks py includeHidden detail iwText),
          ?_,
          isBest_keepBest _⟩
        unfold parseIwScanOutput
        rw [hfold, foldlM_sightBlock_ok hfold]
        rfl

/-- An interpreter that knows the numbers without an exponent. -/
def asciiPython : Python where
  int := Text.int
  intOfFloat word :=
    if word ∈ ["inf".toList, "-inf".toList] then .error .overflowError
    else
      match Text.int (word.takeWhile (· ≠ '.')) with
      | some n => .ok n
      | none => .error .valueError
  unicode := Unicode.ascii

/-- One infinite signal hides every network of the scan. -/
theorem not_scanLaw_inf : ¬ScanLaw asciiPython true .short []
    ("BSS 02:00:00:00:00:01(on wlan0)\n\tsignal: -50.00 dBm\n\tSSID: lab\n" ++
      "BSS 02:00:00:00:00:02(on wlan0)\n\tsignal: inf dBm\n\tSSID: roof\n").toList := by
  intro h
  obtain ⟨-, -, networks, hnetworks, -⟩ := h
  have hraises : (parseIwScanOutput asciiPython true .short
      ("BSS 02:00:00:00:00:01(on wlan0)\n\tsignal: -50.00 dBm\n\tSSID: lab\n" ++
        "BSS 02:00:00:00:00:02(on wlan0)\n\tsignal: inf dBm\n\tSSID: roof\n").toList).isOk =
          false := by
    decide +kernel
  rw [hnetworks] at hraises
  cases hraises

end WlanpiCore.ScanResults
