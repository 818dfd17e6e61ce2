import WlanpiCore.Lib.Dict
import WlanpiCore.Network.WlanLink

/-!
# The links of an MLO association

`get_wlan_link` puts three outputs of `iw` together: of `link`, which lists the links that are set
up, of `info`, which has a channel under the links that are active, and of `station get`, for the
signal where the other has none. Two functions read the output of `info`, each with its own loop.

**Theorem (`getWlanLink_sound`).** Whatever the three outputs are: a link that is given a width is
active; a frequency is given for an association of links only if exactly one link is active; and the
signal is never the 0 that stands for "no frame received yet".
-/

namespace WlanpiCore.WlanLink

open Text

/-! ## Patterns -/

/-- `_INFO_LINK` -/
def infoLink (t : Text) : Option (Nat × Option Text) := do
  let rest ← after "- link ID" t
  let number := rest.dropWhile isSpace
  if number = rest ∨ digits number = [] then none
  return (digitsValue (digits number),
    (after " link addr " (number.drop (digits number).length)).bind mac)

/-- `_INFO_CHANNEL` -/
def infoChannel (t : Text) : Option Text := do
  let rest ← after "channel " t
  if digits rest = [] then none
  let number ← after " (" (rest.drop (digits rest).length)
  let freq ← unsigned number
  let _ ← after " MHz)" (number.drop freq.length)
  return freq

/-- `(\d+) MHz` -/
def megahertz (t : Text) : Option Nat :=
  if digits t = [] then none
  else (after " MHz" (t.drop (digits t).length)).map fun _ => digitsValue (digits t)

/-- `_INFO_WIDTH` -/
def infoWidth (t : Text) : Option (Nat × Option Nat) := do
  let rest ← after "width: " t
  let width ← megahertz rest
  return (width, (after ", center1: " (rest.dropWhile (· ≠ ','))).bind megahertz)

/-- `re.match(r"Link \d+:", line)` -/
def opensLinkBlock (line : Text) : Bool :=
  (after "Link " line).any fun rest =>
    digits rest ≠ [] && (rest.drop (digits rest).length).head? = some ':'

/-! ## The two readings of `iw info` -/

/-- The loop of `_parse_active_links`; a frequency is kept as its text. -/
structure ActiveState where
  active : Dict Nat Text := []
  linkId : Option Nat := none

def ActiveState.read (s : ActiveState) (line : Text) : ActiveState :=
  match search infoLink line with
  | some (linkId, _) => { s with linkId := some linkId }
  | none =>
    match search infoChannel line, s.linkId with
    | some freq, some linkId => { s with active := s.active.set linkId freq }
    | _, _ => s

/-- `_parse_active_links` -/
def parseActiveLinks (stdout : Text) : Dict Nat Text :=
  ((splitlines stdout).foldl ActiveState.read {}).active

structure LinkDetails where
  localAddr : Option Text := none
  widthMhz : Option Nat := none
  center1Mhz : Option Nat := none

/-- The loop of `_parse_link_details`; `current` is a key of `details`. -/
structure DetailState where
  details : Dict Nat LinkDetails := []
  current : Option Nat := none

/-- A change of the entry that `current` is. -/
def DetailState.update (s : DetailState) (linkId : Nat) (f : LinkDetails → LinkDetails) :
    DetailState :=
  { s with details := s.details.set linkId (f ((s.details.get linkId).getD {})) }

def DetailState.read (s : DetailState) (line : Text) : DetailState :=
  match search infoLink line with
  | some (linkId, address) =>
    { s with current := some linkId }.update linkId fun d =>
      match address with
      | none => d
      | some address => { d with localAddr := some (address.map Char.toLower) }
  | none =>
    match search infoWidth line, s.current with
    | some (width, center1), some linkId =>
      if (search infoChannel line).isSome then
        s.update linkId fun d =>
          { d with widthMhz := some width, center1Mhz := center1.orElse fun _ => d.center1Mhz }
      else s
    | _, _ => s

/-- `_parse_link_details` -/
def parseLinkDetails (stdout : Text) : Dict Nat LinkDetails :=
  ((splitlines stdout).foldl DetailState.read {}).details

/-! ## The association -/

section

variable {ν : Type} (float : Text → Option ν) (isZero : ν → Bool)

/-- The value of `_station_signal` on one line for one key. -/
def stationValue (key : String) (line : Text) : Option ν :=
  if key.toList.isPrefixOf line then
    ((search dbm (line.drop key.toList.length)).bind float).filter fun value => !isZero value
  else none

/-- `_station_signal` -/
def stationSignal (stdout : Text) (keys : List String) : Option ν :=
  let top := ((splitlines stdout).map strip).takeWhile fun line => !opensLinkBlock line
  keys.findSome? fun key => top.findSome? (stationValue float isZero key)

/-- A link as `get_wlan_link` returns it. -/
structure ShownLink (ν : Type) extends Link ν, LinkDetails where
  active : Option Bool

/-- What `get_wlan_link` returns, less the names it was called with. -/
structure Answer (ν : Type) where
  connected : Bool
  ssid : Option Text
  bssid : Option Text
  freqMhz : Option ν
  signalDbm : Option ν
  links : List (ShownLink ν)
  rxBitrate : Option Text
  txBitrate : Option Text
  rxBytes : Option Nat
  txBytes : Option Nat
  raw : Text

/-- `link["active"] = …` and `link.update(…)` -/
def showLink (info : Option Text) (link : Link ν) : ShownLink ν where
  toLink := link
  toLinkDetails := (info.bind fun info => (parseLinkDetails info).get link.linkId).getD {}
  active := info.map fun info => ((parseActiveLinks info).get link.linkId).isSome

/-- The frequency of the one link that is active. -/
def soleFrequency (info : Option Text) : Option ν :=
  match info.map parseActiveLinks with
  | some [(_, freq)] => float freq
  | _ => none

/-- `signal` and `keys`, before the station is asked. -/
def linkSignal (parsed : Association ν) : Option ν × List String :=
  if 1 < parsed.links.length then (none, ["beacon signal avg:", "signal avg:"])
  else (parsed.signalDbm.filter fun value => !isZero value, ["signal avg:", "beacon signal avg:"])

/-- `get_wlan_link` on the outputs of `iw link`, of `iw info` and of `iw station get`, `none` if the
command failed. -/
def getWlanLink (link : Text) (info : Option Text) (station : Text → Option Text) : Answer ν :=
  match parseIwLink float link with
  | none => ⟨false, none, none, none, none, [], none, none, none, none, link⟩
  | some parsed =>
    let (signal, keys) := linkSignal isZero parsed
    { connected := true
      ssid := parsed.ssid
      bssid := parsed.bssid
      freqMhz := if parsed.links = [] then parsed.freqMhz else soleFrequency float info
      signalDbm :=
        match signal, parsed.bssid with
        | none, some bssid => (station bssid).bind (stationSignal float isZero · keys)
        | _, _ => signal
      links := parsed.links.map (showLink info)
      rxBitrate := parsed.rxBitrate
      txBitrate := parsed.txBitrate
      rxBytes := parsed.rxBytes
      txBytes := parsed.txBytes
      raw := link }

end

/-! ## The two readings agree -/

/-- The loops are at the same link, and a link with a width has a channel. -/
structure Agrees (a : ActiveState) (d : DetailState) : Prop where
  current : d.current = a.linkId
  width : ∀ linkId details, d.details.get linkId = some details → details.widthMhz ≠ none →
    (a.active.get linkId).isSome = true

theorem get_update (s : DetailState) (linkId : Nat) (f : LinkDetails → LinkDetails) (k : Nat) :
    (s.update linkId f).details.get k =
      if k = linkId then some (f ((s.details.get linkId).getD {})) else s.details.get k :=
  Dict.get_set linkId k _ s.details

/-- A change that leaves the width alone. -/
theorem Agrees.update {a : ActiveState} {d : DetailState} (h : Agrees a d) (linkId : Nat)
    {f : LinkDetails → LinkDetails} (hf : ∀ details, (f details).widthMhz = details.widthMhz) :
    Agrees a (d.update linkId f) where
  current := h.current
  width k details hget hwidth := by
    rw [get_update] at hget
    split_ifs at hget with hk
    · obtain rfl := Option.some.inj hget
      rw [hf] at hwidth
      cases hold : d.details.get linkId with
      | none =>
        rw [hold] at hwidth
        exact absurd rfl hwidth
      | some old =>
        rw [hold] at hwidth
        exact h.width k old (hk ▸ hold) hwidth
    · exact h.width k details hget hwidth

theorem Agrees.enter {a : ActiveState} {d : DetailState} (h : Agrees a d) (linkId : Nat) :
    Agrees { a with linkId := some linkId } { d with current := some linkId } where
  current := rfl
  width := h.width

theorem Agrees.set {a : ActiveState} {d : DetailState} (h : Agrees a d) (linkId : Nat)
    (freq : Text) :
    Agrees { a with active := a.active.set linkId freq } d where
  current := h.current
  width k details hget hwidth := by
    show ((a.active.set linkId freq).get k).isSome = true
    rw [Dict.get_set]
    split_ifs
    · rfl
    · exact h.width k details hget hwidth

/-- A width comes with a channel on its line. -/
theorem Agrees.widen {a : ActiveState} {d : DetailState} (h : Agrees a d) {linkId : Nat}
    (hactive : (a.active.get linkId).isSome = true) (f : LinkDetails → LinkDetails) :
    Agrees a (d.update linkId f) where
  current := h.current
  width k details hget hwidth := by
    rw [get_update] at hget
    split_ifs at hget with hk
    · exact hk ▸ hactive
    · exact h.width k details hget hwidth

theorem Agrees.read {a : ActiveState} {d : DetailState} (h : Agrees a d) (line : Text) :
    Agrees (a.read line) (d.read line) := by
  unfold ActiveState.read DetailState.read
  rcases search infoLink line with _ | ⟨linkId, address⟩
  · dsimp only
    rw [h.current]
    rcases search infoChannel line with _ | freq
    · rcases search infoWidth line with _ | ⟨width, center1⟩
      · exact h
      · rcases a.linkId with _ | linkId <;> exact h
    · rcases hlink : a.linkId with _ | linkId
      · rcases search infoWidth line with _ | ⟨width, center1⟩ <;> exact h
      · have hset := h.set linkId freq
        rw [hlink] at hset
        rcases search infoWidth line with _ | ⟨width, center1⟩
        · exact hset
        · have hactive : ((a.active.set linkId freq).get linkId).isSome = true := by
            rw [Dict.get_set, if_pos rfl]
            rfl
          exact hset.widen hactive fun details =>
            { details with
              widthMhz := some width
              center1Mhz := center1.orElse fun _ => details.center1Mhz }
  · refine (h.enter linkId).update linkId fun details => ?_
    cases address <;> rfl

theorem agrees_foldl (lines : List Text) {a : ActiveState} {d : DetailState} (h : Agrees a d) :
    Agrees (lines.foldl ActiveState.read a) (lines.foldl DetailState.read d) := by
  induction lines generalizing a d with
  | nil => exact h
  | cons line lines ih => exact ih (h.read line)

/-- A link that has a width in one reading is active in the other. -/
theorem active_of_width {stdout : Text} {linkId : Nat} {details : LinkDetails}
    (hget : (parseLinkDetails stdout).get linkId = some details)
    (hwidth : details.widthMhz ≠ none) :
    ((parseActiveLinks stdout).get linkId).isSome = true := by
  have hinitial : Agrees {} {} := ⟨rfl, fun _ _ hget => by cases hget⟩
  exact (agrees_foldl (splitlines stdout) hinitial).width linkId details hget hwidth

/-! ## The answer -/

section

variable {ν : Type} {float : Text → Option ν} {isZero : ν → Bool}

theorem active_of_shown {info : Option Text} {link : Link ν}
    (hwidth : (showLink info link).widthMhz ≠ none) : (showLink info link).active = some true := by
  cases info with
  | none => exact absurd rfl hwidth
  | some info =>
    cases hget : (parseLinkDetails info).get link.linkId with
    | none =>
      simp only [showLink, Option.bind_some, hget] at hwidth
      exact absurd rfl hwidth
    | some details =>
      simp only [showLink, Option.bind_some, hget] at hwidth
      exact congrArg some (active_of_width hget hwidth)

/-- A frequency is that of the one link with a channel. -/
theorem soleFrequency_some {info : Option Text} (h : soleFrequency float info ≠ none) :
    ∃ linkId, ∀ link : Link ν, (showLink info link).active = some true ↔ link.linkId = linkId := by
  unfold soleFrequency at h
  split at h
  · rename_i linkId freq hactive
    obtain ⟨text, rfl, hparse⟩ := Option.map_eq_some_iff.1 hactive
    refine ⟨linkId, fun link => ?_⟩
    have hget : ((parseActiveLinks text).get link.linkId).isSome =
      decide (link.linkId = linkId) := by
      rw [hparse]
      by_cases hid : link.linkId = linkId
      · rw [hid, Dict.get_cons_self]
        simp
      · rw [Dict.get_cons_ne (Ne.symm hid)]
        simp [Dict.get, hid]
    simp [showLink, hget]
  · exact absurd rfl h

theorem stationSignal_nonzero {stdout : Text} {keys : List String} {value : ν}
    (h : stationSignal float isZero stdout keys = some value) : isZero value = false := by
  obtain ⟨key, -, hkey⟩ := List.exists_of_findSome?_eq_some h
  obtain ⟨line, -, hline⟩ := List.exists_of_findSome?_eq_some hkey
  unfold stationValue at hline
  split_ifs at hline
  have hfilter := (Option.filter_eq_some_iff.1 hline).2
  simpa using hfilter

theorem linkSignal_nonzero {parsed : Association ν} {value : ν}
    (h : (linkSignal isZero parsed).1 = some value) : isZero value = false := by
  unfold linkSignal at h
  split_ifs at h
  have hfilter := (Option.filter_eq_some_iff.1 h).2
  simpa using hfilter

/-- **What `get_wlan_link` returns**, whatever the three outputs are. -/
theorem getWlanLink_sound (float : Text → Option ν) (isZero : ν → Bool) (link : Text)
    (info : Option Text) (station : Text → Option Text) :
    let answer := getWlanLink float isZero link info station
    (∀ shown ∈ answer.links, shown.widthMhz ≠ none → shown.active = some true) ∧
      (answer.links ≠ [] → answer.freqMhz ≠ none →
        ∃ linkId, ∀ shown ∈ answer.links, shown.active = some true ↔ shown.linkId = linkId) ∧
      ∀ value, answer.signalDbm = some value → isZero value = false := by
  dsimp only
  unfold getWlanLink
  cases parseIwLink float link with
  | none => exact ⟨fun _ hshown => absurd hshown List.not_mem_nil, fun hne => absurd rfl hne,
      fun _ hsignal => by cases hsignal⟩
  | some parsed =>
    refine ⟨?_, ?_, ?_⟩
    · intro shown hshown hwidth
      obtain ⟨link, -, rfl⟩ := List.mem_map.1 hshown
      exact active_of_shown hwidth
    · intro hlinks hfreq
      have hne : parsed.links ≠ [] := by
        rintro hnil
        simp [hnil] at hlinks
      simp only [if_neg hne] at hfreq
      obtain ⟨linkId, hlinkId⟩ := soleFrequency_some hfreq
      refine ⟨linkId, fun shown hshown => ?_⟩
      obtain ⟨link, -, rfl⟩ := List.mem_map.1 hshown
      exact hlinkId link
    · intro value hvalue
      dsimp only at hvalue
      split at hvalue
      · obtain ⟨stdout, -, hstation⟩ := Option.bind_eq_some_iff.1 hvalue
        exact stationSignal_nonzero hstation
      · exact linkSignal_nonzero hvalue

end

end WlanpiCore.WlanLink
