import WlanpiCore.Lib.Lines
import Mathlib.Data.List.AList

/-!
# The two parsers of `iw dev`

`parseIwDevOutput` is what the status and the scan read, `parseIwDev` what the inventory reads. Both
go over the lines with a state: the netdev the lines are about, and its phy.

`IwDev` is what `iw dev` prints: for each phy a header and its wdevs, most of them netdevs. The
lines of a wdev are any lines that neither parser knows, in any order, and one `type` line among
them: an SSID line with any text in it, a TXQ table, addresses, channels.
-/

namespace WlanpiCore.Adapter

open Text

/-! ## `parse_iw_dev_output` -/

/-- What the output says of a netdev, by its keys. -/
abbrev Fields := AList fun _ : Text => Text

/-- A dict; the order of its keys is not read. -/
abbrev Interfaces := AList fun _ : Text => Fields

structure StatusState where
  interfaces : Interfaces := ∅
  currentIface : Option Text := none
  currentWiphy : Option Text := none
  skipTableBlock : Bool := false

/-- `interfaces[current_iface][key] = value`. -/
def Interfaces.set (interfaces : Interfaces) (iface key value : Text) : Interfaces :=
  interfaces.insert iface (((interfaces.lookup iface).getD ∅).insert key value)

/-- A line that a table of numbers follows. -/
def opensTable (stripped : Text) : Bool :=
  "TXQ:".toList.isSuffixOf stripped || "qsz-byt".toList.isPrefixOf stripped

def valueOf (remainder : Text) : Text :=
  match remainder with
  | ':' :: rest => strip rest
  | _ => remainder

/-- One line of the output. -/
def StatusState.read (s : StatusState) (raw : Text) : StatusState :=
  let line := rstrip raw
  if strip line = [] then { s with skipTableBlock := false }
  else if "phy#".toList.isPrefixOf line then
    { s with currentWiphy := some (line.drop 4), currentIface := none, skipTableBlock := false }
  else if "Interface ".toList.isPrefixOf (lstrip line) then
    let iface := (words (strip line)).getD 1 []
    let fields : Fields := match s.currentWiphy with
      | none => ∅
      | some wiphy => (∅ : Fields).insert "wiphy".toList wiphy
    { s with
      currentIface := some iface
      interfaces := s.interfaces.insert iface fields
      skipTableBlock := false }
  else
    match s.currentIface with
    | none => s
    | some iface =>
      let stripped := strip line
      if opensTable stripped then { s with skipTableBlock := true }
      else if s.skipTableBlock then s
      else
        let (key, remainder) := cut stripped
        { s with interfaces := s.interfaces.set iface key (valueOf remainder) }

def parseIwDevOutput (output : Text) : Interfaces :=
  ((splitlines output).foldl StatusState.read {}).interfaces

/-! ## `_parse_iw_dev` -/

/-- A wireless netdev as the kernel reports it now. -/
structure LiveInterface where
  name : Text
  phyIndex : Int
  netns : Option Text
  type : Text
  ifindex : Option Int
  wdev : Option Text
  deriving DecidableEq

structure InventoryState where
  /-- The netdevs before the current one. -/
  entries : List LiveInterface := []
  phyIndex : Option Int := none
  /-- The last netdev, while lines describe it. -/
  current : Option LiveInterface := none

/-- The entries, the current one being the last of them. -/
def InventoryState.all (s : InventoryState) : List LiveInterface := s.entries ++ s.current.toList

def secondWord (line : Text) : Text := (words line).getD 1 []

/-- A line about the current netdev. -/
def LiveInterface.read (live : LiveInterface) (line : Text) : LiveInterface :=
  if "type ".toList.isPrefixOf line then { live with type := secondWord line }
  else if "ifindex ".toList.isPrefixOf line then
    { live with ifindex := (int (secondWord line)).or live.ifindex }
  else if "wdev ".toList.isPrefixOf line then { live with wdev := some (secondWord line) }
  else live

/-- One line of the output. -/
def InventoryState.read (netns : Option Text) (s : InventoryState) (raw : Text) : InventoryState :=
  let line := strip raw
  if "phy#".toList.isPrefixOf line then
    { entries := s.all, current := none, phyIndex := int (line.drop 4) }
  else
    match s.phyIndex, "Interface ".toList.isPrefixOf line with
    | some phyIndex, true =>
      { s with
        entries := s.all
        current := some ⟨secondWord line, phyIndex, netns, [], none, none⟩ }
    | _, _ =>
      if "Unnamed/non-netdev".toList.isPrefixOf line
        then { s with entries := s.all, current := none }
      else { s with current := s.current.map fun live => live.read line }

def parseIwDev (output : Text) (netns : Option Text) : List LiveInterface :=
  ((splitlines output).foldl (InventoryState.read netns) {}).all

/-! ## What `iw dev` prints -/

/-- The words that the parsers look for at the start of a line. -/
def known (word : Text) : Bool :=
  word = "Interface".toList || word = "type".toList || word = "wiphy".toList ||
    "phy#".toList.isPrefixOf word || "Unnamed/non-netdev".toList.isPrefixOf word

/-- The first word of a line. -/
def firstWord (line : Text) : Text := (cut (strip line)).1

/-- A line about a wdev. -/
structure Line where
  text : Text
  unbroken : ∀ c ∈ text, isLineBreak c = false
  indented : text.head? = some '\t'
  other : firstWord text ≠ [] ∧ known (firstWord text) = false

def Line.opens (line : Line) : Bool := opensTable (strip line.text)

/-- `Interface` names, and words in general. -/
def isWord (t : Text) : Bool := t ≠ [] && t.all (!isSpace ·)

/-- The name of an interface type: letters, digits, signs, and spaces between them. -/
def isTypeName (t : Text) : Bool :=
  t.all (fun c => c.isAlphanum || "/-() ".toList.contains c) && t.head? ≠ some ' ' &&
    t.getLast? ≠ some ' ' && t ≠ []

theorem managed_isTypeName : isTypeName "managed".toList = true := by decide

/-- The digits of a phy's index, no more than `int` takes. -/
def isIndex (t : Text) : Bool := t ≠ [] && t.all Char.isDigit && t.length ≤ 4300

theorem isIndex_digits {t : Text} (h : isIndex t = true) :
    t ≠ [] ∧ ∀ c ∈ t, c.isDigit = true := by
  unfold isIndex at h
  simpa using (Bool.and_eq_true_iff.1 h).1

theorem zero_isIndex : isIndex "0".toList = true := by decide

theorem one_isIndex : isIndex "1".toList = true := by decide

/-- What is printed of a wdev under its first line. -/
structure Wdev where
  before : List Line
  type : { t : Text // isTypeName t = true }
  after : List Line

structure Netdev extends Wdev where
  name : { t : Text // isWord t = true }
  /-- The wdevs without a netdev that follow this one. -/
  unnamed : List Wdev

structure Phy where
  index : { t : Text // isIndex t = true }
  /-- The wdevs before the first netdev. -/
  unnamed : List Wdev
  netdevs : List Netdev

/-- The output of `iw dev`; a network namespace has one netdev of a name. -/
structure IwDev where
  phys : List Phy
  distinct : ((phys.flatMap (·.netdevs)).map (·.name.val)).Nodup

def Wdev.lines (w : Wdev) : List Text :=
  w.before.map (·.text) ++ ("\t\ttype ".toList ++ w.type) :: w.after.map (·.text)

def Wdev.unnamedLines (w : Wdev) : List Text := "\tUnnamed/non-netdev interface".toList :: w.lines

def Netdev.lines (n : Netdev) : List Text :=
  ("\tInterface ".toList ++ n.name) :: (n.toWdev.lines ++ n.unnamed.flatMap Wdev.unnamedLines)

def Phy.lines (p : Phy) : List Text :=
  ("phy#".toList ++ p.index) ::
    (p.unnamed.flatMap Wdev.unnamedLines ++ p.netdevs.flatMap Netdev.lines)

def IwDev.output (out : IwDev) : Text := (out.phys.flatMap Phy.lines).flatMap (· ++ ['\n'])

/-- The output without the wdevs that have no netdev. -/
def Netdev.alone (n : Netdev) : Netdev := { n with unnamed := [] }

def Phy.named (p : Phy) : Phy := { p with unnamed := [], netdevs := p.netdevs.map Netdev.alone }

theorem names_named (phys : List Phy) :
    (((phys.map Phy.named).flatMap (·.netdevs)).map (·.name.val)) =
      (phys.flatMap (·.netdevs)).map (·.name.val) := by
  induction phys with
  | nil => rfl
  | cons p phys ih =>
    have hhead : (p.named.netdevs.map (·.name.val)) = p.netdevs.map (·.name.val) := by
      simp [Phy.named, Netdev.alone]
    simp only [List.map_cons, List.flatMap_cons, List.map_append, hhead, ih]

def IwDev.named (out : IwDev) : IwDev :=
  ⟨out.phys.map Phy.named, (names_named out.phys).symm ▸ out.distinct⟩

end WlanpiCore.Adapter
