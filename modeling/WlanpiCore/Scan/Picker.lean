import WlanpiCore.Config.Validation
import Mathlib.Data.List.Nodup

/-!
# Picking the adapter of a scan

`select_scan_adapter` over the status map of `network_config.status()`. The answers of the API name
an adapter by its interface and `_ns_display` of its namespace; a request names it by the same two
texts, which `namespace_from_param` reads. Its `None` stands for root as well as for no namespace.

**Theorem (`selectScanAdapter_iff`).** An adapter comes back for its own two names exactly when the
status map lists it and its namespace is root, or not spelled like root, or it is the only choice
anyway; and a request stays inside the namespace it names exactly when that is not spelled like
root, or there is nothing outside to fall back on before it.
-/

namespace WlanpiCore.Picker

open Text

/-! ## The status map -/

/-- What `iw dev` says of a netdev, as far as it is read. -/
structure IfaceInfo where
  type : Option Text
  mode : Option Text
  wiphy : Option Text
  deriving DecidableEq

/-- A namespace of the map: its netdevs by name, or `error` with a message, which is no netdev. -/
structure NsStatus where
  interfaces : List (InterfaceName × Option IfaceInfo)
  distinct : (interfaces.map Prod.fst).Nodup

/-- The map; an entry that is no dict is `none`. -/
structure Status where
  namespaces : List (NamespaceName × Option NsStatus)
  distinct : (namespaces.map Prod.fst).Nodup

def rootName : NamespaceName := ⟨"root".toList, by decide⟩

def errorName : InterfaceName := ⟨"error".toList, by decide⟩

structure Adapter where
  iface : InterfaceName
  /-- `namespace`; `none` is root. -/
  netns : Option NamespaceName
  namespaceDisplay : Text
  mode : Text
  phy : Option Text
  label : Text
  deriving DecidableEq

/-! ## Reading it -/

/-- `str.lower()` of the ASCII letters: no other character becomes a letter of `root`. -/
def lower (t : Text) : Text := t.map Char.toLower

/-- `_ns_display` -/
def nsDisplay (netns : Option NamespaceName) : Text :=
  match netns with
  | none => "root".toList
  | some name => name.val

/-- `x or y` of two texts that may be missing. -/
def orElse (x y : Option Text) : Option Text := if x.getD [] = [] then y else x

/-- `_iface_mode` -/
def ifaceMode (U : Unicode) (info : IfaceInfo) : Text :=
  Text.lower U (strip ((orElse info.type info.mode).getD []))

/-- `_adapter_label` -/
def adapterLabel (iface mode : Text) (netns : Option NamespaceName) : Text :=
  if mode = [] then iface ++ " (".toList ++ nsDisplay netns ++ ")".toList
  else iface ++ " (".toList ++ mode ++ ", ".toList ++ nsDisplay netns ++ ")".toList

/-- The namespace of a key of the map. -/
def netnsOf (name : NamespaceName) : Option NamespaceName :=
  if name = rootName then none else some name

/-- The record of one netdev. -/
def adapterOf (U : Unicode) (name : NamespaceName) (iface : InterfaceName) (info : IfaceInfo) :
    Adapter where
  iface := iface
  netns := netnsOf name
  namespaceDisplay := nsDisplay (netnsOf name)
  mode := ifaceMode U info
  phy := info.wiphy
  label := adapterLabel iface.val (ifaceMode U info) (netnsOf name)

/-- The records of one namespace, the inner loop of `iter_adapters`. -/
def NsStatus.adapters (U : Unicode) (s : NsStatus) (name : NamespaceName) : List Adapter :=
  s.interfaces.filterMap fun e => e.2.map (adapterOf U name e.1)

/-- `iter_adapters` -/
def iterAdapters (U : Unicode) (status : Status) : List Adapter :=
  status.namespaces.flatMap fun e =>
    match e.2 with
    | none => []
    | some s => if errorName ∈ s.interfaces.map Prod.fst then [] else s.adapters U e.1

/-! ## Selecting -/

inductive Exc where
  | noScanAdapter
  | value (message : String)
  deriving DecidableEq

/-- `_adapter_response` -/
structure AdapterResponse where
  iface : Text
  netns : Text
  label : Text
  mode : Option Text
  deriving DecidableEq

def Adapter.response (a : Adapter) : AdapterResponse where
  iface := a.iface.val
  netns := a.namespaceDisplay
  label := a.label
  mode := if a.mode = [] then none else some a.mode

inductive Selection where
  | scan (adapter : Adapter)
  | needsSelection (candidates : List AdapterResponse)
  deriving DecidableEq

/-- The text means root to `namespace_from_param`. -/
def SpelledRoot (t : Text) : Prop := lower (strip t) = "root".toList

instance (t : Text) : Decidable (SpelledRoot t) := by unfold SpelledRoot; infer_instance

/-- `namespace_from_param` -/
def namespaceFromParam (param : Option Text) : Except Exc (Option NamespaceName) :=
  match param with
  | none => .ok none
  | some [] => .ok none
  | some t =>
    if SpelledRoot t then .ok none
    else match h : validateNamespaceName t with
      | none => .ok (some ⟨t, h⟩)
      | some message => .error (.value message)

/-- `validate_interface_name` -/
def checkInterfaceName (t : Text) : Except Exc InterfaceName :=
  match h : validateInterfaceName t with
  | none => .ok ⟨t, h⟩
  | some message => .error (.value message)

/-- The adapters of this name, in one namespace if one is given. -/
def matching (adapters : List Adapter) (iface : InterfaceName) (ns : Option NamespaceName) :
    List Adapter :=
  adapters.filter fun a => a.iface = iface && (ns.isNone || a.netns = ns)

/-- The selection by name. -/
def selectNamed (adapters : List Adapter) (iface : InterfaceName) (ns : Option NamespaceName) :
    Except Exc Selection :=
  match matching adapters iface ns with
  | [] => .error .noScanAdapter
  | first :: rest =>
    if ns.isNone then
      .ok (.scan (((first :: rest).find? fun a => a.netns.isNone).getD first))
    else .ok (.scan first)

/-- The selection when no interface is named. -/
def selectAny (adapters : List Adapter) : Except Exc Selection :=
  match adapters.filter fun a => a.mode = "monitor".toList with
  | [monitor] => .ok (.scan monitor)
  | [] =>
    match adapters.filter fun a => a.mode = "managed".toList && a.netns.isNone with
    | managed :: _ => .ok (.scan managed)
    | [] => .error .noScanAdapter
  | monitors => .ok (.needsSelection (monitors.map Adapter.response))

/-- `select_scan_adapter` -/
def selectScanAdapter (U : Unicode) (status : Status) (iface param : Option Text) :
    Except Exc Selection := do
  let ns ← namespaceFromParam param
  match iface with
  | some (c :: t) =>
    let iface ← checkInterfaceName (c :: t)
    selectNamed (iterAdapters U status) iface ns
  | _ => selectAny (iterAdapters U status)

/-! ## What the picker promises -/

/-- The map holds this adapter, listed or not. -/
def Status.Holds (U : Unicode) (status : Status) (a : Adapter) : Prop :=
  ∃ name s iface info, (name, some s) ∈ status.namespaces ∧ (iface, some info) ∈ s.interfaces ∧
    a = adapterOf U name iface info

/-- The two texts of an answer, sent back, give the adapter. -/
def RoundTrips (U : Unicode) (status : Status) (a : Adapter) : Prop :=
  selectScanAdapter U status (some a.response.iface) (some a.response.netns) = .ok (.scan a)

/-- A namespace that a request names: root in any spelling, or a name. -/
abbrev NamedNs : Type := { t : Text // SpelledRoot t ∨ validateNamespaceName t = none }

/-- The adapter is in the namespace of this name. -/
def Adapter.In (a : Adapter) (ns : NamedNs) : Prop :=
  a.namespaceDisplay = ns.val ∨ SpelledRoot ns.val ∧ a.netns = none

/-- A request for an interface in a namespace gets none of another one, and `NoScanAdapterError`
when the namespace has none. -/
def StaysInside (U : Unicode) (status : Status) (iface : InterfaceName) (ns : NamedNs) : Prop :=
  (∀ a, selectScanAdapter U status (some iface.val) (some ns.val) = .ok (.scan a) → a.In ns) ∧
    ((∀ a ∈ iterAdapters U status, a.iface = iface → ¬a.In ns) →
      selectScanAdapter U status (some iface.val) (some ns.val) = .error .noScanAdapter)

/-! ## Listed adapters -/

variable {U : Unicode}

theorem mem_iterAdapters {status : Status} {a : Adapter} :
    a ∈ iterAdapters U status ↔ ∃ name s iface info, (name, some s) ∈ status.namespaces ∧
      errorName ∉ s.interfaces.map Prod.fst ∧ (iface, some info) ∈ s.interfaces ∧
      a = adapterOf U name iface info := by
  unfold iterAdapters
  rw [List.mem_flatMap]
  constructor
  · rintro ⟨⟨name, _ | s⟩, hname, ha⟩
    · cases ha
    · dsimp only at ha
      split_ifs at ha with herror
      · cases ha
      · obtain ⟨⟨iface, info⟩, hiface, hinfo⟩ := List.mem_filterMap.1 ha
        obtain ⟨info, rfl, rfl⟩ := Option.map_eq_some_iff.1 hinfo
        exact ⟨name, s, iface, info, hname, herror, hiface, rfl⟩
  · rintro ⟨name, s, iface, info, hname, herror, hiface, rfl⟩
    refine ⟨(name, some s), hname, ?_⟩
    dsimp only
    rw [if_neg herror]
    exact List.mem_filterMap.2 ⟨(iface, some info), hiface, rfl⟩

theorem netnsOf_injective {name name' : NamespaceName} (h : netnsOf name = netnsOf name') :
    name = name' := by
  unfold netnsOf at h
  split_ifs at h with hroot hroot' hroot'
  · rw [hroot, hroot']
  · exact Option.some.inj h

/-- An interface occurs once in a namespace. -/
theorem iterAdapters_unique {status : Status} {a b : Adapter} (ha : a ∈ iterAdapters U status)
    (hb : b ∈ iterAdapters U status) (hiface : b.iface = a.iface) (hns : b.netns = a.netns) :
      b = a := by
  obtain ⟨name, s, iface, info, hname, -, hinfo, rfl⟩ := mem_iterAdapters.1 ha
  obtain ⟨name', s', iface', info', hname', -, hinfo', rfl⟩ := mem_iterAdapters.1 hb
  obtain rfl : name' = name := netnsOf_injective hns
  obtain rfl : iface' = iface := hiface
  have hs := List.inj_on_of_nodup_map status.distinct hname' hname rfl
  obtain rfl : s' = s := Option.some.inj (Prod.mk.inj hs).2
  have hi := List.inj_on_of_nodup_map s'.distinct hinfo' hinfo rfl
  obtain rfl : info' = info := Option.some.inj (Prod.mk.inj hi).2
  rfl

theorem display_eq {status : Status} {a : Adapter} (ha : a ∈ iterAdapters U status) :
    a.namespaceDisplay = nsDisplay a.netns := by
  obtain ⟨name, s, iface, info, -, -, -, rfl⟩ := mem_iterAdapters.1 ha
  rfl

/-- A search finds the one element it can find. -/
theorem find?_unique {α : Type} {p : α → Bool} {l : List α} {a : α} (ha : a ∈ l) (hp : p a = true)
    (h : ∀ b ∈ l, p b = true → b = a) : l.find? p = some a := by
  cases hfind : l.find? p with
  | none =>
    have hnone := List.find?_eq_none.1 hfind a ha
    exact absurd hp hnone
  | some b => rw [h b (List.mem_of_find?_eq_some hfind) (List.find?_some hfind)]

/-! ## The two ways of selecting by name -/

theorem InterfaceName.ne_nil (iface : InterfaceName) : iface.val ≠ [] := by
  intro h
  have hmatch := (validateName_eq_none.1 iface.property).2.2.2
  rw [h] at hmatch
  cases hmatch

theorem checkInterfaceName_val (iface : InterfaceName) : checkInterfaceName iface.val =
    .ok iface := by
  unfold checkInterfaceName
  split
  · rfl
  · rename_i message h
    rw [iface.property] at h
    cases h

theorem selectScanAdapter_eq (status : Status) (iface : InterfaceName) (param : Option Text) :
    selectScanAdapter U status (some iface.val) param =
      (namespaceFromParam param).bind (selectNamed (iterAdapters U status) iface) := by
  obtain ⟨c, t, hval⟩ := List.exists_cons_of_ne_nil (InterfaceName.ne_nil iface)
  have hcheck := checkInterfaceName_val iface
  unfold selectScanAdapter
  rw [hval] at hcheck ⊢
  dsimp only
  rw [hcheck]
  rfl

/-- The answer for what a search found. -/
def answer (found : Option Adapter) : Except Exc Selection :=
  match found with
  | none => .error .noScanAdapter
  | some a => .ok (.scan a)

@[simp] theorem answer_eq_scan {found : Option Adapter} {a : Adapter} :
    answer found = .ok (.scan a) ↔ found = some a := by
  cases found <;> simp [answer]

@[simp] theorem answer_eq_error {found : Option Adapter} :
    answer found = .error .noScanAdapter ↔ found = none := by
  cases found <;> simp [answer]

/-- In a given namespace the adapter of that name is taken. -/
theorem selectNamed_some (adapters : List Adapter) (iface : InterfaceName) (name : NamespaceName) :
    selectNamed adapters iface (some name) =
      answer (adapters.find? fun a => a.iface = iface && a.netns = some name) := by
  have hhead : (matching adapters iface (some name)).head? =
      adapters.find? fun a => a.iface = iface && a.netns = some name := by
    unfold matching
    rw [List.head?_filter]
    rfl
  unfold selectNamed
  rw [← hhead]
  cases matching adapters iface (some name) <;> rfl

/-- The choice without a namespace: root's, or else the first. -/
def choice (adapters : List Adapter) (iface : InterfaceName) : Option Adapter :=
  (adapters.find? fun a => a.iface = iface && a.netns.isNone).or
    (adapters.find? fun a => a.iface = iface)

theorem selectNamed_none (adapters : List Adapter) (iface : InterfaceName) :
    selectNamed adapters iface none = answer (choice adapters iface) := by
  have hmatching : matching adapters iface none = adapters.filter fun a => a.iface = iface := by
    unfold matching
    simp
  have hhead : (matching adapters iface none).head? = adapters.find? fun a => a.iface = iface := by
    rw [hmatching, List.head?_filter]
  have hroot : (matching adapters iface none).find? (fun a => a.netns.isNone) =
      adapters.find? fun a => a.iface = iface && a.netns.isNone := by
    rw [hmatching, List.find?_filter]
    congr 1
    funext a
    cases a.netns <;> simp
  unfold selectNamed choice
  rw [← hhead, ← hroot]
  cases matching adapters iface none with
  | nil => rfl
  | cons first rest =>
    simp only [Option.isNone_none, if_true]
    cases (first :: rest).find? fun a => a.netns.isNone <;> rfl

theorem choice_mem {adapters : List Adapter} {iface : InterfaceName} {a : Adapter}
    (h : choice adapters iface = some a) : a ∈ adapters ∧ a.iface = iface := by
  unfold choice at h
  rcases Option.or_eq_some_iff.1 h with h | ⟨-, h⟩
  · have hp := List.find?_some h
    simp only [Bool.and_eq_true, decide_eq_true_eq] at hp
    exact ⟨List.mem_of_find?_eq_some h, hp.1⟩
  · exact ⟨List.mem_of_find?_eq_some h, by simpa using List.find?_some h⟩

/-! ## What a parameter means -/

theorem namespaceFromParam_root {t : Text} (h : SpelledRoot t) : namespaceFromParam (some t) =
    .ok none := by
  cases t with
  | nil => rfl
  | cons c t =>
    unfold namespaceFromParam
    dsimp only
    rw [if_pos h]

theorem namespaceFromParam_name (name : NamespaceName) (h : ¬SpelledRoot name.val) :
    namespaceFromParam (some name.val) = .ok (some name) := by
  have hne : name.val ≠ [] := by
    intro hnil
    have hmatch := (validateName_eq_none.1 name.property).2.2.2
    rw [hnil] at hmatch
    cases hmatch
  obtain ⟨c, t, hval⟩ := List.exists_cons_of_ne_nil hne
  rcases name with ⟨t', hname⟩
  obtain rfl : t' = c :: t := hval
  unfold namespaceFromParam
  dsimp only
  rw [if_neg h]
  split
  · rfl
  · rename_i message hinvalid
    rw [hname] at hinvalid
    cases hinvalid

theorem select_root (status : Status) (iface : InterfaceName) {t : Text} (h : SpelledRoot t) :
    selectScanAdapter U status (some iface.val) (some t) =
      answer (choice (iterAdapters U status) iface) := by
  rw [selectScanAdapter_eq, namespaceFromParam_root h]
  exact selectNamed_none _ _

theorem select_name (status : Status) (iface : InterfaceName) (name : NamespaceName)
    (h : ¬SpelledRoot name.val) :
    selectScanAdapter U status (some iface.val) (some name.val) =
      answer ((iterAdapters U status).find? fun a => a.iface = iface && a.netns = some name) := by
  rw [selectScanAdapter_eq, namespaceFromParam_name name h]
  exact selectNamed_some _ _ _

/-! ## The promises, decided -/

/-- The adapter is the first of its interface, and root has none of that name. -/
def OnlyChoice (U : Unicode) (status : Status) (a : Adapter) : Prop :=
  (∀ b ∈ iterAdapters U status, b.iface = a.iface → b.netns ≠ none) ∧
    (iterAdapters U status).find? (fun b => b.iface = a.iface) = some a

theorem find?_root_eq_none {adapters : List Adapter} {iface : InterfaceName} :
    (adapters.find? fun a => a.iface = iface && a.netns.isNone) = none ↔
      ∀ b ∈ adapters, b.iface = iface → b.netns ≠ none := by
  rw [List.find?_eq_none]
  simp

theorem choice_eq_of_named {status : Status} {a : Adapter} (hns : a.netns ≠ none) :
    choice (iterAdapters U status) a.iface = some a ↔ OnlyChoice U status a := by
  unfold choice OnlyChoice
  rw [Option.or_eq_some_iff, find?_root_eq_none]
  constructor
  · intro h
    refine h.resolve_left fun hroot => ?_
    have hp := List.find?_some hroot
    simp only [Bool.and_eq_true, Option.isNone_iff_eq_none] at hp
    exact hns hp.2
  · exact Or.inr

/-- An adapter of root is the choice for its interface. -/
theorem choice_of_root {status : Status} {a : Adapter} (ha : a ∈ iterAdapters U status)
    (hns : a.netns = none) : choice (iterAdapters U status) a.iface = some a := by
  unfold choice
  rw [find?_unique ha]
  · rfl
  · simp [hns]
  · intro b hb hp
    simp only [Bool.and_eq_true, decide_eq_true_eq, Option.isNone_iff_eq_none] at hp
    exact iterAdapters_unique ha hb hp.1 (hp.2.trans hns.symm)

/-- Where the names given back lead. -/
theorem roundTrips_iff (status : Status) {a : Adapter} (h : status.Holds U a) :
    RoundTrips U status a ↔ a ∈ iterAdapters U status ∧
      (a.netns = none ∨ ¬SpelledRoot a.namespaceDisplay ∨ OnlyChoice U status a) := by
  have hdisplay : a.namespaceDisplay = nsDisplay a.netns := by
    obtain ⟨name, s, iface, info, -, -, rfl⟩ := h
    rfl
  show selectScanAdapter U status (some a.iface.val) (some a.namespaceDisplay) = .ok (.scan a) ↔ _
  rcases hns : a.netns with _ | name
  · have hroot : SpelledRoot a.namespaceDisplay := by
      rw [hdisplay, hns]
      decide
    rw [select_root status a.iface hroot, answer_eq_scan]
    exact ⟨fun hchoice => ⟨(choice_mem hchoice).1, Or.inl rfl⟩, fun hmem =>
      choice_of_root hmem.1 hns⟩
  have hval : a.namespaceDisplay = name.val := by rw [hdisplay, hns]; rfl
  by_cases hroot : SpelledRoot a.namespaceDisplay
  · rw [select_root status a.iface hroot, answer_eq_scan]
    have hchoice : choice (iterAdapters U status) a.iface = some a ↔ OnlyChoice U status a :=
      choice_eq_of_named (by simp [hns])
    constructor
    · intro h
      exact ⟨(choice_mem h).1, Or.inr (Or.inr (hchoice.1 h))⟩
    · rintro ⟨-, h⟩
      exact hchoice.2 ((h.resolve_left (by simp)).resolve_left (not_not.2 hroot))
  · have hname : ¬SpelledRoot name.val := hval ▸ hroot
    rw [hval, select_name status a.iface name hname, answer_eq_scan]
    constructor
    · exact fun hfind => ⟨List.mem_of_find?_eq_some hfind, Or.inr (Or.inl hname)⟩
    · rintro ⟨hmem, -⟩
      apply find?_unique hmem
      · simp [hns]
      · intro b hb hp
        simp only [Bool.and_eq_true, decide_eq_true_eq] at hp
        exact iterAdapters_unique hmem hb hp.1 (hp.2.trans hns.symm)

/-- The first adapter of an interface, where it is in no other namespace than the one named. -/
def FirstInside (U : Unicode) (status : Status) (iface : InterfaceName) (ns : NamedNs) : Prop :=
  ∀ b, (iterAdapters U status).find? (fun b => b.iface = iface) = some b →
    b.namespaceDisplay = ns.val

/-- Where root does not have the interface, its first adapter is chosen. -/
theorem choice_of_not_root {status : Status} {iface : InterfaceName}
    (h : ∀ b ∈ iterAdapters U status, b.iface = iface → b.netns ≠ none) :
    choice (iterAdapters U status) iface =
      (iterAdapters U status).find? fun b => b.iface = iface := by
  unfold choice
  rw [find?_root_eq_none.2 h]
  rfl

theorem staysInside_of_spelled (status : Status) (iface : InterfaceName) {ns : NamedNs}
    (hroot : SpelledRoot ns.val) : StaysInside U status iface ns ↔
      (∃ b ∈ iterAdapters U status, b.iface = iface ∧ b.netns = none) ∨
        FirstInside U status iface ns := by
  unfold StaysInside
  rw [select_root status iface hroot]
  simp only [answer_eq_scan, answer_eq_error]
  by_cases hexists : ∃ b ∈ iterAdapters U status, b.iface = iface ∧ b.netns = none
  · -- Root has the interface, and gets it.
    obtain ⟨b, hb, rfl, hns⟩ := hexists
    rw [choice_of_root hb hns]
    refine ⟨fun _ => Or.inl ⟨b, hb, rfl, hns⟩, fun _ => ⟨?_, fun hnone => ?_⟩⟩
    · intro a ha
      obtain rfl := Option.some.inj ha
      exact Or.inr ⟨hroot, hns⟩
    · exact absurd (Or.inr ⟨hroot, hns⟩) (hnone b hb rfl)
  · have hnone : ∀ b ∈ iterAdapters U status, b.iface = iface → b.netns ≠ none :=
      fun b hb hiface hns => hexists ⟨b, hb, hiface, hns⟩
    rw [choice_of_not_root hnone]
    constructor
    · intro ⟨hin, _⟩
      refine Or.inr fun b hb => ?_
      have hiface : b.iface = iface := by simpa using List.find?_some hb
      have hns := hnone b (List.mem_of_find?_eq_some hb) hiface
      exact (hin b hb).resolve_right fun h => hns h.2
    · intro h
      have hfirst := h.resolve_left hexists
      refine ⟨fun a ha => Or.inl (hfirst a ha), fun hout => ?_⟩
      by_contra hsome
      obtain ⟨b, hb⟩ := Option.ne_none_iff_exists'.1 hsome
      have hiface : b.iface = iface := by simpa using List.find?_some hb
      exact hout b (List.mem_of_find?_eq_some hb) hiface (Or.inl (hfirst b hb))

theorem staysInside_of_not_spelled (status : Status) (iface : InterfaceName) {ns : NamedNs}
    (hroot : ¬SpelledRoot ns.val) : StaysInside U status iface ns := by
  obtain ⟨t, ht⟩ := ns
  have hvalid := ht.resolve_left hroot
  unfold StaysInside
  rw [select_name status iface ⟨t, hvalid⟩ hroot]
  simp only [answer_eq_scan, answer_eq_error]
  constructor
  · intro a ha
    have hp := List.find?_some ha
    simp only [Bool.and_eq_true, decide_eq_true_eq] at hp
    refine Or.inl ?_
    rw [display_eq (List.mem_of_find?_eq_some ha), hp.2]
    rfl
  · intro hout
    rw [List.find?_eq_none]
    intro b hb hp
    simp only [Bool.and_eq_true, decide_eq_true_eq] at hp
    refine hout b hb hp.1 (Or.inl ?_)
    rw [display_eq hb, hp.2]
    rfl

theorem staysInside_iff (status : Status) (iface : InterfaceName) (ns : NamedNs) :
    StaysInside U status iface ns ↔ ¬SpelledRoot ns.val ∨
      (∃ b ∈ iterAdapters U status, b.iface = iface ∧ b.netns = none) ∨
        FirstInside U status iface ns := by
  by_cases hroot : SpelledRoot ns.val
  · rw [staysInside_of_spelled status iface hroot]
    simp [hroot]
  · exact iff_of_true (staysInside_of_not_spelled status iface hroot) (Or.inl hroot)

/-- Exactly when the picker keeps its two promises. -/
theorem selectScanAdapter_iff (U : Unicode) (status : Status) :
    (∀ a : { a // status.Holds U a }, RoundTrips U status a ↔ a.val ∈ iterAdapters U status ∧
      (a.val.netns = none ∨ ¬SpelledRoot a.val.namespaceDisplay ∨ OnlyChoice U status a)) ∧
    ∀ iface ns, StaysInside U status iface ns ↔ ¬SpelledRoot ns.val ∨
      (∃ b ∈ iterAdapters U status, b.iface = iface ∧ b.netns = none) ∨
        FirstInside U status iface ns :=
  ⟨fun a => roundTrips_iff status a.property, staysInside_iff status⟩

/-! ## One radio in a namespace -/

def wlan0 : InterfaceName := ⟨"wlan0".toList, wlan0_valid⟩

/-- `wlan0` is in `lab`; root has no adapter. -/
def labStatus : Status where
  namespaces :=
    [(rootName, some ⟨[], by decide⟩),
      (⟨"lab".toList, labName_valid⟩,
        some ⟨[(wlan0, some ⟨some "managed".toList, none, some ['0']⟩)], by decide⟩)]
  distinct := by decide

/-- A request for `wlan0` in root gets the one in `lab`. -/
theorem not_staysInside_lab :
    ¬StaysInside Unicode.ascii labStatus wlan0 ⟨"root".toList, Or.inl (by decide)⟩ := by
  intro h
  have hnone : ∀ a ∈ iterAdapters Unicode.ascii labStatus, a.iface = wlan0 → a.netns ≠ none := by
    decide +kernel
  have hdisplay : ∀ a ∈ iterAdapters Unicode.ascii labStatus, a.namespaceDisplay ≠
    "root".toList := by
    decide +kernel
  have hout := h.2 fun a ha hiface hin =>
    hin.elim (hdisplay a ha) fun hroot => hnone a ha hiface hroot.2
  revert hout
  decide +kernel

end WlanpiCore.Picker
