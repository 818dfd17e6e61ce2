import WlanpiCore.Lib.Lines
import WlanpiCore.Lib.Prog

/-!
# Deleting empty namespaces

`reset_namespace` and `_delete_namespace_if_empty` delete a namespace when `iw phy` and
`ip -o link show` list nothing in it. Both listings are read as text, with a filter on the names:
only phys whose name begins with `phy` count, and no link whose name begins with `lo` does.

`Held` is what a namespace holds and prints of it: one record for each link, on one line unless a
name breaks it, and a header with indented lines for each phy.

**Theorem (`keepsUsed_iff`).** Either function deletes only namespaces that hold no phy and no link
but loopback exactly when it does not come to a namespace that is in use and whose links and phys
are all overlooked: a link whose name begins with `lo`, such as `lo0` or `lowpan0`, and a phy that
was given a name of its own.
-/

namespace WlanpiCore.Emptiness

open Text Prog

/-! ## What a namespace holds -/

/-- `dev_valid_name`: what the kernel takes as the name of a link. -/
def isLinkName (t : Text) : Bool :=
  t ≠ [] && t ≠ ['.'] && t ≠ ['.', '.'] && (encode t).length < 16 &&
    t.all fun c => c ≠ '/' && c ≠ ':' && c ≠ ' ' && !(0x09 ≤ c.toNat && c.toNat ≤ 0x0d)

/-- A line of a command's output. -/
def unbroken (t : Text) : Bool := t.all fun c => !isLineBreak c

/-- A link, with what `ip -o link show` prints of it. -/
structure Link where
  index : { t : Text // (t ≠ [] && t.all Char.isDigit) = true }
  name : { t : Text // isLinkName t = true }
  /-- The link or `if5` it hangs on, printed behind `@`. -/
  peer : Option { t : Text // (t.all (· ≠ ':')) = true }
  /-- The flags and what follows them. -/
  rest : { t : Text // unbroken t = true }

/-- A line under a phy's header. -/
structure BodyLine where
  text : Text
  unbroken : unbroken text = true
  noHeader : ¬"Wiphy".toList <+: strip text

/-- A phy, with what `iw phy` prints of it. -/
structure Phy where
  name : Text
  body : List BodyLine

structure Held where
  links : List Link
  phys : List Phy

/-- Nothing but loopback. -/
def Held.Empty (h : Held) : Prop := h.phys = [] ∧ ∀ link ∈ h.links, link.name.val = "lo".toList

def Link.label (link : Link) : Text :=
  match link.peer with
  | none => link.name.val
  | some peer => link.name.val ++ '@' :: peer.val

def Link.record (link : Link) : Text :=
  link.index.val ++ ": ".toList ++ link.label ++ ": <".toList ++ link.rest.val

def Phy.lines (phy : Phy) : List Text :=
  ("Wiphy ".toList ++ phy.name) :: phy.body.map (·.text)

/-- `ip -o link show` -/
def Held.ipLinkShow (h : Held) : Text := (h.links.map Link.record).flatMap (· ++ ['\n'])

/-- `iw phy` -/
def Held.iwPhy (h : Held) : Text := (h.phys.flatMap Phy.lines).flatMap (· ++ ['\n'])

/-! ## Reading the listings -/

/-- `line.split(":", 2)[1].strip()` of a line that is not blank. -/
def linkName (line : Text) : Option Text :=
  if strip line = [] then none
  else match line.dropWhile (· ≠ ':') with
    | [] => none
    | _ :: rest => some (strip (rest.takeWhile (· ≠ ':')))

/-- `get_interfaces_in_namespace` on the output. -/
def parseLinks (stdout : Text) (includeLoopback : Bool) : List Text :=
  ((splitlines stdout).filterMap linkName).filter fun name =>
    includeLoopback || !"lo".toList.isPrefixOf name

/-- The second word of a header. -/
def phyName (line : Text) : Option Text :=
  if "Wiphy".toList.isPrefixOf (strip line) then (words (strip line))[1]? else none

/-- `list_phys` on the output. -/
def parsePhys (stdout : Text) : List Text :=
  ((splitlines stdout).filterMap phyName).filter fun name => "phy".toList.isPrefixOf name

/-! ## The two functions -/

inductive Failure where
  | runCommand (text : String)
  | other (text : String)

/-- A namespace, with what it holds. -/
structure Netns where
  name : Text
  held : Held

structure World where
  netns : List Netns
  markers : List Text
  /-- The namespaces deleted so far, as they were then. -/
  deleted : List Netns

/-- What the parts around the two functions do. -/
structure Env where
  /-- `core_namespaces` -/
  coreNamespaces : World → List Text
  /-- `_return_namespace_phys`: what it reports, and what it leaves. -/
  returnPhys : Netns → Except Failure (List Text) × Held
  stopApp : Text → Except Failure Unit
  /-- Whether these listings fail. -/
  iwPhy : Text → Except Failure Unit
  ipLinkShow : Text → Except Failure Unit
  /-- Whether `list_namespaces` answers. -/
  listNamespaces : Bool
  /-- Whether the kernel deletes the namespace. -/
  deletes : Text → Bool

/-- What `reset_namespace` answers. `none` where it leaves a key out. -/
structure ResetResult where
  netns : Text
  physReturned : List Text
  detail : Option String
  deleted : Option Bool
  remaining : Option (List Text)

abbrev Service (α : Type) := Prog World Failure α

section

variable (E : Env)

def World.find (w : World) (name : Text) : Option Netns := w.netns.find? fun n => n.name = name

/-- What the namespace holds; a command in a namespace that does not exist fails. -/
def inNamespace (name : Text) : Service Held := fun w =>
  match w.find name with
  | some n => (.ok n.held, w)
  | none => (.error (.runCommand "Cannot open network namespace"), w)

/-- `phy.list_phys` -/
def listPhys (name : Text) : Service (List Text) := do
  let held ← inNamespace name
  lift (E.iwPhy name)
  return parsePhys held.iwPhy

/-- `get_interfaces_in_namespace` -/
def getInterfacesInNamespace (name : Text) (includeLoopback : Bool) : Service (List Text) := do
  let held ← inNamespace name
  lift (E.ipLinkShow name)
  return parseLinks held.ipLinkShow includeLoopback

/-- `namespace_exists` -/
def namespaceExists (name : Text) : Service Bool := fun w =>
  (.ok (E.listNamespaces && (w.find name).isSome), w)

/-- `ip netns delete` -/
def ipNetnsDelete (name : Text) : Service Unit := update fun w =>
  { w with
    deleted := w.deleted ++ (w.find name).toList
    netns := if E.deletes name then w.netns.filter fun n => n.name ≠ name else w.netns }

/-- `delete_namespace(…, raise_on_fail=False)` -/
def deleteNamespace (name : Text) : Service Unit := do
  if ← namespaceExists E name then ipNetnsDelete E name else return ()

/-- `_return_namespace_phys` -/
def returnNamespacePhys (name : Text) : Service (List Text) := fun w =>
  match w.find name with
  | some n =>
    ((E.returnPhys n).1, { w with
      netns := w.netns.map fun m => if m.name = name then { m with held := (E.returnPhys n).2 }
        else m })
  | none => (.ok [], w)

/-- What is left of a namespace's marker and its directory under `/etc`. -/
def dropMarker (name : Text) : Service Unit := update fun w =>
  { w with markers := w.markers.filter (· ≠ name) }

/-- `phy.list_phys(…) + ns_interfaces.get_interfaces_in_namespace(…)`; `none` stands for the
`RunCommandError` of one of them. -/
def remaining (name : Text) : Service (Except String (List Text)) :=
  attempt
    (do
      let phys ← listPhys E name
      let links ← getInterfacesInNamespace E name false
      return .ok (phys ++ links))
    fun failure => match failure with
      | .runCommand text => return .error text
      | failure => raise failure

/-- The deletion in `reset_namespace`. -/
def resetEmpty (name : Text) (owned : Bool) : Service Bool := do
  deleteNamespace E name
  let exists_ ← namespaceExists E name
  if !exists_ && owned then
    dropMarker name
    return true
  else return !exists_

/-- `reset_namespace` -/
def resetNamespace (name : Text) : Service ResetResult := do
  let w ← get
  let moved ← returnNamespacePhys E name
  lift (E.stopApp name)
  match ← remaining E name with
  | .error detail => return ⟨name, moved, some detail, none, none⟩
  | .ok [] =>
    let deleted ← resetEmpty E name (name ∈ E.coreNamespaces w)
    return ⟨name, moved, none, some deleted, some []⟩
  | .ok names => return ⟨name, moved, none, some false, some names⟩

/-- The deletion in `_delete_namespace_if_empty`. -/
def deleteEmpty (name : Text) : Service Unit := do
  deleteNamespace E name
  if ← namespaceExists E name then return () else dropMarker name

/-- `_delete_namespace_if_empty` -/
def deleteNamespaceIfEmpty (name : Text) : Service Unit := do
  lift (E.stopApp name)
  match ← remaining E name with
  | .ok [] => deleteEmpty E name
  | _ => return ()

end

/-! ## What the readers overlook -/

/-- The reader of links passes over a link that is printed on one line and begins with `lo`. -/
def Link.Overlooked (link : Link) : Prop :=
  unbroken link.label = true ∧ "lo".toList <+: strip link.label

/-- No line that the header is printed on gives a name that begins with `phy`. -/
def Phy.Overlooked (phy : Phy) : Prop :=
  ∀ line ∈ splitlines ("Wiphy ".toList ++ phy.name ++ ['\n']), ∀ name, phyName line = some name →
    ¬"phy".toList <+: name

def Held.Overlooked (h : Held) : Prop :=
  (∀ phy ∈ h.phys, phy.Overlooked) ∧ ∀ link ∈ h.links, link.Overlooked

theorem unbroken_iff {t : Text} : unbroken t = true ↔ ∀ c ∈ t, isLineBreak c = false := by
  simp [unbroken]

theorem isLineBreak_digit {c : Char} (h : c.isDigit = true) : isLineBreak c = false := by
  by_contra hbreak
  have hspace := isSpace_of_isLineBreak (by simpa using hbreak)
  rw [isSpace_digit h] at hspace
  cases hspace

/-- A name without white space is overlooked when it begins with `lo`. -/
theorem Link.overlooked_iff_of_plain {link : Link} (h : ∀ c ∈ link.label, isSpace c = false) :
    link.Overlooked ↔ "lo".toList <+: link.label := by
  have hstrip : strip link.label = link.label :=
    strip_eq_self (fun c hc => h c (List.mem_of_mem_head? hc))
      fun c hc => h c (List.mem_of_mem_getLast? hc)
  have hunbroken : unbroken link.label = true := by
    rw [unbroken_iff]
    intro c hc
    by_contra hbreak
    have hspace := isSpace_of_isLineBreak (by simpa using hbreak)
    rw [h c hc] at hspace
    cases hspace
  unfold Link.Overlooked
  rw [hstrip]
  exact ⟨fun h => h.2, fun h => ⟨hunbroken, h⟩⟩

/-! ## Links -/

/-- The name a line gives: what stands between its first two colons. -/
theorem linkName_of_colon {a b : Text} (ha : ∀ c ∈ a, c ≠ ':') :
    linkName (a ++ ':' :: b) = some (strip (b.takeWhile (· ≠ ':'))) := by
  have hdrop : (a ++ ':' :: b).dropWhile (· ≠ ':') = ':' :: b := by
    rw [List.dropWhile_append_of_pos fun c hc => by simpa using ha c hc]
    rfl
  have hblank : strip (a ++ ':' :: b) ≠ [] := by
    intro hnil
    have hcolon := strip_eq_nil.1 hnil ':' (by simp)
    exact absurd hcolon (by decide)
  unfold linkName
  rw [if_neg hblank, hdrop]

theorem Link.index_plain (link : Link) : ∀ c ∈ link.index.val, c.isDigit = true := by
  have h := link.index.property
  simp only [Bool.and_eq_true, List.all_eq_true] at h
  exact h.2

/-- No part of a label holds a colon. -/
theorem Link.label_colon (link : Link) : ∀ c ∈ link.label, c ≠ ':' := by
  have hname : ∀ c ∈ link.name.val, c ≠ ':' := by
    have h := link.name.property
    simp only [isLinkName, Bool.and_eq_true, List.all_eq_true, decide_eq_true_eq] at h
    intro c hc
    exact (h.2 c hc).1.1.2
  unfold Link.label
  cases link.peer with
  | none => exact hname
  | some peer =>
    have hpeer := peer.property
    simp only [List.all_eq_true, decide_eq_true_eq] at hpeer
    intro c hc
    rcases List.mem_append.1 hc with hc | hc
    · exact hname c hc
    · rcases List.mem_cons.1 hc with rfl | hc
      · decide
      · exact hpeer c hc

/-- Whether `get_interfaces_in_namespace` takes a line's name in. -/
def keepsLink (line : Text) : Option Text := (linkName line).filter fun name =>
    !"lo".toList.isPrefixOf name

theorem parseLinks_eq (stdout : Text) :
    parseLinks stdout false = (splitlines stdout).filterMap keepsLink := by
  unfold parseLinks keepsLink
  rw [List.filter_filterMap]
  rfl

/-- An unbroken label is read from the one line of its record. -/
theorem Link.splitlines_record {link : Link} (h : unbroken link.label = true) :
    splitlines (link.record ++ ['\n']) = [link.record] := by
  have hbreak : ∀ c ∈ link.record, isLineBreak c = false := by
    intro c hc
    simp only [Link.record, List.mem_append] at hc
    rcases hc with (((hc | hc) | hc) | hc) | hc
    · exact isLineBreak_digit (link.index_plain c hc)
    · exact forall_of_all (t := ": ".toList) (by decide) c hc
    · exact unbroken_iff.1 h c hc
    · exact forall_of_all (t := ": <".toList) (by decide) c hc
    · exact unbroken_iff.1 link.rest.property c hc
  exact splitlinesFrom_line hbreak

theorem Link.linkName_record (link : Link) : linkName link.record = some (strip link.label) := by
  have hindex : ∀ c ∈ link.index.val, c ≠ ':' := by
    rintro c hc rfl
    exact absurd (link.index_plain _ hc) (by decide)
  have hrecord : link.record =
      link.index.val ++ ':' :: (' ' :: link.label ++ ':' :: (" <".toList ++ link.rest.val)) := by
    simp [Link.record]
  have htake : (' ' :: link.label ++ ':' :: (" <".toList ++ link.rest.val)).takeWhile (· ≠ ':') =
      ' ' :: link.label := by
    rw [List.takeWhile_append_of_pos]
    · simp
    · intro c hc
      rcases List.mem_cons.1 hc with rfl | hc
      · decide
      · simpa using link.label_colon c hc
  rw [hrecord, linkName_of_colon hindex, htake, strip_cons (by decide)]

/-- The last line of a broken record names its flags. -/
theorem keepsLink_flags {b rest : Text} (hb : ∀ c ∈ b, c ≠ ':') :
    keepsLink (b ++ ": <".toList ++ rest) ≠ none := by
  have hline : b ++ ": <".toList ++ rest = b ++ ':' :: (' ' :: '<' :: rest) := by simp
  have htake : (' ' :: '<' :: rest).takeWhile (· ≠ ':') =
    ' ' :: '<' :: rest.takeWhile (· ≠ ':') := by
    simp
  have hflags : ¬"lo".toList <+: strip ('<' :: rest.takeWhile (· ≠ ':')) := by
    intro hlo
    have hstart := hlo.trans (List.rdropWhile_prefix isSpace _)
    have hhead := (List.cons_prefix_cons.1 hstart).1
    exact absurd hhead (by decide)
  unfold keepsLink
  rw [hline, linkName_of_colon hb, htake, strip_cons (by decide)]
  simpa using hflags

theorem exists_last_break {t : Text} (h : unbroken t = false) :
    ∃ a c b, t = a ++ c :: b ∧ isLineBreak c = true ∧ ∀ x ∈ b, isLineBreak x = false := by
  induction t with
  | nil => cases h
  | cons x t ih =>
    by_cases ht : unbroken t = true
    · have hx : isLineBreak x = true := by
        by_contra hx
        have hcons : unbroken (x :: t) = (!isLineBreak x && unbroken t) := rfl
        rw [hcons, ht] at h
        simp [hx] at h
      exact ⟨[], x, t, rfl, hx, unbroken_iff.1 ht⟩
    · obtain ⟨a, c, b, rfl, hc, hb⟩ := ih (by simpa using ht)
      exact ⟨x :: a, c, b, rfl, hc, hb⟩

/-- The reader takes in nothing of a link's record exactly when the link is overlooked. -/
theorem Link.overlooked_iff (link : Link) :
    link.Overlooked ↔ ∀ line ∈ splitlines (link.record ++ ['\n']), keepsLink line = none := by
  by_cases hlabel : unbroken link.label = true
  · rw [link.splitlines_record hlabel]
    unfold Link.Overlooked keepsLink
    simp [hlabel, link.linkName_record]
  · refine ⟨fun h => absurd h.1 hlabel, fun h => ?_⟩
    obtain ⟨a, c, b, hsplit, hc, hb⟩ := exists_last_break (by simpa using hlabel)
    have hrecord : link.record = (link.index.val ++ ": ".toList ++ a) ++
        c :: (b ++ ": <".toList ++ link.rest.val) := by
      simp [Link.record, hsplit]
    have hlast : ∀ x ∈ b ++ ": <".toList ++ link.rest.val, isLineBreak x = false := by
      intro x hx
      simp only [List.mem_append] at hx
      rcases hx with (hx | hx) | hx
      · exact hb x hx
      · exact forall_of_all (t := ": <".toList) (by decide) x hx
      · exact unbroken_iff.1 link.rest.property x hx
    have hcolon : ∀ x ∈ b, x ≠ ':' := fun x hx => link.label_colon x (by simp [hsplit, hx])
    have hmem := mem_splitlines_last hc (link.index.val ++ ": ".toList ++ a) (by simp) hlast
    rw [← hrecord] at hmem
    exact absurd (h _ hmem) (keepsLink_flags hcolon)

theorem parseLinks_eq_nil (h : Held) :
    parseLinks h.ipLinkShow false = [] ↔ ∀ link ∈ h.links, link.Overlooked := by
  rw [parseLinks_eq, Held.ipLinkShow, splitlines_records, List.filterMap_eq_nil_iff]
  simp only [List.mem_flatMap, List.mem_map]
  constructor
  · intro hall link hlink
    rw [link.overlooked_iff]
    exact fun line hline => hall line ⟨_, ⟨link, hlink, rfl⟩, hline⟩
  · rintro hall line ⟨record, ⟨link, hlink, rfl⟩, hline⟩
    exact link.overlooked_iff.1 (hall link hlink) line hline

/-! ## Phys -/

/-- Whether `list_phys` takes a line's name in. -/
def keepsPhy (line : Text) : Option Text := (phyName line).filter fun name =>
    "phy".toList.isPrefixOf name

theorem parsePhys_eq (stdout : Text) : parsePhys stdout =
    (splitlines stdout).filterMap keepsPhy := by
  unfold parsePhys keepsPhy
  rw [List.filter_filterMap]

theorem keepsPhy_eq_none {line : Text} :
    keepsPhy line = none ↔ ∀ name, phyName line = some name → ¬"phy".toList <+: name := by
  unfold keepsPhy
  cases phyName line with
  | none => simp
  | some name => simp

/-- A name of one word is read back from the line of a phy. -/
theorem phyName_plain {name : Text} (hne : name ≠ []) (h : ∀ c ∈ name, isSpace c = false) :
    phyName ("Wiphy ".toList ++ name) = some name := by
  obtain ⟨c, t, hname⟩ := List.exists_cons_of_ne_nil hne
  have hc : isSpace c = false := h c (by simp [hname])
  have hstrip : strip ("Wiphy ".toList ++ name) = "Wiphy ".toList ++ name := by
    apply strip_eq_self
    · intro x hx
      obtain rfl := Option.some.inj hx
      decide
    · intro x hx
      rw [List.getLast?_append_of_ne_nil _ hne] at hx
      exact h x (List.mem_of_mem_getLast? hx)
  have hsecond := words_pair (w := "Wiphy".toList) (t := name) (c := c) (forall_of_all (by decide))
    (by decide) (by rw [hname]; rfl) hc
  rw [word_eq_self h, List.getD_eq_getElem?_getD] at hsecond
  have hget : (words ("Wiphy ".toList ++ name))[1]? = some name := by
    show (words ("Wiphy".toList ++ ' ' :: name))[1]? = some name
    rcases hword : (words ("Wiphy".toList ++ ' ' :: name))[1]? with _ | second
    · rw [hword] at hsecond
      exact absurd hsecond.symm hne
    · rw [hword] at hsecond
      exact congrArg some hsecond
  unfold phyName
  rw [hstrip, hget, if_pos (by simp)]

/-- A phy whose name is one word is overlooked when its name does not begin with `phy`. -/
theorem Phy.overlooked_iff_of_plain {phy : Phy} (hne : phy.name ≠ [])
    (h : ∀ c ∈ phy.name, isSpace c = false) : phy.Overlooked ↔ ¬"phy".toList <+: phy.name := by
  have hheader : ∀ x ∈ "Wiphy ".toList, isLineBreak x = false := forall_of_all (by decide)
  have hunbroken : ∀ x ∈ "Wiphy ".toList ++ phy.name, isLineBreak x = false := by
    intro x hx
    rcases List.mem_append.1 hx with hx | hx
    · exact hheader x hx
    · by_contra hbreak
      have hspace := isSpace_of_isLineBreak (by simpa using hbreak)
      rw [h x hx] at hspace
      cases hspace
  have hlines : splitlines ("Wiphy ".toList ++ phy.name ++ ['\n']) =
    ["Wiphy ".toList ++ phy.name] :=
    splitlinesFrom_line hunbroken
  have hphy := phyName_plain hne h
  unfold Phy.Overlooked
  rw [hlines]
  constructor
  · intro hall
    exact hall _ List.mem_cons_self _ hphy
  · intro hnot line hline name hname
    obtain rfl := List.mem_singleton.1 hline
    obtain rfl := Option.some.inj (hphy.symm.trans hname)
    exact hnot

/-- A line of the body gives no name. -/
theorem BodyLine.phyName (line : BodyLine) : phyName line.text = none := by
  unfold Emptiness.phyName
  rw [if_neg]
  simpa using line.noHeader

theorem parsePhys_eq_nil (h : Held) :
    parsePhys h.iwPhy = [] ↔ ∀ phy ∈ h.phys, phy.Overlooked := by
  rw [parsePhys_eq, Held.iwPhy, splitlines_records, List.filterMap_eq_nil_iff]
  simp only [List.mem_flatMap, keepsPhy_eq_none]
  constructor
  · intro hall phy hphy line hline
    exact hall line ⟨_, ⟨phy, hphy, List.mem_cons_self⟩, hline⟩
  · rintro hall line ⟨record, ⟨phy, hphy, hrecord⟩, hline⟩
    rcases List.mem_cons.1 hrecord with rfl | hrecord
    · exact hall phy hphy line hline
    · obtain ⟨body, hbody, rfl⟩ := List.mem_map.1 hrecord
      have hone : splitlines (body.text ++ ['\n']) = [body.text] :=
        splitlinesFrom_line (unbroken_iff.1 body.unbroken)
      rw [hone] at hline
      obtain rfl := List.mem_singleton.1 hline
      rw [body.phyName]
      simp

/-! ## The two functions -/

variable {E : Env}

/-- The two listings answer. -/
def Lists (E : Env) (name : Text) : Prop := E.iwPhy name = .ok () ∧ E.ipLinkShow name = .ok ()

/-- The listings find nothing exactly in a namespace whose phys and links are all overlooked. -/
theorem remaining_ends (name : Text) (w : World) :
    Ends (remaining E name) w fun r w' => w' = w ∧
      (r = .ok (.ok []) ↔ ∃ n, w.find name = some n ∧ Lists E name ∧ n.held.Overlooked) := by
  unfold remaining listPhys getInterfacesInNamespace
  rw [ends_attempt, ends_bind]
  rcases hfind : w.find name with _ | n
  · have hrun : (do
        let held ← inNamespace name
        lift (E.iwPhy name)
        return parsePhys held.iwPhy : Service (List Text)) w =
        (.error (.runCommand "Cannot open network namespace"), w) :=
      bind_error (by simp only [inNamespace, hfind])
    rw [Ends, hrun]
    exact ⟨rfl, ⟨by rintro ⟨⟩, by simp⟩⟩
  have hheld : inNamespace name w = (.ok n.held, w) := by simp only [inNamespace, hfind]
  rw [ends_bind_ok hheld, ends_bind, ends_lift]
  rcases hphy : E.iwPhy name with e | u
  · cases e with
    | runCommand text => exact ⟨rfl, ⟨by rintro ⟨⟩, by simp [Lists, hphy]⟩⟩
    | other text => exact ⟨rfl, ⟨by rintro ⟨⟩, by simp [Lists, hphy]⟩⟩
  dsimp only
  rw [ends_pure]
  dsimp only
  rw [ends_bind, ends_bind_ok hheld, ends_bind, ends_lift]
  rcases hlink : E.ipLinkShow name with e | u
  · cases e with
    | runCommand text => exact ⟨rfl, ⟨by rintro ⟨⟩, by simp [Lists, hlink]⟩⟩
    | other text => exact ⟨rfl, ⟨by rintro ⟨⟩, by simp [Lists, hlink]⟩⟩
  have hnil : parsePhys n.held.iwPhy ++ parseLinks n.held.ipLinkShow false = [] ↔
      n.held.Overlooked := by
    rw [List.append_eq_nil_iff, parsePhys_eq_nil, parseLinks_eq_nil]
    rfl
  refine ⟨rfl, ?_⟩
  constructor
  · intro h
    refine ⟨n, rfl, ⟨hphy, hlink⟩, hnil.1 ?_⟩
    simpa using h
  · rintro ⟨n', hn, -, hover⟩
    obtain rfl := Option.some.inj hn
    exact congrArg (fun names => Except.ok (Except.ok names)) (hnil.2 hover)

theorem namespaceExists_eq (name : Text) (w : World) :
    namespaceExists E name w = (.ok (E.listNamespaces && (w.find name).isSome), w) := rfl

/-- The delete is issued for a namespace that `list_namespaces` lists. -/
theorem deleteNamespace_ends (name : Text) (w : World) :
    Ends (deleteNamespace E name) w fun _ w' =>
      w'.deleted = w.deleted ++ if E.listNamespaces then (w.find name).toList else [] := by
  unfold deleteNamespace
  rw [ends_bind_ok (namespaceExists_eq name w)]
  by_cases hlist : E.listNamespaces = true
  · rcases hfind : w.find name with _ | n
    · simp
    · rw [hlist]
      simp only [Option.isSome_some, Bool.and_self, if_true]
      show w.deleted ++ (w.find name).toList = _
      rw [hfind]
  · simp [hlist]

theorem resetEmpty_ends (name : Text) (owned : Bool) (w : World) :
    Ends (resetEmpty E name owned) w fun _ w' =>
      w'.deleted = w.deleted ++ if E.listNamespaces then (w.find name).toList else [] := by
  unfold resetEmpty
  rw [ends_bind]
  refine (deleteNamespace_ends name w).mono fun r w' h => ?_
  cases r with
  | error e => exact h
  | ok u =>
    dsimp only
    generalize w.deleted ++ _ = deleted at h ⊢
    rw [ends_bind_ok (namespaceExists_eq name w')]
    split_ifs <;> exact h

theorem deleteEmpty_ends (name : Text) (w : World) :
    Ends (deleteEmpty E name) w fun _ w' =>
      w'.deleted = w.deleted ++ if E.listNamespaces then (w.find name).toList else [] := by
  unfold deleteEmpty
  rw [ends_bind]
  refine (deleteNamespace_ends name w).mono fun r w' h => ?_
  cases r with
  | error e => exact h
  | ok u =>
    dsimp only
    generalize w.deleted ++ _ = deleted at h ⊢
    rw [ends_bind_ok (namespaceExists_eq name w')]
    split_ifs <;> exact h

/-- The listings answer and show nothing, and the namespace is there to delete. -/
def Doomed (E : Env) (name : Text) (n : Netns) : Prop :=
  E.stopApp name = .ok () ∧ Lists E name ∧ E.listNamespaces = true ∧ n.held.Overlooked

theorem deleteNamespaceIfEmpty_ends (name : Text) (w : World) :
    Ends (deleteNamespaceIfEmpty E name) w fun _ w' =>
      (∃ n, w.find name = some n ∧ Doomed E name n ∧ w'.deleted = w.deleted ++ [n]) ∨
      (∀ n, w.find name = some n → ¬Doomed E name n) ∧ w'.deleted = w.deleted := by
  unfold deleteNamespaceIfEmpty
  rw [ends_bind, ends_lift]
  rcases hstop : E.stopApp name with e | u
  · refine Or.inr ⟨fun n _ h => ?_, rfl⟩
    rw [Doomed, hstop] at h
    cases h.1
  dsimp only
  rw [ends_bind]
  refine (remaining_ends name w).mono fun r w' ⟨hw, hnil⟩ => ?_
  subst hw
  have hskip (hr : r ≠ .ok (.ok [])) (n : Netns) (hn : w'.find name = some n) : ¬Doomed E name n :=
    fun h => hr (hnil.2 ⟨n, hn, h.2.1, h.2.2.2⟩)
  rcases r with e | detail | names
  · exact Or.inr ⟨hskip (by simp), rfl⟩
  · exact Or.inr ⟨hskip (by simp), rfl⟩
  cases names with
  | cons name' names => exact Or.inr ⟨hskip (by simp), rfl⟩
  | nil =>
    obtain ⟨n, hn, hlists, hover⟩ := hnil.1 rfl
    refine (deleteEmpty_ends name w').mono fun r w'' h => ?_
    by_cases hlist : E.listNamespaces = true
    · exact Or.inl ⟨n, hn, ⟨hstop, hlists, hlist, hover⟩, by simpa [hlist, hn] using h⟩
    · exact Or.inr ⟨fun _ _ hdoom => hlist hdoom.2.2.1, by simpa [hlist] using h⟩

/-- What `_return_namespace_phys` leaves of a namespace. -/
def Netns.returned (E : Env) (n : Netns) : Netns := { n with held := (E.returnPhys n).2 }

theorem returnNamespacePhys_ends (name : Text) (w : World) :
    Ends (returnNamespacePhys E name) w fun r w' =>
      w'.deleted = w.deleted ∧ w'.find name = (w.find name).map (Netns.returned E) ∧
        ((∃ moved, r = .ok moved) ↔ ∀ n, w.find name = some n → ∃ moved, (E.returnPhys n).1 =
          .ok moved) := by
  unfold Ends returnNamespacePhys
  rcases hfind : w.find name with _ | n
  · exact ⟨rfl, hfind, by simp⟩
  refine ⟨rfl, ?_, by simp⟩
  unfold World.find at hfind ⊢
  -- The map keeps the names, so the same namespace is found.
  have hsame : (fun m : Netns => decide (m.name = name)) ∘
      (fun m => if m.name = name then { m with held := (E.returnPhys n).2 } else m) =
      fun m => decide (m.name = name) := by
    funext m
    by_cases hm : m.name = name
    · simp [hm]
    · simp [hm]
  show (w.netns.map _).find? _ = _
  rw [List.find?_map, hsame, hfind]
  have hname : n.name = name := by simpa using List.find?_some hfind
  simp [hname, Netns.returned]

theorem resetNamespace_ends (name : Text) (w : World) :
    Ends (resetNamespace E name) w fun _ w' =>
      (∃ n moved, w.find name = some n ∧ (E.returnPhys n).1 = .ok moved ∧
        Doomed E name (n.returned E) ∧ w'.deleted = w.deleted ++ [n.returned E]) ∨
      (∀ n moved, w.find name = some n → (E.returnPhys n).1 = .ok moved →
        ¬Doomed E name (n.returned E)) ∧ w'.deleted = w.deleted := by
  unfold resetNamespace
  rw [ends_bind, ends_get]
  dsimp only
  rw [ends_bind]
  refine (returnNamespacePhys_ends name w).mono fun r w₁ ⟨hdeleted, hfind, hmoved⟩ => ?_
  cases r with
  | error e =>
    refine Or.inr ⟨fun n moved hn hok _ => ?_, hdeleted⟩
    have herror := hmoved.2 fun n' hn' => ⟨moved, by rw [Option.some.inj (hn'.symm.trans hn), hok]⟩
    obtain ⟨_, h⟩ := herror
    cases h
  | ok moved =>
    dsimp only
    rw [ends_bind, ends_lift]
    rcases hstop : E.stopApp name with e | u
    · refine Or.inr ⟨fun n _ _ _ h => ?_, hdeleted⟩
      rw [Doomed, hstop] at h
      cases h.1
    dsimp only
    rw [ends_bind]
    refine (remaining_ends name w₁).mono fun r w₂ ⟨hw, hnil⟩ => ?_
    subst hw
    have hskip (hr : r ≠ .ok (.ok [])) (n : Netns) (moved : List Text) (hn : w.find name = some n)
        (_ : (E.returnPhys n).1 = .ok moved) : ¬Doomed E name (n.returned E) :=
      fun h => hr (hnil.2 ⟨n.returned E, by rw [hfind, hn]; rfl, h.2.1, h.2.2.2⟩)
    rcases r with e | detail | names
    · exact Or.inr ⟨hskip (by simp), hdeleted⟩
    · exact Or.inr ⟨hskip (by simp), hdeleted⟩
    cases names with
    | cons name' names => exact Or.inr ⟨hskip (by simp), hdeleted⟩
    | nil =>
      obtain ⟨n', hn', hlists, hover⟩ := hnil.1 rfl
      obtain ⟨n, hn, rfl⟩ := Option.map_eq_some_iff.1 (hfind.symm.trans hn')
      obtain ⟨moved', hmoved'⟩ := hmoved.1 ⟨moved, rfl⟩ n hn
      dsimp only
      rw [ends_bind]
      refine (resetEmpty_ends name _ w₂).mono fun r w₃ h => ?_
      by_cases hlist : E.listNamespaces = true
      · have hlast : w₃.deleted = w.deleted ++ [n.returned E] := by
          rw [h, if_pos hlist, hn', hdeleted]
          rfl
        have hout :=
          Or.inl (b := (∀ n moved, w.find name = some n → (E.returnPhys n).1 = .ok moved →
          ¬Doomed E name (n.returned E)) ∧ w₃.deleted = w.deleted)
          (⟨n, moved', hn, hmoved', ⟨hstop, hlists, hlist, hover⟩, hlast⟩ : ∃ n moved,
            w.find name = some n ∧ (E.returnPhys n).1 = .ok moved ∧
            Doomed E name (n.returned E) ∧ w₃.deleted = w.deleted ++ [n.returned E])
        cases r <;> exact hout
      · have hlast : w₃.deleted = w.deleted := by
          rw [h, if_neg hlist, hdeleted, List.append_nil]
        cases r <;> exact Or.inr ⟨fun _ _ _ _ hdoom => hlist hdoom.2.2.1, hlast⟩

/-- A namespace is deleted only when it holds nothing but loopback. -/
def KeepsUsed {α : Type} (x : Service α) (w : World) : Prop :=
  Ends x w fun _ w' => ∀ n ∈ w'.deleted.drop w.deleted.length, n.held.Empty

/-- Both functions keep every namespace in use exactly when what they come to delete, a namespace
whose phys and links are all overlooked, is empty. -/
theorem keepsUsed_iff (E : Env) (name : Text) (w : World) :
    (KeepsUsed (resetNamespace E name) w ↔ ∀ n moved, w.find name = some n →
      (E.returnPhys n).1 = .ok moved → Doomed E name (n.returned E) → (n.returned E).held.Empty) ∧
    (KeepsUsed (deleteNamespaceIfEmpty E name) w ↔ ∀ n, w.find name = some n →
      Doomed E name n → n.held.Empty) := by
  constructor
  · have hends := resetNamespace_ends (E := E) name w
    unfold Ends at hends
    show (∀ n ∈ (resetNamespace E name w).2.deleted.drop w.deleted.length, n.held.Empty) ↔ _
    rcases hends with ⟨n, moved, hn, hmoved, hdoom, hdeleted⟩ | ⟨hsafe, hdeleted⟩
    · rw [hdeleted, List.drop_left]
      constructor
      · intro h n' moved' hn' _ _
        obtain rfl := Option.some.inj (hn.symm.trans hn')
        exact h _ List.mem_cons_self
      · intro h n' hn'
        obtain rfl := List.mem_singleton.1 hn'
        exact h n moved hn hmoved hdoom
    · rw [hdeleted, List.drop_length]
      exact ⟨fun _ n moved hn hmoved hdoom => absurd hdoom (hsafe n moved hn hmoved), by simp⟩
  · have hends := deleteNamespaceIfEmpty_ends (E := E) name w
    unfold Ends at hends
    show (∀ n ∈ (deleteNamespaceIfEmpty E name w).2.deleted.drop w.deleted.length, n.held.Empty) ↔ _
    rcases hends with ⟨n, hn, hdoom, hdeleted⟩ | ⟨hsafe, hdeleted⟩
    · rw [hdeleted, List.drop_left]
      constructor
      · intro h n' hn' _
        obtain rfl := Option.some.inj (hn.symm.trans hn')
        exact h _ List.mem_cons_self
      · intro h n' hn'
        obtain rfl := List.mem_singleton.1 hn'
        exact h _ hn hdoom
    · rw [hdeleted, List.drop_length]
      exact ⟨fun _ n hn hdoom => absurd hdoom (hsafe n hn), by simp⟩

/-! ## An adapter for IEEE 802.15.4 -/

/-- Everything answers, and `_return_namespace_phys` finds nothing to move. -/
def calmEnv : Env where
  coreNamespaces w := w.markers
  returnPhys n := (.ok [], n.held)
  stopApp _ := .ok ()
  iwPhy _ := .ok ()
  ipLinkShow _ := .ok ()
  listNamespaces := true
  deletes _ := true

def loopback : Link where
  index := ⟨['1'], by decide⟩
  name := ⟨"lo".toList, by decide⟩
  peer := none
  rest := ⟨"LOOPBACK> mtu 65536 qdisc noop state DOWN".toList, by decide⟩

def lowpan : Link where
  index := ⟨['7'], by decide⟩
  name := ⟨"lowpan0".toList, by decide⟩
  peer := some ⟨"wpan0".toList, by decide⟩
  rest := ⟨"BROADCAST,MULTICAST> mtu 1280 qdisc noop state DOWN".toList, by decide⟩

def sensorWorld : World where
  netns := [⟨"sensors".toList, ⟨[loopback, lowpan], []⟩⟩]
  markers := []
  deleted := []

/-- `lowpan0` is in the namespace, and the namespace is deleted. -/
theorem not_keepsUsed_lowpan : ¬KeepsUsed
    (resetNamespace calmEnv "sensors".toList) sensorWorld := by
  intro h
  have hnames : (resetNamespace calmEnv "sensors".toList sensorWorld).2.deleted.map
      (fun n => n.held.links.map fun link => link.name.val) =
        [["lo".toList, "lowpan0".toList]] := by decide +kernel
  obtain ⟨n, hn, hlinks⟩ : ∃ n ∈ (resetNamespace calmEnv "sensors".toList sensorWorld).2.deleted,
      n.held.links.map (fun link => link.name.val) = ["lo".toList, "lowpan0".toList] := by
    apply List.mem_map.1
    rw [hnames]
    exact List.mem_cons_self
  obtain ⟨link, hlink, hname⟩ : ∃ link ∈ n.held.links, link.name.val = "lowpan0".toList := by
    apply List.mem_map.1
    rw [hlinks]
    decide
  have hlo := (h n hn).2 link hlink
  rw [hname] at hlo
  exact absurd hlo (by decide)

end WlanpiCore.Emptiness
