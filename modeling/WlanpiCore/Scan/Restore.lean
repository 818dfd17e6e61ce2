import WlanpiCore.Scan.Call

/-!
# What a scan leaves behind

**`runInterfaceScan_restores`**: however a call of `run_interface_scan` ends, it has taken its
claims back, it has brought up every monitor after it set it down, and it has set the interface down
exactly if it found it down. Its result is that of the scan, unless setting the interface down again
failed.

Everything but setting link states is quiet: it adds to the commands issued, and none of these sets
a link state (`Issues`). What is left are the three places that set them: the `try`, and the two
parts of its `finally`.
-/

namespace WlanpiCore.Scan

open Text

variable {Network : Type} (E : Env) (P : Parsers Network)

/-! ## What is issued -/

/-- Commands with `p` have been issued, and nothing else has changed. -/
def Issues (p : Command → Prop) (w w' : World) : Prop :=
  ∃ cs, (∀ c ∈ cs, p c) ∧ w' = { w with issued := w.issued ++ cs }

theorem Issues.refl (p : Command → Prop) (w : World) : Issues p w w :=
  ⟨[], fun _ h => absurd h List.not_mem_nil, by rw [List.append_nil]⟩

section Issues

variable {E} {P} {p : Command → Prop} {w : World} (hp : ∀ c, c.Quiet → p c)

theorem issues_execute {c : Command} (hc : p c) : Prog.Preserves (Issues p w) (execute E c) := by
  rintro s ⟨cs, hcs, rfl⟩
  refine ⟨cs ++ [c], fun c' hc' => ?_, by simp only [execute, List.append_assoc]⟩
  rcases List.mem_append.1 hc' with hmem | hmem
  · exact hcs c' hmem
  · rwa [List.mem_singleton.1 hmem]

theorem issues_nsExec {c : Command} (hc : p c) (netns : Option Text) (raiseOnFail : Bool) :
    Prog.Preserves (Issues p w) (nsExec E netns c raiseOnFail) := by
  unfold nsExec
  split
  · exact .raise _
  · refine .bind (issues_execute hc) fun result => ?_
    split
    · exact .raise _
    · exact .pure _

theorem issues_otherwise {α : Type} (value : α) (e : Exc) :
    Prog.Preserves (Issues p w) (otherwise value e) := by
  cases e <;> first | exact .pure _ | exact .raise _

theorem issues_setInterfaceState {iface : Iface} {up : Bool} (hc : p (.setState iface up))
    (netns : Option Text) : Prog.Preserves (Issues p w) (setInterfaceState E iface up netns) :=
  .bind (issues_nsExec hc netns true) fun _ => .pure _

include hp

theorem issues_quiet {c : Command} (hc : c.Quiet) (netns : Option Text) (raiseOnFail : Bool) :
    Prog.Preserves (Issues p w) (nsExec E netns c raiseOnFail) :=
  issues_nsExec (hp c hc) netns raiseOnFail

theorem issues_interfaceDriver (iface : Iface) (netns : Option Text) :
    Prog.Preserves (Issues p w) (interfaceDriver E iface netns) :=
  .attempt (.bind (issues_quiet hp (by rintro _ _ ⟨⟩) netns false) fun _ => .pure _)
    fun e => issues_otherwise none e

theorem issues_upMonitors (phyIndex : Int) (netns : Option Text) :
    Prog.Preserves (Issues p w) (upMonitors E phyIndex netns) :=
  .attempt
    (.bind (issues_quiet hp (by rintro _ _ ⟨⟩) netns true) fun _ =>
      .bind (issues_quiet hp (by rintro _ _ ⟨⟩) netns true) fun _ => .pure _)
    fun e => issues_otherwise [] e

theorem issues_siblingMonitors (iface : Iface) (netns : Option Text) :
    Prog.Preserves (Issues p w) (siblingMonitors E iface netns) := by
  refine .bind (.attempt (.map some (issues_quiet hp (by rintro _ _ ⟨⟩) netns true))
    fun e => issues_otherwise none e) fun dev => ?_
  cases dev with
  | none => exact .pure _
  | some dev =>
    dsimp only
    split
    · exact .pure _
    · exact .bind (issues_upMonitors hp _ netns) fun _ => .pure _

theorem issues_monitorsToPause (iface : Iface) (netns : Option Text) :
    Prog.Preserves (Issues p w) (monitorsToPause E iface netns) := by
  refine .bind (issues_siblingMonitors hp iface netns) fun monitors => ?_
  split
  · exact .pure _
  · refine .bind (.bind (issues_quiet hp (by rintro _ _ ⟨⟩) netns true) fun _ => .pure _)
      fun captured => ?_
    dsimp only
    split
    · exact .raise _
    · exact .pure _

theorem issues_interfaceIsUp (iface : Iface) (netns : Option Text) :
    Prog.Preserves (Issues p w) (interfaceIsUp E iface netns) :=
  .bind (issues_quiet hp (by rintro _ _ ⟨⟩) netns true) fun _ =>
    .bind (.lift _) fun _ => .pure _

theorem issues_wpaCliAvailable (iface : Iface) (netns : Option Text) :
    Prog.Preserves (Issues p w) (wpaCliAvailable E iface netns) :=
  .bind (issues_quiet hp (by rintro _ _ ⟨⟩) netns false) fun _ => .pure _

theorem issues_pollScanResults (req : Request) (detail : Text) (attempts : Nat)
    (lastError : Option Exc) :
    Prog.Preserves (Issues p w) (pollScanResults E P req detail attempts lastError) := by
  induction attempts generalizing lastError with
  | zero => cases lastError with
    | none => exact .pure _
    | some e => exact .raise e
  | succ attempts ih =>
    refine .bind (.observe (.bind (issues_quiet hp (by rintro _ _ ⟨⟩) req.netns true)
      fun _ => .lift _)) fun fetched => ?_
    split
    · exact ih lastError
    · exact .pure _
    · exact ih _
    · exact .raise _

theorem issues_runWpaCliScan (req : Request) (detail : Text) :
    Prog.Preserves (Issues p w) (runWpaCliScan E P req detail) :=
  .bind (.lift _) fun _ => .bind (issues_quiet hp (by rintro _ _ ⟨⟩) req.netns true) fun _ =>
    issues_pollScanResults hp req detail 8 none

theorem issues_runIwScan (req : Request) (detail : Text) :
    Prog.Preserves (Issues p w) (runIwScan E P req detail) := by
  refine .bind (.lift _) fun _ => .bind (issues_quiet hp (by rintro _ _ ⟨⟩) req.netns false)
    fun result => ?_
  dsimp only
  split
  · split <;> exact .raise _
  · exact .lift _

theorem issues_allowOtherUnicast (iface : Iface) (netns : Option Text) :
    Prog.Preserves (Issues p w) (allowOtherUnicast E iface netns) := by
  refine .attempt (.bind (issues_interfaceDriver hp iface netns) fun driver => ?_) fun _ => .pure ()
  split
  · exact .pure _
  · split
    · exact .raise _
    · refine .bind (issues_quiet hp (by rintro _ _ ⟨⟩) netns true) fun info => ?_
      split
      · exact .pure _
      · exact .bind (issues_execute (hp _ (by rintro _ _ ⟨⟩))) fun _ => .pure _

omit hp

/-- The `try` sets nothing down but the paused monitors. -/
theorem issues_tryScan (req : Request) (mode detail : Text) (paused : List Iface)
    (originallyUp : Bool) :
    Prog.Preserves (Issues (fun c => ∀ mon, c = .setState mon false → mon ∈ paused) w)
      (tryScan E P req mode detail paused originallyUp) := by
  have hquiet (c : Command) (hc : c.Quiet) (mon : Iface) (heq : c = .setState mon false) :
      mon ∈ paused := absurd heq (hc mon false)
  refine .bind (.forM fun mon hmon => issues_setInterfaceState (fun mon' heq => ?_) req.netns)
    fun _ => .bind ?_ fun _ => ?_
  · cases heq
    exact hmon
  · cases originallyUp with
    | true => exact .pure ()
    | false => exact issues_setInterfaceState (fun mon' heq => by cases heq) req.netns
  · split
    · exact issues_runIwScan hquiet req detail
    · refine .bind (issues_wpaCliAvailable hquiet req.iface req.netns) fun available => ?_
      split
      · refine .attempt (issues_runWpaCliScan hquiet req detail) fun e => ?_
        split
        · exact issues_runIwScan hquiet req detail
        · exact .raise _
      · exact issues_runIwScan hquiet req detail

end Issues

/-! ## What sets link states -/

section

variable {E} {req : Request} (hnetns : req.netns.bind validateNamespaceName = none)

include hnetns

theorem setInterfaceState_run (iface : Iface) (up : Bool) (w : World) :
    ∃ r, setInterfaceState E iface up req.netns w =
      (r, { w with issued := w.issued ++ [.setState iface up] }) := by
  unfold setInterfaceState nsExec
  rw [hnetns]
  dsimp only
  cases hexec : E.exec w.issued (.setState iface up) with
  | error e =>
    have hrun : execute E (.setState iface up) w =
        (.error e, { w with issued := w.issued ++ [.setState iface up] }) := by
      rw [execute, hexec]
    exact ⟨.error e, by rw [Prog.bind_error (Prog.bind_error hrun)]⟩
  | ok result =>
    have hrun : execute E (.setState iface up) w =
        (.ok result, { w with issued := w.issued ++ [.setState iface up] }) := by
      rw [execute, hexec]
    by_cases hcode : result.returnCode = 0
    · exact ⟨.ok (), by simp [bind, hrun, hcode, pure]⟩
    · exact ⟨.error (.runCommand result.stderr result.returnCode),
        by simp [bind, hrun, hcode, Prog.raise]⟩

theorem restoreMonitors_run (paused : List Iface) (w : World) :
    restoreMonitors E req paused w =
      (.ok (), { w with issued := w.issued ++ paused.map (.setState · true) }) := by
  induction paused generalizing w with
  | nil =>
    rw [List.map_nil, List.append_nil]
    rfl
  | cons mon paused ih =>
    obtain ⟨r, hset⟩ := setInterfaceState_run (E := E) hnetns mon true w
    have hone : Prog.attempt (setInterfaceState E mon true req.netns) (fun _ => pure ()) w =
        (.ok (), { w with issued := w.issued ++ [.setState mon true] }) := by
      cases r with
      | ok u => exact Prog.attempt_ok hset
      | error e =>
        rw [Prog.attempt_error hset]
        rfl
    have hrest := ih { w with issued := w.issued ++ [.setState mon true] }
    have hrun : restoreMonitors E req (mon :: paused) w =
        restoreMonitors E req paused { w with issued := w.issued ++ [.setState mon true] } :=
      Prog.bind_ok hone
    rw [hrun, hrest, List.append_assoc]
    rfl

theorem setUnlessUp_run (originallyUp up : Bool) (w : World) :
    ∃ r, setUnlessUp E req originallyUp up w = (r, { w with
      issued := w.issued ++ if originallyUp then [] else [.setState req.iface up] }) := by
  cases originallyUp with
  | true => exact ⟨.ok (), by rw [if_pos rfl, List.append_nil]; rfl⟩
  | false => exact setInterfaceState_run hnetns req.iface up w

/-- The inner `finally` never raises. -/
theorem lastly_run (driver : Option Text) (paused : List Iface) (w : World) :
    ∃ cs, (∀ c ∈ cs, c.Quiet) ∧ lastly E req driver paused w = (.ok (), { w with
      issued := w.issued ++ paused.map (.setState · true) ++ cs }) := by
  have hrestore := restoreMonitors_run (E := E) hnetns paused w
  unfold lastly
  rw [Prog.bind_ok hrestore]
  split
  · have hquiet := issues_allowOtherUnicast (E := E) (p := Command.Quiet) (fun c hc => hc)
      req.iface req.netns _ (Issues.refl _ { w with
        issued := w.issued ++ paused.map (.setState · true) })
    obtain ⟨cs, hcs, heq⟩ := hquiet
    refine ⟨cs, hcs, Prod.ext ?_ heq⟩
    unfold allowOtherUnicast Prog.attempt
    split <;> rfl
  · exact ⟨[], fun c hc => absurd hc List.not_mem_nil, by rw [List.append_nil]; rfl⟩

end

theorem interfaceIsUp_ok {req : Request} {w w' : World} {up : Bool}
    (h : interfaceIsUp E req.iface req.netns w = (.ok up, w')) :
    req.netns.bind validateNamespaceName = none ∧ up = E.up w.issued req.iface := by
  unfold interfaceIsUp nsExec at h
  cases hnetns : req.netns.bind validateNamespaceName with
  | some message =>
    rw [hnetns] at h
    cases congrArg Prod.fst h
  | none =>
    rw [hnetns] at h
    refine ⟨rfl, ?_⟩
    dsimp only at h
    cases hexec : E.exec w.issued (.linkShow req.iface) with
    | error e =>
      have hrun : execute E (.linkShow req.iface) w =
          (.error e, { w with issued := w.issued ++ [.linkShow req.iface] }) := by
        rw [execute, hexec]
      rw [Prog.bind_error (Prog.bind_error hrun)] at h
      cases congrArg Prod.fst h
    | ok result =>
      have hrun : execute E (.linkShow req.iface) w =
          (.ok result, { w with issued := w.issued ++ [.linkShow req.iface] }) := by
        rw [execute, hexec]
      by_cases hcode : result.returnCode = 0
      · cases hflags : linkFlags E.depth req.iface result.stdout with
        | error e =>
          simp [bind, hrun, hcode, pure, Prog.lift, hflags] at h
        | ok flags =>
          have hup := E.linkShow_up w.issued req.iface result flags hexec hcode hflags
          simp [bind, hrun, hcode, pure, Prog.lift, hflags] at h
          rw [← hup, h.1]
      · simp [bind, hrun, hcode, Prog.raise] at h

/-! ## The call -/

/-- What the `try` of a call works with. -/
structure Attempt where
  detail : Text
  driver : Option Text
  paused : List Iface
  originallyUp : Bool

/-- A call before it claims. -/
def approach (req : Request) : ScanProg (Text × Option Text × List Iface) := do
  let detail ← Prog.lift (normalizeScanDetail req.detail)
  let driver ← interfaceDriver E req.iface req.netns
  let paused ← pausedFor E req driver
  pure (detail, driver, paused)

/-- What a call claims. -/
def keysOf (req : Request) (driver : Option Text) (paused : List Iface) : Finset Key :=
  ((req.iface :: if driver = some "iwlwifi".toList then paused ++ ["iwlwifi".toList] else []).map
    fun name => (req.netns, name)).toFinset

/-- A call up to its `try`. -/
def enterTry (req : Request) : ScanProg Attempt := do
  let (detail, driver, paused) ← approach E req
  let w ← Prog.get
  if keysOf req driver paused ∩ w.active ≠ ∅ then
    Prog.raise (.scanInProgress req.iface req.netns)
  else do
    Prog.update fun w => { w with active := w.active ∪ keysOf req driver paused }
    let originallyUp ← interfaceIsUp E req.iface req.netns
    pure ⟨detail, driver, paused, originallyUp⟩

/-- A call is its `try` and its `finally`, between the claim and its release. -/
theorem runInterfaceScan_eq (req : Request) : runInterfaceScan E P req =
    approach E req >>= fun found =>
      claimScan req.iface req.netns
        (if found.2.1 = some "iwlwifi".toList then found.2.2 ++ ["iwlwifi".toList] else [])
        (interfaceIsUp E req.iface req.netns >>= fun originallyUp =>
          Prog.ensuring
            (tryScan E P req (lower (req.mode.getD [])) found.1 found.2.2 originallyUp)
            (Prog.ensuring (setUnlessUp E req originallyUp false)
              (lastly E req found.2.1 found.2.2))) := by
  simp only [runInterfaceScan, approach, bind_assoc, pure_bind]

section

variable {E}

theorem issues_approach (req : Request) (w : World) :
    Prog.Preserves (Issues Command.Quiet w) (approach E req) := by
  have hquiet (c : Command) (hc : c.Quiet) : c.Quiet := hc
  refine .bind (.lift _) fun detail => .bind (issues_interfaceDriver hquiet req.iface req.netns)
    fun driver => .bind ?_ fun paused => .pure _
  unfold pausedFor
  split
  · exact issues_monitorsToPause hquiet req.iface req.netns
  · exact .pure _

/-- The interface itself is not paused. -/
theorem not_mem_siblingMonitors {iface : Iface} {netns : Option Text} {w w' : World}
    {monitors : List Iface} (h : siblingMonitors E iface netns w = (.ok monitors, w')) :
    iface ∉ monitors := by
  have hends : Prog.Ends (siblingMonitors E iface netns) w fun r _ =>
      ∀ monitors, r = .ok monitors → iface ∉ monitors := by
    unfold siblingMonitors
    rw [Prog.ends_bind]
    refine Prog.Ends.mono (R := fun _ _ => True) trivial fun r s _ => ?_
    cases r with
    | error e => exact fun monitors hm => by cases hm
    | ok dev =>
      dsimp only
      split
      · rintro monitors ⟨⟩
        exact List.not_mem_nil
      · split
        · rintro monitors ⟨⟩
          exact List.not_mem_nil
        · rw [Prog.ends_bind]
          refine Prog.Ends.mono (R := fun _ _ => True) trivial fun r s _ => ?_
          cases r with
          | error e => exact fun monitors hm => by cases hm
          | ok found =>
            rintro monitors ⟨⟩
            simp
  rw [Prog.Ends, h] at hends
  exact hends monitors rfl

theorem not_mem_monitorsToPause {iface : Iface} {netns : Option Text} {w w' : World}
    {paused : List Iface} (h : monitorsToPause E iface netns w = (.ok paused, w')) :
    iface ∉ paused := by
  unfold monitorsToPause at h
  rcases hsiblings : siblingMonitors E iface netns w with ⟨e | monitors, w₁⟩
  · rw [Prog.bind_error hsiblings] at h
    cases congrArg Prod.fst h
  · rw [Prog.bind_ok hsiblings] at h
    have hnot := not_mem_siblingMonitors hsiblings
    split at h
    · cases congrArg Prod.fst h
      exact List.not_mem_nil
    · rcases hcaptured : capturedInterfaces E netns w₁ with ⟨e | captured, w₂⟩
      · rw [Prog.bind_error hcaptured] at h
        cases congrArg Prod.fst h
      · rw [Prog.bind_ok hcaptured] at h
        split at h
        · cases congrArg Prod.fst h
        · cases congrArg Prod.fst h
          exact hnot

theorem not_mem_approach {req : Request} {w w' : World} {found : Text × Option Text × List Iface}
    (h : approach E req w = (.ok found, w')) : req.iface ∉ found.2.2 := by
  unfold approach at h
  rcases hdetail : (Prog.lift (normalizeScanDetail req.detail) : ScanProg Text) w
    with ⟨e | detail, w₁⟩
  · rw [Prog.bind_error hdetail] at h
    cases congrArg Prod.fst h
  rw [Prog.bind_ok hdetail] at h
  rcases hdriver : interfaceDriver E req.iface req.netns w₁ with ⟨e | driver, w₂⟩
  · rw [Prog.bind_error hdriver] at h
    cases congrArg Prod.fst h
  rw [Prog.bind_ok hdriver] at h
  rcases hpaused : pausedFor E req driver w₂ with ⟨e | paused, w₃⟩
  · rw [Prog.bind_error hpaused] at h
    cases congrArg Prod.fst h
  rw [Prog.bind_ok hpaused] at h
  cases congrArg Prod.fst h
  unfold pausedFor at hpaused
  split at hpaused
  · exact not_mem_monitorsToPause hpaused
  · cases congrArg Prod.fst hpaused
    exact List.not_mem_nil

theorem up_quiet {cs : List Command} (h : ∀ c ∈ cs, c.Quiet) (issued : List Command) :
    E.up (issued ++ cs) = E.up issued := by
  induction cs generalizing issued with
  | nil => rw [List.append_nil]
  | cons c cs ih =>
    rw [List.append_cons, ih (fun c' hc' => h c' (List.mem_cons_of_mem c hc'))]
    exact E.quiet_up issued c (h c List.mem_cons_self)

end

/-! ## What a call leaves behind -/

variable {E P}

/-- The call, from its `try` on. -/
def fromTry (E : Env) (P : Parsers Network) (req : Request) (a : Attempt) :
    ScanProg (List Network) :=
  Prog.ensuring (tryScan E P req (lower (req.mode.getD [])) a.detail a.paused a.originallyUp)
    (Prog.ensuring (setUnlessUp E req a.originallyUp false) (lastly E req a.driver a.paused))

section

variable {req : Request} {w w₀ : World} {detail : Text} {driver : Option Text} {paused : List Iface}
  (happroach : approach E req w = (.ok (detail, driver, paused), w₀))

include happroach

/-- Another scan holds one of the keys. -/
theorem run_busy (hbusy : keysOf req driver paused ∩ w₀.active ≠ ∅) :
    runInterfaceScan E P req w = (.error (.scanInProgress req.iface req.netns), w₀) ∧
      enterTry E req w = (.error (.scanInProgress req.iface req.netns), w₀) := by
  constructor
  · rw [runInterfaceScan_eq, Prog.bind_ok happroach]
    exact congrFun (if_pos hbusy) w₀
  · rw [enterTry, Prog.bind_ok happroach]
    exact congrFun (if_pos hbusy) w₀

theorem run_free (hfree : ¬ keysOf req driver paused ∩ w₀.active ≠ ∅) :
    let w₁ := { w₀ with active := w₀.active ∪ keysOf req driver paused }
    let out := (interfaceIsUp E req.iface req.netns >>= fun up =>
      fromTry E P req ⟨detail, driver, paused, up⟩) w₁
    runInterfaceScan E P req w =
        (out.1, { out.2 with active := out.2.active \ keysOf req driver paused }) ∧
      enterTry E req w =
        (interfaceIsUp E req.iface req.netns >>= fun up =>
          pure ⟨detail, driver, paused, up⟩) w₁ := by
  constructor
  · rw [runInterfaceScan_eq, Prog.bind_ok happroach]
    exact congrFun (if_neg hfree) w₀
  · rw [enterTry, Prog.bind_ok happroach]
    exact congrFun (if_neg hfree) w₀

end

/-- A call that does not get to its `try` has issued quiet commands only; one that does ends as it
does from there. In both cases its claims are gone. -/
theorem runInterfaceScan_enterTry (req : Request) (w : World) :
    match enterTry E req w with
    | (.error _, _) => (∃ e, (runInterfaceScan E P req w).1 = .error e) ∧
      Issues Command.Quiet w (runInterfaceScan E P req w).2
    | (.ok a, w₁) => req.iface ∉ a.paused ∧ req.netns.bind validateNamespaceName = none ∧
      a.originallyUp = E.up w.issued req.iface ∧
      (∃ cs, (∀ c ∈ cs, c.Quiet) ∧ w₁.issued = w.issued ++ cs) ∧
      ∃ keys, w₁.active \ keys = w.active ∧ runInterfaceScan E P req w =
        ((fromTry E P req a w₁).1, { (fromTry E P req a w₁).2 with
          active := (fromTry E P req a w₁).2.active \ keys }) := by
  rcases happroach : approach E req w with ⟨e | ⟨detail, driver, paused⟩, w₀⟩
  · have hquiet := issues_approach (E := E) req w w (.refl _ w)
    rw [happroach] at hquiet
    rw [runInterfaceScan_eq, enterTry, Prog.bind_error happroach, Prog.bind_error happroach]
    exact ⟨⟨e, rfl⟩, hquiet⟩
  obtain ⟨cs₀, hcs₀, hw₀⟩ : Issues Command.Quiet w w₀ := by
    have hquiet := issues_approach (E := E) req w w (.refl _ w)
    rwa [happroach] at hquiet
  by_cases hbusy : keysOf req driver paused ∩ w₀.active ≠ ∅
  · obtain ⟨hrun, henter⟩ := run_busy (P := P) happroach hbusy
    rw [hrun, henter]
    exact ⟨⟨_, rfl⟩, cs₀, hcs₀, hw₀⟩
  obtain ⟨hrun, henter⟩ := run_free (P := P) happroach hbusy
  have hactive : w₀.active = w.active := by rw [hw₀]
  have hissued : w₀.issued = w.issued ++ cs₀ := by rw [hw₀]
  have hkeys : (w.active ∪ keysOf req driver paused) \ keysOf req driver paused = w.active := by
    refine Finset.union_sdiff_cancel_right (Finset.disjoint_iff_inter_eq_empty.2 ?_)
    rw [Finset.inter_comm, ← hactive]
    exact not_not.1 hbusy
  rw [hrun, henter]
  generalize hw₁ : ({ w₀ with active := w₀.active ∪ keysOf req driver paused } : World) = w₁
  rcases hup : interfaceIsUp E req.iface req.netns w₁ with ⟨e | up, w₂⟩
  · obtain ⟨cs, hcs, hw₂⟩ : Issues Command.Quiet w₁ w₂ := by
      have hquiet := issues_interfaceIsUp (E := E) (fun c hc => hc) req.iface req.netns w₁
        (.refl Command.Quiet w₁)
      rwa [hup] at hquiet
    rw [Prog.bind_error hup, Prog.bind_error hup]
    refine ⟨⟨e, rfl⟩, cs₀ ++ cs, fun c hc => (List.mem_append.1 hc).elim (hcs₀ c) (hcs c), ?_⟩
    dsimp only
    rw [hw₂, ← hw₁]
    dsimp only
    rw [hactive, hkeys, hissued, List.append_assoc]
  · obtain ⟨cs, hcs, hw₂⟩ : Issues Command.Quiet w₁ w₂ := by
      have hquiet := issues_interfaceIsUp (E := E) (fun c hc => hc) req.iface req.netns w₁
        (.refl Command.Quiet w₁)
      rwa [hup] at hquiet
    obtain ⟨hnetns, hstate⟩ := interfaceIsUp_ok E hup
    rw [Prog.bind_ok hup, Prog.bind_ok hup]
    refine ⟨not_mem_approach happroach, hnetns, ?_, ⟨cs₀ ++ cs,
      fun c hc => (List.mem_append.1 hc).elim (hcs₀ c) (hcs c), ?_⟩,
      keysOf req driver paused, ?_, rfl⟩
    · rw [hstate, ← hw₁, hissued, up_quiet hcs₀]
    · rw [hw₂, ← hw₁, hissued, List.append_assoc]
    · rw [hw₂, ← hw₁, hactive, hkeys]

theorem mem_after_of_append {α : Type} {front back before after : List α} {x : α}
    (h : front ++ back = before ++ x :: after) (hx : x ∉ back) : back <:+ after := by
  rcases List.append_eq_append_iff.1 h with ⟨rest, hbefore, hback⟩ | ⟨rest, hfront, hafter⟩
  · exact absurd (hback ▸ List.mem_append_right rest List.mem_cons_self) hx
  · cases rest with
    | nil =>
      rw [List.nil_append] at hafter
      rw [← hafter] at hx
      exact absurd List.mem_cons_self hx
    | cons y rest =>
      rw [List.cons_append, List.cons.injEq] at hafter
      exact hafter.2 ▸ List.suffix_append rest back

/-- What has been issued since, and how the call ends. -/
structure Restores (E : Env) (P : Parsers Network) (req : Request) (w : World) : Prop where
  /-- The claims are those of before. -/
  claims : (runInterfaceScan E P req w).2.active = w.active
  /-- Every monitor it set down has been brought up since. -/
  monitors : ∃ cs, (runInterfaceScan E P req w).2.issued = w.issued ++ cs ∧
    ∀ mon, mon ≠ req.iface → ∀ before after, cs = before ++ .setState mon false :: after →
      .setState mon true ∈ after
  /-- It has set the interface down exactly if it read its state and the interface was down. -/
  interface : ∃ cs, (runInterfaceScan E P req w).2.issued = w.issued ++ cs ∧
    (.setState req.iface false ∈ cs ↔
      (∃ a w₁, enterTry E req w = (.ok a, w₁)) ∧ E.up w.issued req.iface = false)
  /-- After the scan and after the interface is down again, every monitor gets its restore,
  whichever of them fail; and the result is the scan's, unless setting the interface down failed. -/
  outcome : ∀ a w₁, enterTry E req w = (.ok a, w₁) →
    ∀ scanned w₂, tryScan E P req (lower (req.mode.getD [])) a.detail a.paused a.originallyUp w₁ =
      (scanned, w₂) →
    ∀ lowered w₃, setUnlessUp E req a.originallyUp false w₂ = (lowered, w₃) →
      (∃ cs, (∀ c ∈ cs, c.Quiet) ∧ (runInterfaceScan E P req w).2.issued =
        w₃.issued ++ a.paused.map (.setState · true) ++ cs) ∧
      (runInterfaceScan E P req w).1 = lowered.bind fun _ => scanned

theorem quiet_not_mem {cs : List Command} (h : ∀ c ∈ cs, c.Quiet) (iface : Iface) (up : Bool) :
    .setState iface up ∉ cs := fun hmem => h _ hmem iface up rfl

/-- However a call of `run_interface_scan` ends, the radio is put back. -/
theorem runInterfaceScan_restores (E : Env) (P : Parsers Network) (req : Request) (w : World) :
    Restores E P req w := by
  have hcall := runInterfaceScan_enterTry (E := E) (P := P) req w
  rcases henter : enterTry E req w with ⟨e | a, w₁⟩
  · rw [henter] at hcall
    obtain ⟨-, cs, hcs, hrun⟩ := hcall
    refine ⟨by rw [hrun], ⟨cs, by rw [hrun], fun mon _ before after heq => ?_⟩,
      ⟨cs, by rw [hrun], ?_⟩, fun a w₁ h => ?_⟩
    · exact absurd (heq ▸ List.mem_append_right before List.mem_cons_self)
        (quiet_not_mem hcs mon false)
    · refine iff_of_false (quiet_not_mem hcs req.iface false) ?_
      rintro ⟨⟨a, w₁, h⟩, -⟩
      rw [henter] at h
      cases h
    · rw [henter] at h
      cases h
  rw [henter] at hcall
  obtain ⟨hiface, hnetns, hup, ⟨quiet, hquiet, hissued₁⟩, keys, hkeys, hrun⟩ := hcall
  rcases hscan : tryScan E P req (lower (req.mode.getD [])) a.detail a.paused a.originallyUp w₁
    with ⟨scanned, w₂⟩
  obtain ⟨tried, htried, hw₂⟩ := issues_tryScan (E := E) (P := P) req (lower (req.mode.getD []))
    a.detail a.paused a.originallyUp w₁ (.refl _ w₁)
  rw [hscan] at hw₂
  dsimp only at hw₂
  obtain ⟨lowered, hlower⟩ := setUnlessUp_run (E := E) hnetns a.originallyUp false w₂
  obtain ⟨rest, hrest, hlastly⟩ := lastly_run (E := E) hnetns a.driver a.paused { w₂ with
    issued := w₂.issued ++ if a.originallyUp then [] else [.setState req.iface false] }
  have hfrom : fromTry E P req a w₁ = (lowered.bind fun _ => scanned, { w₂ with
      issued := w₂.issued ++ (if a.originallyUp then [] else [.setState req.iface false]) ++
        a.paused.map (.setState · true) ++ rest }) := by
    unfold fromTry Prog.ensuring
    rw [hscan]
    dsimp only
    rw [hlower]
    dsimp only
    rw [hlastly]
    cases lowered <;> rfl
  -- What the call issues, in order.
  let front := quiet ++ tried ++ if a.originallyUp then [] else [.setState req.iface false]
  let back := a.paused.map (.setState · true) ++ rest
  have hissued : (runInterfaceScan E P req w).2.issued = w.issued ++ (front ++ back) := by
    rw [hrun, hfrom, hw₂]
    dsimp only
    rw [hissued₁]
    simp only [front, back, List.append_assoc]
  have hback (mon : Iface) : Command.setState mon false ∉ back := by
    intro hmem
    rcases List.mem_append.1 hmem with hmem | hmem
    · obtain ⟨mon', -, heq⟩ := List.mem_map.1 hmem
      cases heq
    · exact quiet_not_mem hrest mon false hmem
  refine ⟨?_, ⟨_, hissued, fun mon hmon before after heq => ?_⟩, ⟨_, hissued, ?_⟩, ?_⟩
  · rw [hrun, hfrom, hw₂]
    exact hkeys
  · have hmem : Command.setState mon false ∈ front := by
      have hall : Command.setState mon false ∈ front ++ back :=
        heq ▸ List.mem_append_right before List.mem_cons_self
      exact (List.mem_append.1 hall).resolve_right (hback mon)
    have hpaused : mon ∈ a.paused := by
      rcases List.mem_append.1 hmem with hmem | hmem
      · rcases List.mem_append.1 hmem with hmem | hmem
        · exact absurd hmem (quiet_not_mem hquiet mon false)
        · exact htried _ hmem mon rfl
      · split at hmem
        · cases hmem
        · cases List.mem_singleton.1 hmem
          exact absurd rfl hmon
    refine (mem_after_of_append heq (hback mon)).subset (List.mem_append_left rest ?_)
    exact List.mem_map.2 ⟨mon, hpaused, rfl⟩
  · have hfront : Command.setState req.iface false ∈ front ++ back ↔ a.originallyUp = false := by
      constructor
      · intro hmem
        rcases List.mem_append.1 ((List.mem_append.1 hmem).resolve_right (hback req.iface)) with
          hmem | hmem
        · rcases List.mem_append.1 hmem with hmem | hmem
          · exact absurd hmem (quiet_not_mem hquiet req.iface false)
          · exact absurd (htried _ hmem req.iface rfl) hiface
        · by_contra hne
          rw [Bool.not_eq_false] at hne
          rw [if_pos hne] at hmem
          cases hmem
      · intro hfalse
        refine List.mem_append_left back (List.mem_append_right _ ?_)
        rw [hfalse]
        exact List.mem_singleton.2 rfl
    rw [hfront, ← hup]
    exact ⟨fun h => ⟨⟨a, w₁, henter⟩, h⟩, fun h => h.2⟩
  · rintro a' w₁' h scanned' w₂' hscan' lowered' w₃' hlower'
    rw [henter] at h
    cases h
    rw [hscan] at hscan'
    cases hscan'
    rw [hlower] at hlower'
    cases hlower'
    refine ⟨⟨rest, hrest, ?_⟩, ?_⟩
    · rw [hrun, hfrom]
    · rw [hrun, hfrom]

/-! ## A radio with a monitor -/

/-- `mon0` and `wlan0` of `phy0`. -/
def radioDev : Text :=
  ("phy#0\n\tInterface mon0\n\t\tifindex 4\n\t\ttype monitor\n" ++
    "\tInterface wlan0\n\t\tifindex 3\n\t\ttype managed\n").toList

/-- `mon0` is up at first and `wlan0` down; after that the last command for an interface counts. -/
def radioUp (issued : List Command) (iface : Iface) : Bool :=
  issued.foldl (fun up c => match c with
    | .setState other state => if other = iface then state else up
    | _ => up) (iface = "mon0".toList)

/-- What `ip -j link show` prints of an interface that is up, or down. -/
def radioLink (up : Bool) : Text :=
  if up then "[\x7b\"flags\":[\"BROADCAST\",\"UP\"]\x7d]".toList
  else "[\x7b\"flags\":[\"BROADCAST\"]\x7d]".toList

def radioFlags (up : Bool) : List Json :=
  .str (some "BROADCAST".toList) :: if up then [.str (some "UP".toList)] else []

theorem linkFlags_radioLink (up : Bool) (iface : Iface) :
    linkFlags 100 iface (radioLink up) = .ok (radioFlags up) := by
  have hloads : Json.loads 100 (radioLink up) =
      .ok (.arr [.obj [(some "flags".toList, .arr (radioFlags up))]]) :=
    Json.loads_of_same (by cases up <;> decide +kernel)
  rw [linkFlags, hloads]
  simp [Json.member]

/-- An `iwlwifi` radio with an up monitor. No `wpa_supplicant` answers, and restoring `mon0` fails.
-/
def radio : Env where
  depth := 100
  exec issued c := match c with
    | .readDriver _ => .ok ⟨"../../../../bus/pci/drivers/iwlwifi\n".toList, [], 0⟩
    | .iwDev => .ok ⟨radioDev, [], 0⟩
    | .linksUp => .ok ⟨"4: mon0: <BROADCAST,UP> mtu 1500\n".toList, [], 0⟩
    | .linkShow iface => .ok ⟨radioLink (radioUp issued iface), [], 0⟩
    | .wpaCli .. => .ok ⟨[], "Failed to connect".toList, 255⟩
    | .setState iface up =>
      .ok ⟨[], [], if iface = "mon0".toList ∧ up = true then 2 else 0⟩
    | _ => .ok ⟨[], [], 0⟩
  up := radioUp
  quiet_up issued c hc := by
    funext iface
    cases c with
    | setState other state => exact absurd rfl (hc other state)
    | _ => simp [radioUp, List.foldl_append]
  linkShow_up issued iface result flags hexec _ hflags := by
    cases hexec
    rw [linkFlags_radioLink] at hflags
    cases hflags
    cases radioUp issued iface <;> rfl

/-- Parsers that find one network. -/
def oneNetwork : Parsers Text where
  parseWpaScanResults _ _ := .ok []
  parseIwScanOutput _ _ _ := .ok ["lab".toList]
  finalizeNetworkEntry network _ := network

/-- A scan of `wlan0`, as the endpoint asks for it. -/
def wlan0Scan : Request := ⟨"wlan0".toList, none, false, none, "short".toList⟩

/-- The monitor goes down and up again, the interface up and down, and the failing restore costs the
scan nothing. -/
theorem runInterfaceScan_restores_radio :
    Restores radio oneNetwork wlan0Scan ⟨[], ∅⟩ ∧
      (runInterfaceScan radio oneNetwork wlan0Scan ⟨[], ∅⟩).2.issued.filter
          (fun c => match c with | .setState .. => true | _ => false) =
        [.setState "mon0".toList false, .setState "wlan0".toList true,
          .setState "wlan0".toList false, .setState "mon0".toList true] ∧
      (runInterfaceScan radio oneNetwork wlan0Scan ⟨[], ∅⟩).1.toOption = some ["lab".toList] :=
  ⟨runInterfaceScan_restores radio oneNetwork wlan0Scan ⟨[], ∅⟩, by decide +kernel,
    by decide +kernel⟩

end WlanpiCore.Scan
