import WlanpiCore.Lib.Text
import WlanpiCore.Lib.Transition
import Mathlib.Data.List.Nodup
import Mathlib.Logic.Function.Basic

/-!
# Scans that pause monitors

`run_interface_scan` on the interfaces of one radio of the `iwlwifi` driver. Its firmware crashes
when an interface scans while a monitor of the radio is up, so a scan takes those monitors down and
brings them up again. What runs at once are threads; a step of one is one command, or the listing,
or what it does under the lock.

**`Scans.calm`**: as long as every claim that is granted goes to a scan whose list has the monitors
that were up before the overlapping scans began, no scan runs while one of them is up.
**`Scans.stale_list`** is a run without that: a scan that lists while another has the monitors down,
and claims once they are up again.
-/

namespace WlanpiCore.Scan

abbrev Iface := Text

/-- An interface, or the name that all scans of the driver claim, in a namespace. -/
abbrev Key := Option Text × Text

/-- The netdevs of a radio, all in one namespace. -/
structure Radio where
  netns : Option Text
  netdevs : List Iface
  monitor : Iface → Bool

/-- The scan command is to be run on `iface`, and the scan takes `paused` down. -/
structure Target where
  iface : Iface
  paused : List Iface
  deriving DecidableEq

/-- Where a call of `run_interface_scan` is. -/
inductive Phase where
  | idle
  /-- after `_monitors_to_pause` -/
  | listed (t : Target)
  /-- with its claim -/
  | claimed (t : Target)
  | pausing (t : Target) (originallyUp : Bool) (todo : List Iface)
  | raising (t : Target) (originallyUp : Bool)
  /-- The scan command runs. -/
  | scanning (t : Target) (originallyUp : Bool)
  | lowering (t : Target) (originallyUp : Bool)
  | restoring (t : Target) (todo : List Iface)
  | releasing (t : Target)
  | ended
  deriving Inhabited

/-- The call has been made and has not ended. -/
def Phase.running : Phase → Bool
  | .idle | .ended => false
  | _ => true

/-- The target of a scan command that runs. -/
def Phase.command : Phase → Option Target
  | .scanning t _ => some t
  | _ => none

/-- The target of a call that holds its claim. -/
def Phase.holds : Phase → Option Target
  | .idle | .listed _ | .ended => none
  | .claimed t | .pausing t _ _ | .raising t _ | .scanning t _ | .lowering t _ | .restoring t _
  | .releasing t => some t

abbrev Thread := Nat

structure Scans where
  up : Iface → Bool
  /-- `_active_scans` -/
  active : List Key := []
  phase : Thread → Phase := fun _ => .idle
  /-- The calls that run, and the monitors that were up before the first of them began. Only
  statements use these two. -/
  threads : List Thread := []
  original : List Iface := []

namespace Scans

variable (radio : Radio)

/-- `up_sibling_monitors` -/
def upSiblingMonitors (s : Scans) (iface : Iface) : List Iface :=
  if iface ∈ radio.netdevs then
    (radio.netdevs.filter fun m => radio.monitor m && s.up m).filter (· ≠ iface)
  else []

/-- What a scan claims. -/
def claimKeys (t : Target) : List Key :=
  (t.iface :: (t.paused ++ ["iwlwifi".toList])).map fun name => (radio.netns, name)

def enter (s : Scans) (i : Thread) (phase : Phase) : Scans :=
  { s with phase := Function.update s.phase i phase }

def setUp (s : Scans) (iface : Iface) (up : Bool) : Scans :=
  { s with up := Function.update s.up iface up }

/-- The call ends. -/
def finish (s : Scans) (i : Thread) : Scans :=
  { s.enter i .ended with threads := s.threads.erase i }

/-- `_claim_scan`: all the keys, or a `ScanInProgressError`. -/
def claim (s : Scans) (i : Thread) (t : Target) : Scans :=
  if (claimKeys radio t).any (· ∈ s.active) then s.finish i
  else { s.enter i (.claimed t) with active := s.active ++ claimKeys radio t }

inductive Act where
  /-- A call is made and lists the monitors. Unless `busy`, no capture holds one of them. -/
  | begin (i : Thread) (iface : Iface) (busy : Bool)
  | advance (i : Thread)

/-- `_monitors_to_pause` -/
def begin (s : Scans) (i : Thread) (iface : Iface) (busy : Bool) : Scans :=
  let s := { s with
    threads := i :: s.threads
    original := if s.threads = [] then radio.netdevs.filter fun m => radio.monitor m && s.up m
      else s.original }
  let monitors := s.upSiblingMonitors radio iface
  -- `MonitorInUseError`
  if monitors ≠ [] ∧ busy then s.finish i else s.enter i (.listed ⟨iface, monitors⟩)

/-- What a call does next, every command succeeding. -/
def advance (s : Scans) (i : Thread) : Option Scans :=
  match s.phase i with
  | .idle | .ended => none
  | .listed t => some (s.claim radio i t)
  | .claimed t => some (s.enter i (.pausing t (s.up t.iface) t.paused))
  | .pausing t originallyUp [] => some (s.enter i (.raising t originallyUp))
  | .pausing t originallyUp (mon :: todo) =>
    some ((s.setUp mon false).enter i (.pausing t originallyUp todo))
  | .raising t originallyUp =>
    let s := if originallyUp then s else s.setUp t.iface true
    some (s.enter i (.scanning t originallyUp))
  | .scanning t originallyUp => some (s.enter i (.lowering t originallyUp))
  | .lowering t originallyUp =>
    let s := if originallyUp then s else s.setUp t.iface false
    some (s.enter i (.restoring t t.paused))
  | .restoring t [] => some (s.enter i (.releasing t))
  | .restoring t (mon :: todo) => some ((s.setUp mon true).enter i (.restoring t todo))
  | .releasing t =>
    some { s.finish i with active := s.active.filter fun key => key ∉ claimKeys radio t }

def step (s : Scans) : Act → Option Scans
  | .begin i iface busy =>
    match s.phase i with
    | .idle => if iface ∈ radio.netdevs then some (s.begin radio i iface busy) else none
    | _ => none
  | .advance i => s.advance radio i

/-- Nothing scans yet. -/
def initial (up : Iface → Bool) : Scans := { up }

/-- A claim that is granted goes to a scan whose list has the other monitors that were up before. -/
def listCurrent (s : Scans) : Act → Bool
  | .begin .. => true
  | .advance i =>
    match s.phase i with
    | .listed t => (claimKeys radio t).any (· ∈ s.active) ||
        s.original.all fun m => m = t.iface || t.paused.contains m
    | _ => true

/-- The keys that a call has in `_active_scans`. -/
def claimed (s : Scans) (i : Thread) : List Key :=
  (s.phase i).holds.elim [] (claimKeys radio)

/-- Scans that overlap do not get in each other's way. -/
structure Calm (s : Scans) : Prop where
  quiet : ∀ i t, (s.phase i).command = some t →
    ∀ m ∈ s.original, m ≠ t.iface → s.up m = false
  restored : (∀ i, (s.phase i).running = false) → ∀ m ∈ s.original, s.up m = true
  disjoint : ∀ i j, i ≠ j → (s.claimed radio i).Disjoint (s.claimed radio j)
  active : ∀ key, key ∈ s.active ↔ ∃ i, key ∈ s.claimed radio i
  empty : (∀ i, (s.phase i).running = false) → s.active = []

end Scans

/-! ## The invariant -/

/-- What a call has done, with the monitors that were up before. -/
def Phase.Sound (up : Iface → Bool) (original : List Iface) : Phase → Prop
  | .idle | .ended => True
  | .listed t => t.iface ∉ t.paused
  | .claimed t => t.iface ∉ t.paused ∧ ∀ m ∈ original, up m = true
  | .pausing t originallyUp todo => t.iface ∉ t.paused ∧
      (originallyUp = false → t.iface ∉ original) ∧ ∃ down, t.paused = down ++ todo ∧
        (∀ m ∈ down, up m = false) ∧ ∀ m ∈ original, m ∉ down → up m = true
  | .raising t originallyUp | .scanning t originallyUp | .lowering t originallyUp =>
    t.iface ∉ t.paused ∧ (originallyUp = false → t.iface ∉ original) ∧
      (∀ m ∈ t.paused, up m = false) ∧ ∀ m ∈ original, m ∉ t.paused → up m = true
  | .restoring _ todo => ∀ m ∈ original, m ∉ todo → up m = true
  | .releasing _ => ∀ m ∈ original, up m = true

/-- A call without a claim has done nothing. -/
theorem Phase.Sound.of_not_holds {up up' : Iface → Bool} {original original' : List Iface}
    {p : Phase} (hp : p.holds = none) (h : p.Sound up original) : p.Sound up' original' := by
  cases p with
  | idle => trivial
  | ended => trivial
  | listed t => exact h
  | _ => cases hp

namespace Scans

variable (radio : Radio)

structure Inv (s : Scans) : Prop where
  threads : ∀ i, i ∈ s.threads ↔ (s.phase i).running = true
  nodup : s.threads.Nodup
  single : ∀ i j t t', (s.phase i).holds = some t → (s.phase j).holds = some t' → i = j
  active : ∀ i t, (s.phase i).holds = some t → s.active = claimKeys radio t
  free : (∀ i, (s.phase i).holds = none) → s.active = []
  sound : ∀ i, (s.phase i).Sound s.up s.original
  rest : (∀ i, (s.phase i).holds = none) → ∀ m ∈ s.original, s.up m = true

/-- The list of a scan that holds its claim has the other monitors that were up before. -/
def Current (s : Scans) : Prop :=
  ∀ i t, (s.phase i).holds = some t → ∀ m ∈ s.original, m ≠ t.iface → m ∈ t.paused

@[simp] theorem enter_phase (s : Scans) (i : Thread) (p : Phase) (j : Thread) :
    (s.enter i p).phase j = if j = i then p else s.phase j := by
  simp only [enter, Function.update_apply]

theorem mem_claimKeys_driver (t : Target) : (radio.netns, "iwlwifi".toList) ∈
    claimKeys radio t := by
  simp [claimKeys]

variable {radio} {s : Scans} {i : Thread}

/-- Everything that a claim wants is claimed while a call holds its own. -/
theorem Inv.conflict (h : Inv radio s) {t t' : Target} (hholds : (s.phase i).holds = some t) :
    (claimKeys radio t').any (· ∈ s.active) = true := by
  rw [List.any_eq_true]
  refine ⟨_, mem_claimKeys_driver radio t', ?_⟩
  rw [h.active i t hholds]
  exact decide_eq_true (mem_claimKeys_driver radio t)

theorem Phase.running_of_holds {p : Phase} {t : Target} (hp : p.holds = some t) :
    p.running = true := by
  cases p <;> first | rfl | cases hp

/-- A call that holds its claim goes on. -/
theorem Inv.move (h : Inv radio s) {t : Target} {p : Phase} (hi : (s.phase i).holds = some t)
    (hp : p.holds = some t) {up : Iface → Bool} (hsound : p.Sound up s.original) :
    Inv radio ({ s with up }.enter i p) := by
  have hphase (j : Thread) : ({ s with up }.enter i p).phase j = if j = i then p else s.phase j :=
    enter_phase ..
  have hholds (j : Thread) : (({ s with up }.enter i p).phase j).holds = (s.phase j).holds := by
    rw [hphase]
    split_ifs with hj
    · rw [hj, hi, hp]
    · rfl
  have hbusy : ¬∀ j, (({ s with up }.enter i p).phase j).holds = none := by
    intro hfree
    have hnone := hfree i
    rw [hholds, hi] at hnone
    cases hnone
  refine ⟨fun j => ?_, h.nodup, fun j j' => ?_, fun j => ?_, fun hfree => absurd hfree hbusy,
    fun j => ?_, fun hfree => absurd hfree hbusy⟩
  · rw [hphase]
    split_ifs with hj
    · rw [hj, Phase.running_of_holds hp]
      exact (h.threads i).trans (by rw [Phase.running_of_holds hi])
    · exact h.threads j
  · rw [hholds, hholds]
    exact h.single j j'
  · rw [hholds]
    exact h.active j
  · rw [hphase]
    split_ifs with hj
    · exact hsound
    · refine (h.sound j).of_not_holds ?_
      by_contra hne
      obtain ⟨t', ht'⟩ := Option.ne_none_iff_exists'.1 hne
      exact hj (h.single j i t' t ht' hi)

/-- A call that does not hold a claim ends. -/
theorem Inv.finish (h : Inv radio s) (hi : (s.phase i).holds = none) : Inv radio (s.finish i) := by
  have hphase (j : Thread) : (s.finish i).phase j = if j = i then .ended else s.phase j :=
    enter_phase s i .ended j
  have hholds (j : Thread) : ((s.finish i).phase j).holds = (s.phase j).holds := by
    rw [hphase]
    split_ifs with hj
    · rw [hj, hi]
      rfl
    · rfl
  refine ⟨fun j => ?_, h.nodup.erase i, fun j j' => ?_, fun j => ?_, fun hfree => ?_, fun j => ?_,
    fun hfree => ?_⟩
  · rw [hphase]
    have hmem : j ∈ (s.finish i).threads ↔ j ≠ i ∧ j ∈ s.threads := h.nodup.mem_erase_iff
    rw [hmem, h.threads j]
    split_ifs with hj
    · simp [hj, Phase.running]
    · simp [hj]
  · rw [hholds, hholds]
    exact h.single j j'
  · rw [hholds]
    exact h.active j
  · exact h.free fun j => hholds j ▸ hfree j
  · rw [hphase]
    split_ifs
    · trivial
    · exact h.sound j
  · exact h.rest fun j => hholds j ▸ hfree j

theorem Inv.claim (h : Inv radio s) {t : Target} (hi : s.phase i = .listed t) :
    Inv radio (s.claim radio i t) := by
  unfold Scans.claim
  split_ifs with hconflict
  · exact h.finish (by rw [hi]; rfl)
  · -- Nobody holds a claim: every claim has the driver's name.
    have hfree (j : Thread) : (s.phase j).holds = none := by
      by_contra hne
      obtain ⟨t', ht'⟩ := Option.ne_none_iff_exists'.1 hne
      exact hconflict (h.conflict ht')
    have hsound := h.sound i
    rw [hi] at hsound
    have hholds (j : Thread) (t' : Target)
      (hj : ((s.enter i (.claimed t)).phase j).holds = some t') :
        j = i ∧ t' = t := by
      rw [enter_phase] at hj
      split_ifs at hj with heq
      · exact ⟨heq, (Option.some.inj hj).symm⟩
      · rw [hfree j] at hj
        cases hj
    refine ⟨fun j => ?_, h.nodup, fun j j' t₁ t₂ hj hj' => ?_, fun j t' hj => ?_, fun hnone => ?_,
      fun j => ?_, fun hnone => ?_⟩
    · have hmem : j ∈ s.threads ↔ ((s.enter i (.claimed t)).phase j).running = true := by
        rw [enter_phase]
        split_ifs with heq
        · rw [heq, h.threads i, hi]
          simp [Phase.running]
        · exact h.threads j
      exact hmem
    · exact (hholds j t₁ hj).1.trans (hholds j' t₂ hj').1.symm
    · obtain ⟨-, rfl⟩ := hholds j t' hj
      exact congrArg (· ++ claimKeys radio t') (h.free hfree)
    · have hnone := hnone i
      rw [show ({ s.enter i (.claimed t) with active := s.active ++ claimKeys radio t } :
        Scans).phase i = .claimed t by simp] at hnone
      cases hnone
    · have hsounds : ((s.enter i (.claimed t)).phase j).Sound s.up s.original := by
        rw [enter_phase]
        split_ifs
        · exact ⟨hsound, h.rest hfree⟩
        · exact h.sound j
      exact hsounds
    · have hnone := hnone i
      rw [show ({ s.enter i (.claimed t) with active := s.active ++ claimKeys radio t } :
        Scans).phase i = .claimed t by simp] at hnone
      cases hnone

theorem Inv.release (h : Inv radio s) {t : Target} (hi : s.phase i = .releasing t) :
    Inv radio { s.finish i with active := s.active.filter fun key => key ∉ claimKeys radio t } := by
  have hphase (j : Thread) : (s.finish i).phase j = if j = i then .ended else s.phase j :=
    enter_phase s i .ended j
  have hheld : (s.phase i).holds = some t := by
    rw [hi]
    rfl
  have hfree (j : Thread) : ((s.finish i).phase j).holds = none := by
    rw [hphase]
    split_ifs with hj
    · rfl
    · by_contra hne
      obtain ⟨t', ht'⟩ := Option.ne_none_iff_exists'.1 hne
      exact hj (h.single j i t' t ht' hheld)
  have hsound := h.sound i
  rw [hi] at hsound
  refine ⟨fun j => ?_, h.nodup.erase i, fun j j' t' _ hj => ?_, fun j t' hj => ?_, fun _ => ?_,
    fun j => ?_, fun _ => hsound⟩
  · have hmem : j ∈ s.threads.erase i ↔ ((s.finish i).phase j).running = true := by
      rw [hphase, h.nodup.mem_erase_iff, h.threads j]
      split_ifs with hj
      · simp [hj, Phase.running]
      · simp [hj]
    exact hmem
  · exact absurd ((hfree j).symm.trans hj) (by simp)
  · exact absurd ((hfree j).symm.trans hj) (by simp)
  · have hactive := h.active i t hheld
    rw [List.filter_eq_nil_iff]
    intro key hkey
    rw [hactive] at hkey
    simpa using hkey
  · have hsounds : ((s.finish i).phase j).Sound s.up s.original := by
      rw [hphase]
      split_ifs
      · trivial
      · exact h.sound j
    exact hsounds

theorem not_mem_upSiblingMonitors (radio : Radio) (s : Scans) (iface : Iface) :
    iface ∉ s.upSiblingMonitors radio iface := by
  unfold upSiblingMonitors
  split_ifs <;> simp

theorem Inv.begin (h : Inv radio s) (hi : s.phase i = .idle) (iface : Iface) (busy : Bool) :
    Inv radio (s.begin radio i iface busy) := by
  have hnew : i ∉ s.threads := by
    rw [h.threads i, hi]
    simp [Phase.running]
  unfold Scans.begin
  dsimp only
  set s₁ : Scans := { s with
    threads := i :: s.threads
    original := if s.threads = [] then radio.netdevs.filter fun m => radio.monitor m && s.up m
      else s.original } with hs₁
  set target : Target := ⟨iface, s₁.upSiblingMonitors radio iface⟩ with htarget
  -- If this is the first call, nobody holds a claim.
  have hidle (hthreads : s.threads = []) (j : Thread) : (s.phase j).holds = none := by
    have hj := h.threads j
    rw [hthreads] at hj
    cases hphase : s.phase j with
    | idle => rfl
    | ended => rfl
    | listed t => rfl
    | _ =>
      rw [hphase] at hj
      exact absurd (hj.2 rfl) List.not_mem_nil
  have hphase (j : Thread) : (s₁.enter i (.listed target)).phase j =
      if j = i then .listed target else s.phase j := enter_phase s₁ i _ j
  have hholds (j : Thread) : ((s₁.enter i (.listed target)).phase j).holds = (s.phase j).holds := by
    rw [hphase]
    split_ifs with hj
    · rw [hj, hi]
      rfl
    · rfl
  have hlisted : Inv radio (s₁.enter i (.listed target)) := by
    refine ⟨fun j => ?_, List.nodup_cons.2 ⟨hnew, h.nodup⟩, fun j j' => ?_, fun j => ?_,
      fun hfree => ?_, fun j => ?_, fun hfree m hm => ?_⟩
    · have hmem : j ∈ (s₁.enter i (.listed target)).threads ↔ j = i ∨ j ∈ s.threads :=
        List.mem_cons
      rw [hmem, hphase, h.threads j]
      split_ifs with hj
      · simp [hj, Phase.running]
      · simp [hj]
    · rw [hholds, hholds]
      exact h.single j j'
    · rw [hholds]
      exact h.active j
    · exact h.free fun j => hholds j ▸ hfree j
    · rw [hphase]
      split_ifs
      · exact not_mem_upSiblingMonitors radio s₁ iface
      · by_cases hthreads : s.threads = []
        · exact (h.sound j).of_not_holds (hidle hthreads j)
        · have hsound := h.sound j
          rwa [show s.original = s₁.original by rw [hs₁]; exact (if_neg hthreads).symm] at hsound
    · have hm : m ∈ s₁.original := hm
      rw [hs₁] at hm
      dsimp only at hm
      split_ifs at hm with hthreads
      · have hup := (List.mem_filter.1 hm).2
        rw [Bool.and_eq_true] at hup
        exact hup.2
      · exact h.rest (fun j => hholds j ▸ hfree j) m hm
  split_ifs with hbusy
  · -- The call ends before it was let in: as if it had listed and ended.
    have hended := hlisted.finish (i := i) (by rw [hphase, if_pos rfl]; rfl)
    have heq : (s₁.enter i (.listed target)).finish i = s₁.finish i := by
      simp [Scans.finish, enter]
    exact heq ▸ hended
  · exact hlisted

theorem Inv.advance (h : Inv radio s) {s' : Scans} (hstep : s.advance radio i = some s') :
    Inv radio s' := by
  have hsound := h.sound i
  unfold Scans.advance at hstep
  cases hi : s.phase i with
  | idle => rw [hi] at hstep; cases hstep
  | ended => rw [hi] at hstep; cases hstep
  | listed t =>
    rw [hi] at hstep
    cases hstep
    exact h.claim hi
  | claimed t =>
    rw [hi] at hstep hsound
    cases hstep
    obtain ⟨hiface, hup⟩ := hsound
    refine h.move (by rw [hi]; rfl) rfl ⟨hiface, fun hdown hmem => ?_, [], rfl, by simp, ?_⟩
    · rw [hup _ hmem] at hdown
      cases hdown
    · exact fun m hm _ => hup m hm
  | pausing t originallyUp todo =>
    rw [hi] at hstep hsound
    obtain ⟨hiface, horiginal, down, hpaused, hdown, hup⟩ := hsound
    cases todo with
    | nil =>
      cases hstep
      rw [List.append_nil] at hpaused
      exact h.move (by rw [hi]; rfl) rfl ⟨hiface, horiginal, hpaused ▸ hdown, hpaused ▸ hup⟩
    | cons mon todo =>
      cases hstep
      refine h.move (by rw [hi]; rfl) rfl
        ⟨hiface, horiginal, down ++ [mon], by rw [hpaused, List.append_assoc]; rfl,
          fun m hm => ?_, fun m hm hnot => ?_⟩
      · rw [Function.update_apply]
        split_ifs with heq
        · rfl
        · exact hdown m ((List.mem_append.1 hm).resolve_right (by simpa using heq))
      · rw [List.mem_append, not_or] at hnot
        rw [Function.update_apply, if_neg (by simpa using hnot.2)]
        exact hup m hm hnot.1
  | raising t originallyUp =>
    rw [hi] at hstep hsound
    cases hstep
    obtain ⟨hiface, horiginal, hdown, hup⟩ := hsound
    cases originallyUp with
    | true => exact h.move (by rw [hi]; rfl) rfl ⟨hiface, horiginal, hdown, hup⟩
    | false =>
      refine h.move (by rw [hi]; rfl) rfl ⟨hiface, horiginal, fun m hm => ?_, fun m hm hnot => ?_⟩
      · rw [Function.update_apply, if_neg fun heq : m = t.iface => hiface (heq ▸ hm)]
        exact hdown m hm
      · rw [Function.update_apply]
        split_ifs
        · rfl
        · exact hup m hm hnot
  | scanning t originallyUp =>
    rw [hi] at hstep hsound
    cases hstep
    exact h.move (by rw [hi]; rfl) rfl hsound
  | lowering t originallyUp =>
    rw [hi] at hstep hsound
    cases hstep
    obtain ⟨hiface, horiginal, hdown, hup⟩ := hsound
    cases originallyUp with
    | true => exact h.move (by rw [hi]; rfl) rfl hup
    | false =>
      refine h.move (by rw [hi]; rfl) rfl fun m hm hnot => ?_
      rw [Function.update_apply, if_neg fun heq : m = t.iface => horiginal rfl (heq ▸ hm)]
      exact hup m hm hnot
  | restoring t todo =>
    rw [hi] at hstep hsound
    cases todo with
    | nil =>
      cases hstep
      exact h.move (by rw [hi]; rfl) rfl fun m hm => hsound m hm List.not_mem_nil
    | cons mon todo =>
      cases hstep
      refine h.move (by rw [hi]; rfl) rfl fun m hm hnot => ?_
      rw [Function.update_apply]
      split_ifs with heq
      · rfl
      · exact hsound m hm (List.not_mem_cons_of_ne_of_not_mem heq hnot)
  | releasing t =>
    rw [hi] at hstep
    cases hstep
    exact h.release hi

theorem step_begin {iface : Iface} {busy : Bool} {s' : Scans}
    (h : s.step radio (.begin i iface busy) = some s') :
    s.phase i = .idle ∧ s' = s.begin radio i iface busy := by
  simp only [step] at h
  cases hi : s.phase i <;> rw [hi] at h <;> simp only [reduceCtorEq] at h
  split_ifs at h
  exact ⟨rfl, (Option.some.inj h).symm⟩

theorem Inv.step (h : Inv radio s) {a : Act} {s' : Scans} (hstep : s.step radio a = some s') :
    Inv radio s' := by
  cases a with
  | begin i iface busy =>
    obtain ⟨hi, rfl⟩ := step_begin hstep
    exact h.begin hi iface busy
  | advance i => exact h.advance hstep

theorem inv_initial (up : Iface → Bool) : Inv radio (initial up) := by
  refine ⟨fun i => ?_, List.nodup_nil, fun i j t t' hi => ?_, fun i t hi => ?_, fun _ => rfl,
    fun i => trivial, fun _ m hm => absurd hm List.not_mem_nil⟩
  · simp [initial, Phase.running]
  · cases hi
  · cases hi

/-! ## Lists that are current -/

/-- A step that keeps who holds what keeps the lists current. -/
theorem Current.same (h : s.Current) {s' : Scans} (horiginal : s'.original = s.original)
    (hholds : ∀ j t, (s'.phase j).holds = some t → (s.phase j).holds = some t) : s'.Current := by
  intro j t hj m hm
  exact h j t (hholds j t hj) m (horiginal ▸ hm)

theorem Current.enter (h : s.Current) {p : Phase} (up : Iface → Bool)
    (hp : ∀ t, p.holds = some t → (s.phase i).holds = some t) :
    ({ s with up }.enter i p).Current := by
  refine h.same rfl fun j t hj => ?_
  rw [enter_phase] at hj
  split_ifs at hj with heq
  · rw [heq]
    exact hp t hj
  · exact hj

theorem Current.claim (h : s.Current) {t : Target}
    (hcurrent : (claimKeys radio t).any (· ∈ s.active) = true ∨
      ∀ m ∈ s.original, m ≠ t.iface → m ∈ t.paused) : (s.claim radio i t).Current := by
  unfold Scans.claim
  split_ifs with hconflict
  · exact h.enter s.up fun t' ht' => by cases ht'
  · intro j t' hj m hm hne
    have hphase := enter_phase s i (.claimed t) j
    rw [show ({ s.enter i (.claimed t) with active := s.active ++ claimKeys radio t } :
      Scans).phase j = _ from hphase] at hj
    split_ifs at hj
    · cases hj
      exact hcurrent.resolve_left hconflict m hm hne
    · exact h j t' hj m hm hne

theorem Current.finish (h : s.Current) : (s.finish i).Current := by
  refine h.same rfl fun j t hj => ?_
  rw [show (s.finish i).phase j = _ from enter_phase s i .ended j] at hj
  split_ifs at hj
  · cases hj
  · exact hj

/-- The monitors that were up are looked up anew only when nobody holds a claim. -/
theorem Current.begin (h : s.Current) (hinv : Inv radio s) (i : Thread) (iface : Iface)
    (busy : Bool) : (s.begin radio i iface busy).Current := by
  have hstarted : Scans.Current { s with
      threads := i :: s.threads
      original := if s.threads = [] then radio.netdevs.filter fun m => radio.monitor m && s.up m
        else s.original } := by
    intro j t hj m hm
    have hthreads : s.threads ≠ [] :=
      List.ne_nil_of_mem ((hinv.threads j).2 (Phase.running_of_holds hj))
    dsimp only at hm
    rw [if_neg hthreads] at hm
    exact h j t hj m hm
  unfold Scans.begin
  dsimp only
  by_cases hbusy : upSiblingMonitors radio { s with
      threads := i :: s.threads
      original := if s.threads = [] then radio.netdevs.filter fun m => radio.monitor m && s.up m
        else s.original } iface ≠ [] ∧ busy = true
  · rw [if_pos hbusy]
    exact hstarted.finish
  · rw [if_neg hbusy]
    exact hstarted.enter s.up fun t ht => by cases ht

theorem Current.step (h : s.Current) (hinv : Inv radio s) {a : Act} {s' : Scans}
    (hlist : s.listCurrent radio a = true) (hstep : s.step radio a = some s') : s'.Current := by
  cases a with
  | begin i iface busy =>
    obtain ⟨-, rfl⟩ := step_begin hstep
    exact h.begin hinv i iface busy
  | advance i =>
    have hstep : s.advance radio i = some s' := hstep
    unfold Scans.advance at hstep
    have hkeep {p : Phase} (up : Iface → Bool) (hp : p.holds = (s.phase i).holds) :
        ({ s with up }.enter i p).Current := h.enter up fun t ht => hp ▸ ht
    cases hi : s.phase i with
    | idle => rw [hi] at hstep; cases hstep
    | ended => rw [hi] at hstep; cases hstep
    | listed t =>
      rw [hi] at hstep
      cases hstep
      refine h.claim ?_
      simp only [listCurrent, hi, Bool.or_eq_true, List.all_eq_true] at hlist
      refine hlist.imp id fun hall m hm hne => ?_
      simpa [hne] using hall m hm
    | claimed t =>
      rw [hi] at hstep
      cases hstep
      exact hkeep s.up (by rw [hi]; rfl)
    | pausing t originallyUp todo =>
      rw [hi] at hstep
      cases todo <;> cases hstep
      · exact hkeep s.up (by rw [hi]; rfl)
      · exact hkeep _ (by rw [hi]; rfl)
    | raising t originallyUp =>
      rw [hi] at hstep
      cases hstep
      cases originallyUp
      · exact hkeep _ (by rw [hi]; rfl)
      · exact hkeep s.up (by rw [hi]; rfl)
    | scanning t originallyUp =>
      rw [hi] at hstep
      cases hstep
      exact hkeep s.up (by rw [hi]; rfl)
    | lowering t originallyUp =>
      rw [hi] at hstep
      cases hstep
      cases originallyUp
      · exact hkeep _ (by rw [hi]; rfl)
      · exact hkeep s.up (by rw [hi]; rfl)
    | restoring t todo =>
      rw [hi] at hstep
      cases todo <;> cases hstep
      · exact hkeep s.up (by rw [hi]; rfl)
      · exact hkeep _ (by rw [hi]; rfl)
    | releasing t =>
      rw [hi] at hstep
      cases hstep
      exact h.enter s.up fun t' ht' => by cases ht'

/-! ## Overlapping scans -/

theorem Inv.toCalm (h : Inv radio s) (hcurrent : s.Current) : Calm radio s := by
  have hfree (hended : ∀ i, (s.phase i).running = false) (i : Thread) :
      (s.phase i).holds = none := by
    by_contra hne
    obtain ⟨t, ht⟩ := Option.ne_none_iff_exists'.1 hne
    have hrunning := Phase.running_of_holds ht
    rw [hended i] at hrunning
    cases hrunning
  have hclaimed {i : Thread} {key : Key} (hkey : key ∈ s.claimed radio i) :
      ∃ t, (s.phase i).holds = some t ∧ key ∈ claimKeys radio t := by
    unfold claimed at hkey
    cases hi : (s.phase i).holds with
    | none =>
      rw [hi] at hkey
      cases hkey
    | some t =>
      rw [hi] at hkey
      exact ⟨t, rfl, hkey⟩
  refine ⟨fun i t hi m hm hne => ?_, fun hended => h.rest (hfree hended),
    fun i j hne key hi hj => ?_, fun key => ⟨fun hkey => ?_, ?_⟩, fun hended =>
      h.free (hfree hended)⟩
  · cases hphase : s.phase i with
    | scanning t' originallyUp =>
      have hsound := h.sound i
      rw [hphase] at hi hsound
      cases hi
      exact hsound.2.2.1 m (hcurrent i t (by rw [hphase]; rfl) m hm hne)
    | _ =>
      rw [hphase] at hi
      cases hi
  · obtain ⟨t, ht, -⟩ := hclaimed hi
    obtain ⟨t', ht', -⟩ := hclaimed hj
    exact hne (h.single i j t t' ht ht')
  · by_contra hnone
    rw [not_exists] at hnone
    have hnobody (i : Thread) : (s.phase i).holds = none := by
      by_contra hne
      obtain ⟨t, ht⟩ := Option.ne_none_iff_exists'.1 hne
      refine hnone i ?_
      rw [claimed, ht]
      rwa [h.active i t ht] at hkey
    rw [h.free hnobody] at hkey
    cases hkey
  · rintro ⟨i, hi⟩
    obtain ⟨t, ht, hkey⟩ := hclaimed hi
    exact h.active i t ht ▸ hkey

/-- Scans are calm in every run whose claims are granted on current lists. -/
theorem calm (radio : Radio) {up : Iface → Bool} {s : Scans}
    (h : Run (step radio) (fun s a => s.listCurrent radio a = true) (initial up) s) :
    Calm radio s := by
  have hinv : Inv radio s ∧ s.Current := by
    have hinitial : (initial up).Current := by
      intro i t hi
      cases hi
    exact h.invariant (I := fun s => Inv radio s ∧ s.Current) ⟨inv_initial up, hinitial⟩
      fun s a t hs hlist hstep => ⟨hs.1.step hstep, hs.2.step hs.1 hlist hstep⟩
  exact hinv.1.toCalm hinv.2

/-- A radio with a managed interface and a monitor. -/
def twoNetdevs : Radio where
  netns := none
  netdevs := ["wlan0".toList, "mon0".toList]
  monitor iface := iface = "mon0".toList

/-- Two scans: the second lists while the first runs, and its claim is refused. -/
theorem calm_refused : ∃ s : Scans, (s.phase 0).command = some ⟨"wlan0".toList, ["mon0".toList]⟩ ∧
    s.up "mon0".toList = false ∧ Calm twoNetdevs s := by
  have hexec : (exec (guarded (step twoNetdevs) (listCurrent twoNetdevs)) (initial fun _ => true)
      [.begin 0 "wlan0".toList false, .advance 0, .advance 0, .advance 0,
        .begin 1 "wlan0".toList false,
        .advance 1, .advance 0, .advance 0]).any
      (fun s => (s.phase 0).command = some ⟨"wlan0".toList, ["mon0".toList]⟩ &&
        s.up "mon0".toList = false) = true := by
    decide +kernel
  obtain ⟨s, hs, hstate⟩ := (Option.any_eq_true _ _).1 hexec
  rw [Bool.and_eq_true] at hstate
  exact ⟨s, of_decide_eq_true hstate.1, of_decide_eq_true hstate.2,
    calm twoNetdevs (Run.of_guarded (Reaches.of_exec hs))⟩

/-- The second scan lists while the first has the monitor down, and claims when the first is over.
-/
theorem stale_list : ¬∀ s : Scans,
    Reaches (step twoNetdevs) (initial fun _ => true) s → Calm twoNetdevs s := by
  intro h
  have hexec : (exec (step twoNetdevs) (initial fun _ => true)
      [.begin 0 "wlan0".toList false, .advance 0, .advance 0, .advance 0,
        .begin 1 "wlan0".toList false,
        .advance 0, .advance 0, .advance 0, .advance 0, .advance 0, .advance 0, .advance 0,
        .advance 1, .advance 1, .advance 1, .advance 1]).any
      (fun s => (s.phase 1).command = some ⟨"wlan0".toList, []⟩ && s.up "mon0".toList = true &&
        "mon0".toList ∈ s.original) = true := by
    decide +kernel
  obtain ⟨s, hs, hstate⟩ := (Option.any_eq_true _ _).1 hexec
  rw [Bool.and_eq_true, Bool.and_eq_true] at hstate
  obtain ⟨⟨hscans, hup⟩, horiginal⟩ := hstate
  have hdown := (h s (Reaches.of_exec hs)).quiet 1 _ (of_decide_eq_true hscans) _
    (of_decide_eq_true horiginal) (by decide)
  rw [of_decide_eq_true hup] at hdown
  cases hdown

end Scans

end WlanpiCore.Scan
