import WlanpiCore.Lib.Json
import WlanpiCore.Lib.Lines
import WlanpiCore.Lib.Transition

/-!
# Clearing the receive filter of an mt7921 radio

`mt76_rxfilter.py`. A register is read and written through two files: `regidx` takes its address and
`regval` its value. Captures and scans of one radio run in threads of their own, so their calls come
in any order, and the firmware changes registers at any time. Nothing but Core writes `regidx`.

**Theorem (`rfcr_writes`).** In every run Core writes no register but RFCR, and what it writes is a
value that RFCR had, less `DROP_OTHER_UC`; so no drop bit is ever set, least of all by the `~0` of a
failed read.

**Theorem (`rfcr_cleared`).** As long as the firmware leaves RFCR alone and the bus works, a call
that returned has left RFCR as it was, less `DROP_OTHER_UC`, in whatever order the calls of the
others come, and reports that value.
-/

namespace WlanpiCore.RxFilter

open Text

abbrev Reg := BitVec 32

/-- `MT7921_RFCR_BAND0` -/
def rfcrBand0 : Nat := 0x820E5000

/-- `DROP_OTHER_UC` -/
def dropOtherUc : Reg := 1 <<< 18

/-- `f"0x{n:08x}"` -/
def hex8 (n : Nat) : Text :=
  '0' :: 'x' :: (List.replicate (8 - (Nat.toDigits 16 n).length) '0' ++ Nat.toDigits 16 n)

/-- `int(t, 16)` of digits after `0x`. -/
def hexInt (t : Text) : Option Nat :=
  match strip t with
  | '0' :: 'x' :: digits => if digits = [] then none else Json.hexValue digits
  | _ => none

/-- Where a call is. -/
inductive Phase where
  | indexRead
  | read
  | indexWrite (before : Reg)
  | write (before : Reg)
  | indexCheck (before : Reg)
  | check (before : Reg)
  /-- It returned the two values, or raised. -/
  | done (result : Option (Reg × Reg))
  deriving DecidableEq

/-- The radio's two files and registers, the calls, what Core wrote (the address, the value it had
read, the value) and the values RFCR had. -/
structure State where
  index : Nat
  regs : Nat → Reg
  tasks : Nat → Option Phase
  writes : List (Nat × Reg × Reg)
  past : List Reg

/-- How a file operation ends. A failed bus read gives `~0`, and a failed bus write changes nothing;
both look like successes. -/
inductive Outcome where
  | ok
  | busFailure
  | osError

inductive Act where
  | call (i : Nat)
  | go (i : Nat) (outcome : Outcome)
  /-- The firmware or the driver changes a register. -/
  | hardware (address : Nat) (value : Reg)

def State.to (s : State) (i : Nat) (phase : Phase) : State :=
  { s with tasks := Function.update s.tasks i (some phase) }

def State.raise (s : State) (i : Nat) : State := s.to i (.done none)

def State.setReg (s : State) (address : Nat) (value : Reg) : State :=
  let regs := Function.update s.regs address value
  { s with regs, past := regs rfcrBand0 :: s.past }

/-- The driver takes the address that is written to `regidx`. -/
def State.writeIndex (s : State) : State :=
  { s with index := (hexInt (hex8 rfcrBand0)).getD s.index }

/-- `regval`, as the driver prints it. -/
def State.regval (s : State) (outcome : Outcome) : Text :=
  match outcome with
  | .busFailure => hex8 0xffffffff ++ ['\n']
  | _ => hex8 (s.regs s.index).toNat ++ ['\n']

/-- The value in the text of `regval`; `none` is a `ValueError`. -/
def State.value (s : State) (outcome : Outcome) : Option Reg :=
  (hexInt (s.regval outcome)).map (BitVec.ofNat 32)

/-- The driver writes the value that is written to `regval`. -/
def State.writeValue (s : State) (outcome : Outcome) (before value : Reg) : State :=
  let value := ((hexInt (hex8 value.toNat)).map (BitVec.ofNat 32)).getD 0
  let s := { s with writes := (s.index, before, value) :: s.writes }
  match outcome with
  | .busFailure => s
  | _ => s.setReg s.index value

/-- `clear_drop_other_uc`, one file operation at a time. -/
def State.advance (s : State) (i : Nat) (outcome : Outcome) : Phase → State
  | .indexRead => s.writeIndex.to i .read
  | .read =>
    match s.value outcome with
    | none => s.raise i
    | some before =>
      if before = 0xffffffff then s.raise i
      else if before &&& dropOtherUc = 0 then s.to i (.done (some (before, before)))
      else s.to i (.indexWrite before)
  | .indexWrite before => s.writeIndex.to i (.write before)
  | .write before =>
      (s.writeValue outcome before (before &&& ~~~dropOtherUc)).to i (.indexCheck before)
  | .indexCheck before => s.writeIndex.to i (.check before)
  | .check before =>
    match s.value outcome with
    | none => s.raise i
    | some after => s.to i (.done (some (before, after)))
  | .done result => s.to i (.done result)

def step (s : State) : Act → Option State
  | .call i =>
    match s.tasks i with
    | none | some (.done _) => some (s.to i .indexRead)
    | _ => none
  | .go i outcome =>
    match s.tasks i, outcome with
    | none, _ | some (.done _), _ => none
    | some _, .osError => some (s.raise i)
    | some phase, outcome => some (s.advance i outcome phase)
  | .hardware address value => some (s.setReg address value)

def initial (index : Nat) (regs : Nat → Reg) : State :=
  ⟨index, regs, fun _ => none, [], [regs rfcrBand0]⟩

/-! ## The texts -/

theorem hexValue_append (a b : Text) (n : Nat) (h : Json.hexValue a = some n) :
    Json.hexValue (a ++ b) = b.foldlM (fun n c => (Json.hexDigit c).map (16 * n + ·)) n := by
  unfold Json.hexValue at *
  rw [List.foldlM_append, h]
  rfl

theorem hexDigit_digitChar {n : Nat} (h : n < 16) : Json.hexDigit (Nat.digitChar n) = some n := by
  revert n
  decide

theorem toDigits_split {n : Nat} (hn : ¬n < 16) :
    Nat.toDigits 16 n = Nat.toDigits 16 (n / 16) ++ [Nat.digitChar (n % 16)] :=
  Nat.toDigits_of_base_le (by decide) (by omega)

theorem hexValue_toDigits (n : Nat) : Json.hexValue (Nat.toDigits 16 n) = some n := by
  induction n using Nat.strongRecOn with
  | ind n ih =>
    by_cases hn : n < 16
    · rw [Nat.toDigits_of_lt_base hn]
      simp [Json.hexValue, hexDigit_digitChar hn]
    · rw [toDigits_split hn, hexValue_append _ _ _ (ih (n / 16) (by omega))]
      simp [hexDigit_digitChar (Nat.mod_lt n (by decide))]
      omega

theorem hexValue_padded (k n : Nat) :
    Json.hexValue (List.replicate k '0' ++ Nat.toDigits 16 n) = some n := by
  induction k with
  | zero => exact hexValue_toDigits n
  | succ k ih => exact ih

theorem solid_toDigits (n : Nat) : ∀ c ∈ Nat.toDigits 16 n, isSpace c = false := by
  have hdigit : ∀ d < 16, isSpace (Nat.digitChar d) = false := by decide
  induction n using Nat.strongRecOn with
  | ind n ih =>
    intro c hc
    by_cases hn : n < 16
    · rw [Nat.toDigits_of_lt_base hn] at hc
      rw [List.mem_singleton.1 hc]
      exact hdigit n hn
    · rw [toDigits_split hn] at hc
      rcases List.mem_append.1 hc with hc | hc
      · exact ih (n / 16) (by omega) c hc
      · rw [List.mem_singleton.1 hc]
        exact hdigit _ (Nat.mod_lt n (by decide))

theorem strip_hex8 (n : Nat) : strip (hex8 n) = hex8 n := by
  apply strip_id
  intro c hc
  simp only [hex8, List.mem_cons, List.mem_append, List.mem_replicate] at hc
  rcases hc with rfl | rfl | ⟨-, rfl⟩ | hc
  · decide
  · decide
  · decide
  · exact solid_toDigits n c hc

theorem hexInt_hex8 (n : Nat) : hexInt (hex8 n) = some n := by
  have hne : List.replicate (8 - (Nat.toDigits 16 n).length) '0' ++ Nat.toDigits 16 n ≠ [] :=
    List.append_ne_nil_of_right_ne_nil _ Nat.toDigits_ne_nil
  rw [hexInt, strip_hex8]
  show (if List.replicate _ '0' ++ Nat.toDigits 16 n = [] then none else Json.hexValue _) = some n
  rw [if_neg hne, hexValue_padded]

theorem hexInt_line (n : Nat) : hexInt (hex8 n ++ ['\n']) = some n := by
  have hblank : ∀ c ∈ ['\n'], isSpace c = true := by
    intro c hc
    rw [List.mem_singleton.1 hc]
    decide
  have hstrip : strip (hex8 n ++ ['\n']) = strip (hex8 n) := by
    rw [← strip_rstrip, rstrip_blank _ hblank, strip_rstrip]
  have h := hexInt_hex8 n
  unfold hexInt at *
  rw [hstrip]
  exact h

/-! ## The file operations -/

theorem writeIndex_eq (s : State) : s.writeIndex = { s with index := rfcrBand0 } := by
  rw [State.writeIndex, hexInt_hex8]
  rfl

/-- Core wrote, and the register may not have changed. -/
def State.wrote (s : State) (before value : Reg) : State :=
  { s with writes := (s.index, before, value) :: s.writes }

theorem writeValue_cases (s : State) (outcome : Outcome) (before value : Reg) :
    s.writeValue outcome before value = (s.wrote before value).setReg s.index value ∨
      outcome = .busFailure ∧ s.writeValue outcome before value = s.wrote before value := by
  have hvalue : ((hexInt (hex8 value.toNat)).map (BitVec.ofNat 32)).getD 0 = value := by
    rw [hexInt_hex8, Option.map_some, Option.getD_some, BitVec.ofNat_toNat, BitVec.setWidth_eq]
  unfold State.writeValue
  rw [hvalue]
  cases outcome with
  | ok => exact Or.inl rfl
  | busFailure => exact Or.inr ⟨rfl, rfl⟩
  | osError => exact Or.inl rfl

/-- What is read is the register, or the value of a failed read. -/
theorem value_cases (s : State) (outcome : Outcome) :
    s.value outcome = some (s.regs s.index) ∨
      outcome = .busFailure ∧ s.value outcome = some 0xffffffff := by
  have hreg : (hexInt (hex8 (s.regs s.index).toNat ++ ['\n'])).map (BitVec.ofNat 32) =
      some (s.regs s.index) := by
    rw [hexInt_line, Option.map_some, BitVec.ofNat_toNat, BitVec.setWidth_eq]
  cases outcome with
  | ok => exact Or.inl hreg
  | osError => exact Or.inl hreg
  | busFailure =>
    refine Or.inr ⟨rfl, ?_⟩
    show (hexInt (hex8 0xffffffff ++ ['\n'])).map (BitVec.ofNat 32) = _
    rw [hexInt_line]
    rfl

theorem clear_clear (r : Reg) : (r &&& ~~~dropOtherUc) &&& dropOtherUc = 0 := by
  rw [BitVec.and_assoc]
  have hnone : ~~~dropOtherUc &&& dropOtherUc = 0 := by decide
  rw [hnone]
  exact BitVec.and_zero

theorem clear_of_clear {r : Reg} (h : r &&& dropOtherUc = 0) : r &&& ~~~dropOtherUc = r := by
  have hsplit : r = (r &&& ~~~dropOtherUc) ||| (r &&& dropOtherUc) := by
    rw [← BitVec.and_or_distrib_left]
    have hall : ~~~dropOtherUc ||| dropOtherUc = BitVec.allOnes 32 := by decide
    rw [hall, BitVec.and_allOnes]
  rw [h] at hsplit
  simpa using hsplit.symm

/-! ## Every run -/

/-- The call has written `regidx`, and uses `regval` next. -/
def Phase.indexed : Phase → Bool
  | .read | .write _ | .check _ => true
  | _ => false

/-- What the call has read. -/
def Phase.before : Phase → Option Reg
  | .indexWrite before | .write before | .indexCheck before | .check before => some before
  | _ => none

structure Inv (s : State) : Prop where
  now : s.regs rfcrBand0 ∈ s.past
  index : ∀ i phase, s.tasks i = some phase → phase.indexed = true → s.index = rfcrBand0
  before : ∀ i phase before, s.tasks i = some phase → phase.before = some before →
    before ∈ s.past ∧ before ≠ 0xffffffff ∧ before &&& dropOtherUc ≠ 0
  writes : ∀ w ∈ s.writes, w.1 = rfcrBand0 ∧ w.2.2 = w.2.1 &&& ~~~dropOtherUc ∧ w.2.1 ∈ s.past ∧
    w.2.1 ≠ 0xffffffff

theorem to_tasks {s : State} {i j : Nat} {phase phase' : Phase}
    (h : (s.to i phase).tasks j = some phase') : phase' = phase ∨ s.tasks j = some phase' := by
  by_cases hj : j = i
  · subst hj
    simp only [State.to, Function.update_self, Option.some.injEq] at h
    exact Or.inl h.symm
  · simp only [State.to, Function.update_of_ne hj] at h
    exact Or.inr h

/-- What an operation of a call does. -/
theorem step_go {s t : State} {i : Nat} {outcome : Outcome}
    (hstep : step s (.go i outcome) = some t) : ∃ phase, s.tasks i = some phase ∧
      (∀ result, phase ≠ .done result) ∧
      (t = s.raise i ∨ t = s.advance i outcome phase) := by
  simp only [step] at hstep
  split at hstep
  · cases hstep
  · cases hstep
  · rename_i phase hdone hi
    obtain rfl := Option.some.inj hstep
    exact ⟨phase, hi, hdone, Or.inl rfl⟩
  · rename_i phase hdone hi _
    obtain rfl := Option.some.inj hstep
    exact ⟨phase, hi, hdone, Or.inr rfl⟩

section Steps

variable {s : State}

theorem Inv.to (h : Inv s) (i : Nat) {phase : Phase}
    (hindex : phase.indexed = true → s.index = rfcrBand0)
    (hbefore : ∀ before, phase.before = some before →
      before ∈ s.past ∧ before ≠ 0xffffffff ∧ before &&& dropOtherUc ≠ 0) : Inv (s.to i phase) where
  now := h.now
  index j phase' hj hindexed := by
    rcases to_tasks hj with rfl | hj
    · exact hindex hindexed
    · exact h.index j phase' hj hindexed
  before j phase' before hj hb := by
    rcases to_tasks hj with rfl | hj
    · exact hbefore before hb
    · exact h.before j phase' before hj hb
  writes := h.writes

theorem Inv.rest (h : Inv s) (i : Nat) {phase : Phase} (hindexed : phase.indexed = false)
    (hbefore : phase.before = none) : Inv (s.to i phase) := by
  refine h.to i (fun hi => ?_) fun before hb => ?_
  · rw [hindexed] at hi
    cases hi
  · rw [hbefore] at hb
    cases hb

theorem Inv.writeIndex (h : Inv s) : Inv s.writeIndex := by
  rw [writeIndex_eq]
  exact ⟨h.now, fun _ _ _ _ => rfl, h.before, h.writes⟩

theorem Inv.setReg (h : Inv s) (address : Nat) (value : Reg) : Inv (s.setReg address value) where
  now := List.mem_cons_self
  index := h.index
  before i phase before hi hb := by
    obtain ⟨hpast, hrest⟩ := h.before i phase before hi hb
    exact ⟨List.mem_cons_of_mem _ hpast, hrest⟩
  writes w hw := by
    obtain ⟨haddress, hvalue, hpast, hne⟩ := h.writes w hw
    exact ⟨haddress, hvalue, List.mem_cons_of_mem _ hpast, hne⟩

theorem Inv.wrote (h : Inv s) {i : Nat} {before : Reg} (hi : s.tasks i = some (.write before)) :
    Inv (s.wrote before (before &&& ~~~dropOtherUc)) := by
  refine ⟨h.now, h.index, h.before, fun w hw => ?_⟩
  rcases List.mem_cons.1 hw with rfl | hw
  · obtain ⟨hpast, hne, -⟩ := h.before i _ before hi rfl
    exact ⟨h.index i _ hi rfl, rfl, hpast, hne⟩
  · exact h.writes w hw

theorem Inv.writeValue (h : Inv s) {i : Nat} {before : Reg} (hi : s.tasks i = some (.write before))
    (outcome : Outcome) : Inv (s.writeValue outcome before (before &&& ~~~dropOtherUc)) := by
  have hwrote := h.wrote hi
  rcases writeValue_cases s outcome before (before &&& ~~~dropOtherUc) with hs | ⟨-, hs⟩
  · rw [hs]
    exact hwrote.setReg _ _
  · rw [hs]
    exact hwrote

@[simp] theorem writeValue_tasks (outcome : Outcome) (before value : Reg) :
    (s.writeValue outcome before value).tasks = s.tasks := by
  rcases writeValue_cases s outcome before value with hs | ⟨-, hs⟩
  · rw [hs]
    rfl
  · rw [hs]
    rfl

theorem Inv.advance (h : Inv s) {i : Nat} {phase : Phase} (hi : s.tasks i = some phase)
    (outcome : Outcome) : Inv (s.advance i outcome phase) := by
  cases phase with
  | indexRead =>
    refine h.writeIndex.to i (fun _ => ?_) fun before hb => by cases hb
    rw [writeIndex_eq]
  | read =>
    unfold State.advance
    have hindex := h.index i _ hi rfl
    rcases value_cases s outcome with hvalue | ⟨-, hvalue⟩
    · rw [hvalue, hindex]
      dsimp only
      split_ifs with hfailed hclear
      · exact h.rest i rfl rfl
      · exact h.rest i rfl rfl
      · refine h.to i (fun hi => by cases hi) fun before hb => ?_
        obtain rfl := Option.some.inj hb
        exact ⟨h.now, hfailed, hclear⟩
    · rw [hvalue]
      exact h.rest i rfl rfl
  | indexWrite before =>
    refine h.writeIndex.to i (fun _ => ?_) fun before' hb => ?_
    · rw [writeIndex_eq]
    · obtain rfl := Option.some.inj hb
      rw [writeIndex_eq]
      exact h.before i _ before hi rfl
  | write before =>
    have hwritten := h.writeValue hi outcome
    refine hwritten.to i (fun hi => by cases hi) fun before' hb => ?_
    obtain rfl := Option.some.inj hb
    rw [← writeValue_tasks outcome before (before &&& ~~~dropOtherUc)] at hi
    exact hwritten.before i _ before hi rfl
  | indexCheck before =>
    refine h.writeIndex.to i (fun _ => ?_) fun before' hb => ?_
    · rw [writeIndex_eq]
    · obtain rfl := Option.some.inj hb
      rw [writeIndex_eq]
      exact h.before i _ before hi rfl
  | check before =>
    unfold State.advance
    rcases value_cases s outcome with hvalue | ⟨-, hvalue⟩
    · rw [hvalue]
      exact h.rest i rfl rfl
    · rw [hvalue]
      exact h.rest i rfl rfl
  | done result => exact h.rest i rfl rfl

theorem Inv.step {t : State} (h : Inv s) {a : Act} (hstep : step s a = some t) : Inv t := by
  cases a with
  | call i =>
    simp only [RxFilter.step] at hstep
    split at hstep
    · obtain rfl := Option.some.inj hstep
      exact h.rest i rfl rfl
    · obtain rfl := Option.some.inj hstep
      exact h.rest i rfl rfl
    · cases hstep
  | go i outcome =>
    obtain ⟨phase, hi, -, rfl | rfl⟩ := step_go hstep
    · exact h.rest i rfl rfl
    · exact h.advance hi outcome
  | hardware address value =>
    obtain rfl := Option.some.inj hstep
    exact h.setReg address value

end Steps

theorem inv_initial (index : Nat) (regs : Nat → Reg) : Inv (initial index regs) where
  now := List.mem_cons_self
  index _ _ hi := by cases hi
  before _ _ _ hi := by cases hi
  writes _ hw := by cases hw

/-- **Core writes RFCR only, and only a value that it had, less the one bit.** -/
theorem rfcr_writes {index : Nat} {regs : Nat → Reg} {s : State}
    (h : Reaches step (initial index regs) s) {address : Nat} {before value : Reg}
    (hw : (address, before, value) ∈ s.writes) :
    address = rfcrBand0 ∧ value = before &&& ~~~dropOtherUc ∧ before ∈ s.past ∧
      before ≠ 0xffffffff := by
  have hinv : Inv s := Run.invariant h (inv_initial index regs) fun _ _ _ hs _ hstep =>
    hs.step hstep
  exact hinv.writes _ hw

/-- Two calls that both read RFCR before either writes it. -/
def crossing : List Act :=
  [.call 0, .go 0 .ok, .go 0 .ok, .call 1, .go 1 .ok, .go 1 .ok, .go 0 .ok, .go 0 .ok, .go 0 .ok,
    .go 0 .ok, .go 1 .ok, .go 1 .ok, .go 1 .ok, .go 1 .ok]

/-- RFCR as a scan leaves it. -/
def scanned : Nat → Reg := fun _ => 0x000f0010

theorem rfcr_writes_crossing : ∃ s, Reaches step (initial 0 scanned) s ∧
    (rfcrBand0, (0x000f0010 : Reg), (0x000b0010 : Reg)) ∈ s.writes ∧
    (rfcrBand0 = rfcrBand0 ∧ (0x000b0010 : Reg) = 0x000f0010 &&& ~~~dropOtherUc ∧
      (0x000f0010 : Reg) ∈ s.past ∧ (0x000f0010 : Reg) ≠ 0xffffffff) := by
  have hexec : (exec step (initial 0 scanned) crossing).any (fun s => decide
      ((rfcrBand0, (0x000f0010 : Reg), (0x000b0010 : Reg)) ∈ s.writes)) = true := by
    decide +kernel
  obtain ⟨s, hs, hwrites⟩ := (Option.any_eq_true _ _).1 hexec
  have hreach := Reaches.of_exec hs
  have hw := of_decide_eq_true hwrites
  exact ⟨s, hreach, hw, rfcr_writes hreach hw⟩

/-! ## Runs in which nothing else changes RFCR -/

def cleared (r : Reg) : Reg := r &&& ~~~dropOtherUc

/-- The call has cleared the bit, or found it clear. -/
def Phase.after : Phase → Bool
  | .indexCheck _ | .check _ | .done (some _) => true
  | _ => false

structure Quiet (r : Reg) (s : State) : Prop where
  reg : s.regs rfcrBand0 = r ∨ s.regs rfcrBand0 = cleared r
  before : ∀ i phase before, s.tasks i = some phase → phase.before = some before → before = r
  after : ∀ i phase, s.tasks i = some phase → phase.after = true → s.regs rfcrBand0 = cleared r
  result : ∀ i b a, s.tasks i = some (.done (some (b, a))) → (b = r ∨ b = cleared r) ∧ a = cleared r

section QuietSteps

variable {s : State} {r : Reg}

theorem Quiet.to (h : Quiet r s) (i : Nat) {phase : Phase}
    (hbefore : ∀ before, phase.before = some before → before = r)
    (hafter : phase.after = true → s.regs rfcrBand0 = cleared r)
    (hresult : ∀ b a, phase = .done (some (b, a)) → (b = r ∨ b = cleared r) ∧ a = cleared r) :
    Quiet r (s.to i phase) where
  reg := h.reg
  before j phase' before hj hb := by
    rcases to_tasks hj with rfl | hj
    · exact hbefore before hb
    · exact h.before j phase' before hj hb
  after j phase' hj hdone := by
    rcases to_tasks hj with rfl | hj
    · exact hafter hdone
    · exact h.after j phase' hj hdone
  result j b a hj := by
    rcases to_tasks hj with hphase | hj
    · exact hresult b a hphase.symm
    · exact h.result j b a hj

theorem Quiet.raise (h : Quiet r s) (i : Nat) : Quiet r (s.raise i) :=
  h.to i (fun _ hb => by cases hb) (fun hd => by cases hd) fun _ _ hp => by cases hp

theorem Quiet.writeIndex (h : Quiet r s) : Quiet r s.writeIndex := by
  rw [writeIndex_eq]
  exact ⟨h.reg, h.before, h.after, h.result⟩

/-- A change of the registers that leaves RFCR as it is, or less the bit. -/
theorem Quiet.setReg (h : Quiet r s) {address : Nat} {value : Reg}
    (hvalue : address = rfcrBand0 → value = cleared r) : Quiet r (s.setReg address value) := by
  by_cases haddress : rfcrBand0 = address
  · have hnow : (s.setReg address value).regs rfcrBand0 = cleared r := by
      rw [← hvalue haddress.symm, haddress]
      exact Function.update_self ..
    exact ⟨Or.inr hnow, h.before, fun _ _ _ _ => hnow, h.result⟩
  · have hnow : (s.setReg address value).regs rfcrBand0 = s.regs rfcrBand0 :=
      Function.update_of_ne haddress _ _
    refine ⟨?_, h.before, fun i phase hi hd => ?_, h.result⟩
    · rw [hnow]
      exact h.reg
    · rw [hnow]
      exact h.after i phase hi hd

/-- Where the bit is clear, it was cleared, or there was none. -/
theorem Quiet.clear (h : Quiet r s) (hclear : s.regs rfcrBand0 &&& dropOtherUc = 0) :
    s.regs rfcrBand0 = cleared r := by
  rcases h.reg with hr | hr
  · rw [hr] at hclear ⊢
    exact (clear_of_clear hclear).symm
  · exact hr

/-- Where the bit is set, nothing was written. -/
theorem Quiet.first (h : Quiet r s) (hset : s.regs rfcrBand0 &&& dropOtherUc ≠ 0) :
    s.regs rfcrBand0 = r := by
  rcases h.reg with hr | hr
  · exact hr
  · rw [hr] at hset
    exact absurd (clear_clear r) hset

theorem Quiet.writeValue (h : Quiet r s) (hindex : s.index = rfcrBand0) {before : Reg}
    (hbefore : before = r) {outcome : Outcome} (hok : outcome ≠ .busFailure) :
    Quiet r (s.writeValue outcome before (before &&& ~~~dropOtherUc)) ∧
      (s.writeValue outcome before (before &&& ~~~dropOtherUc)).regs rfcrBand0 = cleared r := by
  subst hbefore
  have hwrote : Quiet before (s.wrote before (before &&& ~~~dropOtherUc)) :=
    ⟨h.reg, h.before, h.after, h.result⟩
  rcases writeValue_cases s outcome before (before &&& ~~~dropOtherUc) with hw | ⟨hfailed, -⟩
  · rw [hw]
    refine ⟨hwrote.setReg fun _ => rfl, ?_⟩
    show Function.update s.regs s.index (before &&& ~~~dropOtherUc) rfcrBand0 = _
    rw [hindex]
    exact Function.update_self ..
  · exact absurd hfailed hok

theorem Quiet.advance (h : Quiet r s) (hs : Inv s) {i : Nat} {phase : Phase}
    (hi : s.tasks i = some phase) {outcome : Outcome} (hok : outcome ≠ .busFailure) :
    Quiet r (s.advance i outcome phase) := by
  have hvalue : s.value outcome = some (s.regs s.index) := by
    rcases value_cases s outcome with hvalue | ⟨hfailed, -⟩
    · exact hvalue
    · exact absurd hfailed hok
  cases phase with
  | indexRead =>
    exact h.writeIndex.to i (fun _ hb => by cases hb) (fun hd => by cases hd) fun _ _ hp => by
      cases hp
  | read =>
    unfold State.advance
    rw [hvalue, hs.index i _ hi rfl]
    dsimp only
    split_ifs with hfailed hclear
    · exact h.raise i
    · refine h.to i (fun _ hb => by cases hb) (fun _ => h.clear hclear) fun b a hp => ?_
      cases hp
      exact ⟨h.reg, h.clear hclear⟩
    · refine h.to i (fun before hb => ?_) (fun hd => by cases hd) fun _ _ hp => by cases hp
      obtain rfl := Option.some.inj hb
      exact h.first hclear
  | indexWrite before =>
    refine h.writeIndex.to i (fun before' hb => ?_) (fun hd => by cases hd) fun _ _ hp =>
      by cases hp
    obtain rfl := Option.some.inj hb
    exact h.before i _ before hi rfl
  | write before =>
    have hbefore := h.before i _ before hi rfl
    obtain ⟨hwritten, hnow⟩ := h.writeValue (hs.index i _ hi rfl) hbefore hok
    refine hwritten.to i (fun before' hb => ?_) (fun _ => hnow) fun _ _ hp => by cases hp
    obtain rfl := Option.some.inj hb
    exact hbefore
  | indexCheck before =>
    refine h.writeIndex.to i (fun before' hb => ?_) (fun _ => ?_) fun _ _ hp => by cases hp
    · obtain rfl := Option.some.inj hb
      exact h.before i _ before hi rfl
    · rw [writeIndex_eq]
      exact h.after i _ hi rfl
  | check before =>
    unfold State.advance
    rw [hvalue, hs.index i _ hi rfl]
    have hnow := h.after i _ hi rfl
    refine h.to i (fun _ hb => by cases hb) (fun _ => hnow) fun b a hp => ?_
    cases hp
    exact ⟨Or.inl (h.before i _ _ hi rfl), hnow⟩
  | done result =>
    refine h.to i (fun _ hb => by cases hb) (fun hd => h.after i _ hi hd) fun b a hp => ?_
    rw [hp] at hi
    exact h.result i b a hi

/-- The firmware leaves RFCR alone, and the bus works. -/
def Undisturbed (a : Act) : Prop :=
  (∀ value, a ≠ .hardware rfcrBand0 value) ∧ ∀ i, a ≠ .go i .busFailure

theorem Quiet.step {t : State} (h : Quiet r s) (hs : Inv s) {a : Act} (ha : Undisturbed a)
    (hstep : step s a = some t) : Quiet r t := by
  cases a with
  | call i =>
    have hto : Quiet r (s.to i .indexRead) :=
      h.to i (fun _ hb => by cases hb) (fun hd => by cases hd) fun _ _ hp => by cases hp
    simp only [RxFilter.step] at hstep
    split at hstep
    · obtain rfl := Option.some.inj hstep
      exact hto
    · obtain rfl := Option.some.inj hstep
      exact hto
    · cases hstep
  | go i outcome =>
    obtain ⟨phase, hi, -, rfl | rfl⟩ := step_go hstep
    · exact h.raise i
    · refine h.advance hs hi fun hfailed => ?_
      rw [hfailed] at ha
      exact ha.2 i rfl
  | hardware address value =>
    obtain rfl := Option.some.inj hstep
    refine h.setReg fun haddress => ?_
    rw [haddress] at ha
    exact absurd rfl (ha.1 value)

end QuietSteps

theorem quiet_initial (index : Nat) (regs : Nat → Reg) :
    Quiet (regs rfcrBand0) (initial index regs) where
  reg := Or.inl rfl
  before _ _ _ hi := by cases hi
  after _ _ hi := by cases hi
  result _ _ _ hi := by cases hi

/-- **What a call that returned leaves.** -/
theorem rfcr_cleared {index : Nat} {regs : Nat → Reg} {s : State}
    (h : Run step (fun _ a => Undisturbed a) (initial index regs) s) {i : Nat} {before after : Reg}
    (hi : s.tasks i = some (.done (some (before, after)))) :
    s.regs rfcrBand0 = regs rfcrBand0 &&& ~~~dropOtherUc ∧ after = s.regs rfcrBand0 ∧
      (before = regs rfcrBand0 ∨ before = after) := by
  have hboth : Inv s ∧ Quiet (regs rfcrBand0) s :=
    Run.invariant h (I := fun s => Inv s ∧ Quiet (regs rfcrBand0) s)
      ⟨inv_initial index regs, quiet_initial index regs⟩
      fun _ _ _ hs ha hstep => ⟨hs.1.step hstep, hs.2.step hs.1 ha hstep⟩
  have hnow := hboth.2.after i _ hi rfl
  obtain ⟨hbefore, hafter⟩ := hboth.2.result i before after hi
  refine ⟨hnow, hafter.trans hnow.symm, ?_⟩
  rcases hbefore with hb | hb
  · exact Or.inl hb
  · exact Or.inr (hb.trans hafter.symm)

theorem rfcr_cleared_crossing : ∃ s,
    Run step (fun _ a => Undisturbed a) (initial 0 scanned) s ∧
    s.tasks 1 = some (.done (some (0x000f0010, 0x000b0010))) ∧
    (s.regs rfcrBand0 = scanned rfcrBand0 &&& ~~~dropOtherUc ∧ 0x000b0010 = s.regs rfcrBand0 ∧
      ((0x000f0010 : Reg) = scanned rfcrBand0 ∨ (0x000f0010 : Reg) = 0x000b0010)) := by
  have hexec : (exec step (initial 0 scanned) crossing).any (fun s => decide
      (s.tasks 1 = some (.done (some (0x000f0010, 0x000b0010))))) = true := by decide +kernel
  obtain ⟨s, hs, htask⟩ := (Option.any_eq_true _ _).1 hexec
  have hok : ∀ a ∈ crossing, ∀ _ : State, Undisturbed a := by
    intro a ha _
    refine ⟨fun value hv => ?_, fun i hv => ?_⟩
    · rw [hv] at ha
      simp [crossing] at ha
    · rw [hv] at ha
      simp [crossing] at ha
  have hrun := Run.of_exec hok hs
  have hi := of_decide_eq_true htask
  exact ⟨s, hrun, hi, rfcr_cleared hrun hi⟩

end WlanpiCore.RxFilter
