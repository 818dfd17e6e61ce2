import WlanpiCore.Lib.Transition
import WlanpiCore.Wpa.Supplicant

/-!
# One supplicant for an interface of a namespace

**What the others do** (`Others`). Processes end, and new ones start under PIDs that are free; with
`reuse` also under the PID of a process that just ended, even in the middle of a call. With `files`
no other program starts a supplicant with one of Core's pidfiles, and such a file is written only by
a supplicant that runs for it, which writes its PID; anyone may remove it.

**What the command does** (`Leaves`). `wpa_supplicant -B -P` fails and leaves nothing, or it leaves
one process, under a PID that no process has. That process writes its pidfile at some later moment,
and may remove it before it ends: `Timely` says that Core read no pidfile in the moments between.

**The invariant** (`Sole`). At most one supplicant of Core runs for a pidfile, which is absent, is
just being written or names it. A read that is timely finds the PID there, so a stop that answers
`True` leaves none, and the next one starts only after that.

**Theorems.** `at_most_one_supplicant`: in every run, at every moment before which all reads were
timely, at most one supplicant of Core runs for an interface of a namespace, whatever PIDs are
reused. `signalled_recognised`: where no PID is handed out twice during one call, every process that
ever got a signal was a supplicant that Core recognised, whatever the pidfiles hold.
`stop_then_none` and `start_then_one` say what a call that succeeds leaves.
-/

namespace WlanpiCore.Supplicant

open Text Shared

/-- What the supplicant writes into its pidfile. -/
def pidText (pid : Nat) : Text := Nat.toDigits 10 pid ++ ['\n']

/-- Core's supplicant for the pidfile runs under this PID. -/
def System.Runs (m : System) (path : RunPath) (pid : Nat) : Prop :=
  isCoreSupplicant (m.cmdline pid) path = true

/-- What `_stop_pidfile` or the sweep signals. -/
def Recognised (argv : List Text) : Prop :=
  isLegacy argv = true ∨ ∃ path, isCoreSupplicant argv path = true

/-- What becomes of a PID. With `files` no other program starts a supplicant of Core, and a
supplicant that Core recognises never turns into another program. -/
inductive Evolves (reuse files : Bool) : Proc → Proc → Prop where
  | same (p : Proc) : Evolves reuse files p p
  | zombie (p : Proc) : Evolves reuse files p .zombie
  | gone (p : Proc) : Evolves reuse files p .gone
  | fresh {argv : List Text} (h : files = true → ∀ path, isCoreSupplicant argv path = false) :
    Evolves reuse files .free (.running argv)
  | exec {argv argv' : List Text} (h : ¬Recognised argv)
    (h' : files = true → ∀ path, isCoreSupplicant argv' path = false) :
    Evolves reuse files (.running argv) (.running argv')
  | reused {p : Proc} {argv : List Text} (hreuse : reuse = true)
    (h : files = true → ∀ path, isCoreSupplicant argv path = false) :
    Evolves reuse files p (.running argv)

/-- What becomes of a pidfile. The supplicant opens it, which empties it, and then writes. -/
inductive Refiles (m : System) (path : RunPath) : Option Text → Prop where
  | same : Refiles m path (m.pidfile path)
  | removed : Refiles m path none
  | opened {pid : Nat} (h : m.Runs path pid) : Refiles m path (some [])
  | written {pid : Nat} (h : m.Runs path pid) : Refiles m path (some (pidText pid))

/-- What the others may do between two calls. -/
structure Others (reuse files : Bool) (w w' : World) : Prop where
  procs : ∀ pid, Evolves reuse files (w.procs pid) (w'.procs pid)
  pidfiles : files = true → ∀ path, Refiles w.toSystem path (w'.pidfile path)
  signalled : w'.signalled = w.signalled
  reads : w'.reads = w.reads

/-- What `wpa_supplicant -B -P` may leave. -/
inductive Leaves (path : RunPath) (m : System) : Except Exc Unit → System → Prop where
  | failed : Leaves path m (.error .runCommandError) m
  | started {pid : Nat} {m' : System} (hpid : 0 < pid)
    (hprocs : m'.procs = Function.update m.procs pid (.running (supplicantCommand path)))
    (hfree : m.procs pid = .free ∨ m.procs pid = .gone)
    (hfile : m'.pidfile path = m.pidfile path ∨ m'.pidfile path = some [] ∨
      m'.pidfile path = some (pidText pid))
    (hfiles : ∀ path', path' ≠ path → m'.pidfile path' = m.pidfile path') :
    Leaves path m (.ok ()) m'

def Host.Documented (host : Host) : Prop :=
  ∀ path m, Leaves path m (host.launch path m).1 (host.launch path m).2

/-- The command of a start is the one that is documented. -/
def Act.Documented : Act → Prop
  | .start host _ _ => host.Documented
  | _ => True

/-- Core read no pidfile while a supplicant that runs for it had not yet written it, or had removed
it. -/
def Timely (w : World) : Prop :=
  ∀ r ∈ w.reads, ∀ pid, r.2.Runs r.1 pid → r.2.pidfile r.1 ≠ none ∧ r.2.pidfile r.1 ≠ some []

/-- At most one supplicant of Core runs for a pidfile, which names no other. -/
def Sole (m : System) : Prop :=
  ∀ path pid, m.Runs path pid → (∀ q, m.Runs path q → q = pid) ∧
    (m.pidfile path = none ∨ m.pidfile path = some [] ∨ m.pidfile path = some (pidText pid))

def NoneRuns (path : RunPath) (m : System) : Prop := ∀ pid, ¬m.Runs path pid

/-- What is known of the system where the pidfiles are as `Others` says and were read in time. -/
def Known (files : Bool) (Q : System → Prop) (w : World) : Prop :=
  files = true → Timely w → Q w.toSystem

/-! ## Command lines and paths -/

theorem int_pidText (pid : Nat) : int (pidText pid) = some (pid : Int) := by
  have hdigit : ∀ c ∈ Nat.toDigits 10 pid, c.isDigit = true :=
    fun c hc => Nat.isDigit_of_mem_toDigits (by decide) (by decide) hc
  have hstrip : strip (pidText pid) = strip (Nat.toDigits 10 pid) := by
    rw [← strip_rstrip, pidText, rstrip, List.rdropWhile_concat_pos _ _ _ (by decide)]
    exact strip_rstrip _
  have hint : int (pidText pid) = int (Nat.toDigits 10 pid) := by
    unfold int
    rw [hstrip, strip_id fun c hc => isSpace_digit (hdigit c hc)]
  rw [hint, int_digits Nat.toDigits_ne_nil hdigit]
  exact congrArg (fun n : Nat => some (n : Int)) Nat.ofDigitChars_ten_toDigits

@[simp] theorem isCoreSupplicant_nil (path : RunPath) : isCoreSupplicant [] path = false := rfl

/-- A command line names one pidfile: the interface is in both and the directory is what is left. -/
theorem isCoreSupplicant_path {argv : List Text} {path path' : RunPath}
    (h : isCoreSupplicant argv path = true) (h' : isCoreSupplicant argv path' = true) :
    path = path' := by
  simp only [isCoreSupplicant, Bool.and_eq_true, decide_eq_true_eq] at h h'
  have hstem : path.stem = path'.stem := Option.some.inj (h.1.symm.trans h'.1)
  have hstr : pidfilePath path = pidfilePath path' := Option.some.inj (h.2.symm.trans h'.2)
  unfold pidfilePath RunPath.str runtimeDir at hstr
  rw [hstem] at hstr
  have hdir : path.dir = path'.dir :=
    List.append_cancel_left (List.append_cancel_right hstr)
  cases path
  cases path'
  simp_all

theorem recognised_core {path : RunPath} (argv : List Text)
    (hcore : isCoreSupplicant argv path = true) : Recognised argv :=
  Or.inr ⟨path, hcore⟩

theorem str_ne_flag (path : RunPath) (suffix : String) : path.str suffix ≠ "-P".toList := by
  intro h
  exact absurd (List.cons.inj h).1 (by decide)

theorem isCoreSupplicant_command {path : RunPath} (hstem : path.stem ≠ "-P".toList) :
    isCoreSupplicant (supplicantCommand path) path = true := by
  have hiface : supplicantIface (supplicantCommand path) = some path.stem := rfl
  have hconfig := str_ne_flag path ".conf"
  have hlog := str_ne_flag path ".log"
  have hpidfile : argAfter "-P" (supplicantCommand path) = some (pidfilePath path) := by
    rw [← beq_eq_false_iff_ne] at hstem hconfig hlog
    simp only [argAfter, supplicantCommand, List.idxOf_cons, configPath, logPath, hstem, hconfig,
      hlog]
    rfl
  simp [isCoreSupplicant, hiface, hpidfile]

theorem InterfaceName.ne_flag (iface : InterfaceName) : iface.val ≠ "-P".toList := by
  intro h
  have hmatch := (validateName_eq_none.1 iface.property).2.2.2
  rw [h] at hmatch
  exact absurd hmatch (by decide)

/-! ## One step of the others -/

section OneStep

variable {reuse files : Bool} {w w' : World} {path : RunPath}

theorem Others.proc (h : Others reuse files w w') (pid : Int) :
    Evolves reuse files (w.proc pid) (w'.proc pid) := by
  unfold System.proc
  split_ifs
  · exact h.procs _
  · exact .same _

/-- The others start no supplicant of Core: one that runs afterwards ran before. -/
theorem Others.core (h : Others reuse files w w') (hfiles : files = true) {pid : Int}
    (hcore : isCoreSupplicant (w'.cmdline pid) path = true) : w'.cmdline pid = w.cmdline pid := by
  have hproc := h.proc pid
  unfold System.cmdline at hcore ⊢
  generalize w.proc pid = p at *
  generalize w'.proc pid = p' at *
  cases hproc with
  | same => rfl
  | zombie => cases hcore
  | gone => cases hcore
  | fresh hforeign => cases (hforeign hfiles path).symm.trans hcore
  | exec _ hforeign => cases (hforeign hfiles path).symm.trans hcore
  | reused _ hforeign => cases (hforeign hfiles path).symm.trans hcore

theorem Others.runs (h : Others reuse files w w') (hfiles : files = true) {pid : Nat}
    (hruns : w'.Runs path pid) : w.Runs path pid := by
  have heq := h.core hfiles hruns
  unfold System.Runs at *
  rwa [← heq]

theorem Others.timely (h : Others reuse files w w') (ht : Timely w') : Timely w := by
  unfold Timely at *
  rwa [← h.reads]

/-- A pidfile that names no other supplicant than one that runs still does not. -/
theorem Others.sole (h : Others reuse files w w') (hfiles : files = true)
    (hsole : Sole w.toSystem) : Sole w'.toSystem := by
  intro path pid hruns
  obtain ⟨honly, hfile⟩ := hsole path pid (h.runs hfiles hruns)
  refine ⟨fun q hq => honly q (h.runs hfiles hq), ?_⟩
  have hrefiles := h.pidfiles hfiles path
  generalize w'.pidfile path = text at hrefiles ⊢
  cases hrefiles with
  | same => exact hfile
  | removed => exact .inl rfl
  | opened => exact .inr (.inl rfl)
  | written hwriter => exact .inr (.inr (by rw [honly _ hwriter]))

/-- What is known and survives a step of the others is stable. -/
theorem stable_known {Q : System → Prop}
    (hQ : ∀ w w', Others reuse files w w' → files = true → Q w.toSystem → Q w'.toSystem) :
    Stable (Others reuse files) (Known files Sole) (Known files Q) :=
  fun w w' h _ hq hfiles ht => hQ w w' h hfiles (hq hfiles (h.timely ht))

theorem stable_sole : Stable (Others reuse files) (Known files Sole) (Known files Sole) :=
  stable_known fun _ _ h hfiles hsole => h.sole hfiles hsole

theorem Others.noneRuns (h : Others reuse files w w') (hfiles : files = true)
    (hnone : NoneRuns path w.toSystem) : NoneRuns path w'.toSystem :=
  fun pid hruns => hnone pid (h.runs hfiles hruns)

/-- No supplicant of Core runs for the pidfile, and it is not there. -/
def Clear (path : RunPath) (m : System) : Prop := NoneRuns path m ∧ m.pidfile path = none

theorem stable_clear :
    Stable (Others reuse files) (Known files Sole) (Known files (Clear path)) := by
  refine stable_known fun w w' h hfiles hclear => ⟨h.noneRuns hfiles hclear.1, ?_⟩
  have hrefiles := h.pidfiles hfiles path
  generalize w'.pidfile path = text at hrefiles ⊢
  cases hrefiles with
  | same => exact hclear.2
  | removed => rfl
  | opened hruns => exact absurd hruns (hclear.1 _)
  | written hruns => exact absurd hruns (hclear.1 _)

end OneStep

/-! ## What Core's own calls change -/

section Calls

variable {w : World} {path path' : RunPath} {files : Bool}

@[simp] theorem toSystem_kill (w : World) (pid : Int) (sig : Signal) :
    (w.kill pid sig).2.toSystem = w.toSystem := by
  unfold World.kill
  split <;> rfl

@[simp] theorem reads_kill (w : World) (pid : Int) (sig : Signal) :
    (w.kill pid sig).2.reads = w.reads := by
  unfold World.kill
  split <;> rfl

theorem Known.kill {Q : System → Prop} (h : Known files Q w) (pid : Int) (sig : Signal) :
    Known files Q (w.kill pid sig).2 := by
  intro hfiles ht
  unfold Timely at ht
  rw [reads_kill] at ht
  rw [toSystem_kill]
  exact h hfiles ht

theorem Timely.of_read (h : Timely (w.readPidfile path).2) : Timely w :=
  fun r hr => h r (List.mem_cons_of_mem _ hr)

/-- A read in time finds the PID of the supplicant that runs. -/
theorem Known.read (h : Known files Sole w) :
    Known files (fun m => ∀ pid, m.Runs path pid →
      (w.readPidfile path).1 = some (pidText pid)) (w.readPidfile path).2 := by
  intro hfiles ht pid hruns
  obtain ⟨hthere, hwritten⟩ := ht _ List.mem_cons_self pid hruns
  obtain ⟨-, hfile⟩ := h hfiles ht.of_read path pid hruns
  exact (hfile.resolve_left hthere).resolve_left hwritten

theorem pidfile_unlink (w : World) (path path' : RunPath) :
    (w.unlink path).pidfile path' = if path' = path then none else w.pidfile path' :=
  Dict.get_erase path path' w.pidfiles

/-- A pidfile may go at any moment. -/
theorem Sole.unlink (h : Sole w.toSystem) : Sole (w.unlink path).toSystem := by
  intro path' pid hruns
  obtain ⟨honly, hfile⟩ := h path' pid hruns
  refine ⟨honly, ?_⟩
  rw [pidfile_unlink]
  split_ifs
  · exact .inl rfl
  · exact hfile

theorem clear_unlink (h : NoneRuns path w.toSystem) : Clear path (w.unlink path).toSystem :=
  ⟨h, (pidfile_unlink w path path).trans (if_pos rfl)⟩

variable {m m' : System}

theorem cmdline_update {pid : Nat} (hpid : 0 < pid) {argv : List Text}
    (hprocs : m'.procs = Function.update m.procs pid (.running argv)) (q : Nat) :
    m'.cmdline q = if q = pid then argv else m.cmdline q := by
  by_cases hq : q = pid
  · subst hq
    simp [System.cmdline, System.proc, hprocs, hpid]
  · simp [System.cmdline, System.proc, hprocs, hq]

/-- The command may run where no supplicant does for its pidfile. -/
theorem Leaves.sole {r : Except Exc Unit} (h : Leaves path m r m') (hsole : Sole m)
    (hclear : Clear path m) (hstem : path.stem ≠ "-P".toList) : Sole m' := by
  cases h with
  | failed => exact hsole
  | @started pid _ hpid hprocs hfree hfile hfiles =>
    intro path' q hruns
    have hcore (q : Nat) (path' : RunPath) (hq : m'.Runs path' q) :
        q = pid ∧ path' = path ∨ m.Runs path' q ∧ path' ≠ path := by
      unfold System.Runs at hq
      rw [cmdline_update hpid hprocs] at hq
      by_cases hnew : q = pid
      · rw [if_pos hnew] at hq
        exact .inl ⟨hnew, isCoreSupplicant_path hq (isCoreSupplicant_command hstem)⟩
      · rw [if_neg hnew] at hq
        exact .inr ⟨hq, fun hp => hclear.1 q (hp ▸ hq)⟩
    rcases hcore q path' hruns with ⟨rfl, rfl⟩ | ⟨hold, hne⟩
    · refine ⟨fun p hp => ?_, ?_⟩
      · rcases hcore p _ hp with ⟨rfl, -⟩ | ⟨-, hne⟩
        · rfl
        · exact absurd rfl hne
      · rw [hclear.2] at hfile
        exact hfile
    · obtain ⟨honly, hfile'⟩ := hsole path' q hold
      refine ⟨fun p hp => ?_, by rwa [hfiles path' hne]⟩
      rcases hcore p _ hp with ⟨-, heq⟩ | ⟨hp, -⟩
      · exact absurd heq hne
      · exact honly p hp

/-- Where the command succeeds a supplicant runs. -/
theorem Leaves.runs (h : Leaves path m (.ok ()) m') (hstem : path.stem ≠ "-P".toList) :
    ∃ pid, m'.Runs path pid := by
  cases h with
  | @started pid _ hpid hprocs hfree hfile hfiles =>
    refine ⟨pid, ?_⟩
    unfold System.Runs
    rw [cmdline_update hpid hprocs, if_pos rfl]
    exact isCoreSupplicant_command hstem

end Calls

/-! ## The functions -/

/-- What is known of the signals while supplicants are stopped: `P` outside, `T pid` while the
process `pid` is signalled, whose command line Core `sees` to be one to stop. -/
structure Watch (R : World → World → Prop) (I : World → Prop) (sees : List Text → Prop)
    (P : World → Prop) (T : Int → World → Prop) : Prop where
  frame : ∀ w w', w'.signalled = w.signalled → P w → P w'
  inside : ∀ pid, Stable R I (T pid)
  enter : ∀ w pid, P w → sees (w.cmdline pid) → T pid w
  leave : ∀ w pid, T pid w → P w
  kill : ∀ w pid sig, T pid w → T pid (w.kill pid sig).2

theorem Watch.outside {reuse files : Bool} {I : World → Prop} {sees : List Text → Prop}
    {P : World → Prop} {T : Int → World → Prop} (h : Watch (Others reuse files) I sees P T) :
    Stable (Others reuse files) I P :=
  fun w w' hstep _ hp => h.frame w w' hstep.signalled hp

section Specs

variable {others : Nat → World → World} {reuse files : Bool}
    (hR : Respects (Others reuse files) others)
  {P : World → Prop} {T : Int → World → Prop} {sees : List Text → Prop} {path : RunPath}

include hR

theorem readCmdline_spec (hP : Stable (Others reuse files) (Known files Sole) P) (pid : Int) :
    Triple (Known files Sole) P (readCmdline others pid) (Returns fun argv w =>
      P w ∧ argv = w.cmdline pid) :=
  Triple.look hR stable_sole hP fun _ _ hp => ⟨hp, rfl⟩

theorem waitGone_spec (hP : Stable (Others reuse files) (Known files Sole) P) (pid : Int)
    (ticks : Nat) :
    Triple (Known files Sole) P (waitGone others pid ticks)
      (Returns fun ended w => P w ∧ (ended = true → w.cmdline pid = [])) := by
  induction ticks with
  | zero =>
    refine Triple.seq (readCmdline_spec hR hP pid) fun argv => Triple.pure ?_
    rintro w - ⟨hp, rfl⟩
    exact ⟨hp, List.isEmpty_iff.1⟩
  | succ ticks ih =>
    refine Triple.seq (readCmdline_spec hR hP pid) fun argv => ?_
    by_cases hempty : argv.isEmpty = true
    · rw [if_pos hempty]
      refine Triple.pure ?_
      rintro w - ⟨hp, rfl⟩
      exact ⟨hp, fun _ => List.isEmpty_iff.1 hempty⟩
    · rw [if_neg hempty]
      exact ih.mono (fun _ _ h => h.1) fun _ _ _ h => h

theorem kill_spec (hP : Stable (Others reuse files) (Known files Sole) P) (pid : Int)
    (hkill : ∀ w sig, P w → P (w.kill pid sig).2) (sig : Signal) :
    Triple (Known files Sole) P (kill others pid sig)
      (Returns fun alive w => P w ∧ (alive = false → w.cmdline pid = [])) := by
  refine Triple.syscall hR stable_sole hP fun w hn hp => ⟨hn.kill pid sig, hkill w sig hp, ?_⟩
  rw [toSystem_kill]
  unfold World.kill System.cmdline
  generalize w.proc pid = p
  cases p <;> simp

/-- However the loop ends, what was known is still known; and where it says so, the process has no
command line. -/
theorem terminateWith_spec (hP : Stable (Others reuse files) (Known files Sole) P) (pid : Int)
    (hkill : ∀ w sig, P w → P (w.kill pid sig).2) (signals : List (Signal × Nat)) :
    Triple (Known files Sole) P (terminateWith others pid signals)
      (Returns fun ended w => P w ∧ (ended = true → w.cmdline pid = [])) := by
  induction signals with
  | nil => exact Triple.pure fun w _ hp => ⟨hp, fun h => by cases h⟩
  | cons signal signals ih =>
    obtain ⟨sig, ticks⟩ := signal
    refine Triple.seq (kill_spec hR hP pid hkill sig) fun alive => ?_
    cases alive with
    | false => exact Triple.pure fun w _ h => ⟨h.1, fun _ => h.2 rfl⟩
    | true =>
      refine Triple.mono (Triple.seq (waitGone_spec hR hP pid ticks) fun ended => ?_)
        (fun _ _ h => h.1) fun _ _ _ h => h
      cases ended with
      | true => exact Triple.pure fun w _ h => h
      | false => exact ih.mono (fun _ _ h => h.1) fun _ _ _ h => h

/-- The text read from the pidfile is the only PID that Core's supplicant may run under. -/
def Only (path : RunPath) (text : Option Text) (m : System) : Prop :=
  ∀ pid, m.Runs path pid → text = some (pidText pid)

omit hR in
theorem stable_only {text : Option Text} : Stable (Others reuse files) (Known files Sole)
    (Known files (Only path text)) :=
  stable_known fun _ _ h hfiles honly pid hruns => honly pid (h.runs hfiles hruns)

omit hR in
theorem stable_and {I P Q : World → Prop} (hP : Stable (Others reuse files) I P)
    (hQ : Stable (Others reuse files) I Q) :
    Stable (Others reuse files) I fun w => P w ∧ Q w :=
  fun w w' h hn hpq => ⟨hP w w' h hn hpq.1, hQ w w' h hn hpq.2⟩

omit hR in
/-- Where no process with the PID of the text is Core's supplicant, none is. -/
theorem Only.none {text : Option Text} {m : System} (h : Only path text m)
    (hpid : ∀ pid, text.bind int = some pid → isCoreSupplicant (m.cmdline pid) path = false) :
    NoneRuns path m := by
  intro pid hruns
  have htext := h pid hruns
  have hfalse := hpid pid (by rw [htext]; exact int_pidText pid)
  exact Bool.false_ne_true (hfalse.symm.trans hruns)

/-- A supplicant that is said to have gone is gone, and with it every supplicant of the pidfile. -/
theorem survives_spec (hwatch : Watch (Others reuse files) (Known files Sole) sees P T)
    (hsees : ∀ argv, isCoreSupplicant argv path = true → sees argv) (text : Option Text) :
    Triple (Known files Sole) (fun w => P w ∧ Known files (Only path text) w)
      (survives others path text)
      (Returns fun alive w => P w ∧ (alive = false → Known files (NoneRuns path) w)) := by
  unfold survives
  cases hint : text.bind int with
  | none =>
    refine Triple.pure fun w _ h => ⟨h.1, fun _ hfiles ht => ?_⟩
    refine (h.2 hfiles ht).none fun pid hpid => ?_
    rw [hint] at hpid
    cases hpid
  | some pid =>
    refine Triple.seq (readCmdline_spec hR (stable_and hwatch.outside stable_only) pid)
      fun argv => ?_
    have hone : ∀ w, Known files (Only path text) w →
        isCoreSupplicant (w.cmdline pid) path = false → Known files (NoneRuns path) w := by
      intro w honly hcore hfiles ht
      refine (honly hfiles ht).none fun q hq => ?_
      rw [hint] at hq
      rwa [← Option.some.inj hq]
    by_cases hcore : isCoreSupplicant argv path = true
    · rw [if_pos hcore]
      have hkeeps : Stable (Others reuse files) (Known files Sole)
        (Known files (Only path text)) := stable_only
      have hstable := stable_and (hwatch.inside pid) hkeeps
      have hkill : ∀ w sig, T pid w ∧ Known files (Only path text) w →
          T pid (w.kill pid sig).2 ∧ Known files (Only path text) (w.kill pid sig).2 := by
        intro w sig h
        exact ⟨hwatch.kill w pid sig h.1, h.2.kill pid sig⟩
      refine Triple.mono
        (Triple.seq (terminateWith_spec hR hstable pid hkill _) fun ended => Triple.pure
          (Q := Returns fun alive w => P w ∧ (alive = false → Known files (NoneRuns path) w)) ?_) ?_
        fun _ _ _ h => h
      · rintro w - ⟨⟨hT, honly⟩, hended⟩
        refine ⟨hwatch.leave w pid hT, fun h => hone w honly ?_⟩
        rw [hended (by simpa using h), isCoreSupplicant_nil]
      · rintro w - ⟨⟨hp, honly⟩, rfl⟩
        exact ⟨hwatch.enter w pid hp (hsees _ hcore), honly⟩
    · rw [if_neg hcore]
      refine Triple.pure ?_
      rintro w - ⟨⟨hp, honly⟩, rfl⟩
      exact ⟨hp, fun _ => hone w honly (by simpa using hcore)⟩

/-- `_stop_pidfile`: where it answers `True` no supplicant of Core runs for the pidfile. -/
theorem stopPidfile_spec (hwatch : Watch (Others reuse files) (Known files Sole) sees P T)
    (hsees : ∀ argv, isCoreSupplicant argv path = true → sees argv) :
    Triple (Known files Sole) P (stopPidfile others path)
      (Returns fun stopped w => P w ∧ (stopped = true → Known files (Clear path) w)) := by
  refine Triple.seq (Q := fun text w => P w ∧ Known files (Only path text) w) ?_ fun text => ?_
  · exact Triple.syscall hR stable_sole hwatch.outside fun w hn hp =>
      ⟨fun hfiles ht => hn hfiles ht.of_read, hwatch.frame w _ rfl hp, hn.read⟩
  · refine Triple.seq (survives_spec hR hwatch hsees text) fun alive => ?_
    cases alive with
    | true => exact Triple.pure fun w _ h => ⟨h.1, fun hstopped => by cases hstopped⟩
    | false =>
      refine Triple.seq (Q := fun _ w => P w ∧ Known files (Clear path) w) ?_ fun _ =>
        Triple.pure fun w _ h => ⟨h.1, fun _ => h.2⟩
      have hnone : Stable (Others reuse files) (Known files Sole) (Known files (NoneRuns path)) :=
        stable_known fun _ _ h hfiles hnone => h.noneRuns hfiles hnone
      refine Triple.mono (W := fun w => P w ∧ Known files (NoneRuns path) w) ?_
        (fun w _ h => ⟨h.1, h.2 rfl⟩) fun _ _ _ h => h
      exact Triple.alter hR stable_sole (stable_and hwatch.outside hnone) fun w hn h =>
        ⟨fun hfiles ht => (hn hfiles ht).unlink, hwatch.frame w _ rfl h.1,
          fun hfiles ht => clear_unlink (h.2 hfiles ht)⟩

theorem stopEach_spec (hwatch : Watch (Others reuse files) (Known files Sole) Recognised P T) :
    Triple (Known files Sole) P (stopEach others path) (Returns fun _ => P) :=
  Triple.seq (stopPidfile_spec hR hwatch recognised_core) fun _ =>
    Triple.pure fun _ _ h => h.1

theorem sweep_spec (hwatch : Watch (Others reuse files) (Known files Sole) Recognised P T)
    (pid : Int) :
    Triple (Known files Sole) P (sweep others pid) (Returns fun _ => P) := by
  refine Triple.seq (readCmdline_spec hR hwatch.outside pid) fun argv => ?_
  by_cases hlegacy : isLegacy argv = true
  · rw [if_pos hlegacy]
    refine Triple.mono (W := T pid) ?_ ?_ fun _ _ _ h => h
    · exact Triple.seq
        (terminateWith_spec hR (hwatch.inside pid) pid (fun w sig => hwatch.kill w pid sig) _)
        fun ended => Triple.pure fun w _ h => hwatch.leave w pid h.1
    · rintro w - ⟨hp, rfl⟩
      exact hwatch.enter w pid hp (Or.inl hlegacy)
  · rw [if_neg hlegacy]
    exact Triple.pure fun _ _ h => h.1

theorem killAllSupplicants_spec
    (hwatch : Watch (Others reuse files) (Known files Sole) Recognised P T)
    (listed : System → List Int) :
    Triple (Known files Sole) P (killAllSupplicants others listed) (Returns fun _ => P) := by
  refine Triple.attempt (Q := Returns fun _ => P) ?_ (fun _ _ _ h => h)
    fun _ => Triple.pure fun _ _ h => h.elim
  refine Triple.seq (Q := fun _ => P)
    (Triple.look hR stable_sole hwatch.outside fun _ _ hp => hp) fun paths => ?_
  refine Triple.seq (Triple.forM fun path _ => stopEach_spec hR hwatch) fun _ => ?_
  exact Triple.seq (Q := fun _ => P)
    (Triple.look hR stable_sole hwatch.outside fun _ _ hp => hp) fun pids =>
    Triple.forM fun pid _ => sweep_spec hR hwatch pid

/-- The command keeps the invariant where no supplicant runs for the pidfile, and where it succeeds
one does. -/
theorem launch_spec (hwatch : Watch (Others reuse files) (Known files Sole) sees P T) {host : Host}
    (hhost : files = true → host.Documented) (hstem : path.stem ≠ "-P".toList) :
    Triple (Known files Sole) (fun w => P w ∧ Known files (Clear path) w)
      (syscall others fun w => w.launch host path)
      fun r w => P w ∧ (r = .ok () → Known files (fun m => ∃ pid, m.Runs path pid) w) := by
  refine Triple.syscall hR stable_sole (stable_and hwatch.outside stable_clear) fun w hn h => ?_
  have hleaves (hfiles : files = true) := hhost hfiles path w.toSystem
  refine ⟨fun hfiles ht => ?_, hwatch.frame w _ rfl h.1, fun hok hfiles _ => ?_⟩
  · exact (hleaves hfiles).sole (hn hfiles ht) (h.2 hfiles ht) hstem
  · have hleft := hleaves hfiles
    rw [show (host.launch path w.toSystem).1 = .ok () from hok] at hleft
    exact hleft.runs hstem

theorem startOrRestartSupplicant_spec
    (hwatch : Watch (Others reuse files) (Known files Sole) sees P T) {host : Host}
    (hhost : files = true → host.Documented) {iface : Text} {netns : Option Text}
    (hiface : iface ≠ "-P".toList)
    (hsees : ∀ argv, isCoreSupplicant argv (runPath iface netns) = true → sees argv) :
    Triple (Known files Sole) P (startOrRestartSupplicant others host iface netns)
      fun r w => P w ∧
        (r = .ok () → Known files (fun m => ∃ pid, m.Runs (runPath iface netns) pid) w) := by
  refine Triple.seq (stopPidfile_spec hR hwatch hsees) fun stopped => ?_
  cases stopped with
  | false =>
    exact Triple.bind (Q := fun r w => r = .error .runCommandError ∧ P w)
      (Triple.raise fun _ _ h => ⟨rfl, h.1⟩) (fun _ s _ h => by cases h.1)
      fun _ _ _ h => ⟨h.2, fun heq => by cases heq⟩
  | true =>
    have hlaunch : Triple (Known files Sole)
        (fun w => P w ∧ Known files (Clear (runPath iface netns)) w)
        (syscall others fun w => w.launch host (runPath iface netns)) fun r w => P w ∧
          (r = .ok () → Known files (fun m => ∃ pid, m.Runs (runPath iface netns) pid) w) :=
      launch_spec hR hwatch hhost hiface
    refine Triple.mono (W := fun w => P w ∧ Known files (Clear (runPath iface netns)) w) ?_
      (fun _ _ h => ⟨h.1, h.2 rfl⟩) fun _ _ _ h => h
    cases host with
    | mk prepared launch =>
      cases prepared with
      | true => exact hlaunch
      | false =>
        exact Triple.bind (Q := fun r w => r = .error .osError ∧ P w)
          (Triple.raise fun _ _ h => ⟨rfl, h.1⟩) (fun _ s _ h => by cases h.1)
          fun _ _ _ h => ⟨h.2, fun heq => by cases heq⟩

end Specs

/-! ## Runs -/

/-- The system after the PIDs that are gone may be handed out again. -/
def System.recycled (m : System) : System :=
  { m with procs := fun pid => if m.procs pid = .gone then .free else m.procs pid }

theorem cmdline_recycled (m : System) (pid : Nat) : m.recycled.cmdline pid = m.cmdline pid := by
  by_cases hpos : 0 < pid <;> by_cases hgone : m.procs pid = .gone <;>
    simp [System.recycled, System.cmdline, System.proc, hgone, hpos]

theorem Sole.recycled {m : System} (h : Sole m) : Sole m.recycled := by
  have hruns (path : RunPath) (pid : Nat) : m.recycled.Runs path pid ↔ m.Runs path pid := by
    unfold System.Runs
    rw [cmdline_recycled]
  intro path pid hpid
  obtain ⟨honly, hfile⟩ := h path pid ((hruns path pid).1 hpid)
  exact ⟨fun q hq => honly q ((hruns path q).1 hq), hfile⟩

/-- What one of Core's calls keeps. -/
theorem run_spec {others : Nat → World → World} {reuse files : Bool} {P : World → Prop}
    {T : Int → World → Prop} (hR : Respects (Others reuse files) others)
    (hwatch : Watch (Others reuse files) (Known files Sole) Recognised P T) (a : Act)
    (ha : files = true → a.Documented) :
    Triple (Known files Sole) P (a.run others) fun _ => P := by
  cases a with
  | start host iface netns =>
    exact (startOrRestartSupplicant_spec hR hwatch ha (InterfaceName.ne_flag iface)
      recognised_core).post fun _ _ _ h => h.1
  | stop iface netns =>
    exact Triple.seq (stopPidfile_spec hR hwatch recognised_core) fun _ =>
      Triple.pure fun _ _ h => h.1
  | stopNamespace netns =>
    refine Triple.seq (Q := fun _ => P)
      (Triple.look hR stable_sole hwatch.outside fun _ _ hp => hp) fun paths => ?_
    refine (Triple.forM fun path _ => stopEach_spec hR hwatch).post fun r _ _ h => ?_
    cases r with
    | ok _ => exact h
    | error _ => exact h.elim
  | killAll listed =>
    refine (killAllSupplicants_spec hR hwatch listed).post fun r _ _ h => ?_
    cases r with
    | ok _ => exact h
    | error _ => exact h.elim
  | recycle =>
    exact Triple.alter hR stable_sole hwatch.outside
      fun w hn hp => ⟨fun hfiles ht => (hn hfiles ht).recycled, hwatch.frame w _ rfl hp⟩

/-- The invariant in every world of every run, and what a watch keeps at its end. -/
theorem run_keeps {others : Nat → World → World} {reuse files : Bool} {P : World → Prop}
    {T : Int → World → Prop} (hR : Respects (Others reuse files) others)
    (hwatch : Watch (Others reuse files) (Known files Sole) Recognised P T) {w₀ : World}
    (h0 : Known files Sole w₀) (hp0 : P w₀) {s : Shared World}
    (h : Run (step others) (fun _ a => files = true → a.Documented) (Shared.start w₀) s) :
    Always (Known files Sole) s ∧ P s.world := by
  refine Run.invariant (I := fun s => Always (Known files Sole) s ∧ P s.world) h
    ⟨Always.start h0, hp0⟩ ?_
  rintro s a t ⟨hs, hp⟩ ha hstep
  obtain rfl := Option.some.inj hstep
  exact run_spec hR hwatch a ha s hs hp

/-- A watch that asks nothing of the signals. -/
theorem watch_true {reuse files : Bool} :
    Watch (Others reuse files) (Known files Sole) Recognised (fun _ => True) fun _ _ => True where
  frame _ _ _ h := h
  inside _ _ _ _ _ h := h
  enter _ _ h _ := h
  leave _ _ h := h
  kill _ _ _ h := h

theorem always_sole {others : Nat → World → World} {reuse : Bool}
    (hR : Respects (Others reuse true) others) {w₀ : World} (h0 : Sole w₀.toSystem)
    {s : Shared World} (h : Run (step others) (fun _ a => a.Documented) (Shared.start w₀) s) :
    Always (Known true Sole) s := by
  refine (run_keeps hR watch_true (fun _ _ => h0) trivial (h.mono ?_)).1
  exact fun _ _ ha _ => ha

/-! ## What is signalled -/

/-- The process has ended, or is one that Core sees. -/
def Target (sees : List Text → Prop) (pid : Int) (w : World) : Prop :=
  w.proc pid = .zombie ∨ w.proc pid = .gone ∨ ∃ argv, w.proc pid = .running argv ∧ sees argv

/-- Where no PID is handed out twice during a call, a target stays one. -/
theorem Target.stable {files : Bool} {I : World → Prop} {sees : List Text → Prop}
    (hsees : ∀ argv, sees argv → Recognised argv) (pid : Int) :
    Stable (Others false files) I (Target sees pid) := by
  intro w w' h _ htarget
  have hproc := h.proc pid
  unfold Target at *
  generalize w.proc pid = p at *
  generalize w'.proc pid = p' at *
  cases hproc with
  | same => exact htarget
  | zombie => exact Or.inl rfl
  | gone => exact Or.inr (Or.inl rfl)
  | fresh => simp at htarget
  | exec hnot _ =>
    rcases htarget with h | h | ⟨argv, heq, hsaw⟩
    · cases h
    · cases h
    · obtain rfl := Proc.running.inj heq
      exact absurd (hsees _ hsaw) hnot
  | reused hreuse _ => cases hreuse

theorem Target.enter {sees : List Text → Prop} {pid : Int} {w : World} (hnil : ¬sees [])
    (h : sees (w.cmdline pid)) : Target sees pid w := by
  unfold System.cmdline at h
  unfold Target
  generalize w.proc pid = p at *
  cases p with
  | running argv => exact Or.inr (Or.inr ⟨argv, rfl, h⟩)
  | free => exact absurd h hnil
  | gone => exact absurd h hnil
  | zombie => exact absurd h hnil

/-- Every signal went to a process Core saw, unless it is one of the `old` ones. -/
def OnlySeen (sees : List Text → Prop) (old : List (Signal × List Text)) (w : World) : Prop :=
  ∀ e ∈ w.signalled, e ∈ old ∨ sees e.2

theorem watch_onlySeen {files : Bool} {I : World → Prop} {sees : List Text → Prop}
    (hsees : ∀ argv, sees argv → Recognised argv) (hnil : ¬sees [])
    (old : List (Signal × List Text)) :
    Watch (Others false files) I sees (OnlySeen sees old)
      fun pid w => OnlySeen sees old w ∧ Target sees pid w where
  frame w w' heq h := by
    unfold OnlySeen at *
    rwa [heq]
  inside pid w w' hstep hn h := by
    refine ⟨?_, Target.stable hsees pid w w' hstep hn h.2⟩
    intro e he
    rw [hstep.signalled] at he
    exact h.1 e he
  enter w pid h hsaw := ⟨h, Target.enter hnil hsaw⟩
  leave _ _ h := h.1
  kill w pid sig h := by
    obtain ⟨honly, htarget⟩ := h
    refine ⟨?_, ?_⟩
    · rcases htarget with hzombie | hgone | ⟨argv, hrunning, hsaw⟩
      · simpa [World.kill, hzombie] using honly
      · simpa [World.kill, hgone] using honly
      · intro e he
        simp only [World.kill, hrunning, List.mem_cons] at he
        rcases he with rfl | he
        · exact Or.inr hsaw
        · exact honly e he
    · unfold Target at htarget ⊢
      rwa [toSystem_kill]

theorem not_recognised_nil : ¬Recognised [] := by
  rintro (h | ⟨path, h⟩)
  · cases h
  · cases h

/-! ## A run with a supplicant that ends -/

def wlan0 : InterfaceName := ⟨"wlan0".toList, wlan0_valid⟩

def wlan0Path : RunPath := runPath "wlan0".toList none

/-- The others of a quiet host: the supplicant writes its pidfile some time after the command, and
ends when it gets a signal. -/
def obeying (_ : Nat) (w : World) : World :=
  if w.signalled ≠ [] then { w with procs := Function.update w.procs 7 .gone }
  else if isCoreSupplicant (w.cmdline 7) wlan0Path then
    { w with pidfiles := w.pidfiles.set wlan0Path (pidText 7) }
  else w

theorem obeying_respects (reuse files : Bool) : Respects (Others reuse files) obeying := by
  intro n w
  unfold obeying
  split_ifs with hsignal hruns
  · refine ⟨fun pid => ?_, fun _ path => .same, rfl, rfl⟩
    dsimp only
    by_cases hpid : pid = 7
    · subst hpid
      rw [Function.update_self]
      exact .gone _
    · rw [Function.update_of_ne hpid]
      exact .same _
  · refine ⟨fun pid => .same _, fun _ path => ?_, rfl, rfl⟩
    have hfile := Dict.get_set wlan0Path path (pidText 7) w.pidfiles
    unfold System.pidfile
    rw [hfile]
    split_ifs with hpath
    · subst hpath
      exact .written hruns
    · exact .same
  · exact ⟨fun pid => .same _, fun _ path => .same, rfl, rfl⟩

def emptySystem : System := ⟨fun _ => .free, []⟩

def emptyWorld : World := ⟨emptySystem, [], []⟩

theorem emptySystem_none (path : RunPath) : NoneRuns path emptySystem := by
  intro pid hruns
  unfold System.Runs System.cmdline System.proc emptySystem at hruns
  split_ifs at hruns <;> cases hruns

theorem emptySystem_sole : Sole emptySystem :=
  fun path pid hruns => absurd hruns (emptySystem_none path pid)

/-- The command starts its supplicant under PID 7, which writes its pidfile later. -/
def pid7 : Host where
  prepared := true
  launch path m :=
    if m.procs 7 = .free ∨ m.procs 7 = .gone then
      (.ok (), { m with procs := Function.update m.procs 7 (.running (supplicantCommand path)) })
    else (.error .runCommandError, m)

theorem pid7_documented : pid7.Documented := by
  intro path m
  show Leaves path m (if _ then _ else _ : Except Exc Unit × System).1
    (if _ then _ else _ : Except Exc Unit × System).2
  split_ifs with hfree
  · exact .started (by decide) rfl hfree (.inl rfl) fun _ _ => rfl
  · exact .failed

/-- A start for wlan0 in the root namespace, and a stop. -/
def started : Shared World := ((Act.start pid7 wlan0 none).run obeying (Shared.start emptyWorld)).2

def stopped : Shared World := ((Act.stop wlan0 none).run obeying started).2

theorem started_run :
    Run (step obeying) (fun _ a => a.Documented) (Shared.start emptyWorld) started :=
  .tail (.refl _) (a := .start pid7 wlan0 none) pid7_documented rfl

theorem stopped_reaches : Reaches (step obeying) (Shared.start emptyWorld) stopped :=
  .tail (started_run.mono fun _ _ _ => trivial) trivial rfl

theorem started_timely : Timely started.world := by
  have hreads : started.world.reads = [(wlan0Path, emptySystem)] := rfl
  intro r hr
  rw [hreads] at hr
  obtain rfl := List.mem_singleton.1 hr
  exact fun pid hruns => absurd hruns (emptySystem_none wlan0Path pid)

/-- A second start. -/
def restarted : Shared World := (startOrRestartSupplicant obeying pid7 wlan0.val none started).2

/-- The second start reads the pidfile when it is written. -/
theorem restarted_timely : Timely restarted.world := by
  have hreads : restarted.world.reads =
    (wlan0Path, (obeying 0 started.world).toSystem) :: started.world.reads := rfl
  intro r hr
  rw [hreads] at hr
  rcases List.mem_cons.1 hr with rfl | hr
  · exact fun pid _ => by decide +kernel
  · exact started_timely r hr

/-! ## The theorems -/

/-- **In every run, at every moment, at most one supplicant of Core runs for an interface of a
namespace, and its pidfile names no other**, where the pidfiles were read in time up to then. Any
program may end at any moment, and any PID may be used again at once. -/
theorem at_most_one_supplicant {others : Nat → World → World}
    (hR : Respects (Others true true) others) {w₀ : World} (h0 : Sole w₀.toSystem)
    {s : Shared World} (h : Run (step others) (fun _ a => a.Documented) (Shared.start w₀) s)
    {w : World} (hw : w ∈ s.past) (ht : Timely w) (iface : InterfaceName)
    (netns : Option NamespaceName) {p q : Nat}
    (hp : w.Runs (runPath iface.val (netns.map (·.val))) p)
    (hq : w.Runs (runPath iface.val (netns.map (·.val))) q) :
    p = q ∧ (w.pidfile (runPath iface.val (netns.map (·.val))) = none ∨
      w.pidfile (runPath iface.val (netns.map (·.val))) = some [] ∨
      w.pidfile (runPath iface.val (netns.map (·.val))) = some (pidText p)) := by
  have hsole : Sole w.toSystem := (always_sole hR h0 h).past w hw rfl ht
  obtain ⟨honly, hfile⟩ := hsole _ p hp
  exact ⟨(honly q hq).symm, hfile⟩

theorem at_most_one_supplicant_started :
    ∃ w ∈ started.past, w.Runs (runPath "wlan0".toList none) 7 ∧ (7 : Nat) = 7 ∧
      (w.pidfile (runPath "wlan0".toList none) = none ∨
        w.pidfile (runPath "wlan0".toList none) = some [] ∨
        w.pidfile (runPath "wlan0".toList none) = some (pidText 7)) := by
  have hruns : started.world.Runs (runPath "wlan0".toList none) 7 := by
    unfold System.Runs
    decide +kernel
  have hmem : started.world ∈ started.past := List.mem_cons_self
  exact ⟨_, hmem, hruns, at_most_one_supplicant (obeying_respects true true) emptySystem_sole
    started_run hmem started_timely wlan0 none hruns hruns⟩

/-- **Only supplicants of Core are ever signalled**, where no PID is handed out twice during one
call. -/
theorem signalled_recognised {others : Nat → World → World}
    (hR : Respects (Others false false) others) {w₀ : World} (hold : w₀.signalled = [])
    {s : Shared World} (h : Reaches (step others) (Shared.start w₀) s) :
    ∀ e ∈ s.world.signalled, Recognised e.2 := by
  intro e he
  have hwatch : Watch (Others false false) (Known false Sole) Recognised (OnlySeen Recognised [])
      fun pid w => OnlySeen Recognised [] w ∧ Target Recognised pid w :=
    watch_onlySeen (fun _ h => h) not_recognised_nil []
  have hrun : Run (step others) (fun _ a => false = true → a.Documented) (Shared.start w₀) s :=
    h.mono fun _ _ _ hfalse => by cases hfalse
  have hkeeps := (run_keeps hR hwatch (fun hfalse => by cases hfalse)
    (by simp [OnlySeen, hold]) hrun).2 e he
  exact hkeeps.resolve_left List.not_mem_nil

theorem signalled_recognised_stopped :
    stopped.world.signalled.length = 1 ∧ ∀ e ∈ stopped.world.signalled, Recognised e.2 :=
  ⟨by decide +kernel, signalled_recognised (obeying_respects false false) rfl stopped_reaches⟩

/-- **A stop that answers `True` leaves no supplicant of Core for that interface and namespace**,
where the pidfiles were read in time, and signals no process but one of these. -/
theorem stop_then_none {others : Nat → World → World} (hR : Respects (Others false true) others)
    {w₀ : World} (h0 : Sole w₀.toSystem) {s : Shared World}
    (h : Run (step others) (fun _ a => a.Documented) (Shared.start w₀) s) (iface : Text)
    (netns : Option Text) :
    ∃ answer s', stopSupplicant others iface netns s = (.ok answer, s') ∧
      (answer = true → Timely s'.world → NoneRuns (runPath iface netns) s'.world.toSystem) ∧
      ∀ e ∈ s'.world.signalled, e ∈ s.world.signalled ∨
        isCoreSupplicant e.2 (runPath iface netns) = true := by
  have hsees (argv : List Text) (hargv : isCoreSupplicant argv (runPath iface netns) = true) :
      Recognised argv := recognised_core argv hargv
  have hwatch : Watch (Others false true) (Known true Sole) _ _ _ :=
    watch_onlySeen hsees (by simp) s.world.signalled
  have hend := stopPidfile_spec hR hwatch (fun _ h => h) s (always_sole hR h0 h)
    fun e he => Or.inl he
  rcases hresult : stopPidfile others (runPath iface netns) s with ⟨e | answer, s'⟩
  · rw [hresult] at hend
    exact hend.2.elim
  · rw [hresult] at hend
    exact ⟨answer, s', hresult, fun h ht => (hend.2.2 h rfl ht).1, hend.2.1⟩

theorem stop_then_none_started :
    ∃ answer s', stopSupplicant obeying "wlan0".toList none started = (.ok answer, s') ∧
      (answer = true → Timely s'.world →
        NoneRuns (runPath "wlan0".toList none) s'.world.toSystem) ∧
      ∀ e ∈ s'.world.signalled, e ∈ started.world.signalled ∨
        isCoreSupplicant e.2 (runPath "wlan0".toList none) = true :=
  stop_then_none (obeying_respects false true) emptySystem_sole started_run "wlan0".toList none

/-- **A start that succeeds leaves exactly one supplicant of Core for the interface of the
namespace**, where the pidfiles were read in time, and signals no process but those that were. -/
theorem start_then_one {others : Nat → World → World} (hR : Respects (Others false true) others)
    {w₀ : World} (h0 : Sole w₀.toSystem) {s s' : Shared World}
    (h : Run (step others) (fun _ a => a.Documented) (Shared.start w₀) s) {host : Host}
    (hhost : host.Documented) (iface : InterfaceName) (netns : Option Text)
    (hstart : startOrRestartSupplicant others host iface.val netns s = (.ok (), s'))
    (ht : Timely s'.world) :
    (∃ pid, ∀ q, s'.world.Runs (runPath iface.val netns) q ↔ q = pid) ∧
      ∀ e ∈ s'.world.signalled, e ∈ s.world.signalled ∨
        isCoreSupplicant e.2 (runPath iface.val netns) = true := by
  have hsees (argv : List Text) (hargv : isCoreSupplicant argv (runPath iface.val netns) = true) :
      Recognised argv := recognised_core argv hargv
  have hwatch : Watch (Others false true) (Known true Sole) _ _ _ :=
    watch_onlySeen hsees (by simp) s.world.signalled
  have hend := startOrRestartSupplicant_spec hR hwatch (fun _ => hhost)
    (InterfaceName.ne_flag iface) (fun _ h => h) s (always_sole hR h0 h) fun e he => Or.inl he
  rw [hstart] at hend
  obtain ⟨halways, honly, hone⟩ := hend
  obtain ⟨pid, hpid⟩ := hone rfl rfl ht
  obtain ⟨hunique, -⟩ := halways.now rfl ht _ pid hpid
  exact ⟨⟨pid, fun q => ⟨hunique q, fun hq => hq ▸ hpid⟩⟩, honly⟩

theorem start_then_one_restarted :
    startOrRestartSupplicant obeying pid7 wlan0.val none started = (.ok (), restarted) ∧
      (∃ pid, ∀ q, restarted.world.Runs (runPath wlan0.val none) q ↔ q = pid) ∧
      ∀ e ∈ restarted.world.signalled, e ∈ started.world.signalled ∨
        isCoreSupplicant e.2 (runPath wlan0.val none) = true := by
  have hok : startOrRestartSupplicant obeying pid7 wlan0.val none started =
    (.ok (), restarted) := Prod.ext rfl rfl
  exact ⟨hok, start_then_one (obeying_respects false true) emptySystem_sole started_run
    pid7_documented wlan0 none hok restarted_timely⟩

end WlanpiCore.Supplicant
