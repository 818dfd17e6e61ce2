import WlanpiCore.Config.Validation
import WlanpiCore.Lib.Durable
import WlanpiCore.Lib.Transition

/-!
# Writing a profile so that a crash leaves a whole one

`_atomic_write` as the calls it makes: a sibling temporary file, its mode, the text, `fsync`, the
rename over the target, and on any exception the unlinking of the temporary file. Any number of
writers run at once, in any order of their calls; any call may fail, a write may stop half-way, a
profile may be deleted at any time and the device may crash at any time.

**Theorems.** `target_whole`: in every run, what a reader finds under the name of a profile or of
`current.txt` is a text some writer put there as a whole, with the mode it was given, or what was
there at first, or nothing where the file was deleted. `target_latest`: as long as there was no
crash it is the last of these.
-/

namespace WlanpiCore.AtomicWrite

open Disk

/-! ## Names -/

/-- The files that `_atomic_write` is for: `current.txt` and a profile's file. -/
def isTarget (name : Text) : Bool :=
  name == "current.txt".toList ||
    ".json".toList.isSuffixOf name && (validateConfigId (name.take (name.length - 5))).isNone

/-- `prefix=f".{path.name}."` and the random part that `mkstemp` adds. -/
def tmpName (target suffix : Text) : Text := '.' :: target ++ '.' :: suffix

/-- What `mkstemp` takes its eight random characters from. -/
def isRandomPart (suffix : Text) : Bool :=
  suffix.length = 8 && suffix.all fun c => c.isLower || c.isDigit || c = '_'

/-- A temporary file is no profile: its random part has no dot, so the name ends in no suffix of a
profile, and it starts with a dot. -/
theorem isTarget_tmpName {target suffix : Text} (h : isRandomPart suffix = true) :
    isTarget (tmpName target suffix) = false := by
  simp only [isRandomPart, Bool.and_eq_true, decide_eq_true_eq] at h
  obtain ⟨hlength, hall⟩ := h
  have hjson : ".json".toList.isSuffixOf (tmpName target suffix) = false := by
    rw [Bool.eq_false_iff]
    intro hsuffix
    obtain ⟨stem, hstem⟩ := List.isSuffixOf_iff_suffix.1 hsuffix
    have hrandom : suffix <:+ tmpName target suffix := ⟨'.' :: target ++ ['.'], by simp [tmpName]⟩
    have hshort : ".json".toList <:+ suffix :=
      List.suffix_of_suffix_length_le ⟨stem, hstem⟩ hrandom (by rw [hlength]; decide)
    have hdot : '.' ∈ suffix := hshort.subset (by decide)
    exact absurd (List.all_eq_true.1 hall '.' hdot) (by decide)
  have hcurrent : (tmpName target suffix == "current.txt".toList) = false := rfl
  rw [isTarget, hjson, hcurrent]
  rfl

/-! ## The writers -/

/-- The calls of one `_atomic_write` that are done. -/
inductive Stage where
  | opened
  | moded
  | written
  | synced
  /-- An exception; the temporary file is still there. -/
  | failing
  deriving DecidableEq

structure Job where
  target : Text
  text : Bytes
  mode : Nat
  tmp : Text
  ino : Nat
  stage : Stage

/-- `versions` has what each target held, the last first. -/
structure State where
  disk : Disk Text
  jobs : Nat → Option Job
  versions : Text → List (Option (Bytes × Nat))

inductive Act where
  /-- `mkstemp` -/
  | start (i : Nat) (target : Text) (text : Bytes) (mode : Nat) (suffix : Text)
  /-- The next call of a writer succeeds. -/
  | next (i : Nat)
  /-- The next call raises; of the text, so many bytes were written. -/
  | fail (i : Nat) (written : Nat)
  /-- The `unlink` of `delete_config`. -/
  | delete (target : Text)
  | crash (pick : Text → Nat) (junk : Nat → Bytes × Nat)

def State.setJob (s : State) (i : Nat) (job : Option Job) : State :=
  { s with jobs := Function.update s.jobs i job }

def State.toStage (s : State) (i : Nat) (job : Job) (stage : Stage) : State :=
  s.setJob i (some { job with stage })

/-- A target gets a content, or loses the one it had. -/
def State.record (s : State) (target : Text) (content : Option (Bytes × Nat)) : State :=
  { s with versions := Function.update s.versions target (content :: s.versions target) }

/-- The call that follows a stage. -/
def State.advance (s : State) (i : Nat) (job : Job) : State :=
  match job.stage with
  | .opened => { s with disk := s.disk.chmod job.ino job.mode }.toStage i job .moded
  | .moded => { s with disk := s.disk.append job.ino job.text }.toStage i job .written
  | .written => { s with disk := s.disk.sync job.ino }.toStage i job .synced
  | .synced =>
    ({ s with disk := s.disk.rename job.tmp job.target }.setJob i none).record job.target
      (some (job.text, job.mode))
  | .failing => { s with disk := s.disk.unlink job.tmp }.setJob i none

/-- The call that follows a stage raises. -/
def State.abort (s : State) (i : Nat) (job : Job) (written : Nat) : State :=
  match job.stage with
  | .moded =>
    { s with disk := s.disk.append job.ino (job.text.take written) }.toStage i job .failing
  | .failing => s.setJob i none
  | _ => s.toStage i job .failing

/-- One step of the system. -/
def step (s : State) : Act → Option State
  | .start i target text mode suffix =>
    if (s.jobs i).isNone && isTarget target && isRandomPart suffix &&
        (s.disk.dir (tmpName target suffix)).isNone then
      some ({ s with disk := s.disk.create (tmpName target suffix) 0o600 }.setJob i
        (some ⟨target, text, mode, tmpName target suffix, s.disk.next, .opened⟩))
    else none
  | .next i => (s.jobs i).map (s.advance i)
  | .fail i written => (s.jobs i).map fun job => s.abort i job written
  | .delete target =>
    if isTarget target then some ({ s with disk := s.disk.unlink target }.record target none)
    else none
  | .crash pick junk => some { s with disk := s.disk.crash pick junk, jobs := fun _ => none }

/-- Nobody is writing, and each target has what it has. -/
def initial (disk : Disk Text) : State := ⟨disk, fun _ => none, fun name => [disk.read name]⟩

/-! ## The invariant -/

/-- What a writer's file holds when a call is done. -/
def Stage.Holds (job : Job) (inode : Inode) : Stage → Prop
  | .opened => inode.data = []
  | .moded => inode.data = [] ∧ inode.mode = job.mode
  | .written => inode.data = job.text ∧ inode.mode = job.mode
  | .synced => inode = ⟨job.text, job.mode, true⟩
  | .failing => True

/-- A writer has its file to itself, and no target can get it yet. -/
structure Job.Private (job : Job) (d : Disk Text) : Prop where
  target : isTarget job.target = true
  tmp : isTarget job.tmp = false
  dir : d.dir job.tmp = some job.ino
  hidden : ∀ name, isTarget name = true → some job.ino ∉ d.entries name
  lt : job.ino < d.next
  holds : job.stage.Holds job (d.inodes job.ino)

structure Inv (s : State) : Prop where
  settled : ∀ name, isTarget name = true → Settled (· ∈ s.versions name) name s.disk
  jobs : ∀ i job, s.jobs i = some job → job.Private s.disk
  apart : ∀ i j job job', i ≠ j → s.jobs i = some job → s.jobs j = some job' →
    job.tmp ≠ job'.tmp ∧ job.ino ≠ job'.ino
  bound : ∀ name, isTarget name = true → ∀ ino, some ino ∈ s.disk.entries name → ino < s.disk.next

/-- What does not touch a writer's file leaves it its own. -/
theorem Job.Private.frame {job : Job} {d d' : Disk Text} (h : job.Private d)
    (hdir : d'.dir job.tmp = d.dir job.tmp) (hinode : d'.inodes job.ino = d.inodes job.ino)
    (hnext : d.next ≤ d'.next)
    (hidden : ∀ name, isTarget name = true → some job.ino ∉ d'.entries name) : job.Private d' where
  target := h.target
  tmp := h.tmp
  dir := hdir.trans h.dir
  hidden := hidden
  lt := h.lt.trans_le hnext
  holds := by
    rw [hinode]
    exact h.holds

theorem setJob_cases {s : State} {i j : Nat} {new : Option Job} {job : Job}
    (h : (s.setJob i new).jobs j = some job) : j = i ∧ new = some job ∨ j ≠ i ∧
      s.jobs j = some job := by
  by_cases hj : j = i
  · subst hj
    exact Or.inl ⟨rfl, by simpa [State.setJob] using h⟩
  · exact Or.inr ⟨hj, by simpa [State.setJob, hj] using h⟩

/-- The writers after a step that changes what one of them is at and leaves the files of the
others. -/
theorem Inv.apart_setJob {s : State} (h : Inv s) {i : Nat} {new : Option Job}
    (hnew : ∀ job, new = some job → ∀ j job', j ≠ i → s.jobs j = some job' →
      job.tmp ≠ job'.tmp ∧ job.ino ≠ job'.ino) :
    ∀ j k job job', j ≠ k → (s.setJob i new).jobs j = some job →
      (s.setJob i new).jobs k = some job' → job.tmp ≠ job'.tmp ∧ job.ino ≠ job'.ino := by
  intro j k job job' hjk hj hk
  rcases setJob_cases hj with ⟨rfl, heq⟩ | ⟨hji, hjold⟩
  · rcases setJob_cases hk with ⟨rfl, -⟩ | ⟨hki, hkold⟩
    · exact absurd rfl hjk
    · exact hnew job heq k job' hki hkold
  · rcases setJob_cases hk with ⟨rfl, heq⟩ | ⟨-, hkold⟩
    · have happart := hnew job' heq j job hji hjold
      exact ⟨Ne.symm happart.1, Ne.symm happart.2⟩
    · exact h.apart j k job job' hjk hjold hkold

/-! ## One step -/

section OneStep

variable {s : State} {i : Nat} {job : Job}

/-- A call on a writer's own file: no target sees it. -/
theorem Inv.setInode (h : Inv s) (hjob : s.jobs i = some job) (f : Inode → Inode) {stage : Stage}
    (hholds : stage.Holds job (f (s.disk.inodes job.ino))) :
    Inv ({ s with disk := s.disk.setInode job.ino f }.toStage i job stage) where
  settled name hname := (h.settled name hname).setInode ((h.jobs i job hjob).hidden name hname) f
  jobs j job' hj := by
    rcases setJob_cases hj with ⟨rfl, heq⟩ | ⟨hji, hj⟩
    · obtain rfl := Option.some.inj heq
      have hprivate := h.jobs j job hjob
      have hinode : (s.disk.setInode job.ino f).inodes job.ino = f (s.disk.inodes job.ino) := by
        simp [Disk.setInode]
      refine ⟨hprivate.target, hprivate.tmp, hprivate.dir, hprivate.hidden, hprivate.lt, ?_⟩
      change stage.Holds _ ((s.disk.setInode job.ino f).inodes job.ino)
      rw [hinode]
      cases stage <;> exact hholds
    · have hprivate := h.jobs j job' hj
      have hne : job'.ino ≠ job.ino := (h.apart j i job' job hji hj hjob).2
      exact hprivate.frame rfl (by simp [Disk.setInode, State.toStage, State.setJob, hne]) le_rfl
        hprivate.hidden
  apart := h.apart_setJob fun job₁ hjob₁ j job' hji hj => by
    obtain rfl := Option.some.inj hjob₁
    exact h.apart i j job job' (Ne.symm hji) hjob hj
  bound := h.bound

/-- The name of a writer's file goes, and the writer with it. -/
theorem Inv.unlinkTmp (h : Inv s) (hjob : s.jobs i = some job) :
    Inv ({ s with disk := s.disk.unlink job.tmp }.setJob i none) where
  settled name hname := (h.settled name hname).link_ne fun heq => by
    have htmp := (h.jobs i job hjob).tmp
    rw [← heq, hname] at htmp
    cases htmp
  jobs j job' hj := by
    rcases setJob_cases hj with ⟨-, hj⟩ | ⟨hji, hj⟩
    · cases hj
    · have hprivate := h.jobs j job' hj
      have hne : job'.tmp ≠ job.tmp := (h.apart j i job' job hji hj hjob).1
      refine hprivate.frame (by simp [Disk.unlink, Disk.link, State.setJob, hne]) rfl le_rfl ?_
      intro name hname
      have hother : name ≠ job.tmp := fun heq => by
        have htmp := (h.jobs i job hjob).tmp
        rw [← heq, hname] at htmp
        cases htmp
      change some job'.ino ∉ (s.disk.link job.tmp none).entries name
      rw [entries_link_ne hother]
      exact hprivate.hidden name hname
  apart := h.apart_setJob fun _ hnone => by cases hnone
  bound name hname ino hino := by
    have hother : name ≠ job.tmp := fun heq => by
      have htmp := (h.jobs i job hjob).tmp
      rw [← heq, hname] at htmp
      cases htmp
    change some ino ∈ (s.disk.link job.tmp none).entries name at hino
    rw [entries_link_ne hother] at hino
    exact h.bound name hname ino hino

/-- A target gets an entry whose inode is synced and no writer's. -/
theorem Inv.linkTarget (h : Inv s) {target : Text} (htarget : isTarget target = true)
    {entry : Option Nat} {content : Option (Bytes × Nat)} (hdurable : s.disk.Durable entry)
    (hcontent : s.disk.content entry = content) (hlt : ∀ ino, entry = some ino → ino < s.disk.next)
    (hfree : ∀ i job, s.jobs i = some job → entry ≠ some job.ino) :
    Inv ({ s with disk := s.disk.link target entry }.record target content) where
  settled name hname := by
    by_cases hn : name = target
    · subst hn
      refine Settled.link (Settled.mono (h.settled name hname) fun c hc => ?_) hdurable ?_
      · simp [State.record, hc]
      · simp [State.record, hcontent]
    · refine Settled.mono ((h.settled name hname).link_ne hn) fun c hc => ?_
      simpa [State.record, hn] using hc
  jobs j job' hj := by
    have hprivate := h.jobs j job' hj
    have hne : job'.tmp ≠ target := fun heq => by
      have htmp := hprivate.tmp
      rw [heq, htarget] at htmp
      cases htmp
    refine hprivate.frame (by simp [Disk.link, State.record, hne]) rfl le_rfl ?_
    intro name hname
    change some job'.ino ∉ (s.disk.link target entry).entries name
    by_cases hn : name = target
    · subst hn
      rw [entries_link_self, List.mem_cons, not_or]
      exact ⟨Ne.symm (hfree j job' hj), hprivate.hidden name hname⟩
    · rw [entries_link_ne hn]
      exact hprivate.hidden name hname
  apart := h.apart
  bound name hname ino hino := by
    change some ino ∈ (s.disk.link target entry).entries name at hino
    by_cases hn : name = target
    · subst hn
      rw [entries_link_self, List.mem_cons] at hino
      rcases hino with heq | hino
      · exact hlt ino heq.symm
      · exact h.bound name hname ino hino
    · rw [entries_link_ne hn] at hino
      exact h.bound name hname ino hino

theorem Inv.start (h : Inv s) {target suffix : Text} {text : Bytes} {mode : Nat}
    (htarget : isTarget target = true) (hsuffix : isRandomPart suffix = true)
    (hdir : s.disk.dir (tmpName target suffix) = none) :
    Inv ({ s with disk := s.disk.create (tmpName target suffix) 0o600 }.setJob i
      (some ⟨target, text, mode, tmpName target suffix, s.disk.next, .opened⟩)) := by
  have htmp : isTarget (tmpName target suffix) = false := isTarget_tmpName hsuffix
  have hother : ∀ name, isTarget name = true → name ≠ tmpName target suffix := by
    rintro name hname rfl
    rw [htmp] at hname
    cases hname
  have hentries : ∀ name, isTarget name = true →
      (s.disk.create (tmpName target suffix) 0o600).entries name = s.disk.entries name :=
    fun name hname => entries_link_ne (d := s.disk.setInode s.disk.next fun _ => ⟨[], 0o600, false⟩)
      (hother name hname)
  have hnot : ∀ name, isTarget name = true → some s.disk.next ∉ s.disk.entries name :=
    fun name hname hmem => absurd (h.bound name hname _ hmem) (lt_irrefl _)
  refine ⟨fun name hname => ?_, fun j job' hj => ?_, ?_, fun name hname ino hino => ?_⟩
  · exact Settled.link_ne ((h.settled name hname).setInode (hnot name hname) _) (hother name hname)
  · rcases setJob_cases hj with ⟨-, hj⟩ | ⟨-, hj⟩
    · obtain rfl := Option.some.inj hj
      refine ⟨htarget, htmp, by simp [Disk.create, Disk.link, State.setJob], fun name hname => ?_,
        Nat.lt_succ_self _, by
          simp [Disk.create, Disk.link, Disk.setInode, State.setJob, Stage.Holds]⟩
      change some s.disk.next ∉ (s.disk.create (tmpName target suffix) 0o600).entries name
      rw [hentries name hname]
      exact hnot name hname
    · have hprivate := h.jobs j job' hj
      have hne : job'.tmp ≠ tmpName target suffix := by
        intro heq
        have hdir' := hprivate.dir
        rw [heq, hdir] at hdir'
        cases hdir'
      have hino : job'.ino ≠ s.disk.next := hprivate.lt.ne
      refine hprivate.frame (by simp [Disk.create, Disk.link, Disk.setInode, State.setJob, hne])
        (by simp [Disk.create, Disk.link, Disk.setInode, State.setJob, hino]) (Nat.le_succ _) ?_
      intro name hname
      change some job'.ino ∉ (s.disk.create (tmpName target suffix) 0o600).entries name
      rw [hentries name hname]
      exact hprivate.hidden name hname
  · refine Inv.apart_setJob h fun job₁ hjob₁ j job' _ hj => ?_
    obtain rfl := Option.some.inj hjob₁
    have hprivate := h.jobs j job' hj
    refine ⟨?_, hprivate.lt.ne'⟩
    intro heq
    have hdir' := hprivate.dir
    rw [← heq, hdir] at hdir'
    cases hdir'
  · change some ino ∈ (s.disk.create (tmpName target suffix) 0o600).entries name at hino
    rw [hentries name hname] at hino
    exact (h.bound name hname ino hino).trans (Nat.lt_succ_self _)

theorem Inv.crash (h : Inv s) (pick : Text → Nat) (junk : Nat → Bytes × Nat) :
    Inv { s with disk := s.disk.crash pick junk, jobs := fun _ => none } where
  settled name hname := (h.settled name hname).crash pick junk
  jobs _ _ hj := by cases hj
  apart _ _ _ _ _ hj _ := by cases hj
  bound name hname ino hino := by
    refine h.bound name hname ino ?_
    have heq : some ino = (s.disk.crash pick junk).dir name := by
      simpa [Disk.entries, Disk.crash] using hino
    rw [heq]
    exact dir_crash_mem s.disk pick junk name

theorem Inv.toFailing (h : Inv s) (hjob : s.jobs i = some job) : Inv
    (s.toStage i job .failing) := by
  have hinv : Inv ({ s with disk := s.disk.setInode job.ino id }.toStage i job .failing) :=
    h.setInode hjob id trivial
  simpa [Disk.setInode] using hinv

/-- The writer's file takes the place of its target. -/
theorem Inv.replace (h : Inv s) (hjob : s.jobs i = some job) (hstage : job.stage = .synced) :
    Inv (({ s with disk := s.disk.rename job.tmp job.target }.setJob i none).record job.target
      (some (job.text, job.mode))) := by
  have hprivate := h.jobs i job hjob
  have hholds := hprivate.holds
  rw [hstage] at hholds
  have hinode : s.disk.inodes job.ino = ⟨job.text, job.mode, true⟩ := hholds
  have hne : job.tmp ≠ job.target := fun heq => by
    have htmp := hprivate.tmp
    rw [heq, hprivate.target] at htmp
    cases htmp
  -- The temporary name goes first; the order of two updates of different names does not matter.
  have hgone := h.unlinkTmp hjob
  have hlink := @Inv.linkTarget _ hgone _ hprivate.target (some job.ino)
    (some (job.text, job.mode)) (by
      intro ino hino
      obtain rfl := Option.some.inj hino
      exact congrArg Inode.durable hinode)
    (by simp [State.setJob, Disk.unlink, Disk.link, Disk.content, hinode])
    (by
      intro ino hino
      obtain rfl := Option.some.inj hino
      exact hprivate.lt)
    (by
      intro j job' hj
      rcases setJob_cases hj with ⟨-, hnone⟩ | ⟨hji, hjold⟩
      · cases hnone
      · intro heq
        exact (h.apart i j job job' (Ne.symm hji) hjob hjold).2 (Option.some.inj heq))
  have hcomm : s.disk.rename job.tmp job.target =
      (s.disk.unlink job.tmp).link job.target (some job.ino) := by
    unfold Disk.rename Disk.unlink
    rw [hprivate.dir]
    exact link_comm hne.symm
  rw [hcomm]
  exact hlink

end OneStep

/-- **Every step keeps the invariant**, one case for each call. -/
theorem Inv.step {s t : State} (h : Inv s) {a : Act} (hstep : step s a = some t) : Inv t := by
  cases a with
  | start i target text mode suffix =>
    simp only [AtomicWrite.step] at hstep
    split_ifs at hstep with hcond
    obtain rfl := Option.some.inj hstep
    simp only [Bool.and_eq_true, Option.isNone_iff_eq_none] at hcond
    exact h.start hcond.1.1.2 hcond.1.2 hcond.2
  | next i =>
    obtain ⟨job, hjob, rfl⟩ := Option.map_eq_some_iff.1 hstep
    have hholds := (h.jobs i job hjob).holds
    unfold State.advance
    cases hstage : job.stage with
    | opened =>
      rw [hstage] at hholds
      exact h.setInode hjob _ ⟨hholds, rfl⟩
    | moded =>
      rw [hstage] at hholds
      refine h.setInode hjob _ ⟨?_, hholds.2⟩
      simp [hholds.1]
    | written =>
      rw [hstage] at hholds
      refine h.setInode hjob _ ?_
      change Inode.mk _ _ true = _
      rw [hholds.1, hholds.2]
    | synced => exact h.replace hjob hstage
    | failing => exact h.unlinkTmp hjob
  | fail i written =>
    obtain ⟨job, hjob, rfl⟩ := Option.map_eq_some_iff.1 hstep
    unfold State.abort
    cases hstage : job.stage with
    | moded => exact h.setInode hjob _ trivial
    | failing =>
      exact
        { settled := h.settled
          jobs := fun j job' hj => by
            rcases setJob_cases hj with ⟨-, hnone⟩ | ⟨-, hjold⟩
            · cases hnone
            · exact h.jobs j job' hjold
          apart := h.apart_setJob fun _ hnone => by cases hnone
          bound := h.bound }
    | opened => exact h.toFailing hjob
    | written => exact h.toFailing hjob
    | synced => exact h.toFailing hjob
  | delete target =>
    simp only [AtomicWrite.step] at hstep
    split_ifs at hstep with htarget
    obtain rfl := Option.some.inj hstep
    exact h.linkTarget htarget (fun ino hino => by cases hino) rfl (fun ino hino => by cases hino)
      fun i job _ hnone => by cases hnone
  | crash pick junk =>
    obtain rfl := Option.some.inj hstep
    exact h.crash pick junk

/-- The state of a device at rest: the targets' files are on the disk. -/
structure AtRest (disk : Disk Text) : Prop where
  past : ∀ name, isTarget name = true → disk.past name = []
  durable : ∀ name, isTarget name = true → disk.Durable (disk.dir name)
  bound : ∀ name, isTarget name = true → ∀ ino, disk.dir name = some ino → ino < disk.next

theorem AtRest.entries {disk : Disk Text} (h : AtRest disk) {name : Text}
    (hname : isTarget name = true) : disk.entries name = [disk.dir name] := by
  unfold Disk.entries
  rw [h.past name hname]

theorem inv_initial {disk : Disk Text} (h : AtRest disk) : Inv (initial disk) where
  settled name hname := by
    intro entry hentry
    obtain rfl : entry = disk.dir name := List.mem_singleton.1 (h.entries hname ▸ hentry)
    exact ⟨h.durable name hname, List.mem_singleton.2 rfl⟩
  jobs _ _ hj := by cases hj
  apart _ _ _ _ _ hj _ := by cases hj
  bound name hname ino hino :=
    h.bound name hname ino (List.mem_singleton.1 (h.entries hname ▸ hino)).symm

/-- **A reader finds a whole version**, in every run: whatever the order of the writers' calls,
whichever of them fail, and after any number of crashes. -/
theorem target_whole {disk : Disk Text} (h0 : AtRest disk) {s : State}
    (h : Reaches step (initial disk) s) {name : Text} (hname : isTarget name = true) :
    s.disk.read name ∈ s.versions name := by
  have hinv : Inv s := Run.invariant h (inv_initial h0) fun s a t hs _ hstep => hs.step hstep
  exact (hinv.settled name hname).read

/-! ## A write that ends and one that does not -/

/-- The device holds `current.txt` and no profile. -/
def restDisk : Disk Text where
  dir := Function.update (fun _ => none) "current.txt".toList (some 0)
  past _ := []
  inodes _ := ⟨Text.encode "default".toList, 0o644, true⟩
  next := 1

theorem restDisk_atRest : AtRest restDisk where
  past _ _ := rfl
  durable _ _ _ _ := rfl
  bound name _ ino hino := by
    have hdir : restDisk.dir name = if name = "current.txt".toList then some 0 else none :=
      Function.update_apply (fun _ => none) _ (some 0) name
    rw [hdir] at hino
    split_ifs at hino
    obtain rfl := Option.some.inj hino
    exact Nat.one_pos

def labFile : Text := "lab.json".toList

/-- One writer stores a profile, another is half-way through the next version. -/
def twoWrites : List Act :=
  [.start 0 labFile [1, 2] 0o600 "abcdefgh".toList, .start 1 labFile [3, 4] 0o600 "01234567".toList,
    .next 0, .next 0, .next 1, .next 0, .next 0, .fail 1 1]

theorem target_whole_crash : ∃ s, Reaches step (initial restDisk) s ∧
    s.disk.read labFile = some ([1, 2], 0o600) ∧ s.disk.read labFile ∈ s.versions labFile := by
  have hexec :
    (exec step (initial restDisk) (twoWrites ++ [.crash (fun _ => 0) fun _ => ([], 0)])).any
      (fun s => s.disk.read labFile = some ([1, 2], 0o600)) = true := by decide +kernel
  obtain ⟨s, hs, hread⟩ := (Option.any_eq_true _ _).1 hexec
  have hreach := Reaches.of_exec hs
  exact ⟨s, hreach, of_decide_eq_true hread,
    target_whole restDisk_atRest hreach (by decide +kernel)⟩

/-! ## Without a crash -/

/-- A target holds its last version. -/
def Latest (s : State) : Prop :=
  ∀ name, isTarget name = true → (s.versions name).head? = some (s.disk.read name)

theorem Latest.of_same {s t : State} (h : Latest s) (hversions : t.versions = s.versions)
    (hread : ∀ name, isTarget name = true → t.disk.read name = s.disk.read name) : Latest t := by
  intro name hname
  rw [hversions, hread name hname]
  exact h name hname

theorem Latest.record {s t : State} (h : Latest s) {target : Text}
    {content : Option (Bytes × Nat)} (hversions : t.versions = s.versions)
    (hread : ∀ name, isTarget name = true → name ≠ target → t.disk.read name = s.disk.read name)
    (htarget : t.disk.read target = content) : Latest (t.record target content) := by
  intro name hname
  by_cases hn : name = target
  · subst hn
    change (Function.update t.versions name _ name).head? = some (t.disk.read name)
    rw [htarget]
    simp
  · have hother : (t.record target content).versions name = s.versions name := by
      simp [State.record, hn, hversions]
    rw [hother]
    change _ = some (t.disk.read name)
    rw [hread name hname hn]
    exact h name hname

/-- What is done to a writer's file changes nothing a reader of a target sees. -/
theorem Inv.read_setInode {s : State} (h : Inv s) {i : Nat} {job : Job} (hjob : s.jobs i = some job)
    (f : Inode → Inode) {name : Text} (hname : isTarget name = true) :
    (s.disk.setInode job.ino f).read name = s.disk.read name := by
  refine content_setInode fun heq => ?_
  exact (h.jobs i job hjob).hidden name hname (heq ▸ List.mem_cons_self)

theorem Latest.setInode {s : State} (h : Latest s) (hinv : Inv s) {i : Nat} {job : Job}
    (hjob : s.jobs i = some job) (f : Inode → Inode) {stage : Stage} :
    Latest ({ s with disk := s.disk.setInode job.ino f }.toStage i job stage) :=
  h.of_same rfl fun _ hname => hinv.read_setInode hjob f hname

theorem read_link_ne {d : Disk Text} {name name' : Text} {entry : Option Nat} (h : name' ≠ name) :
    (d.link name entry).read name' = d.read name' := by
  simp [Disk.read, Disk.link, Disk.content, h]

theorem Inv.ne_tmp {s : State} (h : Inv s) {i : Nat} {job : Job} (hjob : s.jobs i = some job)
    {name : Text} (hname : isTarget name = true) : name ≠ job.tmp := by
  rintro rfl
  have htmp := (h.jobs i job hjob).tmp
  rw [hname] at htmp
  cases htmp

theorem Latest.step {s t : State} (h : Latest s) (hinv : Inv s) {a : Act}
    (hcrash : ∀ pick junk, a ≠ .crash pick junk) (hstep : step s a = some t) : Latest t := by
  cases a with
  | start i target text mode suffix =>
    simp only [AtomicWrite.step] at hstep
    split_ifs at hstep with hcond
    obtain rfl := Option.some.inj hstep
    simp only [Bool.and_eq_true] at hcond
    refine h.of_same rfl fun name hname => ?_
    have hother : name ≠ tmpName target suffix := by
      rintro rfl
      rw [isTarget_tmpName hcond.1.2] at hname
      cases hname
    refine (read_link_ne (d := s.disk.setInode s.disk.next fun _ => ⟨[], 0o600, false⟩)
      hother).trans
      (content_setInode fun heq => ?_)
    exact absurd (hinv.bound name hname s.disk.next (heq ▸ List.mem_cons_self)) (lt_irrefl _)
  | next i =>
    obtain ⟨job, hjob, rfl⟩ := Option.map_eq_some_iff.1 hstep
    have hprivate := hinv.jobs i job hjob
    unfold State.advance
    cases hstage : job.stage with
    | opened => exact h.setInode hinv hjob _
    | moded => exact h.setInode hinv hjob _
    | written => exact h.setInode hinv hjob _
    | failing => exact h.of_same rfl fun name hname => read_link_ne (hinv.ne_tmp hjob hname)
    | synced =>
      have hholds := hprivate.holds
      rw [hstage] at hholds
      have hinode : s.disk.inodes job.ino = ⟨job.text, job.mode, true⟩ := hholds
      refine h.record rfl (fun name hname hn => ?_) ?_
      · exact (read_link_ne (hinv.ne_tmp hjob hname)).trans (read_link_ne hn)
      · refine (read_link_ne (hinv.ne_tmp hjob hprivate.target)).trans ?_
        simp [Disk.read, Disk.link, Disk.content, hprivate.dir, hinode]
  | fail i written =>
    obtain ⟨job, hjob, rfl⟩ := Option.map_eq_some_iff.1 hstep
    unfold State.abort
    cases hstage : job.stage with
    | moded => exact h.setInode hinv hjob _
    | failing | opened | written | synced => exact h.of_same rfl fun _ _ => rfl
  | delete target =>
    simp only [AtomicWrite.step] at hstep
    split_ifs at hstep with htarget
    obtain rfl := Option.some.inj hstep
    refine h.record rfl (fun name _ hn => read_link_ne hn) ?_
    simp [Disk.read, Disk.unlink, Disk.link, Disk.content]
  | crash pick junk => exact absurd rfl (hcrash pick junk)

/-- **As long as there was no crash a reader finds the last version**: the text of the writer that
renamed last, unless the file was deleted since. -/
theorem target_latest {disk : Disk Text} (h0 : AtRest disk) {s : State}
    (h : Run step (fun _ a => ∀ pick junk, a ≠ .crash pick junk) (initial disk) s) {name : Text}
    (hname : isTarget name = true) : (s.versions name).head? = some (s.disk.read name) := by
  have hinvs : Inv s ∧ Latest s :=
    Run.invariant (I := fun s => Inv s ∧ Latest s) h ⟨inv_initial h0, fun _ _ => rfl⟩
      fun s a t hs hcrash hstep => ⟨hs.1.step hstep, hs.2.step hs.1 hcrash hstep⟩
  exact hinvs.2 name hname

theorem target_latest_stored : ∃ s,
    Run step (fun _ a => ∀ pick junk, a ≠ .crash pick junk) (initial restDisk) s ∧
      s.disk.read labFile = some ([1, 2], 0o600) ∧
      (s.versions labFile).head? = some (s.disk.read labFile) := by
  have hexec : (exec step (initial restDisk) twoWrites).any
      (fun s => s.disk.read labFile = some ([1, 2], 0o600)) = true := by decide +kernel
  obtain ⟨s, hs, hread⟩ := (Option.any_eq_true _ _).1 hexec
  have hrun : Run step (fun _ a => ∀ pick junk, a ≠ .crash pick junk) (initial restDisk) s := by
    refine Run.of_exec (fun a ha u pick junk heq => ?_) hs
    subst heq
    simp [twoWrites] at ha
  exact ⟨s, hrun, of_decide_eq_true hread, target_latest restDisk_atRest hrun (by decide +kernel)⟩

end WlanpiCore.AtomicWrite
