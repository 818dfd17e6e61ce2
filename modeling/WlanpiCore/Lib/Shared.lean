import WlanpiCore.Lib.Prog

/-!
# A program among other programs

The world that a program reads and writes through the system belongs to others as well. `syscall` is
one system call: what the others did since the last one comes first, and nothing comes between the
reading and the writing of one call. `others n` is what they do before call `n`, so what holds for
every `others` holds of every interleaving, and `past` keeps every world that a call met or left.

**What the others may do** is a relation `R`; a property of the world is `Stable` if no step of `R`
ends it. `Triple I P x Q` says that `x`, from a world in `P`, ends in `Q` and that the invariant `I`
holds all the while. There is one rule for each way of putting programs together.
-/

namespace WlanpiCore

/-- A world, the number of calls made so far and the worlds before and after each of them. -/
structure Shared (σ : Type) where
  world : σ
  calls : Nat
  past : List σ

namespace Shared

variable {σ ε α β : Type}

def start (w : σ) : Shared σ := ⟨w, 0, [w]⟩

/-- What the others do before each call is in `R`. -/
def Respects (R : σ → σ → Prop) (others : Nat → σ → σ) : Prop := ∀ n w, R w (others n w)

/-- Where the invariant holds, no step of the others ends `P`. -/
def Stable (R : σ → σ → Prop) (I P : σ → Prop) : Prop := ∀ w w', R w w' → I w → P w → P w'

variable (others : Nat → σ → σ)

/-- One system call. -/
def syscall (f : σ → Except ε α × σ) : Prog (Shared σ) ε α := fun s =>
  let met := others s.calls s.world
  ((f met).1, ⟨(f met).2, s.calls + 1, (f met).2 :: met :: s.past⟩)

/-- A call that only reads. -/
def look (f : σ → α) : Prog (Shared σ) ε α := syscall others fun w => (.ok (f w), w)

/-- A call that only writes. -/
def alter (f : σ → σ) : Prog (Shared σ) ε Unit := syscall others fun w => (.ok (), f w)

/-- `I` held in every world so far, and holds now. -/
structure Always (I : σ → Prop) (s : Shared σ) : Prop where
  past : ∀ w ∈ s.past, I w
  now : I s.world

/-- From a world in `P`, with `I` so far, the run of `x` ends in `Q`, with `I` in every world. -/
def Triple (I P : σ → Prop) (x : Prog (Shared σ) ε α) (Q : Except ε α → σ → Prop) : Prop :=
  ∀ s, Always I s → P s.world → Always I (x s).2 ∧ Q (x s).1 (x s).2.world

/-- The run returned, and `Q` holds of its answer and the world. -/
def Returns (Q : α → σ → Prop) : Except ε α → σ → Prop
  | .ok a, w => Q a w
  | .error _, _ => False

@[simp] theorem returns_ok {Q : α → σ → Prop} {a : α} {w : σ} :
    Returns Q (.ok a : Except ε α) w ↔ Q a w := Iff.rfl

@[simp] theorem returns_error {Q : α → σ → Prop} {e : ε} {w : σ} :
    Returns Q (.error e) w ↔ False := Iff.rfl

theorem Always.start {I : σ → Prop} {w : σ} (h : I w) : Always I (start w) where
  past := by
    intro w' hmem
    rwa [List.mem_singleton.1 hmem]
  now := h

section Rules

variable {others} {R : σ → σ → Prop} {I P W : σ → Prop} {Q Q' : Except ε α → σ → Prop}

theorem Triple.mono {x : Prog (Shared σ) ε α} (h : Triple I W x Q') (hP : ∀ w, I w → P w → W w)
    (hQ : ∀ r w, I w → Q' r w → Q r w) : Triple I P x Q := by
  intro s hs hp
  have hend := h s hs (hP _ hs.now hp)
  exact ⟨hend.1, hQ _ _ hend.1.now hend.2⟩

theorem Triple.post {x : Prog (Shared σ) ε α} (h : Triple I P x Q')
    (hQ : ∀ r w, I w → Q' r w → Q r w) : Triple I P x Q :=
  h.mono (fun _ _ hp => hp) hQ

theorem Triple.pure {a : α} (h : ∀ w, I w → P w → Q (.ok a) w) :
    Triple I P (pure a : Prog (Shared σ) ε α) Q :=
  fun _ hs hp => ⟨hs, h _ hs.now hp⟩

theorem Triple.raise {e : ε} (h : ∀ w, I w → P w → Q (.error e) w) :
    Triple I P (Prog.raise e : Prog (Shared σ) ε α) Q :=
  fun _ hs hp => ⟨hs, h _ hs.now hp⟩

/-- A call meets a world the others have left, in which what is stable still holds. -/
theorem Triple.syscall (hR : Respects R others) (hI : Stable R I I) (hP : Stable R I P)
    {f : σ → Except ε α × σ} (hf : ∀ w, I w → P w → I (f w).2 ∧ Q (f w).1 (f w).2) :
    Triple I P (syscall others f) Q := by
  intro s hs hp
  have hstep := hR s.calls s.world
  have hmet : I (others s.calls s.world) := hI _ _ hstep hs.now hs.now
  have hleft := hf _ hmet (hP _ _ hstep hs.now hp)
  refine ⟨⟨?_, hleft.1⟩, hleft.2⟩
  intro w hmem
  rcases List.mem_cons.1 hmem with rfl | hmem
  · exact hleft.1
  · rcases List.mem_cons.1 hmem with rfl | hmem
    · exact hmet
    · exact hs.past w hmem

theorem Triple.look (hR : Respects R others) (hI : Stable R I I) (hP : Stable R I P) {f : σ → α}
    (hf : ∀ w, I w → P w → Q (.ok (f w)) w) : Triple I P (look others f) Q :=
  Triple.syscall hR hI hP fun w hi hp => ⟨hi, hf w hi hp⟩

theorem Triple.alter {Q : Except ε Unit → σ → Prop} (hR : Respects R others) (hI : Stable R I I)
    (hP : Stable R I P) {f : σ → σ} (hf : ∀ w, I w → P w → I (f w) ∧ Q (.ok ()) (f w)) :
    Triple I P (alter others f) Q :=
  Triple.syscall hR hI hP hf

/-- The second part starts where the first returned, and what the first raised is the result. -/
theorem Triple.bind {x : Prog (Shared σ) ε α} {f : α → Prog (Shared σ) ε β}
    {Q' : Except ε β → σ → Prop} (hx : Triple I P x Q) (hf : ∀ a, Triple I (Q (.ok a)) (f a) Q')
    (herror : ∀ e w, I w → Q (.error e) w → Q' (.error e) w) : Triple I P (x >>= f) Q' := by
  intro s hs hp
  have hmid := hx s hs hp
  rcases h : x s with ⟨e | a, s'⟩
  · rw [h] at hmid
    rw [Prog.bind_error h]
    exact ⟨hmid.1, herror e _ hmid.1.now hmid.2⟩
  · rw [h] at hmid
    rw [Prog.bind_ok h]
    exact hf a s' hmid.1 hmid.2

/-- `Triple.bind` after a part that does not raise. -/
theorem Triple.seq {x : Prog (Shared σ) ε α} {f : α → Prog (Shared σ) ε β} {Q : α → σ → Prop}
    {Q' : Except ε β → σ → Prop} (hx : Triple I P x (Returns Q))
    (hf : ∀ a, Triple I (Q a) (f a) Q') : Triple I P (x >>= f) Q' :=
  Triple.bind hx hf fun _ _ _ h => h.elim

theorem Triple.attempt {x : Prog (Shared σ) ε α} {handler : ε → Prog (Shared σ) ε α}
    (hx : Triple I P x Q) (hok : ∀ a w, I w → Q (.ok a) w → Q' (.ok a) w)
    (hhandler : ∀ e, Triple I (Q (.error e)) (handler e) Q') :
    Triple I P (Prog.attempt x handler) Q' := by
  intro s hs hp
  have hmid := hx s hs hp
  rcases h : x s with ⟨e | a, s'⟩
  · rw [h] at hmid
    rw [Prog.attempt_error h]
    exact hhandler e s' hmid.1 hmid.2
  · rw [h] at hmid
    rw [Prog.attempt_ok h]
    exact ⟨hmid.1, hok a _ hmid.1.now hmid.2⟩

/-- A loop whose body returns and keeps `P` returns and keeps `P`. -/
theorem Triple.forM {body : α → Prog (Shared σ) ε Unit} {as : List α}
    (h : ∀ a ∈ as, Triple I P (body a) (Returns fun _ => P)) :
    Triple I P (as.forM body) (Returns fun _ => P) := by
  induction as with
  | nil => exact Triple.pure fun _ _ hp => hp
  | cons a as ih =>
    exact Triple.seq (h a List.mem_cons_self) fun _ => ih fun b hb =>
      h b (List.mem_cons_of_mem a hb)

end Rules

end Shared

end WlanpiCore
