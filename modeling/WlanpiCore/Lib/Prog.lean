/-!
# Programs with exceptions

A `Prog σ ε α` runs on a state, returns or raises, and leaves a state behind either way: what a
`try` did before the exception stays done. `Ends x s Q` says that the run of `x` from `s` ends in
`Q`; there is one rule for each way of putting programs together, and `Ends.mono` to use what is
already known about a part.
-/

namespace WlanpiCore

/-- A program over a state `σ` that may raise an `ε`. -/
def Prog (σ ε α : Type) : Type := σ → Except ε α × σ

namespace Prog

variable {σ ε α β : Type}

instance : Monad (Prog σ ε) where
  pure a := fun s => (.ok a, s)
  bind x f := fun s =>
    match x s with
    | (.ok a, s') => f a s'
    | (.error e, s') => (.error e, s')

instance : LawfulMonad (Prog σ ε) := LawfulMonad.mk' (Prog σ ε)
  (fun x => by
    funext s
    change (match x s with | (.ok a, s') => (.ok a, s') | (.error e, s') => (.error e, s')) = x s
    rcases x s with ⟨_ | _, s'⟩ <;> rfl)
  (fun a f => rfl)
  (fun x f g => by
    funext s
    change (match (match x s with | (.ok a, s') => f a s' | (.error e, s') => (.error e, s')) with
      | (.ok b, s') => g b s' | (.error e, s') => (.error e, s')) =
      match x s with
      | (.ok a, s') =>
          (match f a s' with | (.ok b, s') => g b s' | (.error e, s') => (.error e, s'))
      | (.error e, s') => (.error e, s')
    rcases x s with ⟨_ | _, s'⟩ <;> rfl)

def raise (e : ε) : Prog σ ε α := fun s => (.error e, s)

def get : Prog σ ε σ := fun s => (.ok s, s)

def update (f : σ → σ) : Prog σ ε Unit := fun s => (.ok (), f s)

/-- `try: x except: …`. The handler raises again what it does not catch. -/
def attempt (x : Prog σ ε α) (handler : ε → Prog σ ε α) : Prog σ ε α := fun s =>
  match x s with
  | (.ok a, s') => (.ok a, s')
  | (.error e, s') => handler e s'

/-- `try: x finally: y`. -/
def ensuring (x : Prog σ ε α) (y : Prog σ ε Unit) : Prog σ ε α := fun s =>
  match x s with
  | (r, s') =>
    match y s' with
    | (.ok _, s'') => (r, s'')
    | (.error e, s'') => (.error e, s'')

/-- The result of `x` as a value, its exception included. -/
def observe (x : Prog σ ε α) : Prog σ ε (Except ε α) := fun s => (.ok (x s).1, (x s).2)

/-- A pure result, raised or returned. -/
def lift (r : Except ε α) : Prog σ ε α := fun s => (r, s)

/-- The run of `x` from `s` ends with a result and a state that satisfy `Q`. -/
def Ends (x : Prog σ ε α) (s : σ) (Q : Except ε α → σ → Prop) : Prop := Q (x s).1 (x s).2

section Rules

variable {x : Prog σ ε α} {s : σ} {Q R : Except ε α → σ → Prop}

theorem Ends.mono (h : Ends x s R) (hQ : ∀ r s', R r s' → Q r s') : Ends x s Q := hQ _ _ h

theorem Ends.and (h : Ends x s Q) (h' : Ends x s R) : Ends x s fun r s' =>
    Q r s' ∧ R r s' := ⟨h, h'⟩

@[simp] theorem ends_pure {a : α} : Ends (pure a : Prog σ ε α) s Q ↔ Q (.ok a) s := Iff.rfl

@[simp] theorem ends_raise {e : ε} : Ends (raise e : Prog σ ε α) s Q ↔ Q (.error e) s := Iff.rfl

@[simp] theorem ends_lift {r : Except ε α} : Ends (lift r : Prog σ ε α) s Q ↔ Q r s := Iff.rfl

@[simp] theorem ends_get {Q : Except ε σ → σ → Prop} :
    Ends (get : Prog σ ε σ) s Q ↔ Q (.ok s) s := Iff.rfl

@[simp] theorem ends_update {f : σ → σ} {Q : Except ε Unit → σ → Prop} :
    Ends (update f : Prog σ ε Unit) s Q ↔ Q (.ok ()) (f s) := Iff.rfl

theorem ends_bind {f : α → Prog σ ε β} {Q : Except ε β → σ → Prop} :
    Ends (x >>= f) s Q ↔ Ends x s fun r s' =>
      match r with
      | .ok a => Ends (f a) s' Q
      | .error e => Q (.error e) s' := by
  simp only [Ends, bind]
  split <;> simp [*]

theorem ends_attempt {handler : ε → Prog σ ε α} :
    Ends (attempt x handler) s Q ↔ Ends x s fun r s' =>
      match r with
      | .ok a => Q (.ok a) s'
      | .error e => Ends (handler e) s' Q := by
  simp only [Ends, attempt]
  split <;> simp [*]

theorem ends_ensuring {y : Prog σ ε Unit} :
    Ends (ensuring x y) s Q ↔ Ends x s fun r s' => Ends y s' fun r' s'' =>
      match r' with
      | .ok _ => Q r s''
      | .error e => Q (.error e) s'' := by
  rcases hx : x s with ⟨r, s'⟩
  rcases hy : y s' with ⟨_ | _, s''⟩ <;> simp [Ends, ensuring, hx, hy]

theorem ends_observe {Q : Except ε (Except ε α) → σ → Prop} :
    Ends (observe x) s Q ↔ Ends x s fun r s' => Q (.ok r) s' := Iff.rfl

end Rules

theorem lift_ok (a : α) : (lift (.ok a) : Prog σ ε α) = pure a := rfl

/-! ## Equations for a known outcome of the first part -/

theorem bind_ok {x : Prog σ ε α} {f : α → Prog σ ε β} {s s' : σ} {a : α} (h : x s = (.ok a, s')) :
    (x >>= f) s = f a s' := by
  simp only [bind, h]

theorem bind_error {x : Prog σ ε α} {f : α → Prog σ ε β} {s s' : σ} {e : ε}
    (h : x s = (.error e, s')) : (x >>= f) s = (.error e, s') := by
  simp only [bind, h]

theorem get_eq (s : σ) : (get : Prog σ ε σ) s = (.ok s, s) := rfl

theorem lift_eq {r r' : Except ε α} (h : r = r') (s : σ) : lift r s = (r', s) := congrArg (·, s) h

theorem bind_fst_error {x : Prog σ ε α} {f : α → Prog σ ε β} {s : σ} {e : ε}
    (h : (x s).1 = .error e) : ((x >>= f) s).1 = .error e := by
  rcases hx : x s with ⟨r, s'⟩
  rw [hx] at h
  obtain rfl : r = .error e := h
  rw [bind_error hx]

theorem attempt_ok {x : Prog σ ε α} {handler : ε → Prog σ ε α} {s s' : σ} {a : α}
    (h : x s = (.ok a, s')) : attempt x handler s = (.ok a, s') := by
  simp only [attempt, h]

theorem attempt_error {x : Prog σ ε α} {handler : ε → Prog σ ε α} {s s' : σ} {e : ε}
    (h : x s = (.error e, s')) : attempt x handler s = handler e s' := by
  simp only [attempt, h]

theorem ends_bind_ok {x : Prog σ ε α} {f : α → Prog σ ε β} {s s' : σ} {a : α}
    {Q : Except ε β → σ → Prop} (h : x s = (.ok a, s')) :
    Ends (x >>= f) s Q ↔ Ends (f a) s' Q := by
  rw [Ends, bind_ok h]
  rfl

theorem ends_bind_error {x : Prog σ ε α} {f : α → Prog σ ε β} {s s' : σ} {e : ε}
    {Q : Except ε β → σ → Prop} (h : x s = (.error e, s')) :
    Ends (x >>= f) s Q ↔ Q (.error e) s' := by
  rw [Ends, bind_error h]

/-! ## Programs that preserve a property of the state -/

/-- However `x` ends, the property holds of the state it leaves. -/
def Preserves (I : σ → Prop) (x : Prog σ ε α) : Prop := ∀ s, I s → I (x s).2

section Preserves

variable {I : σ → Prop}

theorem Preserves.pure (a : α) : Preserves I (pure a : Prog σ ε α) := fun _ h => h

theorem Preserves.raise (e : ε) : Preserves I (raise e : Prog σ ε α) := fun _ h => h

theorem Preserves.lift (r : Except ε α) : Preserves I (lift r : Prog σ ε α) := fun _ h => h

theorem Preserves.update {f : σ → σ} (hf : ∀ s, I s → I (f s)) :
    Preserves I (update f : Prog σ ε Unit) := hf

theorem Preserves.bind {x : Prog σ ε α} {f : α → Prog σ ε β} (hx : Preserves I x)
    (hf : ∀ a, Preserves I (f a)) : Preserves I (x >>= f) := by
  intro s hs
  have hs' := hx s hs
  rcases h : x s with ⟨e | a, s'⟩
  · rw [h] at hs'
    rwa [bind_error h]
  · rw [h] at hs'
    rw [bind_ok h]
    exact hf a s' hs'

theorem Preserves.attempt {x : Prog σ ε α} {handler : ε → Prog σ ε α} (hx : Preserves I x)
    (hhandler : ∀ e, Preserves I (handler e)) : Preserves I (attempt x handler) := by
  intro s hs
  have hs' := hx s hs
  rcases h : x s with ⟨e | a, s'⟩
  · rw [h] at hs'
    rw [attempt_error h]
    exact hhandler e s' hs'
  · rw [h] at hs'
    rwa [attempt_ok h]

theorem Preserves.observe {x : Prog σ ε α} (hx : Preserves I x) : Preserves I (observe x) := hx

theorem Preserves.map {x : Prog σ ε α} (f : α → β) (hx : Preserves I x) :
    Preserves I (f <$> x) :=
  Preserves.bind hx fun a => .pure (f a)

theorem Preserves.forM {as : List α} {f : α → Prog σ ε Unit} (h : ∀ a ∈ as, Preserves I (f a)) :
    Preserves I (as.forM f) := by
  induction as with
  | nil => exact .pure ()
  | cons a as ih =>
    exact .bind (h a List.mem_cons_self) fun _ => ih fun b hb => h b (List.mem_cons_of_mem a hb)

end Preserves

end Prog

end WlanpiCore
