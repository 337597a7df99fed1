/-!
This module contains sequential programs over a mutable state, with errors that keep the state and
with an environment that is only read, together with a partial correctness logic for them: one rule
per construct, so that a program is proved by following its text.
-/

/--
A program that reads an environment `ρ`, mutates a state `σ` and returns an `α` or fails with an
`ε`. A failure does not undo the mutations made before it.
-/
def Prog (ρ ε σ α : Type) := ρ → σ → Except ε α × σ

namespace Prog

variable {ρ ε σ α β : Type}

def exec (m : Prog ρ ε σ α) (env : ρ) (s : σ) : Except ε α × σ :=
  m env s

instance : Monad (Prog ρ ε σ) where
  pure a := fun _ s => (.ok a, s)
  bind m f := fun env s =>
    match exec m env s with
    | (.ok a, s) => exec (f a) env s
    | (.error e, s) => (.error e, s)

instance : MonadExceptOf ε (Prog ρ ε σ) where
  throw e := fun _ s => (.error e, s)
  tryCatch m h := fun env s =>
    match exec m env s with
    | (.ok a, s) => (.ok a, s)
    | (.error e, s) => exec (h e) env s

instance : MonadStateOf σ (Prog ρ ε σ) where
  get := fun _ s => (.ok s, s)
  set s := fun _ _ => (.ok (), s)
  modifyGet f := fun _ s => (.ok (f s).1, (f s).2)

instance : MonadReaderOf ρ (Prog ρ ε σ) where
  read := fun env s => (.ok env, s)

/--
Run `m` and hand its failure to the caller as a value.
-/
def attempt (m : Prog ρ ε σ α) : Prog ρ ε σ (Except ε α) :=
  fun env s => (.ok (exec m env s).1, (exec m env s).2)

section Exec

@[simp]
theorem exec_pure (a : α) (env : ρ) (s : σ) :
    exec (pure a : Prog ρ ε σ α) env s = (.ok a, s) := rfl

theorem exec_bind (m : Prog ρ ε σ α) (f : α → Prog ρ ε σ β) (env : ρ) (s : σ) :
    exec (m >>= f) env s =
      match exec m env s with
      | (.ok a, s) => exec (f a) env s
      | (.error e, s) => (.error e, s) := rfl

theorem exec_bind_ok {m : Prog ρ ε σ α} {f : α → Prog ρ ε σ β} {env : ρ} {s t : σ} {a : α}
    (h : exec m env s = (.ok a, t)) : exec (m >>= f) env s = exec (f a) env t := by
  rw [exec_bind, h]

theorem exec_bind_error {m : Prog ρ ε σ α} {f : α → Prog ρ ε σ β} {env : ρ} {s t : σ} {e : ε}
    (h : exec m env s = (.error e, t)) : exec (m >>= f) env s = (.error e, t) := by
  rw [exec_bind, h]

/--
A sequence that returns has a first part that returns, and goes on from the state that leaves.
-/
theorem exec_bind_eq_ok {m : Prog ρ ε σ α} {f : α → Prog ρ ε σ β} {env : ρ} {s : σ} {b : β}
    (h : (exec (m >>= f) env s).1 = .ok b) :
    ∃ a, (exec m env s).1 = .ok a ∧ (exec (f a) env (exec m env s).2).1 = .ok b := by
  rw [exec_bind] at h
  generalize exec m env s = res at h
  rcases res with ⟨_ | a, t⟩
  . contradiction
  . exact ⟨a, rfl, h⟩

theorem exec_bind_eq_iff {m : Prog ρ ε σ α} {f : α → Prog ρ ε σ β} {env : ρ} {s t : σ} {b : β} :
    exec (m >>= f) env s = (.ok b, t) ↔
      ∃ a u, exec m env s = (.ok a, u) ∧ exec (f a) env u = (.ok b, t) := by
  rw [exec_bind]
  generalize exec m env s = res
  constructor
  . intro h
    rcases res with ⟨_ | a, u⟩
    . cases h
    . exact ⟨a, u, rfl, h⟩
  . intro ⟨a, u, hm, hf⟩
    rw [hm]
    exact hf

theorem pure_bind (a : α) (f : α → Prog ρ ε σ β) : pure a >>= f = f a := rfl

theorem bind_assoc {γ : Type} (m : Prog ρ ε σ α) (f : α → Prog ρ ε σ β) (g : β → Prog ρ ε σ γ) :
    m >>= f >>= g = m >>= fun a => f a >>= g := by
  funext env s
  change exec _ env s = exec _ env s
  simp only [exec_bind]
  generalize exec m env s = res
  rcases res with ⟨_ | a, t⟩
  . rfl
  . rfl

@[simp]
theorem exec_throw (e : ε) (env : ρ) (s : σ) :
    exec (throw e : Prog ρ ε σ α) env s = (.error e, s) := rfl

@[simp]
theorem exec_get (env : ρ) (s : σ) : exec (get : Prog ρ ε σ σ) env s = (.ok s, s) := rfl

@[simp]
theorem exec_modify (f : σ → σ) (env : ρ) (s : σ) :
    exec (modify f : Prog ρ ε σ PUnit) env s = (.ok (), f s) := rfl

@[simp]
theorem exec_read (env : ρ) (s : σ) : exec (read : Prog ρ ε σ ρ) env s = (.ok env, s) := rfl

@[simp]
theorem exec_attempt (m : Prog ρ ε σ α) (env : ρ) (s : σ) :
    exec (attempt m) env s = (.ok (exec m env s).1, (exec m env s).2) := rfl

end Exec

/--
From a state in `P`, `m` either returns an `a` in a state of `Q a` or fails in a state of `E`.
-/
structure Triple (env : ρ) (P : σ → Prop) (m : Prog ρ ε σ α) (Q : α → σ → Prop) (E : σ → Prop) :
    Prop where
  spec : ∀ s, P s →
    match exec m env s with
    | (.ok a, t) => Q a t
    | (.error _, t) => E t

namespace Triple

variable {env : ρ} {P P' E E' : σ → Prop} {Q Q' : α → σ → Prop} {R : β → σ → Prop}
variable {m : Prog ρ ε σ α}

theorem ok (h : Triple env P m Q E) {s t : σ} {a : α} (hs : P s)
    (hm : exec m env s = (.ok a, t)) : Q a t := by
  have := h.spec s hs
  rw [hm] at this
  exact this

theorem error (h : Triple env P m Q E) {s t : σ} {e : ε} (hs : P s)
    (hm : exec m env s = (.error e, t)) : E t := by
  have := h.spec s hs
  rw [hm] at this
  exact this

/--
What holds on both ways out holds in the end.
-/
theorem state (h : Triple env P m (fun _ => E) E) {s : σ} (hs : P s) : E (exec m env s).2 := by
  have := h.spec s hs
  generalize exec m env s = res at this
  rcases res with ⟨_ | a, t⟩
  . exact this
  . exact this

theorem conseq (h : Triple env P m Q E) (hP : ∀ s, P' s → P s) (hQ : ∀ a s, Q a s → Q' a s)
    (hE : ∀ s, E s → E' s) : Triple env P' m Q' E' := by
  constructor
  intro s hs
  have := h.spec s (hP s hs)
  generalize exec m env s = res at this
  rcases res with ⟨_ | a, t⟩
  . exact hE t this
  . exact hQ a t this

/--
A fact about no state moves out of the precondition.
-/
theorem of_and {p : Prop} (h : p → Triple env P m Q E) : Triple env (fun s => p ∧ P s) m Q E := by
  constructor
  intro s hs
  exact (h hs.1).spec s hs.2

theorem of_and' {p : Prop} (h : p → Triple env P m Q E) :
    Triple env (fun s => P s ∧ p) m Q E := by
  constructor
  intro s hs
  exact (h hs.2).spec s hs.1

theorem and (h : Triple env P m Q E) (h' : Triple env P' m Q' E') :
    Triple env (fun s => P s ∧ P' s) m (fun a s => Q a s ∧ Q' a s) (fun s => E s ∧ E' s) := by
  constructor
  intro s hs
  have hspec := h.spec s hs.1
  have hspec' := h'.spec s hs.2
  generalize exec m env s = res at hspec hspec'
  rcases res with ⟨_ | a, t⟩
  . exact ⟨hspec, hspec'⟩
  . exact ⟨hspec, hspec'⟩

/--
From a known state, what is returned is what the program returns there.
-/
theorem traced (h : Triple env P m Q E) (s₀ : σ) :
    Triple env (fun s => s = s₀ ∧ P s) m (fun a s => (exec m env s₀).1 = .ok a ∧ Q a s) E := by
  constructor
  intro s ⟨hs, hP⟩
  subst hs
  have := h.spec s hP
  generalize exec m env s = res at this
  rcases res with ⟨_ | a, t⟩
  . exact this
  . exact ⟨rfl, this⟩

theorem of_forall (hQ : ∀ a s, Q a s) (hE : ∀ s, E s) : Triple env P m Q E := by
  constructor
  intro s _
  generalize exec m env s = res
  rcases res with ⟨_ | a, t⟩
  . exact hE t
  . exact hQ a t

theorem pure {a : α} (h : ∀ s, P s → Q a s) :
    Triple env P (Pure.pure a : Prog ρ ε σ α) Q E := by
  constructor
  intro s hs
  exact h s hs

theorem throw {e : ε} (h : ∀ s, P s → E s) :
    Triple env P (MonadExcept.throw e : Prog ρ ε σ α) Q E := by
  constructor
  intro s hs
  exact h s hs

theorem bind {f : α → Prog ρ ε σ β} (hm : Triple env P m Q E)
    (hf : ∀ a, Triple env (Q a) (f a) R E) : Triple env P (m >>= f) R E := by
  constructor
  intro s hs
  have := hm.spec s hs
  rw [exec_bind]
  generalize exec m env s = res at this
  rcases res with ⟨_ | a, t⟩
  . exact this
  . exact (hf a).spec t this

theorem attempt {R : Except ε α → σ → Prop} (hm : Triple env P m (fun a => R (.ok a))
    (fun s => ∀ e, R (.error e) s)) : Triple env P (Prog.attempt m) R E := by
  constructor
  intro s hs
  have := hm.spec s hs
  simp only [exec_attempt]
  generalize exec m env s = res at this
  rcases res with ⟨e | a, t⟩
  . exact this e
  . exact this

theorem get {R : σ → σ → Prop} (h : ∀ s, P s → R s s) :
    Triple env P (MonadState.get : Prog ρ ε σ σ) R E := by
  constructor
  intro s hs
  exact h s hs

theorem modify {R : PUnit → σ → Prop} {f : σ → σ} (h : ∀ s, P s → R () (f s)) :
    Triple env P (modify f : Prog ρ ε σ PUnit) R E := by
  constructor
  intro s hs
  exact h s hs

theorem read {R : ρ → σ → Prop} (h : ∀ s, P s → R env s) :
    Triple env P (MonadReader.read : Prog ρ ε σ ρ) R E := by
  constructor
  intro s hs
  exact h s hs

end Triple

/--
`m` keeps `I` whether it returns or fails, and what it returns satisfies `Q`.
-/
def Keeps (env : ρ) (I : σ → Prop) (m : Prog ρ ε σ α) (Q : α → Prop := fun _ => True) : Prop :=
  Triple env I m (fun a s => I s ∧ Q a) I

namespace Keeps

variable {env : ρ} {I : σ → Prop} {Q Q' : α → Prop} {R : β → Prop} {m : Prog ρ ε σ α}

theorem state (h : Keeps env I m Q) {s : σ} (hs : I s) : I (exec m env s).2 := by
  have := h.spec s hs
  generalize exec m env s = res at this
  rcases res with ⟨_ | a, t⟩
  . exact this
  . exact this.1

theorem result (h : Keeps env I m Q) {s : σ} {a : α} (hs : I s)
    (hm : (exec m env s).1 = .ok a) : Q a := by
  have := h.spec s hs
  generalize exec m env s = res at this hm
  rcases res with ⟨_ | b, t⟩
  . contradiction
  . simp only [Except.ok.injEq] at hm
    rw [← hm]
    exact this.2

theorem weaken (h : Keeps env I m Q) (hQ : ∀ a, Q a → Q' a) : Keeps env I m Q' := by
  apply Triple.conseq h
  . intro s hs
    exact hs
  . intro a s hs
    exact ⟨hs.1, hQ a hs.2⟩
  . intro s hs
    exact hs

theorem pure {a : α} (h : Q a) : Keeps env I (Pure.pure a : Prog ρ ε σ α) Q := by
  constructor
  intro s hs
  exact ⟨hs, h⟩

theorem throw {e : ε} : Keeps env I (MonadExcept.throw e : Prog ρ ε σ α) Q := by
  constructor
  intro s hs
  exact hs

theorem bind {f : α → Prog ρ ε σ β} (hm : Keeps env I m Q)
    (hf : ∀ a, Q a → Keeps env I (f a) R) : Keeps env I (m >>= f) R := by
  apply Triple.bind hm
  intro a
  constructor
  intro s hs
  exact (hf a hs.2).spec s hs.1

theorem bind_read {f : ρ → Prog ρ ε σ β} (hf : Keeps env I (f env) R) :
    Keeps env I (MonadReader.read >>= f) R := by
  constructor
  intro s hs
  exact hf.spec s hs

theorem bind_get {f : σ → Prog ρ ε σ β} (hf : ∀ s, I s → Keeps env I (f s) R) :
    Keeps env I (MonadState.get >>= f) R := by
  constructor
  intro s hs
  exact (hf s hs).spec s hs

theorem attempt {R : Except ε α → Prop} (hm : Keeps env I m (fun a => R (.ok a)))
    (he : ∀ e, R (.error e)) : Keeps env I (Prog.attempt m) R := by
  apply Triple.attempt
  apply Triple.conseq hm
  . intro s hs
    exact hs
  . intro a s hs
    exact hs
  . intro s hs e
    exact ⟨hs, he e⟩

/--
Where nothing is to be said of the result, only the invariant is left.
-/
theorem triple (hm : Keeps env I m Q) : Triple env I m (fun _ => I) I := by
  apply Triple.conseq hm
  . intro s hs
    exact hs
  . intro a s hs
    exact hs.1
  . intro s hs
    exact hs

/--
An attempt does not fail, so it keeps `I` wherever it stands.
-/
theorem attempted {E : σ → Prop} (hm : Keeps env I m Q) :
    Triple env I (Prog.attempt m) (fun _ => I) E := by
  apply Triple.attempt
  apply Triple.conseq hm
  . intro s hs
    exact hs
  . intro a s hs
    exact hs.1
  . intro s hs _
    exact hs

theorem read {R : ρ → Prop} (h : R env) :
    Keeps env I (MonadReader.read : Prog ρ ε σ ρ) R := by
  constructor
  intro s hs
  exact ⟨hs, h⟩

theorem get {R : σ → Prop} (h : ∀ s, I s → R s) :
    Keeps env I (MonadState.get : Prog ρ ε σ σ) R := by
  constructor
  intro s hs
  exact ⟨hs, h s hs⟩

theorem modify {f : σ → σ} (h : ∀ s, I s → I (f s)) :
    Keeps env I (modify f : Prog ρ ε σ PUnit) := by
  constructor
  intro s hs
  exact ⟨h s hs, trivial⟩

end Keeps
/--
From `s`, `m` comes out as `r`, in a state that `R` relates to `s`.
-/
def Yields (env : ρ) (R : σ → σ → Prop) (m : Prog ρ ε σ α) (s : σ) (r : Except ε α) : Prop :=
  ∃ t, exec m env s = (r, t) ∧ R s t

namespace Yields

variable {env : ρ} {R : σ → σ → Prop} {m : Prog ρ ε σ α} {s : σ}

theorem pure {a : α} (h : R s s) : Yields env R (Pure.pure a : Prog ρ ε σ α) s (.ok a) :=
  ⟨s, rfl, h⟩

theorem throw {e : ε} (h : R s s) :
    Yields env R (MonadExcept.throw e : Prog ρ ε σ α) s (.error e) :=
  ⟨s, rfl, h⟩

theorem bind [Trans R R R] {f : α → Prog ρ ε σ β} {a : α} {r : Except ε β}
    (hm : Yields env R m s (.ok a)) (hf : ∀ t, R s t → Yields env R (f a) t r) :
    Yields env R (m >>= f) s r := by
  obtain ⟨t, hm, hst⟩ := hm
  obtain ⟨u, hf, htu⟩ := hf t hst
  refine ⟨u, ?_, Trans.trans hst htu⟩
  rw [exec_bind_ok hm]
  exact hf

/--
The rule for a sequence of which only the return is of interest, not the value.
-/
theorem exists_bind [Trans R R R] {f : α → Prog ρ ε σ β}
    (hm : ∃ a, Yields env R m s (.ok a)) (hf : ∀ a t, R s t → ∃ b, Yields env R (f a) t (.ok b)) :
    ∃ b, Yields env R (m >>= f) s (.ok b) := by
  obtain ⟨a, t, hm, hst⟩ := hm
  obtain ⟨b, u, hf, htu⟩ := hf a t hst
  refine ⟨b, u, ?_, Trans.trans hst htu⟩
  rw [exec_bind_ok hm]
  exact hf

theorem bind_still {f : α → Prog ρ ε σ β} {a : α} {r : Except ε β}
    (hm : exec m env s = (.ok a, s)) (hf : Yields env R (f a) s r) :
    Yields env R (m >>= f) s r := by
  obtain ⟨t, hf, hst⟩ := hf
  refine ⟨t, ?_, hst⟩
  rw [exec_bind_ok hm]
  exact hf

theorem bind_read {f : ρ → Prog ρ ε σ β} {r : Except ε β} (hf : Yields env R (f env) s r) :
    Yields env R (MonadReader.read >>= f) s r :=
  hf

theorem bind_get {f : σ → Prog ρ ε σ β} {r : Except ε β} (hf : Yields env R (f s) s r) :
    Yields env R (MonadState.get >>= f) s r :=
  hf

theorem attempt {r : Except ε α} (hm : Yields env R m s r) :
    Yields env R (attempt m) s (.ok r) := by
  obtain ⟨t, hm, hst⟩ := hm
  refine ⟨t, ?_, hst⟩
  rw [exec_attempt, hm]

theorem modify {f : σ → σ} (h : R s (f s)) :
    Yields env R (modify f : Prog ρ ε σ PUnit) s (.ok ()) :=
  ⟨f s, rfl, h⟩

end Yields

end Prog
