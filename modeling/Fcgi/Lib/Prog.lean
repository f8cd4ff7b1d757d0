import Mathlib.Tactic.Linarith

/-!
# Lib — programs with exceptions, assertions and fuel

A program is a function from a state to a result and a state.  The state survives every kind
of exit, so what a run did before it failed can be stated: an exception, a failed assertion and
the end of the fuel all leave the state they were met in.

* `Prog`: the monad, with `assert`, `throw`, `attempt` and the recursion `recLoop`.
* `Triple`: partial-correctness triples with one postcondition for the returns and one for the
  faults; `Triple.recLoop` is the rule for a loop whose body may call the loop again.
* `Keeps`: a property of the state that holds again however the program ends.
* `KeepsOr`: the same up to the faults for which less is known, as long as `Catches` says that
  an exception that is caught leaves the property.

The triples are stated over a run, not over the program text: a program is evaluated with the
equations `*_run` and `bind_ok`, and reasoned about with one rule for each construct.  A loop has
one rule only, by induction on the fuel, in which the recursive calls of the body are assumed to
satisfy the triple that is to be proved.
-/

namespace Fcgi.Lib

/-- The exits of a program that are not a return. -/
inductive Fault (ε : Type) where
  /-- An exception, which a caller may catch. -/
  | exc (e : ε)
  /-- A failed assertion: the process is terminated. -/
  | abort
  /-- What the language leaves undefined, as an access outside the memory handed out. -/
  | undef
  /-- The fuel ran out; the source has no such exit. -/
  | spent
  deriving DecidableEq, Repr

/-- A program over the state `σ` that throws `ε` and returns `α`. -/
def Prog (σ ε α : Type) : Type := σ → Except (Fault ε) α × σ

/-- Whether a loop goes round again, with new loop variables, or is done. -/
inductive Flow (β α : Type) where
  | again (b : β)
  | done (a : α)
  deriving DecidableEq, Repr

namespace Prog

variable {σ τ ε α β : Type}

/-- Returns `a`. -/
def pure (a : α) : Prog σ ε α := fun s => (.ok a, s)

/-- Runs `m`, and then what `f` makes of its value; a fault of `m` ends both. -/
def bind (m : Prog σ ε α) (f : α → Prog σ ε β) : Prog σ ε β := fun s =>
  match m s with
  | (.ok a, s') => f a s'
  | (.error x, s') => (.error x, s')

instance : Monad (Prog σ ε) where
  pure := Prog.pure
  bind := Prog.bind

/-- Returns the state. -/
def get : Prog σ ε σ := fun s => (.ok s, s)

/-- Changes the state. -/
def modify (f : σ → σ) : Prog σ ε Unit := fun s => (.ok (), f s)

/-- Ends with the fault `x`, in the state as it is. -/
def fault (x : Fault ε) : Prog σ ε α := fun s => (.error x, s)

/-- Throws the exception `e`. -/
def throw (e : ε) : Prog σ ε α := fault (.exc e)

/-- Terminates the process unless `p` holds. -/
def assert (p : Prop) [Decidable p] : Prog σ ε Unit := fun s =>
  if p then (.ok (), s) else (.error .abort, s)

/-- Runs `m` and hands its exception, if there is one, to the caller as a value. -/
def attempt (m : Prog σ ε α) : Prog σ ε (Except ε α) := fun s =>
  match m s with
  | (.ok a, s') => (.ok (.ok a), s')
  | (.error (.exc e), s') => (.ok (.error e), s')
  | (.error .abort, s') => (.error .abort, s')
  | (.error .undef, s') => (.error .undef, s')
  | (.error .spent, s') => (.error .spent, s')

/-- A computation that has no state. -/
def ofExcept : Except ε α → Prog σ ε α
  | .ok a => pure a
  | .error e => throw e

/-- Runs a program on a part of the state. -/
def zoom (view : τ → σ) (put : σ → τ → τ) (m : Prog σ ε α) : Prog τ ε α := fun t =>
  match m (view t) with
  | (r, s) => (r, put s t)

/-- `while (true)` around `body`, which may also start the loop afresh from inside (`call`).
Each round, and each such call, costs one unit of fuel; `body` is told how much is left. -/
def recLoop (body : Nat → (β → Prog σ ε α) → β → Prog σ ε (Flow β α)) :
    Nat → β → Prog σ ε α
  | 0, _ => fault .spent
  | n + 1, b => do
    match ← body n (recLoop body n) b with
    | .again b' => recLoop body n b'
    | .done a => Prog.pure a

/-! ### Running -/

@[simp] theorem pure_run (a : α) (s : σ) : (Pure.pure a : Prog σ ε α) s = (.ok a, s) := rfl

@[simp] theorem pure_run' (a : α) (s : σ) : (Prog.pure a : Prog σ ε α) s = (.ok a, s) := rfl

/-- A sequence of two programs, evaluated. -/
theorem bind_run (m : Prog σ ε α) (f : α → Prog σ ε β) (s : σ) :
    (m >>= f) s = match m s with
      | (.ok a, s') => f a s'
      | (.error x, s') => (.error x, s') := rfl

/-- The second program runs from where the first has returned. -/
theorem bind_ok {m : Prog σ ε α} {f : α → Prog σ ε β} {s s' : σ} {a : α}
    (h : m s = (.ok a, s')) : (m >>= f) s = f a s' := by
  rw [bind_run, h]

/-- A fault of the first program is one of the sequence. -/
theorem bind_error {m : Prog σ ε α} {f : α → Prog σ ε β} {s s' : σ} {x : Fault ε}
    (h : m s = (.error x, s')) : (m >>= f) s = (.error x, s') := by
  rw [bind_run, h]

/-- A sequence that returns is two programs that return. -/
theorem bind_eq_ok {m : Prog σ ε α} {f : α → Prog σ ε β} {s s' : σ} {b : β}
    (h : (m >>= f) s = (.ok b, s')) : ∃ a t, m s = (.ok a, t) ∧ f a t = (.ok b, s') := by
  rw [bind_run] at h
  rcases e : m s with ⟨(x | a), t⟩ <;> simp only [e] at h
  · cases h
  · exact ⟨a, t, rfl, h⟩

/-- A sequence that fails does so in one of its two programs. -/
theorem bind_eq_error {m : Prog σ ε α} {f : α → Prog σ ε β} {s s' : σ} {x : Fault ε}
    (h : (m >>= f) s = (.error x, s')) :
    m s = (.error x, s') ∨ ∃ a t, m s = (.ok a, t) ∧ f a t = (.error x, s') := by
  rw [bind_run] at h
  rcases e : m s with ⟨(y | a), t⟩ <;> simp only [e] at h
  · cases h; exact .inl rfl
  · exact .inr ⟨a, t, rfl, h⟩

instance : LawfulMonad (Prog σ ε) := LawfulMonad.mk' (Prog σ ε)
  (fun m => by
    funext s
    change (m >>= Pure.pure) s = m s
    rw [bind_run]
    rcases m s with ⟨x | a, s'⟩ <;> rfl)
  (fun _ _ => rfl)
  (fun m f g => by
    funext s
    simp only [bind_run]
    rcases m s with ⟨x | a, s'⟩ <;> rfl)

/-- `<$>` changes what is returned, and not the state. -/
theorem map_run (f : α → β) (m : Prog σ ε α) (s : σ) :
    (f <$> m) s = ((m s).1.map f, (m s).2) := by
  rw [map_eq_pure_bind, bind_run]
  rcases m s with ⟨x | a, s'⟩ <;> rfl

/-- What follows an `if` follows both branches. -/
theorem ite_bind {p : Prop} [Decidable p] (m m' : Prog σ ε α) (f : α → Prog σ ε β) :
    (if p then m else m') >>= f = if p then m >>= f else m' >>= f := by
  split <;> rfl

@[simp] theorem throw_bind (e : ε) (f : α → Prog σ ε β) : throw e >>= f = throw e := rfl

@[simp] theorem get_run (s : σ) : (get : Prog σ ε σ) s = (.ok s, s) := rfl

@[simp] theorem modify_run (f : σ → σ) (s : σ) : (modify f : Prog σ ε Unit) s = (.ok (), f s) :=
  rfl

@[simp] theorem fault_run (x : Fault ε) (s : σ) : (fault x : Prog σ ε α) s = (.error x, s) := rfl

@[simp] theorem throw_run (e : ε) (s : σ) :
    (throw e : Prog σ ε α) s = (.error (.exc e), s) := rfl

/-- An assertion, evaluated: it changes nothing. -/
theorem assert_run (p : Prop) [Decidable p] (s : σ) :
    (assert p : Prog σ ε Unit) s = if p then (.ok (), s) else (.error .abort, s) := rfl

/-- An assertion that holds does nothing. -/
theorem assert_true {p : Prop} [Decidable p] (h : p) (s : σ) :
    (assert p : Prog σ ε Unit) s = (.ok (), s) := by
  rw [assert_run, if_pos h]

@[simp] theorem ofExcept_ok_run (a : α) (s : σ) :
    (ofExcept (.ok a) : Prog σ ε α) s = (.ok a, s) := rfl

/-- A test of what a run that returned has left. -/
def returns (p : α → σ → Bool) : Except (Fault ε) α × σ → Bool
  | (.ok a, s) => p a s
  | (.error _, _) => false

theorem of_returns {p : α → σ → Bool} {r : Except (Fault ε) α × σ} (h : returns p r = true) :
    ∃ a s, r = (.ok a, s) ∧ p a s = true := by
  rcases r with ⟨x | a, s⟩
  · exact absurd h Bool.false_ne_true
  · exact ⟨a, s, rfl, h⟩

/-- `attempt` of a program that returns. -/
theorem attempt_ok {m : Prog σ ε α} {s s' : σ} {a : α} (h : m s = (.ok a, s')) :
    attempt m s = (.ok (.ok a), s') := by
  simp only [attempt, h]

/-- An exception is caught, in the state it was thrown in. -/
theorem attempt_exc {m : Prog σ ε α} {s s' : σ} {e : ε} (h : m s = (.error (.exc e), s')) :
    attempt m s = (.ok (.error e), s') := by
  simp only [attempt, h]

/-- A failed assertion is not caught. -/
theorem attempt_abort {m : Prog σ ε α} {s s' : σ} (h : m s = (.error .abort, s')) :
    attempt m s = (.error .abort, s') := by
  simp only [attempt, h]

/-- Catching an exception does not change the state. -/
theorem attempt_state (m : Prog σ ε α) (s : σ) : (attempt m s).2 = (m s).2 := by
  rcases e : m s with ⟨(_ | _ | _ | _) | a, s'⟩ <;> simp only [attempt, e]

/-- The end of the fuel is not caught. -/
theorem attempt_spent {m : Prog σ ε α} {s : σ} (h : (m s).1 = .error .spent) :
    (attempt m s).1 = .error .spent := by
  rcases e : m s with ⟨r, s'⟩
  rw [e] at h
  obtain rfl : r = .error .spent := h
  simp only [attempt, e]

/-- A run on a part of the state, evaluated. -/
theorem zoom_run {view : τ → σ} {put : σ → τ → τ} {m : Prog σ ε α} {t : τ} {s : σ}
    {r : Except (Fault ε) α} (h : m (view t) = (r, s)) : zoom view put m t = (r, put s t) := by
  simp only [zoom, h]

/-- One round of the loop, with what the body may call. -/
theorem recLoop_succ (body : Nat → (β → Prog σ ε α) → β → Prog σ ε (Flow β α)) (n : Nat)
    (b : β) (s : σ) :
    recLoop body (n + 1) b s = match body n (recLoop body n) b s with
      | (.ok (.again b'), s') => recLoop body n b' s'
      | (.ok (.done a), s') => (.ok a, s')
      | (.error x, s') => (.error x, s') := by
  rw [recLoop, bind_run]
  rcases body n (recLoop body n) b s with ⟨(x | (b' | a)), s'⟩ <;> rfl

end Prog

/-! ### Triples -/

section Triple

variable {σ τ ε α β : Type}

/-- From a state in `P`, a return of `m` ends in `Q` and a fault of `m` in `E`. -/
def Triple (P : σ → Prop) (m : Prog σ ε α) (Q : α → σ → Prop) (E : Fault ε → σ → Prop) : Prop :=
  ∀ s, P s → match m s with
    | (.ok a, s') => Q a s'
    | (.error x, s') => E x s'

variable {P P' : σ → Prop} {Q Q' : α → σ → Prop} {E E' : Fault ε → σ → Prop}

namespace Triple

/-- A triple applied to a run that returns. -/
theorem of_ok {m : Prog σ ε α} (h : Triple P m Q E) {s s' : σ} {a : α} (hs : P s)
    (hm : m s = (.ok a, s')) : Q a s' := by
  have := h s hs
  rwa [hm] at this

/-- A triple applied to a run that ends in a fault. -/
theorem of_error {m : Prog σ ε α} (h : Triple P m Q E) {s s' : σ} {x : Fault ε} (hs : P s)
    (hm : m s = (.error x, s')) : E x s' := by
  have := h s hs
  rwa [hm] at this

/-- A program whose exceptions are handed to the caller has returned, or thrown one. -/
theorem of_attempt {m : Prog σ ε α} (h : Triple P m Q E) {s s' : σ} {r : Except ε α} (hs : P s)
    (hm : Prog.attempt m s = (.ok r, s')) : (∃ a, Q a s') ∨ ∃ e, E (.exc e) s' := by
  rcases e : m s with ⟨x | a, s₁⟩
  · cases x with
    | exc x =>
        rw [Prog.attempt_exc e] at hm
        cases hm
        exact .inr ⟨x, h.of_error hs e⟩
    | _ =>
        simp only [Prog.attempt, e] at hm
        cases hm
  · rw [Prog.attempt_ok e] at hm
    cases hm
    exact .inl ⟨a, h.of_ok hs e⟩

theorem conseq {m : Prog σ ε α} (h : Triple P m Q E) (hP : ∀ s, P' s → P s)
    (hQ : ∀ a s, Q a s → Q' a s) (hE : ∀ x s, E x s → E' x s) : Triple P' m Q' E' := by
  intro s hs
  have := h s (hP s hs)
  rcases hm : m s with ⟨(x | a), s'⟩ <;> simp only [hm] at this ⊢
  · exact hE x s' this
  · exact hQ a s' this

theorem pre {m : Prog σ ε α} (h : Triple P m Q E) (hP : ∀ s, P' s → P s) : Triple P' m Q E :=
  h.conseq hP (fun _ _ => id) fun _ _ => id

theorem post {m : Prog σ ε α} (h : Triple P m Q E) (hQ : ∀ a s, Q a s → Q' a s) :
    Triple P m Q' E :=
  h.conseq (fun _ => id) hQ fun _ _ => id

/-- Every program satisfies the triple that says nothing. -/
theorem anything {m : Prog σ ε α} : Triple P m (fun _ _ => True) fun _ _ => True := by
  intro s _
  rcases m s with ⟨x | a, s'⟩ <;> trivial

theorem pure {a : α} (h : ∀ s, P s → Q a s) : Triple P (Pure.pure a : Prog σ ε α) Q E := h

theorem fault {x : Fault ε} (h : ∀ s, P s → E x s) : Triple P (Prog.fault x : Prog σ ε α) Q E := h

theorem throw {e : ε} (h : ∀ s, P s → E (.exc e) s) :
    Triple P (Prog.throw e : Prog σ ε α) Q E := h

/-- The rule of sequence; both programs share the postcondition of the faults. -/
theorem bind {m : Prog σ ε α} {f : α → Prog σ ε β} {R : β → σ → Prop}
    (hm : Triple P m Q E) (hf : ∀ a, Triple (Q a) (f a) R E) : Triple P (m >>= f) R E := by
  intro s hs
  have h := hm s hs
  rw [Prog.bind_run]
  rcases e : m s with ⟨(x | a), s'⟩ <;> simp only [e] at h ⊢
  · exact h
  · exact hf a s' h

/-- Reading the state: the rest is proved for each state the precondition allows. -/
theorem get {f : σ → Prog σ ε β} {R : β → σ → Prop}
    (hf : ∀ s, P s → Triple (fun t => t = s) (f s) R E) : Triple P (Prog.get >>= f) R E :=
  fun s hs => hf s hs s rfl

theorem modify {f : σ → σ} {Q : Unit → σ → Prop} (h : ∀ s, P s → Q () (f s)) :
    Triple P (Prog.modify f : Prog σ ε Unit) Q E := h

/-- The rule of assertions, with one obligation for each outcome. -/
theorem assert {p : Prop} [Decidable p] {Q : Unit → σ → Prop} (h₁ : ∀ s, P s → p → Q () s)
    (h₂ : ∀ s, P s → ¬ p → E .abort s) : Triple P (Prog.assert p : Prog σ ε Unit) Q E := by
  intro s hs
  rw [Prog.assert_run]
  by_cases hp : p
  · rw [if_pos hp]; exact h₁ s hs hp
  · rw [if_neg hp]; exact h₂ s hs hp

theorem ite {p : Prop} [Decidable p] {m m' : Prog σ ε α} (h₁ : p → Triple P m Q E)
    (h₂ : ¬ p → Triple P m' Q E) : Triple P (if p then m else m') Q E := by
  by_cases hp : p
  · rw [if_pos hp]; exact h₁ hp
  · rw [if_neg hp]; exact h₂ hp

/-- Two triples of one program hold together. -/
theorem and {m : Prog σ ε α} (h : Triple P m Q E) (h' : Triple P' m Q' E') :
    Triple (fun s => P s ∧ P' s) m (fun a s => Q a s ∧ Q' a s) fun x s => E x s ∧ E' x s := by
  intro s hs
  have h₁ := h s hs.1
  have h₂ := h' s hs.2
  rcases e : m s with ⟨x | a, s'⟩ <;> rw [e] at h₁ h₂ <;> exact ⟨h₁, h₂⟩

/-- A caught exception comes back as a value; the other faults pass through. -/
theorem attempt {m : Prog σ ε α} {R : Except ε α → σ → Prop}
    (hm : Triple P m (fun a s => R (.ok a) s)
      (fun x s => match x with | .exc e => R (.error e) s | x => E x s)) :
    Triple P (Prog.attempt m) R E := by
  intro s hs
  have h := hm s hs
  rcases e : m s with ⟨((_ | _ | _ | _) | a), s'⟩ <;> simp only [e] at h <;>
    simp only [Prog.attempt, e] <;> exact h

/-- A program run on a part of the state keeps to that part. -/
theorem zoom {view : τ → σ} {put : σ → τ → τ} {m : Prog σ ε α} {Pt : τ → Prop}
    {Qt : α → τ → Prop} {Et : Fault ε → τ → Prop}
    (h : ∀ t, Pt t → Triple (fun s => s = view t) m (fun a s => Qt a (put s t))
      (fun x s => Et x (put s t))) : Triple Pt (Prog.zoom view put m) Qt Et := by
  intro t ht
  have := h t ht (view t) rfl
  rcases e : m (view t) with ⟨(x | a), s'⟩ <;> simp only [e] at this <;>
    simp only [Prog.zoom, e] <;> exact this

/-- **The rule of recursive loops.**  `I` holds at the start of every round and of every inner
call, and each round, its inner calls taken on trust, ends in `I` again or in `Q`. -/
theorem recLoop {body : Nat → (β → Prog σ ε α) → β → Prog σ ε (Flow β α)}
    {I : β → σ → Prop} (hspent : ∀ b s, I b s → E .spent s)
    (step : ∀ n call, (∀ b, Triple (I b) (call b) Q E) → ∀ b, Triple (I b) (body n call b)
      (fun r s => match r with | .again b' => I b' s | .done a => Q a s) E) :
    ∀ n b, Triple (I b) (Prog.recLoop body n b) Q E
  | 0, b => fun s hs => hspent b s hs
  | n + 1, b => by
      have ih := recLoop hspent step n
      refine Triple.bind (step n _ ih b) fun r => ?_
      cases r with
      | again b' => exact ih b'
      | done a => exact fun s hs => hs

end Triple

/-! ### What a program keeps -/

/-- However `m` ends, `I` still holds. -/
def Keeps (I : σ → Prop) (m : Prog σ ε α) : Prop := Triple I m (fun _ => I) fun _ => I

namespace Keeps

variable {I : σ → Prop}

theorem pure (a : α) : Keeps I (Pure.pure a : Prog σ ε α) := fun _ hs => hs

theorem throw (e : ε) : Keeps I (Prog.throw e : Prog σ ε α) := fun _ hs => hs

theorem fault (x : Fault ε) : Keeps I (Prog.fault x : Prog σ ε α) := fun _ hs => hs

theorem modify {f : σ → σ} (h : ∀ s, I s → I (f s)) : Keeps I (Prog.modify f : Prog σ ε Unit) := h

/-- What both programs keep, the sequence keeps. -/
theorem bind {m : Prog σ ε α} {f : α → Prog σ ε β} (hm : Keeps I m) (hf : ∀ a, Keeps I (f a)) :
    Keeps I (m >>= f) := Triple.bind hm hf

theorem get {f : σ → Prog σ ε β} (hf : ∀ s, Keeps I (f s)) : Keeps I (Prog.get >>= f) :=
  Triple.get fun s hs => (hf s).pre fun _ ht => ht ▸ hs

theorem assert (p : Prop) {_ : Decidable p} : Keeps I (Prog.assert p : Prog σ ε Unit) :=
  Triple.assert (fun _ hs _ => hs) fun _ hs _ => hs

theorem ite {p : Prop} {_ : Decidable p} {m m' : Prog σ ε α} (h : Keeps I m) (h' : Keeps I m') :
    Keeps I (if p then m else m') := Triple.ite (fun _ => h) fun _ => h'

/-- Catching an exception keeps what the program keeps, for it keeps it when it throws. -/
theorem attempt {m : Prog σ ε α} (h : Keeps I m) : Keeps I (Prog.attempt m) :=
  Triple.attempt (R := fun _ => I) (h.conseq (fun _ => id) (fun _ _ => id) fun x _ hs =>
    match x with
    | .exc _ => hs
    | .abort => hs
    | .undef => hs
    | .spent => hs)

theorem ofExcept (x : Except ε α) : Keeps I (Prog.ofExcept x : Prog σ ε α) := by
  cases x with
  | error e => exact throw e
  | ok a => exact pure a

/-- A loop keeps what its body keeps, if the calls in it do. -/
theorem recLoop {body : Nat → (β → Prog σ ε α) → β → Prog σ ε (Flow β α)}
    (h : ∀ n call, (∀ b, Keeps I (call b)) → ∀ b, Keeps I (body n call b)) (n : Nat) (b : β) :
    Keeps I (Prog.recLoop body n b) :=
  Triple.recLoop (I := fun _ => I) (fun _ _ hs => hs) (fun n call hcall b =>
    (h n call hcall b).post fun r _ hs => match r with
      | .again _ => hs
      | .done _ => hs) n b

/-- The state a run ends in, however it ends. -/
theorem run {m : Prog σ ε α} (h : Keeps I m) {s : σ} (hs : I s) : I (m s).2 := by
  have := h s hs
  rcases e : m s with ⟨x | a, s'⟩ <;> simp only [e] at this <;> exact this

/-- What holds after a program holds after the next one, which keeps it. -/
theorem run_bind {m : Prog σ ε α} {f : α → Prog σ ε β} {s : σ} (hs : I (m s).2)
    (hf : ∀ a, Keeps I (f a)) : I ((m >>= f) s).2 := by
  rw [Prog.bind_run]
  rcases e : m s with ⟨x | a, s'⟩ <;> rw [e] at hs
  · exact hs
  · exact (hf a).run hs

end Keeps

/-- `I` still holds where `m` returns, and `E` where it does not. -/
def KeepsOr (E : Fault ε → σ → Prop) (I : σ → Prop) (m : Prog σ ε α) : Prop :=
  Triple I m (fun _ => I) E

/-- `E` asks for no more than `I`, and where an exception is caught for no less. -/
structure Catches (E : Fault ε → σ → Prop) (I : σ → Prop) : Prop where
  fault : ∀ x s, I s → E x s
  caught : ∀ e s, E (.exc e) s → I s

/-- `I` may be lost only where the process is terminated. -/
def Unaborted (I : σ → Prop) : Fault ε → σ → Prop := fun x s => x ≠ .abort → I s

section KeepsOr

variable {I : σ → Prop} {E : Fault ε → σ → Prop}

/-- Where the property holds after all faults, it does after an exception. -/
theorem Catches.keeps : Catches (fun _ : Fault ε => I) I := ⟨fun _ _ => id, fun _ _ => id⟩

/-- Where only a failed assertion may break the property, a caught exception does not. -/
theorem Catches.unaborted : Catches (Unaborted I : Fault ε → σ → Prop) I :=
  ⟨fun _ _ hs _ => hs, fun _ _ h => h nofun⟩

/-- What holds again however a program ends holds in particular where `E` is asked for less. -/
theorem Keeps.or {m : Prog σ ε α} (h : Keeps I m) (hE : Catches E I) : KeepsOr E I m :=
  h.conseq (fun _ => id) (fun _ _ => id) hE.fault

namespace KeepsOr

theorem pure (a : α) : KeepsOr E I (Pure.pure a : Prog σ ε α) := fun _ hs => hs

/-- The sequence of two such programs. -/
theorem bind {m : Prog σ ε α} {f : α → Prog σ ε β} (hm : KeepsOr E I m)
    (hf : ∀ a, KeepsOr E I (f a)) : KeepsOr E I (m >>= f) := Triple.bind hm hf

theorem get {f : σ → Prog σ ε β} (hf : ∀ s, KeepsOr E I (f s)) : KeepsOr E I (Prog.get >>= f) :=
  Triple.get fun s hs => (hf s).pre fun _ ht => ht ▸ hs

theorem ite {p : Prop} {_ : Decidable p} {m m' : Prog σ ε α} (h : KeepsOr E I m)
    (h' : KeepsOr E I m') : KeepsOr E I (if p then m else m') :=
  Triple.ite (fun _ => h) fun _ => h'

/-- `attempt` of such a program: what is caught leaves the property. -/
theorem attempt {m : Prog σ ε α} (hE : Catches E I) (h : KeepsOr E I m) :
    KeepsOr E I (Prog.attempt m) :=
  Triple.attempt (R := fun _ => I) (h.conseq (fun _ => id) (fun _ _ => id) fun x s hs =>
    match x with
    | .exc e => hE.caught e s hs
    | .abort => hs
    | .undef => hs
    | .spent => hs)

theorem recLoop {body : Nat → (β → Prog σ ε α) → β → Prog σ ε (Flow β α)} (hE : Catches E I)
    (h : ∀ n call, (∀ b, KeepsOr E I (call b)) → ∀ b, KeepsOr E I (body n call b)) (n : Nat)
    (b : β) : KeepsOr E I (Prog.recLoop body n b) :=
  Triple.recLoop (I := fun _ => I) (fun _ s hs => hE.fault _ s hs) (fun n call hcall b =>
    (h n call hcall b).post fun r _ hs => match r with
      | .again _ => hs
      | .done _ => hs) n b

end KeepsOr

/-- `I` holds where the fault is an exception, and `U` where it is an undefined behaviour.  There is
no other. -/
def Thrown (U I : σ → Prop) : Fault ε → σ → Prop
  | .exc _, s => I s
  | .undef, s => U s
  | _, _ => False

variable {U : σ → Prop}

/-- An exception thrown where the property holds. -/
theorem KeepsOr.throw (e : ε) : KeepsOr (Thrown U I) I (Prog.throw e : Prog σ ε α) := fun _ hs => hs

/-- Where the exceptions are caught, only undefined behaviour is left. -/
theorem KeepsOr.caught {m : Prog σ ε α} {P : σ → Prop}
    (h : Triple P m (fun _ => I) (Thrown U I)) {J : σ → Prop} :
    Triple P (Prog.attempt m) (fun _ => I) (Thrown U J) :=
  Triple.attempt (h.conseq (fun _ => id) (fun _ _ => id) fun x _ hs =>
    match x with
    | .exc _ => hs
    | .undef => hs
    | .abort => hs
    | .spent => hs)

end KeepsOr

end Triple

end Fcgi.Lib
