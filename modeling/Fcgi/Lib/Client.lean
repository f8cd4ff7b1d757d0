import Fcgi.Lib.Prog

/-!
# Lib — what a program does through an interface

* `Client`: the calls of an interface, one after the other; it goes on with what each returns.
  `Client.run` runs it where the calls are implemented.
* `Uses A h m`: all that `m` does with a part of its state is what a client does.  The rules follow
  the structure of `m`.

The client is chosen from the rest of the state alone: it says what the program does in every state
that agrees with a given one but for the part (`Around.Same`).  So the program reaches the part only
through the calls, and what every call keeps of the part the program does (`Client.run_keeps`).  The
rules ask of each step that it is a call, or that it leaves the part and depends on the rest.
-/

namespace Fcgi.Lib

/-- The calls `i`, each of which returns a `ρ i`. -/
inductive Client (ι : Type) (ρ : ι → Type) (α : Type) where
  | done (a : α)
  | call (i : ι) (next : ρ i → Client ι ρ α)

variable {ι : Type} {ρ : ι → Type} {κ σ τ ε α β γ : Type}

namespace Client

/-- One client after the other. -/
def bind (f : α → Client ι ρ β) : Client ι ρ α → Client ι ρ β
  | .done a => f a
  | .call i next => .call i fun r => (next r).bind f

/-- Where the calls are implemented. -/
def run (h : ∀ i, Prog κ ε (ρ i)) : Client ι ρ α → Prog κ ε α
  | .done a => pure a
  | .call i next => do
    let r ← h i
    (next r).run h

/-- A sequence of clients runs as the sequence of their runs. -/
theorem run_bind (h : ∀ i, Prog κ ε (ρ i)) (f : α → Client ι ρ β) (c : Client ι ρ α) :
    (c.bind f).run h = c.run h >>= fun a => (f a).run h := by
  induction c with
  | done a => simp only [bind, run, pure_bind]
  | call i next ih => simp only [bind, run, ih, bind_assoc]

/-- What every call keeps, a client keeps. -/
theorem run_keeps {I : κ → Prop} {h : ∀ i, Prog κ ε (ρ i)} (hI : ∀ i, Keeps I (h i))
    (c : Client ι ρ α) : Keeps I (c.run h) := by
  induction c with
  | done a => exact Keeps.pure a
  | call i next ih => exact (hI i).bind fun r => ih r

end Client

/-- A part of a state, and when two states are the same but for it. -/
structure Around (σ κ : Type) where
  part : σ → κ
  Same : σ → σ → Prop

/-- All that is there. -/
def Around.all : Around κ κ where
  part := id
  Same _ _ := True

/-- What `m` does with a part of its state is what a client does with it, which knows the rest. -/
def Uses (A : Around σ κ) (h : ∀ i, Prog κ ε (ρ i)) (m : Prog σ ε α) : Prop :=
  ∀ s, ∃ c : Client ι ρ (Except (Fault ε) α × σ), ∀ s', A.Same s s' → ∃ r t t',
    c.run h (A.part s') = (.ok (r, t), A.part t') ∧ m s' = (r, t') ∧ A.Same t t'

namespace Uses

variable {A : Around σ κ} {B : Around τ κ} {h : ∀ i, Prog κ ε (ρ i)}

/-- A program that is over at once. -/
theorem leaf {m : Prog σ ε α} (r : Except (Fault ε) α) (hm : ∀ s, m s = (r, s)) : Uses A h m :=
  fun s => ⟨.done (r, s), fun s' hs => ⟨r, s, s', rfl, hm s', hs⟩⟩

theorem pure (a : α) : Uses A h (Pure.pure a : Prog σ ε α) := leaf (.ok a) fun _ => rfl

theorem fault (x : Fault ε) : Uses A h (Prog.fault x : Prog σ ε α) := leaf (.error x) fun _ => rfl

theorem throw (e : ε) : Uses A h (Prog.throw e : Prog σ ε α) := fault (.exc e)

theorem ofExcept (x : Except ε α) : Uses A h (Prog.ofExcept x : Prog σ ε α) := by
  cases x with
  | error e => exact throw e
  | ok a => exact pure a

theorem assert (p : Prop) {_ : Decidable p} : Uses A h (Prog.assert p : Prog σ ε Unit) := by
  by_cases hp : p
  · exact leaf (.ok ()) fun s => Prog.assert_true hp s
  · exact leaf (.error .abort) fun s => by rw [Prog.assert_run, if_neg hp]

/-- A change of the rest of the state is no call. -/
theorem modify {f : σ → σ} (hpart : ∀ s, A.part (f s) = A.part s)
    (hf : ∀ {s s'}, A.Same s s' → A.Same (f s) (f s')) :
    Uses A h (Prog.modify f : Prog σ ε Unit) := by
  intro s
  refine ⟨.done (.ok (), f s), fun s' hs => ⟨.ok (), f s, f s', ?_, rfl, hf hs⟩⟩
  rw [hpart]
  rfl

/-- The calls of both programs, in order. -/
theorem bind {m : Prog σ ε α} {f : α → Prog σ ε β} (hm : Uses A h m)
    (hf : ∀ a, Uses A h (f a)) : Uses A h (m >>= f) := by
  intro s
  obtain ⟨c, hc⟩ := hm s
  choose k hk using hf
  refine ⟨c.bind fun p => match p.1 with
    | .ok a => k a p.2
    | .error x => .done (.error x, p.2), fun s' hs => ?_⟩
  obtain ⟨r, t, t', hrun, hm', ht⟩ := hc s' hs
  rw [Client.run_bind, Prog.bind_ok hrun]
  cases r with
  | error x => exact ⟨.error x, t, t', rfl, Prog.bind_error hm', ht⟩
  | ok a =>
      obtain ⟨r, u, u', hrun', hf', hu⟩ := hk a t t' ht
      exact ⟨r, u, u', hrun', (Prog.bind_ok hm').trans hf', hu⟩

/-- The state may be looked at, but for the part. -/
theorem get {f : σ → Prog σ ε β} (hsame : ∀ {s s'}, A.Same s s' → f s' = f s)
    (hf : ∀ s, Uses A h (f s)) : Uses A h (Prog.get >>= f) := by
  intro s
  obtain ⟨c, hc⟩ := hf s s
  refine ⟨c, fun s' hs => ?_⟩
  obtain ⟨r, t, t', hrun, hm, ht⟩ := hc s' hs
  exact ⟨r, t, t', hrun, by rw [Prog.bind_ok (Prog.get_run s'), hsame hs, hm], ht⟩

theorem ite {p : Prop} {_ : Decidable p} {m m' : Prog σ ε α} (h₁ : Uses A h m)
    (h₂ : Uses A h m') : Uses A h (if p then m else m') := by
  by_cases hp : p
  · rw [if_pos hp]
    exact h₁
  · rw [if_neg hp]
    exact h₂

/-- A program run on what contains the part, which ends in a way of its own. -/
theorem embed {m : Prog σ ε α} (hm : Uses A h m) {m' : Prog τ ε β} (view : τ → σ)
    (put : σ → τ → τ) (F : Except (Fault ε) α → σ → Except (Fault ε) β)
    (hrun : ∀ t, m' t = (F (m (view t)).1 (m (view t)).2, put (m (view t)).2 t))
    (hview : ∀ {t t'}, B.Same t t' → A.Same (view t) (view t'))
    (hput : ∀ {t t' s s'}, B.Same t t' → A.Same s s' → B.Same (put s t) (put s' t'))
    (hF : ∀ {s s'} r, A.Same s s' → F r s' = F r s) (hpart : ∀ t, A.part (view t) = B.part t)
    (hpart' : ∀ s t, B.part (put s t) = A.part s) : Uses B h m' := by
  intro t
  obtain ⟨c, hc⟩ := hm (view t)
  refine ⟨c.bind fun p => .done (F p.1 p.2, put p.2 t), fun t' ht => ?_⟩
  obtain ⟨r, s, s', hcall, hm', hs⟩ := hc (view t') (hview ht)
  rw [hpart] at hcall
  refine ⟨F r s, put s t, put s' t', ?_, ?_, hput ht hs⟩
  · rw [Client.run_bind, Prog.bind_ok hcall, hpart']
    rfl
  · rw [hrun, hm', hF r hs]

/-- Catching an exception makes no call. -/
theorem attempt {m : Prog σ ε α} (hm : Uses A h m) : Uses A h (Prog.attempt m) := by
  refine hm.embed id (fun s _ => s) (fun r _ => match r with
    | .ok a => .ok (.ok a)
    | .error (.exc e) => .ok (.error e)
    | .error .abort => .error .abort
    | .error .undef => .error .undef
    | .error .spent => .error .spent) (fun s => ?_) (fun hs => hs) (fun _ hs => hs)
    (fun _ _ => rfl) (fun _ => rfl) fun _ _ => rfl
  rcases e : m s with ⟨(_ | _ | _ | _) | a, s'⟩ <;> simp only [Prog.attempt, id, e]

/-- A program on a part of the state that holds the part in question. -/
theorem zoom {view : τ → σ} {put : σ → τ → τ} {m : Prog σ ε α} (hm : Uses A h m)
    (hview : ∀ {t t'}, B.Same t t' → A.Same (view t) (view t'))
    (hput : ∀ {t t' s s'}, B.Same t t' → A.Same s s' → B.Same (put s t) (put s' t'))
    (hpart : ∀ t, A.part (view t) = B.part t) (hpart' : ∀ s t, B.part (put s t) = A.part s) :
    Uses B h (Prog.zoom view put m) :=
  hm.embed view put (fun r _ => r) (fun _ => rfl) hview hput (fun _ _ => rfl) hpart hpart'

/-- A loop whose rounds use the interface, if the calls in them do. -/
theorem recLoop {body : Nat → (β → Prog σ ε α) → β → Prog σ ε (Flow β α)}
    (hbody : ∀ n call, (∀ b, Uses A h (call b)) → ∀ b, Uses A h (body n call b)) (n : Nat) (b : β) :
    Uses A h (Prog.recLoop body n b) := by
  induction n generalizing b with
  | zero => exact fault _
  | succ n ih =>
      refine bind (hbody n _ ih b) fun r => ?_
      cases r with
      | again b' => exact ih b'
      | done a => exact pure a

/-- A single call. -/
theorem call {m : Prog κ ε α} (i : ι) (g : ρ i → Except (Fault ε) α)
    (hm : ∀ k, ∃ r k', h i k = (.ok r, k') ∧ m k = (g r, k')) : Uses Around.all h m := by
  intro k
  refine ⟨.call i fun r => .done (g r, k), fun k' _ => ?_⟩
  obtain ⟨r, k'', hcall, hm'⟩ := hm k'
  exact ⟨g r, k, k'', Prog.bind_ok hcall, hm', trivial⟩

end Uses

end Fcgi.Lib
