import Fcgi.Lib.Fuel
import Fcgi.Lib.Rel

/-!
# Lib — a run that follows another

`Follows R m f Q E B B'`: from states related by `R`, the family `f`, given enough fuel, ends as the
program `m` does, with the same value in states related by `Q` or with the same fault in states
related by `E`.  This says nothing of a run of `m` that is spent, nor of two runs that have parted:
the first of them ends in `B`, or the second in `B'`.

* `Ends`: the same from two given states.
* `Follows.bind`, `Follows.attempt`, `Follows.loop`: the rules.

The two runs may take different amounts of fuel.  So the second is a family, and `Ends` says what
it settles on (`Prog.Settles`).  The rule for loops asks that a round of one follows a round of the
other and that both go on or end together; the induction is on the fuel of the first loop, while
that of the second is any function that grows beyond all bounds.  Both parts of a sequence keep
what parts the runs, so that runs once parted need not be followed any further.
-/

namespace Fcgi.Lib

variable {σ τ ε α β : Type}

/-- With enough fuel the outcome is `p`. -/
def Prog.Settles (f : Nat → Prog τ ε α) (t : τ) (p : Except (Fault ε) α × τ) : Prop :=
  ∃ N, ∀ n, N ≤ n → f n t = p

/-- A run with enough fuel settles. -/
theorem Prog.Runs.settles {f : Nat → Prog τ ε α} {t t' : τ} {r : Except (Fault ε) α}
    (h : Prog.Runs f t r t') : Prog.Settles f t (r, t') := by
  obtain ⟨N, h⟩ := h
  exact ⟨N, fun n => (h n).2⟩

/-- With enough fuel the second run has parted from the first. -/
def Prog.Parts (f : Nat → Prog τ ε α) (t : τ) (B' : τ → Prop) : Prop :=
  ∃ N, ∀ n, N ≤ n → B' (f n t).2

/-- How `f` ends from `t`, where `m` ends from `s`. -/
def Ends (m : Prog σ ε α) (f : Nat → Prog τ ε α) (Q : α → σ → τ → Prop) (E : σ → τ → Prop)
    (B : σ → Prop) (B' : τ → Prop) (s : σ) (t : τ) : Prop :=
  (m s).1 = .error .spent ∨ B (m s).2 ∨ Prog.Parts f t B' ∨
    ∃ p, Prog.Settles f t p ∧ Alike Q E (m s) p

/-- The programs do not undo what has parted the runs. -/
structure Follows (R : σ → τ → Prop) (m : Prog σ ε α) (f : Nat → Prog τ ε α)
    (Q : α → σ → τ → Prop) (E : σ → τ → Prop) (B : σ → Prop) (B' : τ → Prop) : Prop where
  left : Keeps B m
  right : ∀ n, Keeps B' (f n)
  ends : ∀ s t, R s t → Ends m f Q E B B' s t

section

variable {R R' : σ → τ → Prop} {m : Prog σ ε α} {f : Nat → Prog τ ε α}
  {Q Q' : α → σ → τ → Prop} {E : σ → τ → Prop} {B : σ → Prop} {B' : τ → Prop}
  {g : α → Prog σ ε β} {h : Nat → α → Prog τ ε β} {S : β → σ → τ → Prop} {s s₁ : σ} {t t₁ : τ}

/-! ### From two states -/

namespace Ends

/-- The second run settles on what the first ends in. -/
theorem alike {p : Except (Fault ε) α × τ} (hp : Prog.Settles f t p) (ha : Alike Q E (m s) p) :
    Ends m f Q E B B' s t := .inr (.inr (.inr ⟨p, hp, ha⟩))

theorem parted (hb : B (m s).2) : Ends m f Q E B B' s t := .inr (.inl hb)

/-- The second run has parted, whatever its fuel. -/
theorem parted' (hb : ∀ n, B' (f n t).2) : Ends m f Q E B B' s t :=
  .inr (.inr (.inl ⟨0, fun n _ => hb n⟩))

/-- The same runs, one step later, with enough fuel for the step. -/
theorem congr_of_le {m₁ : Prog σ ε α} {f₁ : Nat → Prog τ ε α} {N : Nat} (hm : m s = m₁ s₁)
    (hf : ∀ n, N ≤ n → f n t = f₁ n t₁) (he : Ends m₁ f₁ Q E B B' s₁ t₁) :
    Ends m f Q E B B' s t := by
  simp only [Ends, hm]
  refine he.imp_right (.imp_right (.imp ?_ ?_))
  · rintro ⟨M, hM⟩
    exact ⟨max N M, fun n hn => hf n (by omega) ▸ hM n (by omega)⟩
  · rintro ⟨p, ⟨M, hM⟩, ha⟩
    exact ⟨p, ⟨max N M, fun n hn => (hf n (by omega)).trans (hM n (by omega))⟩, ha⟩

theorem congr {m₁ : Prog σ ε α} {f₁ : Nat → Prog τ ε α} (hm : m s = m₁ s₁)
    (hf : ∀ n, f n t = f₁ n t₁) (he : Ends m₁ f₁ Q E B B' s₁ t₁) : Ends m f Q E B B' s t :=
  he.congr_of_le (N := 0) hm fun n _ => hf n

/-- The values may be related by less. -/
theorem post (he : Ends m f Q E B B' s t) (hQ : ∀ a s t, Q a s t → Q' a s t) :
    Ends m f Q' E B B' s t := by
  refine he.imp_right (.imp_right (.imp_right ?_))
  rintro ⟨p, hp, ha⟩
  refine ⟨p, hp, ?_⟩
  cases e : m s
  obtain ⟨r, t'⟩ := p
  rw [e] at ha
  cases ha with
  | ok hq => exact .ok (hQ _ _ _ hq)
  | error he => exact .error he

/-- Programs without fuel that end alike. -/
theorem of_rel {m' : Prog τ ε α} (h : Rel R m m' Q E fun _ => False) (hst : R s t) :
    Ends m (fun _ => m') Q E B B' s t :=
  alike ⟨0, fun _ _ => rfl⟩ ((h s t hst).resolve_left id)

/-- Programs whose runs are made of the runs of others. -/
theorem settle {σ₁ τ₁ : Type} {s₂ : σ₁} {t₂ : τ₁} {m₁ : Prog σ₁ ε β} {f₁ : Nat → Prog τ₁ ε β}
    {Q₁ : β → σ₁ → τ₁ → Prop} {E₁ : σ₁ → τ₁ → Prop} {B₁ : σ₁ → Prop} {B₁' : τ₁ → Prop}
    {F : Except (Fault ε) α × σ → Except (Fault ε) β × σ₁}
    {G : Except (Fault ε) α × τ → Except (Fault ε) β × τ₁}
    (hm : m₁ s₂ = F (m s)) (hf : ∀ n, f₁ n t₂ = G (f n t))
    (hspent : ∀ p, p.1 = .error .spent → (F p).1 = .error .spent)
    (hB : ∀ p, B p.2 → B₁ (F p).2) (hB' : ∀ p, B' p.2 → B₁' (G p).2)
    (ha : ∀ p q, Alike Q E p q → Alike Q₁ E₁ (F p) (G q)) (he : Ends m f Q E B B' s t) :
    Ends m₁ f₁ Q₁ E₁ B₁ B₁' s₂ t₂ := by
  rcases he with hs | hb | ⟨N, hN⟩ | ⟨p, ⟨N, hN⟩, hp⟩
  · exact .inl (hm ▸ hspent _ hs)
  · exact parted (hm ▸ hB _ hb)
  · exact .inr (.inr (.inl ⟨N, fun n hn => hf n ▸ hB' _ (hN n hn)⟩))
  · exact alike (p := G p) ⟨N, fun n hn => by rw [hf, hN n hn]⟩ (hm ▸ ha _ _ hp)

/-- A function applied to both values. -/
theorem map {Q₁ : β → σ → τ → Prop} (k : α → β) (he : Ends m f Q E B B' s t)
    (hQ : ∀ a s t, Q a s t → Q₁ (k a) s t) :
    Ends (k <$> m) (fun n => k <$> f n) Q₁ E B B' s t := by
  refine he.settle (F := fun p => (p.1.map k, p.2)) (G := fun p => (p.1.map k, p.2))
    (Prog.map_run _ _ _) (fun n => Prog.map_run _ _ _) (fun p hp => ?_) (fun _ => id)
    (fun _ => id) fun p q hpq => ?_
  · rw [hp]
    rfl
  · cases hpq with
    | ok h => exact .ok (hQ _ _ _ h)
    | error h => exact .error h

/-- Both runs end, the first with enough fuel too. -/
theorem of_runs {k : Nat → Prog σ ε α} {r : Except (Fault ε) α} (hk : Prog.Runs k s r s₁)
    (hf : Prog.Runs f t r t₁) (ha : Alike Q E (r, s₁) (r, t₁)) (n : Nat) :
    Ends (k n) f Q E B B' s t := by
  obtain ⟨N, hk⟩ := hk
  by_cases hn : N ≤ n
  · exact alike hf.settles ((hk n).2 hn ▸ ha)
  · exact .inl ((hk n).1 (Nat.lt_of_not_le hn))

/-- Both runs lead elsewhere. -/
theorem of_leads {k k₁ : Nat → Prog σ ε α} {f₁ : Nat → Prog τ ε α} {n : Nat}
    (hk : Prog.Leads k s k₁ s₁) (hf : Prog.Leads f t f₁ t₁)
    (he : ∀ n', n' ≤ n → Ends (k₁ n') f₁ Q E B B' s₁ t₁) : Ends (k n) f Q E B B' s t := by
  obtain ⟨N, hk⟩ := hk
  obtain ⟨M, hf⟩ := hf
  have shift : ∀ {P : Except (Fault ε) α × τ → Prop}, (∃ K, ∀ n, K ≤ n → P (f₁ n t₁)) →
      ∃ K, ∀ n, K ≤ n → P (f n t) := by
    rintro P ⟨K, hK⟩
    refine ⟨M + K, fun n hn => ?_⟩
    obtain ⟨j, rfl⟩ := Nat.exists_eq_add_of_le (show M ≤ n by omega)
    rw [(hf j).2]
    exact hK j (by omega)
  by_cases hn : n < N
  · exact .inl ((hk n).1 hn)
  · obtain ⟨j, rfl⟩ := Nat.exists_eq_add_of_le (Nat.le_of_not_lt hn)
    have := he j (Nat.le_add_left j N)
    simp only [Ends, (hk j).2]
    exact this.imp_right (.imp_right (.imp (shift (P := fun p => B' p.2))
      fun ⟨p, hp, ha⟩ => ⟨p, shift (P := fun q => q = p) hp, ha⟩))

/-- The rule of sequence, from two states; what follows does not undo that the runs have parted. -/
theorem bind (he : Ends m f Q E B B' s t) (hl : ∀ a, Keeps B (g a))
    (hr : ∀ n a, Keeps B' (h n a))
    (hg : ∀ a s t, Q a s t → Ends (g a) (fun n => h n a) S E B B' s t) :
    Ends (m >>= g) (fun n => f n >>= h n) S E B B' s t := by
  rcases he with hs | hb | ⟨N, hN⟩ | ⟨⟨r, t'⟩, ⟨N, hN⟩, ha⟩
  · exact .inl (Prog.bind_spent hs)
  · exact parted (Keeps.run_bind hb hl)
  · exact .inr (.inr (.inl ⟨N, fun n hn => Keeps.run_bind (hN n hn) (hr n)⟩))
  · rcases e : m s with ⟨x | a, s'⟩ <;> rw [e] at ha
    · cases ha with
      | error he =>
          refine alike ⟨N, fun n hn => Prog.bind_error (hN n hn)⟩ ?_
          rw [Prog.bind_error e]
          exact .error he
    · cases ha with
      | ok hq =>
          exact (hg a s' t' hq).congr_of_le (Prog.bind_ok e) fun n hn => Prog.bind_ok (hN n hn)

/-- A step that both runs take. -/
theorem step {a : α} (hm : m s = (.ok a, s₁)) (hf : ∀ n, f n t = (.ok a, t₁))
    (he : Ends (g a) (fun n => h n a) S E B B' s₁ t₁) :
    Ends (m >>= g) (fun n => f n >>= h n) S E B B' s t :=
  he.congr (Prog.bind_ok hm) fun n => Prog.bind_ok (hf n)

theorem get {g : σ → Prog σ ε β} {h : Nat → τ → Prog τ ε β}
    (he : Ends (g s) (fun n => h n t) S E B B' s t) :
    Ends (Prog.get >>= g) (fun n => Prog.get >>= h n) S E B B' s t := he

end Ends

/-! ### The rules -/

namespace Follows

theorem conseq (hm : Follows R m f Q E B B') (hR : ∀ s t, R' s t → R s t)
    (hQ : ∀ a s t, Q a s t → Q' a s t) : Follows R' m f Q' E B B' :=
  ⟨hm.left, hm.right, fun s t hst => (hm.ends s t (hR s t hst)).post hQ⟩

theorem pre (hm : Follows R m f Q E B B') (hR : ∀ s t, R' s t → R s t) :
    Follows R' m f Q E B B' := hm.conseq hR fun _ _ _ => id

theorem post (hm : Follows R m f Q E B B') (hQ : ∀ a s t, Q a s t → Q' a s t) :
    Follows R m f Q' E B B' := hm.conseq (fun _ _ => id) hQ

/-- Programs that do without fuel. -/
theorem of_rel {m' : Prog τ ε α} (hl : Keeps B m) (hr : Keeps B' m')
    (hm : Rel R m m' Q E fun _ => False) : Follows R m (fun _ => m') Q E B B' :=
  ⟨hl, fun _ => hr, fun _ _ hst => .of_rel hm hst⟩

theorem pure {a : α} (hq : ∀ s t, R s t → Q a s t) :
    Follows R (Pure.pure a : Prog σ ε α) (fun _ => Pure.pure a) Q E B B' :=
  of_rel (.pure a) (.pure a) (Rel.pure hq)

theorem throw {e : ε} (hE : ∀ s t, R s t → E s t) :
    Follows R (Prog.throw e : Prog σ ε α) (fun _ => Prog.throw e) Q E B B' :=
  of_rel (.throw e) (.throw e) (Rel.throw hE)

theorem bind (hm : Follows R m f Q E B B')
    (hg : ∀ a, Follows (Q a) (g a) (fun n => h n a) S E B B') :
    Follows R (m >>= g) (fun n => f n >>= h n) S E B B' where
  left := .bind hm.left fun a => (hg a).left
  right n := .bind (hm.right n) fun a => (hg a).right n
  ends s t hst := (hm.ends s t hst).bind (fun a => (hg a).left) (fun n a => (hg a).right n)
    fun a => (hg a).ends

theorem ite {p : Prop} [Decidable p] {m' : Prog σ ε α} {f' : Nat → Prog τ ε α}
    (h₁ : p → Follows R m f Q E B B') (h₂ : ¬ p → Follows R m' f' Q E B B') :
    Follows R (if p then m else m') (fun n => if p then f n else f' n) Q E B B' := by
  by_cases hp : p
  · simp only [if_pos hp]
    exact h₁ hp
  · simp only [if_neg hp]
    exact h₂ hp

/-- A caught exception is the same in both runs. -/
theorem attempt {S : Except ε α → σ → τ → Prop}
    (hm : Follows R m f (fun a => S (.ok a)) E B B') (hE : ∀ e s t, E s t → S (.error e) s t) :
    Follows R (Prog.attempt m) (fun n => Prog.attempt (f n)) S E B B' where
  left := .attempt hm.left
  right n := .attempt (hm.right n)
  ends s t hst := by
    rcases hm.ends s t hst with hs | hb | ⟨N, hN⟩ | ⟨p, ⟨N, hN⟩, ha⟩
    · exact .inl (Prog.attempt_spent hs)
    · exact .parted ((Prog.attempt_state m s).symm ▸ hb)
    · exact .inr (.inr (.inl ⟨N, fun n hn => (Prog.attempt_state (f n) t).symm ▸ hN n hn⟩))
    · refine .alike (p := Prog.attempt (fun _ => p) t) ⟨N, fun n hn => ?_⟩ (ha.attempt hE)
      simp only [Prog.attempt, hN n hn]

/-- Two loops, the rounds of which keep to `I`.  The fuel `c n` of the second one grows
beyond all bounds. -/
theorem loop {g : β → Prog σ ε (Flow β α)} {h : Nat → β → Prog τ ε (Flow β α)}
    {I : β → σ → τ → Prop}
    (step : ∀ b, Follows (I b) (g b) (fun n => h n b) (fun r s t => match r with
      | .again b' => I b' s t
      | .done a => Q a s t) E B B') (k : Nat) (b : β) {c : Nat → Nat}
    (hc : ∀ K, ∃ N, ∀ n, N ≤ n → K ≤ c n) :
    Follows (I b) (Prog.recLoop (fun _ _ => g) k b)
      (fun n => Prog.recLoop (fun _ _ => h n) (c n) b) Q E B B' := by
  have right : ∀ n k b, Keeps B' (Prog.recLoop (fun _ _ => h n) k b) := fun n =>
    .recLoop fun _ _ _ b => (step b).right n
  refine ⟨.recLoop (fun _ _ _ b => (step b).left) k b, fun n => right n (c n) b, ?_⟩
  induction k generalizing b c with
  | zero => exact fun s t _ => .inl rfl
  | succ k ih =>
      intro s t hst
      have hc' : ∀ K, ∃ N, ∀ n, N ≤ n → K ≤ c n - 1 := fun K => by
        obtain ⟨N, hN⟩ := hc (K + 1)
        exact ⟨N, fun n hn => by have := hN n hn; omega⟩
      obtain ⟨N, hN⟩ := hc 1
      refine ((step b).ends s t hst).bind (g := Prog.goOn (Prog.recLoop (fun _ _ => g) k))
        (h := fun n => Prog.goOn (Prog.recLoop (fun _ _ => h n) (c n - 1))) (fun r => ?_)
        (fun n r => ?_) (fun r s t hr => ?_) |>.congr_of_le (N := N) ?_ fun n hn => ?_
      · cases r with
        | again b' => exact .recLoop (fun _ _ _ b => (step b).left) k b'
        | done a => exact .pure a
      · cases r with
        | again b' => exact right n (c n - 1) b'
        | done a => exact .pure a
      · cases r with
        | again b' => exact ih b' hc' s t hr
        | done a => exact .of_rel (Rel.pure fun _ _ h => h) hr
      · rw [Prog.recLoop_eq]
      · obtain ⟨j, hj⟩ := Nat.exists_eq_add_of_le (hN n hn)
        rw [hj, Nat.add_sub_cancel_left, Nat.add_comm, Prog.recLoop_eq]

end Follows

end

end Fcgi.Lib
