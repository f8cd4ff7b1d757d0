import Fcgi.Lib.Feed
import Fcgi.Input.Contents

/-!
# Input — a stream buffer as an input in parts

`Source u R`: from a state that `R` relates to the parts of an input, the stream buffer of which
`u` is the `underflow()` does with enough fuel what the input does.  Then `std::istream` over it
is the reader of this input (`Source.read`, `Source.peek`, `Source.unget`).

`At` adds the state of the stream: it is good where the input is, and at the end of a part neither
is, until `clear()` is called.
-/

namespace Fcgi
open Lib

/-- The stream buffer provides the input. -/
structure Source (u : Nat → M (Option UInt8))
    (R : List (List UInt8) → Option UInt8 → State → Prop) : Prop where
  bump : ∀ {c cs ps l s}, R ((c :: cs) :: ps) l s →
    ∃ s', Prog.Runs (fun n => sbumpc (u n)) s (.ok (some c)) s' ∧ R (cs :: ps) (some c) s'
  bumpOver : ∀ {ps l s}, ps.headD [] = [] → R ps l s →
    ∃ s', Prog.Runs (fun n => sbumpc (u n)) s (.ok none) s' ∧ R ps.tail none s'
  look : ∀ {c cs ps l s}, R ((c :: cs) :: ps) l s →
    ∃ s', Prog.Runs (fun n => sgetc (u n)) s (.ok (some c)) s' ∧ R ((c :: cs) :: ps) none s'
  lookOver : ∀ {ps l s}, ps.headD [] = [] → R ps l s →
    ∃ s', Prog.Runs (fun n => sgetc (u n)) s (.ok none) s' ∧ R ps.tail none s'
  back : ∀ {c ps s}, R ps (some c) s →
    ∃ c' s', sungetc s = (.ok (some c'), s') ∧ R ((c :: ps.headD []) :: ps.tail) none s'

/-- The stream buffer and the stream over it are where the reader of the input is. -/
structure At (R : List (List UInt8) → Option UInt8 → State → Prop) (f : Feed UInt8)
    (is : Istream) (s : State) : Prop where
  source : R f.parts f.last s
  good : is.good = f.good
  /-- What can be put back has been taken from a stream that was good. -/
  last : f.last ≠ none → f.good = true

namespace Source

variable {u : Nat → M (Option UInt8)} {R : List (List UInt8) → Option UInt8 → State → Prop}
  {f : Feed UInt8} {is : Istream} {s : State}

/-- Many characters.  Where there are fewer, the stream buffer is at the next part. -/
theorem xsgetn (hu : Source u R) (n : Nat) (hR : R f.parts f.last s) :
    ∃ s', Prog.Runs (fun m => xsgetn (u m) n) s (.ok (f.take n).1) s' ∧
      R (f.take n).2.parts (f.take n).2.last s' ∧
      ((f.take n).1.length = n ∧ (f.take n).2.good = f.good ∨
        (f.take n).1.length < n ∧ (f.take n).2.good = false ∧ (f.take n).2.last = none) := by
  induction n generalizing f s with
  | zero => exact ⟨s, .of_eq fun _ => rfl, hR, .inl ⟨rfl, rfl⟩⟩
  | succ n ih =>
      by_cases hhead : f.head = []
      · obtain ⟨s', hrun, hs'⟩ := hu.bumpOver hhead hR
        rw [Feed.take_ended hhead]
        exact ⟨s', xsgetn_none hrun n, hs', .inr ⟨Nat.succ_pos n, rfl, rfl⟩⟩
      · obtain ⟨_ | ⟨_ | ⟨c, cs⟩, ps⟩, last, good⟩ := f
        · exact absurd rfl hhead
        · exact absurd rfl hhead
        · obtain ⟨s₁, hrun, hs₁⟩ := hu.bump hR
          obtain ⟨s', hruns, hs', hlen⟩ := ih (f := ⟨cs :: ps, some c, good⟩) hs₁
          refine ⟨s', xsgetn_some hrun hruns, hs', ?_⟩
          exact hlen.imp (fun h => ⟨congrArg Nat.succ h.1, h.2⟩)
            fun h => ⟨Nat.succ_lt_succ h.1, h.2⟩

/-- `read()` reads what is there of the part at hand. -/
theorem read (hu : Source u R) (h : At R f is s) (n : Nat) :
    ∃ is' s', Prog.Runs (fun m => is.read (u m) n) s (.ok ((f.read n).1, is')) s' ∧
      At R (f.read n).2 is' s' := by
  rw [Feed.read]
  by_cases hg : f.good = true
  · obtain ⟨s', hrun, hs', hlen⟩ := hu.xsgetn n h.source
    simp only [Istream.read, h.good, hg, if_true, Int.toNat_natCast]
    rcases hlen with ⟨hlen, hgood⟩ | ⟨hlen, hgood, hlast⟩
    · refine ⟨{ is with gcount := (f.take n).1.length }, s', hrun.attempt.andThen ?_, hs', ?_,
        fun _ => ?_⟩
      · dsimp only
        rw [if_pos (by rw [hlen])]
        rfl
      · exact h.good.trans hgood.symm
      · exact hgood.trans hg
    · have hne : ¬ ((f.take n).1.length : Int) = n := fun e => by omega
      refine ⟨{ is with gcount := (f.take n).1.length, eof := true, fail := true }, s',
        hrun.attempt.andThen ?_, hs', ?_, fun hne => absurd hlast hne⟩
      · dsimp only
        rw [if_neg hne]
        rfl
      · rw [hgood]
        simp [Istream.good]
  · simp only [Istream.read, h.good, hg, Bool.false_eq_true, if_false]
    refine ⟨_, s, .of_eq fun _ => rfl, h.source, ?_, h.last⟩
    rw [Bool.eq_false_iff.mpr hg]
    simp [Istream.good]

/-- `get()` reads one character of it. -/
theorem get (hu : Source u R) (h : At R f is s) :
    ∃ r is' s', Prog.Runs (fun m => is.get (u m)) s (.ok (r, is')) s' ∧
      r.toList = (f.read 1).1 ∧ At R (f.read 1).2 is' s' := by
  rw [Feed.read]
  by_cases hg : f.good = true
  · simp only [Istream.get, h.good, hg, if_true]
    by_cases hhead : f.head = []
    · obtain ⟨s', hrun, hs'⟩ := hu.bumpOver hhead h.source
      rw [Feed.take_ended hhead]
      exact ⟨_, _, s', hrun.attempt.andThen rfl, rfl, hs', by simp [Istream.good, Feed.ended],
        fun hne => absurd rfl hne⟩
    · obtain ⟨_ | ⟨_ | ⟨c, cs⟩, ps⟩, last, good⟩ := f
      · exact absurd rfl hhead
      · exact absurd rfl hhead
      · obtain ⟨s', hrun, hs'⟩ := hu.bump h.source
        exact ⟨_, _, s', hrun.attempt.andThen rfl, rfl, hs', h.good, fun _ => hg⟩
  · simp only [Istream.get, h.good, hg, Bool.false_eq_true, if_false]
    refine ⟨_, _, s, .of_eq fun _ => rfl, rfl, h.source, ?_, h.last⟩
    rw [Bool.eq_false_iff.mpr hg]
    simp [Istream.good]

theorem peek (hu : Source u R) (h : At R f is s) :
    ∃ r is' s', Prog.Runs (fun m => is.peek (u m)) s (.ok (r, is')) s' ∧
      r.toList = f.peek.1 ∧ At R f.peek.2 is' s' := by
  rw [Feed.peek]
  by_cases hg : f.good = true
  · simp only [Istream.peek, h.good, hg, if_true]
    obtain ⟨_ | ⟨_ | ⟨c, cs⟩, ps⟩, last, good⟩ := f
    · obtain ⟨s', hrun, hs'⟩ := hu.lookOver rfl h.source
      dsimp only [Feed.head, List.headD]
      exact ⟨_, _, s', hrun.attempt.andThen rfl, rfl, hs', by simp [Istream.good, Feed.ended],
        fun hne => absurd rfl hne⟩
    · obtain ⟨s', hrun, hs'⟩ := hu.lookOver rfl h.source
      dsimp only [Feed.head, List.headD]
      exact ⟨_, _, s', hrun.attempt.andThen rfl, rfl, hs', by simp [Istream.good, Feed.ended],
        fun hne => absurd rfl hne⟩
    · obtain ⟨s', hrun, hs'⟩ := hu.look h.source
      dsimp only [Feed.head, List.headD]
      exact ⟨_, _, s', hrun.attempt.andThen rfl, rfl, hs', h.good.trans hg, fun _ => rfl⟩
  · simp only [Istream.peek, h.good, hg, Bool.false_eq_true, if_false]
    refine ⟨_, _, s, .of_eq fun _ => rfl, rfl, h.source, ?_, h.last⟩
    rw [Bool.eq_false_iff.mpr hg]
    simp [Istream.good]

/-- `unget()` puts the last character back. -/
theorem unget {f' : Feed UInt8} (hu : Source u R) (h : At R f is s) (hf : f.unget = some f') :
    ∃ is' s', is.unget s = (.ok is', s') ∧ At R f' is' s' := by
  obtain ⟨c, hlast, rfl⟩ := Option.map_eq_some_iff.mp hf
  have hg : is.good = true := h.good.trans (h.last fun e => by rw [hlast] at e; cases e)
  have hfields : is.eof = false ∧ is.fail = false ∧ is.bad = false := by
    simpa [Istream.good, and_assoc] using hg
  obtain ⟨c', s', hrun, hs'⟩ := hu.back (hlast ▸ h.source)
  refine ⟨{ is with gcount := 0, eof := false }, s', ?_, hs', ?_, fun hne => absurd rfl hne⟩
  · rw [Istream.unget, if_pos (by simp [Istream.good, hfields]),
      Prog.bind_ok (Prog.attempt_ok hrun)]
    rfl
  · rw [← h.good, hg]
    simp [Istream.good, hfields]

end Source

end Fcgi
