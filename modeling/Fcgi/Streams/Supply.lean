import Fcgi.Streams.Istream

/-!
# Streams — what a stream still has to give

`Supplies u bs fin s s'`: taken one by one through the `underflow()` `u`, the characters of the
buffer are `bs` from `s` on, and the attempt to take another ends as `fin` says, in `s'`.  It does
not matter in which pieces `u` provides them.

* `Supplies.get`, `Supplies.read`: what the input functions do with such a stream.

It is defined by what `sbumpc()` returns, one character after the other, and not by what is in the
get area; so a function of the stream that takes characters is an induction on `bs`, and a supply
that has been read in part is a supply again.
-/

namespace Fcgi
open Lib

/-- The characters that can be taken, and how the attempt to take another ends. -/
inductive Supplies (u : M (Option UInt8)) :
    List UInt8 → Except Exception Unit → State → State → Prop
  /-- The end of the stream. -/
  | eof {s s' : State} (h : sbumpc u s = (.ok none, s')) : Supplies u [] (.ok ()) s s'
  /-- An exception. -/
  | thrown {s s' : State} {e : Exception} (h : sbumpc u s = (.error (.exc e), s')) :
      Supplies u [] (.error e) s s'
  | char {b : UInt8} {bs : List UInt8} {fin : Except Exception Unit} {s s₁ s' : State}
      (h : sbumpc u s = (.ok (some b), s₁)) (hs : Supplies u bs fin s₁ s') :
      Supplies u (b :: bs) fin s s'

/-- The stream after the attempt to take a character that is not there. -/
def Istream.stopped (is : Istream) : Except Exception Unit → Istream
  | .ok _ => { is with gcount := 0, eof := true, fail := true }
  | .error _ => { is with gcount := 0, bad := true, fail := true }

/-- The end of `xsgetn()` where only `bs` is left. -/
def cutShort (bs : List UInt8) : Except Exception Unit → Except (Fault Exception) (List UInt8)
  | .ok _ => .ok bs
  | .error e => .error (.exc e)

namespace Supplies

variable {u : M (Option UInt8)} {b : UInt8} {bs cs : List UInt8} {fin : Except Exception Unit}
  {s s' : State} {is : Istream}

/-- As many characters as there are. -/
theorem xsgetn (h : Supplies u (cs ++ bs) fin s s') :
    ∃ s₁, xsgetn u cs.length s = (.ok cs, s₁) ∧ Supplies u bs fin s₁ s' := by
  induction cs generalizing s with
  | nil => exact ⟨s, rfl, h⟩
  | cons c cs ih =>
      cases h with
      | char hc hs =>
          obtain ⟨s₁, hrun, hs₁⟩ := ih hs
          refine ⟨s₁, ?_, hs₁⟩
          rw [List.length_cons, Fcgi.xsgetn, Prog.bind_ok hc]
          dsimp only
          rw [Prog.bind_ok hrun, Prog.pure_run]

/-- There are fewer characters than are asked for. -/
theorem xsgetn_short {n : Nat} (h : Supplies u bs fin s s') (hn : bs.length < n) :
    Fcgi.xsgetn u n s = (cutShort bs fin, s') := by
  obtain ⟨n, rfl⟩ : ∃ m, n = m + 1 := ⟨n - 1, by omega⟩
  induction h generalizing n with
  | eof h => rw [Fcgi.xsgetn, Prog.bind_ok h]; rfl
  | thrown h => rw [Fcgi.xsgetn, Prog.bind_error h]; rfl
  | @char b bs fin s s₁ s' hc hs ih =>
      rw [List.length_cons] at hn
      obtain ⟨n, rfl⟩ : ∃ m, n = m + 1 := ⟨n - 1, by omega⟩
      rw [Fcgi.xsgetn, Prog.bind_ok hc]
      dsimp only
      have hrun := ih n (by omega)
      cases fin with
      | ok _ => rw [Prog.bind_ok hrun]; rfl
      | error e => rw [Prog.bind_error hrun]; rfl

theorem get (h : Supplies u (b :: bs) fin s s') (hg : is.good = true) :
    ∃ s₁, is.get u s = (.ok (some b, { is with gcount := 1 }), s₁) ∧ Supplies u bs fin s₁ s' := by
  cases h with
  | char hc hs =>
      refine ⟨_, ?_, hs⟩
      rw [Istream.get, if_pos hg, Prog.bind_ok (Prog.attempt_ok hc)]
      rfl

theorem get_nil (h : Supplies u [] fin s s') (hg : is.good = true) :
    is.get u s = (.ok (none, is.stopped fin), s') := by
  cases h with
  | eof h => rw [Istream.get, if_pos hg, Prog.bind_ok (Prog.attempt_ok h)]; rfl
  | thrown h => rw [Istream.get, if_pos hg, Prog.bind_ok (Prog.attempt_exc h)]; rfl

/-- `read()` of characters that are there. -/
theorem read (h : Supplies u (cs ++ bs) fin s s') (hg : is.good = true) :
    ∃ s₁, is.read u cs.length s = (.ok (cs, { is with gcount := cs.length }), s₁) ∧
      Supplies u bs fin s₁ s' := by
  obtain ⟨s₁, hrun, hs₁⟩ := h.xsgetn
  refine ⟨s₁, ?_, hs₁⟩
  rw [Istream.read, if_pos hg, Int.toNat_natCast, Prog.bind_ok (Prog.attempt_ok hrun)]
  dsimp only
  rw [if_pos rfl, Prog.pure_run]

/-- A short read says so. -/
theorem read_short {n : Nat} (h : Supplies u bs fin s s') (hg : is.good = true)
    (hn : bs.length < n) : ∃ cs is', is.read u n s = (.ok (cs, is'), s') ∧ is'.gcount ≠ n := by
  have hrun := h.xsgetn_short hn
  rw [Istream.read, if_pos hg, Int.toNat_natCast]
  cases fin with
  | ok _ =>
      rw [Prog.bind_ok (Prog.attempt_ok hrun)]
      dsimp only
      rw [if_neg (by omega), Prog.pure_run]
      exact ⟨_, _, rfl, Nat.ne_of_lt hn⟩
  | error e =>
      rw [Prog.bind_ok (Prog.attempt_exc hrun)]
      dsimp only
      rw [Prog.pure_run]
      exact ⟨_, _, rfl, by dsimp only; omega⟩

end Supplies

/-- The characters at hand, where nothing follows them. -/
theorem supplies_area {n : Nat} {b : ServerStreambuf} {w : World} {beg cur : Nat}
    (hb : b.getArea = some ⟨beg, cur, cur + n⟩) :
    Supplies (pure none) (b.buffer_.load cur n) (.ok ()) ⟨b, w⟩ ⟨b.gbump n, w⟩ := by
  induction n generalizing b cur with
  | zero =>
      rw [ServerStreambuf.gbump_zero]
      refine .eof ?_
      rw [sbumpc, Prog.bind_ok (Prog.get_run _), ServerStreambuf.gptr_eq hb,
        ServerStreambuf.egptr_eq hb, if_neg (show ¬ cur < cur + 0 by omega)]
      rfl
  | succ n ih =>
      have hb' := ServerStreambuf.gbump_getArea_eq hb 1
      have harea : (b.gbump 1).getArea = some ⟨beg, cur + 1, cur + 1 + n⟩ := by
        rw [hb']
        congr 2
        omega
      have hs := ih harea
      rw [ServerStreambuf.gbump_gbump, Nat.add_comm 1 n] at hs
      rw [Mem.load_succ]
      refine .char ?_ hs
      rw [sbumpc, Prog.bind_ok (Prog.get_run _), ServerStreambuf.gptr_eq hb,
        ServerStreambuf.egptr_eq hb, if_pos (by omega), takeChar, Prog.bind_ok (Prog.get_run _),
        Prog.bind_ok (modifyBuf_run _), ServerStreambuf.gptr_eq hb]
      rfl

end Fcgi
