import Fcgi.Input.Spot

/-!
# Input — a reader between two calls

`Pause`: what `underflow()` has made available, and what is still to come.  The first character of
either is taken next, however the bytes are cut.

A call either finds a character at hand (`Pause.takeChar`), or enters the loop of `underflow()` at
the `Spot` where the reader is; there it provides the first bytes of the content
(`Spot.provide`), faults because the record announces more than the buffer holds
(`Spot.overfull`), or finds that nothing arrives (`Spot.starve`).
-/

namespace Fcgi
open Lib

section

variable {conn : ConnectionInfo} {t : StreamType} {size u p : Nat} {dis : Bool}
  {o : Outer} {bs area : List UInt8} {s : State}

/-- With content left, the loop makes some of it available.  Of all of it but the first byte there
must be room in the buffer. -/
theorem Spot.provide (h : Spot conn t size u p false o bs s) (hu : 0 < u) (hsize : u ≤ size + 1)
    (hne : bs ≠ []) (header : List UInt8) :
    ∃ c k s', Prog.Runs (fun n => underflowLoop conn n header) s (.ok (some c)) s' ∧
      bs.head? = some c ∧ 0 < k ∧ k ≤ u ∧ k ≤ bs.length ∧
      Pause conn t size (u - k) p o (bs.take k) (bs.drop k) s' ∧
      (s.world.io.Clean → s'.world.io.Clean) := by
  obtain ⟨s₁, hread, h₁, hcur, hclean⟩ := h.readRecords hne
  obtain ⟨c, k, s', hset, hhead, hpos, hk, hle, -, hpause, hio⟩ := h₁.setUpContent hu hcur
  rw [if_pos (by omega)] at hset
  refine ⟨c, k, s', Prog.recLoop_done fun n => ?_, hhead, hpos, hk, hle, hpause,
    fun hc => hio ▸ hclean hc⟩
  rw [underflowRound_read conn n _ header hread hcur, Prog.bind_ok hset]
  rfl

/-- Content for which there is no room, whatever has arrived of it. -/
theorem Spot.overfull (h : Spot conn t size u p false o bs s)
    (hu : size + min size bs.length < u) (hne : bs ≠ []) (header : List UInt8) :
    ∃ k s', Prog.Runs (fun n => underflowLoop conn n header) s (.error .abort) s' ∧
      k ≤ u ∧ k ≤ bs.length ∧ size < u - k ∧
      Pause conn t size (u - k) p o (bs.take k) (bs.drop k) s' ∧
      (s.world.io.Clean → s'.world.io.Clean) := by
  obtain ⟨s₁, hread, h₁, hcur, hclean⟩ := h.readRecords hne
  obtain ⟨c, k, s', hset, -, -, hk, hle, hfit, hpause, hio⟩ :=
    h₁.setUpContent (Nat.lt_of_le_of_lt (Nat.zero_le _) hu) hcur
  rw [if_neg (by omega)] at hset
  refine ⟨k, s', Prog.recLoop_error fun n => ?_, hk, hle, by omega, hpause,
    fun hc => hio ▸ hclean hc⟩
  rw [underflowRound_read conn n _ header hread hcur, Prog.bind_error hset]

/-- With nothing ahead it throws. -/
theorem Spot.starve (h : Spot conn t size u p dis o [] s) (header : List UInt8) :
    ∃ e s', Prog.Runs (fun n => underflowLoop conn n header) s (.error (.exc e)) s' ∧
      s'.outer = o := by
  obtain ⟨e, s', hread, hs'⟩ := h.readRecords_nil
  exact ⟨e, s', Prog.recLoop_error fun n => Prog.bind_error hread, hs'⟩

theorem Pause.area_eq_nil (h : Pause conn t size u p o area bs s)
    (hge : s.buf.egptr ≤ s.buf.gptr) : area = [] := by
  rw [← h.area, Nat.sub_eq_zero_of_le hge, Mem.load_zero]

theorem Pause.lt_egptr (h : Pause conn t size u p o area bs s) (hne : area ≠ []) :
    s.buf.gptr < s.buf.egptr := by
  by_contra hge
  exact hne (h.area_eq_nil (Nat.le_of_not_lt hge))

/-- With no character at hand, the next call starts there. -/
theorem Pause.spot (h : Pause conn t size u p o area bs s)
    (hge : s.buf.egptr ≤ s.buf.gptr) : Spot conn t size u p false o bs s := by
  have heq : s.buf.gptr = s.buf.egptr := Nat.le_antisymm h.ordered hge
  exact ⟨h.toFooting, heq ▸ h.bytes⟩

/-- That the loop is entered is noted, and nothing else. -/
theorem Spot.entered (h : Spot conn t size u p dis o bs s) :
    Spot conn t size u p dis o bs s.entered :=
  ⟨⟨h.outer, h.openReader, h.type, h.bufferSize, h.discard, h.content, h.padding⟩, h.bytes⟩

theorem Pause.entered (h : Pause conn t size u p o area bs s) :
    Pause conn t size u p o area bs s.entered :=
  ⟨⟨h.outer, h.openReader, h.type, h.bufferSize, h.discard, h.content, h.padding⟩, h.ordered,
    h.area, h.bytes⟩

/-- `underflow()` of a stream that has not ended enters its loop. -/
theorem Pause.underflow_eq (h : Pause conn t size u p o area bs s) (ho : o.ended = false)
    (n : Nat) : underflow conn n s = underflowLoop conn n [] s.entered := by
  have hopen : s.buf.isEndOfStream_ = false := (congrArg Outer.ended h.outer).trans ho
  rw [h.openReader.underflow_eq, if_neg (Bool.eq_false_iff.mp hopen)]

/-- The next of the characters at hand. -/
theorem Pause.takeChar (h : Pause conn t size u p o area bs s)
    (hlt : s.buf.gptr < s.buf.egptr) :
    ∃ c cs s', area = c :: cs ∧ Fcgi.takeChar s = (.ok (some c), s') ∧
      Pause conn t size u p o cs bs s' ∧ s'.world = s.world := by
  obtain ⟨b, w⟩ := s
  have hg := ServerStreambuf.gbump_getArea_eq h.openReader.getArea_eq 1
  have hcur : (b.gbump 1).gptr = b.gptr + 1 := ServerStreambuf.gptr_eq hg
  have hend : (b.gbump 1).egptr = b.egptr := ServerStreambuf.egptr_eq hg
  have ho := (ReaderStep.take (w := w) hlt).openReader h.openReader
  have harea := h.area
  dsimp only at hlt harea
  rw [show b.egptr - b.gptr = (b.egptr - (b.gptr + 1)) + 1 by omega, Mem.load_succ] at harea
  refine ⟨_, _, ⟨b.gbump 1, w⟩, harea.symm, ?_, ⟨⟨h.outer, ho, h.type, h.bufferSize,
    h.discard, h.content, h.padding⟩, ?_, ?_, ?_⟩, rfl⟩
  · rw [Fcgi.takeChar, Prog.bind_ok (Prog.get_run _), Prog.bind_ok (modifyBuf_run _),
      Prog.pure_run]
  · dsimp only
    rw [hcur, hend]
    exact hlt
  · dsimp only
    rw [hcur, hend]
    rfl
  · dsimp only
    rw [hend]
    exact h.bytes

/-! ### `sbumpc()` -/

section sbumpc

variable {uf : Nat → M (Option UInt8)} {s₁ s' : State} {c c₀ : UInt8}

/-- What `sbumpc()` does with a result of `underflow()`. -/
def sbumpcThen : Option UInt8 → M (Option UInt8)
  | none => pure none
  | some _ => takeChar

/-- `sbumpc()` with no character at hand. -/
theorem sbumpc_eq (hge : s.buf.egptr ≤ s.buf.gptr) (uf : M (Option UInt8)) :
    sbumpc uf s = (uf >>= sbumpcThen) s := by
  rw [sbumpc, Prog.bind_ok (Prog.get_run _), if_neg (Nat.not_lt.mpr hge)]
  rfl

theorem sbumpc_here (hlt : s.buf.gptr < s.buf.egptr) (htake : takeChar s = (.ok (some c), s')) :
    Prog.Runs (fun n => sbumpc (uf n)) s (.ok (some c)) s' := .of_eq fun n => by
  rw [sbumpc, Prog.bind_ok (Prog.get_run _), if_pos hlt, htake]

/-- A character is asked for, and there is one. -/
theorem sbumpc_some (hge : s.buf.egptr ≤ s.buf.gptr) (hrun : Prog.Runs uf s (.ok (some c₀)) s₁)
    (htake : takeChar s₁ = (.ok (some c), s')) :
    Prog.Runs (fun n => sbumpc (uf n)) s (.ok (some c)) s' :=
  (Prog.Leads.of_eq fun n => sbumpc_eq hge (uf n)).runs
    (hrun.bind (g := fun r _ => sbumpcThen r) (.of_eq fun _ => htake))

/-- A character is asked for, and there is none. -/
theorem sbumpc_none (hge : s.buf.egptr ≤ s.buf.gptr) (hrun : Prog.Runs uf s (.ok none) s') :
    Prog.Runs (fun n => sbumpc (uf n)) s (.ok none) s' :=
  (Prog.Leads.of_eq fun n => sbumpc_eq hge (uf n)).runs
    (hrun.bind (g := fun r _ => sbumpcThen r) (.of_eq fun _ => rfl))

/-- A character is asked for, and never comes. -/
theorem sbumpc_stuck (hge : s.buf.egptr ≤ s.buf.gptr) (hrun : Prog.Stuck uf s) :
    Prog.Stuck (fun n => sbumpc (uf n)) s :=
  (Prog.Leads.of_eq fun n => sbumpc_eq hge (uf n)).stuck
    (hrun.bind (g := fun r _ => sbumpcThen r))

end sbumpc

end

end Fcgi
