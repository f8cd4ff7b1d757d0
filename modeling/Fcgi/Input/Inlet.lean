import Fcgi.Input.Source

/-!
# Input — the streams of a request as an input in parts

`Inlet conn size ps s`: the reader is to deliver the parts `ps`, which are what is left of the
stream it reads and, in a filter that reads stdin, the data after it.

* `underflow_shows`: the character `underflow()` returns is the one at gptr().
* **`inlet_source`**: the reader provides this input, however the bytes arrive.

A part is a `Stream`, and the end of stdin leads a filter to the next (`Stream.sbumpc_end`).  What a
stream does not say is what `sungetc()` gives back: that is the character before gptr(), which is
still there after it has been taken (`Behind`).
-/

namespace Fcgi
open Lib
open ServerStreambuf (gptr_eq)

section

variable {conn : ConnectionInfo} {t : StreamType} {size u p n : Nat}
  {next out chars area bs rest : List UInt8} {s s' : State} {c : UInt8}

/-! ### What `underflow()` returns -/

/-- A character that is returned is at gptr(). -/
def Shows (r : Option UInt8) (s : State) : Prop :=
  ∀ c, r = some c → s.buf.buffer_ s.buf.gptr = c

/-- Content that is delivered begins at gptr(). -/
theorem setUpContent_shows : Triple (fun _ => True) (setUpContent conn)
    (fun r s => ∀ c, r = some (.done c) → Shows c s) fun _ _ => True := by
  refine Triple.get fun s _ => Triple.ite (fun _ => ?_) fun _ =>
    Triple.pure fun _ _ c h => nomatch h
  -- The get area starts at gptr(), where it was.
  let Kept : Unit → State → Prop := fun _ t =>
    t.buf.buffer_ s.buf.gptr = s.buf.buffer_ s.buf.gptr ∧ t.buf.gptr = s.buf.gptr
  refine Triple.bind (Q := Kept) (Triple.modify fun t ht => ?_) fun _ =>
    Triple.ite (fun _ => ?_) fun _ => ?_
  · rw [ht]
    exact ⟨rfl, rfl⟩
  · refine Triple.bind (Q := Kept) (Triple.modify fun t ht => ht) fun _ =>
      Triple.bind (Q := Kept) (Triple.modify fun t ht => ht) fun _ =>
      Triple.bind (Q := Kept) ?_ fun _ => Triple.pure fun t ht => ?_
    · exact Triple.get fun t ht => Triple.assert (fun t' ht' _ => ht' ▸ ht) fun _ _ _ => trivial
    · rintro _ ⟨⟩ c ⟨⟩
      rw [ht.2]
      exact ht.1
  · refine Triple.bind (Q := fun _ _ => True) (Triple.modify fun _ _ => trivial) fun _ =>
      Triple.get fun _ _ => Triple.ite (fun _ => Triple.pure fun _ _ c h => nomatch h) fun _ =>
      Triple.bind (Q := fun _ _ => True) (Triple.modify fun _ _ => trivial) fun _ =>
      Triple.pure fun _ _ c h => nomatch h

/-- The end of a round that has processed a header returns no character. -/
theorem processAccumulated_shows {fuel : Nat} {call : M (Option UInt8)} {hd : List UInt8} :
    Triple (fun _ => True) (processAccumulated conn fuel call hd)
      (fun r _ => ∀ c, r = .done c → c = none) fun _ _ => True := by
  refine Triple.bind (Q := fun _ _ => True) (fun _ _ => trivial) fun _ =>
    Triple.bind (Q := fun _ _ => True) (Triple.anything) fun r => ?_
  cases r with
  | requestRejected =>
      exact Triple.bind (Q := fun _ _ => True) Triple.anything fun _ =>
        Triple.pure fun _ _ c h => (Flow.done.inj h).symm
  | managementProcessed => exact Triple.pure fun _ _ c h => nomatch h
  | contentMustBeConsumed =>
      refine Triple.get fun _ _ => Triple.ite (fun _ => ?_) fun _ =>
        Triple.pure fun _ _ c h => nomatch h
      exact Triple.bind (Q := fun _ _ => True) Triple.anything fun _ => Triple.get fun _ _ =>
        Triple.ite (fun _ => Triple.bind (Q := fun _ _ => True) Triple.anything fun _ =>
          Triple.pure fun _ _ c h => (Flow.done.inj h).symm) fun _ =>
          Triple.pure fun _ _ c h => (Flow.done.inj h).symm
  | contentMustBeDiscarded =>
      exact Triple.bind (Q := fun _ _ => True) Triple.anything fun _ =>
        Triple.pure fun _ _ c h => nomatch h

/-- A round that is the last one shows its character. -/
theorem underflowRound_shows {fuel : Nat} {call : M (Option UInt8)} (hd : List UInt8) :
    Triple (fun _ => True) (underflowRound conn fuel call hd)
      (fun r s => match r with
        | .again _ => True
        | .done c => Shows c s) fun _ _ => True := by
  refine Triple.bind (Q := fun _ _ => True) Triple.anything fun _ => Triple.get fun _ _ =>
    Triple.bind (Q := fun _ _ => True) Triple.anything fun _ =>
    Triple.bind (setUpContent_shows.pre fun _ _ => trivial) fun r => ?_
  rcases r with _ | ⟨_ | c⟩
  · refine Triple.get fun _ _ => Triple.bind (Q := fun _ _ => True) Triple.anything fun _ =>
      Triple.bind (Q := fun _ _ => True) Triple.anything fun r =>
      Triple.ite (fun _ => Triple.pure fun _ _ => trivial) fun _ => ?_
    refine Triple.get fun _ _ => Triple.bind (Q := fun _ _ => True) Triple.anything fun _ =>
      Triple.bind (Q := fun _ _ => True) Triple.anything fun hd' =>
      Triple.ite (fun _ => Triple.pure fun _ _ => trivial) fun _ => ?_
    refine Triple.bind (Q := fun _ _ => True) Triple.anything fun _ =>
      Triple.bind (Q := fun _ _ => True) Triple.anything fun _ =>
      processAccumulated_shows.post fun r s hr => ?_
    cases r with
    | again _ => trivial
    | done c => exact fun c' hc => nomatch (hr c rfl).symm.trans hc
  · exact Triple.pure fun _ _ => trivial
  · exact Triple.pure fun s hs => hs c rfl

/-- **A character that `underflow()` returns is the one at gptr().** -/
theorem underflow_shows (fuel : Nat) :
    Triple (fun _ => True) (underflow conn fuel) Shows fun _ _ => True := by
  have hloop : Triple (fun _ => True) (underflowLoop conn fuel []) Shows fun _ _ => True :=
    Triple.recLoop (I := fun _ _ => True) (fun _ _ _ => trivial)
      (fun n call _ hd => (underflowRound_shows hd).post fun r s hr => by
        cases r <;> exact hr) fuel []
  refine Triple.get fun _ _ => Triple.bind (Q := fun _ _ => True) Triple.anything fun _ =>
    Triple.ite (fun _ => Triple.pure fun _ _ c h => nomatch h) fun _ => ?_
  exact Triple.bind (Q := fun _ _ => True) Triple.anything fun _ => hloop

/-! ### A character taken, and put back -/

/-- `c` is right before gptr(), in the get area. -/
def Behind (c : UInt8) (b : ServerStreambuf) : Prop :=
  b.eback < b.gptr ∧ b.buffer_ (b.gptr - 1) = c

/-- A character that has been taken is behind gptr(). -/
theorem takeChar_behind (ho : OpenReader conn.role s.buf) (h : takeChar s = (.ok (some c), s')) :
    s.buf.buffer_ s.buf.gptr = c ∧ Behind c s'.buf := by
  cases h
  obtain ⟨beg, cur, lim, hb, hle, -⟩ := ho.getArea
  have hg := ServerStreambuf.gbump_getArea_eq hb 1
  refine ⟨rfl, ?_, ?_⟩
  · change (s.buf.gbump 1).eback < (s.buf.gbump 1).gptr
    rw [ServerStreambuf.eback_eq hg, gptr_eq hg]
    exact Nat.lt_succ_of_le hle
  · change s.buf.buffer_ ((s.buf.gbump 1).gptr - 1) = s.buf.buffer_ s.buf.gptr
    rw [gptr_eq hg, gptr_eq hb, Nat.add_sub_cancel]

theorem sungetc_run (h : Behind c s.buf) : sungetc s = (.ok (some c),
    ⟨s.buf.setg s.buf.eback (s.buf.gptr - 1) s.buf.egptr, s.world.addUnget s.buf⟩) := by
  obtain ⟨b, w⟩ := s
  obtain ⟨hlt, rfl⟩ := h
  rw [sungetc, Prog.bind_ok (Prog.get_run _), if_pos hlt, Prog.bind_ok (noteUnget_run _ _)]
  rfl

/-- The buffer of a stream is open. -/
theorem Stream.openReader (h : Stream conn t size next out chars s) :
    OpenReader conn.role s.buf := by
  obtain ⟨area, body, pad, rs, hidle, -⟩ := h.idle
  exact hidle.openReader

theorem Stream.written (h : Stream conn t size next out chars s) : s.world.io.written = out := by
  obtain ⟨area, body, pad, rs, hidle, -⟩ := h.idle
  exact hidle.written

/-- Taking a character leaves it behind gptr(). -/
theorem Stream.bump (hid : conn.requestId ≠ 0)
    (h : Stream conn t size next out (c :: chars) s) :
    ∃ s', Prog.Runs (fun n => sbumpc (underflow conn n)) s (.ok (some c)) s' ∧
      Stream conn t size next out chars s' ∧ Behind c s'.buf := by
  by_cases hlt : s.buf.gptr < s.buf.egptr
  · obtain ⟨c', cs, s', hcs, htake, h'⟩ := h.takeChar_cons hlt
    obtain ⟨rfl, rfl⟩ := List.cons.inj hcs
    exact ⟨s', sbumpc_here hlt htake, h', (takeChar_behind h.openReader htake).2⟩
  · have hge := Nat.le_of_not_lt hlt
    obtain ⟨c₀, s₁, hrun, h₁, hlt₁⟩ := h.underflow_cons hid hge
    obtain ⟨c', cs, s', hcs, htake, h'⟩ := h₁.takeChar_cons hlt₁
    obtain ⟨rfl, rfl⟩ := List.cons.inj hcs
    exact ⟨s', sbumpc_some hge hrun htake, h', (takeChar_behind h₁.openReader htake).2⟩

/-- A character that is not at hand is asked for. -/
theorem sgetc_some {uf : Nat → M (Option UInt8)} {r : Option UInt8}
    (hge : s.buf.egptr ≤ s.buf.gptr) (hrun : Prog.Runs uf s (.ok r) s') :
    Prog.Runs (fun n => sgetc (uf n)) s (.ok r) s' :=
  (Prog.Leads.of_eq fun n => by
    rw [sgetc, Prog.bind_ok (Prog.get_run _), if_neg (Nat.not_lt.mpr hge)]).runs hrun

/-- The next character is shown, and left where it is. -/
theorem Stream.look (hid : conn.requestId ≠ 0)
    (h : Stream conn t size next out (c :: chars) s) :
    ∃ s', Prog.Runs (fun n => sgetc (underflow conn n)) s (.ok (some c)) s' ∧
      Stream conn t size next out (c :: chars) s' := by
  by_cases hlt : s.buf.gptr < s.buf.egptr
  · obtain ⟨c', cs, s', hcs, htake, -⟩ := h.takeChar_cons hlt
    obtain ⟨rfl, rfl⟩ := List.cons.inj hcs
    refine ⟨s, .of_eq fun n => ?_, h⟩
    rw [sgetc, Prog.bind_ok (Prog.get_run _), if_pos hlt, (takeChar_behind h.openReader htake).1,
      Prog.pure_run]
  · have hge := Nat.le_of_not_lt hlt
    obtain ⟨c₀, s₁, hrun, h₁, hlt₁⟩ := h.underflow_cons hid hge
    obtain ⟨c', cs, s', hcs, htake, -⟩ := h₁.takeChar_cons hlt₁
    obtain ⟨rfl, rfl⟩ := List.cons.inj hcs
    obtain ⟨N, hN⟩ := hrun
    have hshown := (underflow_shows N).of_ok trivial ((hN N).2 (Nat.le_refl N)) c₀ rfl
    rw [(takeChar_behind h₁.openReader htake).1] at hshown
    exact ⟨s₁, sgetc_some hge (hshown ▸ ⟨N, hN⟩), h₁⟩

/-- A character that is given back comes next. -/
theorem Stream.back (h : Stream conn t size next out chars s) (hc : Behind c s.buf) :
    Stream conn t size next out (c :: chars)
      ⟨s.buf.setg s.buf.eback (s.buf.gptr - 1) s.buf.egptr, s.world.addUnget s.buf⟩ := by
  obtain ⟨b, w⟩ := s
  obtain ⟨area, body, pad, rs, hidle, hrs, rfl⟩ := h.idle
  obtain ⟨hlt, hchar⟩ := hc
  have hle := hidle.ordered
  dsimp only at hlt hchar hle
  refine ⟨c :: area, body, pad, rs, ⟨⟨?_, hidle.type, hidle.bufferSize, hidle.open_, hidle.kept,
    hidle.content, hidle.padding, hidle.fits, hidle.clean, hidle.written⟩, ?_, ?_,
    hidle.bytes⟩, hrs, rfl⟩
  · exact (ReaderStep.unget hlt : ReaderStep conn ⟨.idle, b, w⟩ _).openReader hidle.openReader
  · exact Nat.le_trans (Nat.sub_le _ _) hle
  · -- One character more is at hand.
    change b.buffer_.load (b.gptr - 1) (b.egptr - (b.gptr - 1)) = c :: area
    rw [show b.egptr - (b.gptr - 1) = (b.egptr - b.gptr) + 1 by omega, Mem.load_succ,
      Nat.sub_add_cancel (Nat.lt_of_le_of_lt (Nat.zero_le _) hlt), hchar]
    exact congrArg (c :: ·) hidle.area

/-- Whose a record is depends on the id only. -/
theorem Header.IsOwn.of_id {conn' : ConnectionInfo} {h : Header} (ho : h.IsOwn conn t)
    (hid : conn'.requestId = conn.requestId) : h.IsOwn conn' t := ⟨ho.1.trans hid.symm, ho.2⟩

/-- The same of a record with content. -/
theorem Record.Carries.of_id {conn' : ConnectionInfo} {r : Record} (h : r.Carries conn t size)
    (hid : conn'.requestId = conn.requestId) : r.Carries conn' t size :=
  ⟨Header.IsOwn.of_id h.1 hid, h.2⟩

/-- The same of the record that ends the stream. -/
theorem Record.Ends.of_id {conn' : ConnectionInfo} {r : Record} (h : r.Ends conn t)
    (hid : conn'.requestId = conn.requestId) : r.Ends conn' t :=
  ⟨Header.IsOwn.of_id h.1 hid, h.2⟩

/-- What is written in the meantime makes no difference. -/
theorem Stream.send (h : Stream conn t size next out chars s) {conn' : ConnectionInfo}
    (hrole : conn'.role = conn.role) (hid : conn'.requestId = conn.requestId) (more : List UInt8) :
    Stream conn' t size next (out ++ more) chars ⟨s.buf, s.world.send more⟩ := by
  obtain ⟨area, body, pad, rs, hidle, hrs, hchars⟩ := h.idle
  refine ⟨area, body, pad, rs, ⟨⟨hrole ▸ hidle.openReader, hidle.type, hidle.bufferSize,
    hidle.open_, hidle.kept, hidle.content, hidle.padding, hidle.fits, hidle.clean, ?_⟩,
    hidle.ordered, hidle.area, hidle.bytes⟩, fun r hr => (hrs r hr).of_id hid, hchars⟩
  exact congrArg (· ++ more) hidle.written

end

/-! ### The streams of a request -/

/-- The reader is to deliver these parts, and `out` has been written. -/
inductive Inlet (conn : ConnectionInfo) (size : Nat) (out : List UInt8) :
    List (List UInt8) → State → Prop
  /-- The stream that is read is the last. -/
  | stream {t : StreamType} {rest chars : List UInt8} {last : Record} {s : State}
      (h : Stream conn t size (last.bytes ++ rest) out chars s) (hlast : last.Ends conn t)
      (hf : ¬ (conn.role = .filter ∧ t = .«in»)) : Inlet conn size out [chars] s
  /-- A filter reads stdin. -/
  | stdin {rest chars : List UInt8} {last lastData : Record} {ds : List Record} {s : State}
      (h : Stream conn .«in» size
        (last.bytes ++ (Frame.join ds ++ (lastData.bytes ++ rest))) out chars s)
      (hlast : last.Ends conn .«in») (hpad : last.padding = []) (hrole : conn.role = .filter)
      (hds : ∀ r ∈ ds, r.Carries conn .data size) (hlastData : lastData.Ends conn .data) :
      Inlet conn size out [chars, Record.contents ds] s
  | ended {t : StreamType} {bs : List UInt8} {s : State} (h : Ended conn t size out bs s)
      (hf : ¬ (conn.role = .filter ∧ t = .«in»)) : Inlet conn size out [] s

/-- The reader is to deliver the parts, and can put the last character back. -/
def InletAt (conn : ConnectionInfo) (size : Nat) (out : List UInt8) (ps : List (List UInt8))
    (l : Option UInt8) (s : State) : Prop :=
  Inlet conn size out ps s ∧ ∀ c, l = some c → ps ≠ [] ∧ Behind c s.buf

section

variable {conn conn' : ConnectionInfo} {size : Nat} {out chars : List UInt8}
  {ps : List (List UInt8)} {s : State}

/-- The part at hand is a stream, and what follows it does not change while it is read. -/
theorem Inlet.head (h : Inlet conn size out (chars :: ps) s) :
    ∃ t next, Stream conn t size next out chars s ∧
      ∀ {chars' s'}, Stream conn t size next out chars' s' →
        Inlet conn size out (chars' :: ps) s' := by
  cases h with
  | stream h hlast hf => exact ⟨_, _, h, fun h' => .stream h' hlast hf⟩
  | stdin h hlast hpad hrole hds hlastData =>
      exact ⟨_, _, h, fun h' => .stdin h' hlast hpad hrole hds hlastData⟩

/-- After the part at hand comes the next. -/
theorem Inlet.partEnds (hid : conn.requestId ≠ 0) (h : Inlet conn size out ps s)
    (hnil : ps.headD [] = []) :
    s.buf.egptr ≤ s.buf.gptr ∧
      ∃ s', Prog.Runs (underflow conn) s (.ok none) s' ∧ Inlet conn size out ps.tail s' := by
  cases h with
  | @stream t rest chars last _ h hlast hf =>
      obtain rfl : chars = [] := hnil
      obtain ⟨s', hrun, hs'⟩ := h.ends hid hlast
      rw [if_neg hf] at hs'
      exact ⟨h.past, s', hrun, .ended hs' hf⟩
  | @stdin rest chars last lastData ds _ h hlast hpad hrole hds hlastData =>
      obtain rfl : chars = [] := hnil
      obtain ⟨s', hrun, hs'⟩ := h.ends hid hlast
      rw [if_pos ⟨hrole, rfl⟩, hpad, List.nil_append] at hs'
      exact ⟨h.past, s', hrun, .stream (hs'.stream ds rfl hds) hlastData (by simp)⟩
  | ended h hf => exact ⟨Nat.le_of_eq h.area.symm, s, .of_eq h.underflow_eq, .ended h hf⟩

/-- **The streams of a request are an input in parts**, whatever the cuts and the padding. -/
theorem inlet_source (hid : conn.requestId ≠ 0) :
    Source (underflow conn) (InletAt conn size out) where
  bump := by
    rintro c cs ps l s ⟨h, -⟩
    obtain ⟨t, next, hs, hnext⟩ := h.head
    obtain ⟨s', hrun, hs', hc⟩ := hs.bump hid
    exact ⟨s', hrun, hnext hs', fun c' hc' => ⟨List.cons_ne_nil _ _, Option.some.inj hc' ▸ hc⟩⟩
  bumpOver := by
    rintro ps l s hnil ⟨h, -⟩
    obtain ⟨hge, s', hrun, hs'⟩ := h.partEnds hid hnil
    exact ⟨s', sbumpc_none hge hrun, hs', fun c hc => nomatch hc⟩
  look := by
    rintro c cs ps l s ⟨h, -⟩
    obtain ⟨t, next, hs, hnext⟩ := h.head
    obtain ⟨s', hrun, hs'⟩ := hs.look hid
    exact ⟨s', hrun, hnext hs', fun c hc => nomatch hc⟩
  lookOver := by
    rintro ps l s hnil ⟨h, -⟩
    obtain ⟨hge, s', hrun, hs'⟩ := h.partEnds hid hnil
    exact ⟨s', sgetc_some hge hrun, hs', fun c hc => nomatch hc⟩
  back := by
    rintro c ps s ⟨h, hl⟩
    obtain ⟨hne, hc⟩ := hl c rfl
    obtain ⟨chars, ps, rfl⟩ := List.exists_cons_of_ne_nil hne
    obtain ⟨t, next, hs, hnext⟩ := h.head
    exact ⟨c, _, sungetc_run hc, hnext (hs.back hc), fun c hc => nomatch hc⟩

theorem Inlet.written (h : Inlet conn size out ps s) : s.world.io.written = out := by
  cases h with
  | stream h => exact h.written
  | stdin h => exact h.written
  | ended h => exact h.written

/-- What is written in the meantime makes no difference. -/
theorem Inlet.send (h : Inlet conn size out ps s) (hrole : conn'.role = conn.role)
    (hid : conn'.requestId = conn.requestId) (more : List UInt8) :
    Inlet conn' size (out ++ more) ps ⟨s.buf, s.world.send more⟩ := by
  cases h with
  | stream h hlast hf =>
      exact .stream (h.send hrole hid more) (hlast.of_id hid) fun h => hf ⟨hrole ▸ h.1, h.2⟩
  | stdin h hlast hpad hr hds hlastData =>
      exact .stdin (h.send hrole hid more) (hlast.of_id hid) hpad (hrole.trans hr)
        (fun r hr => (hds r hr).of_id hid) (hlastData.of_id hid)
  | @ended t bs _ h hf =>
      exact .ended ⟨hrole ▸ h.openReader, h.type, h.bufferSize, h.ended, h.area, h.clean,
        congrArg (· ++ more) h.written, h.bytes⟩ fun h => hf ⟨hrole ▸ h.1, h.2⟩

end

end Fcgi
