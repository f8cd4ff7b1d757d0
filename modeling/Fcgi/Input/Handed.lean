import Fcgi.Input.Position

/-!
# Input — the get area that was handed out last

A character that `sungetc()` puts back is one of the get area.  That area is the one `underflow()`
handed out last, as long as nothing has arrived since: only `io->read` brings other bytes into the
buffer, and every other call of `setg()` leaves the area empty.  Where something has arrived and
the read after it failed, the area is the chunk that arrived, with whatever lies in it.

* `Held conn s`: in the state `s`, the area handed out last is still there, or the area is empty,
  or fewer bytes are to come than there were then.
* **`ReaderStep.held`**: every step of the reader keeps this.
* **`Held.unget_isOwn`**: if the characters handed out were own content, then so is one that is put
  back, provided that nothing has arrived in between (`Unget.Regular`).

The number of bytes still to come serves as a clock: a read that brings something lowers it, and
nothing raises it.
-/

namespace Fcgi
open Lib
open ServerStreambuf (eback_eq gptr_eq egptr_eq gbump_getArea_eq)

/-- Another stream of the request follows the stream `t`. -/
def Follows (conn : ConnectionInfo) (t : StreamType) : Prop :=
  t = .params ∧ conn.role ≠ .authorizer ∨ t = .«in» ∧ conn.role = .filter

instance (conn : ConnectionInfo) (t : StreamType) : Decidable (Follows conn t) := by
  unfold Follows; infer_instance

/-- The characters handed out are content of a record of the connection's request, and of the
stream that was being read: of `T`, they are what lies before the bytes still ahead. -/
def Delivery.IsOwn (conn : ConnectionInfo) (T : List UInt8) (v : Delivery) : Prop :=
  ∃ (rs : List Record) (h : Header) (pre area : List UInt8),
    area = v.buf.buffer_.load v.buf.gptr (v.buf.egptr - v.buf.gptr) ∧
    T = Frame.join rs ++ (h.bytes ++ (pre ++ (area ++
      State.ahead ⟨v.buf, { io := v.io }⟩ v.buf.egptr))) ∧
    h.protocolVersion = 1 ∧ h.IsOwn conn v.buf.type_ ∧
    pre.length + area.length ≤ h.contentLength

/-! ### A character that is put back -/

/-- The get area after the character has been put back. -/
def Unget.area (u : Unget) : Delivery where
  buf := u.buf.setg u.buf.eback (u.buf.gptr - 1) u.buf.egptr
  io := u.io

/-- The character is put back where no exception has left gptr() past egptr(), and nothing has
arrived since characters were handed out. -/
structure Unget.Regular (u : Unget) : Prop where
  ordered : u.buf.gptr ≤ u.buf.egptr
  last : u.last.map (fun v => v.io.bytes.length) = some u.io.bytes.length

instance (u : Unget) : Decidable u.Regular :=
  decidable_of_iff (u.buf.gptr ≤ u.buf.egptr ∧
      u.last.map (fun v => v.io.bytes.length) = some u.io.bytes.length)
    ⟨fun ⟨h₁, h₂⟩ => ⟨h₁, h₂⟩, fun ⟨h₁, h₂⟩ => ⟨h₁, h₂⟩⟩

/-! ### What is left of the area -/

/-- `s` still has the area that was handed out as `v`. -/
structure Delivery.StillIn (v : Delivery) (s : State) : Prop where
  fresh : v.buf.eback = v.buf.gptr
  bytes : v.io.bytes = s.world.io.bytes
  type : v.buf.type_ = s.buf.type_
  buffer : v.buf.buffer_ = s.buf.buffer_
  end_ : v.buf.bufferEnd_ = s.buf.bufferEnd_
  eback : v.buf.eback = s.buf.eback
  egptr : v.buf.egptr = s.buf.egptr

/-- Something has arrived since the area was handed out as `v`, or the area is empty. -/
def Delivery.GoneIn (v : Delivery) (s : State) : Prop :=
  s.world.io.bytes.length < v.io.bytes.length ∨ s.buf.eback = s.buf.egptr

/-- What is known of the area handed out last.  At the end of a stream which another one follows
nothing is left of it. -/
structure Held (conn : ConnectionInfo) (s : State) : Prop where
  le : ∀ v ∈ s.world.history.deliveries.getLast?, s.world.io.bytes.length ≤ v.io.bytes.length
  last : ∀ v ∈ s.world.history.deliveries.getLast?, v.GoneIn s ∨ v.StillIn s
  ended : s.buf.isEndOfStream_ = true → Follows conn s.buf.type_ →
    ∀ v ∈ s.world.history.deliveries.getLast?, v.GoneIn s

section

variable {conn : ConnectionInfo} {T : List UInt8} {c c' : Config} {s s' : State} {v : Delivery}

theorem Held.of_nil (h : s.world.history.deliveries = []) : Held conn s := by
  have hnone : ∀ v, ¬ v ∈ s.world.history.deliveries.getLast? := fun v hv => by
    rw [h] at hv
    cases hv
  exact ⟨fun v hv => absurd hv (hnone v), fun v hv => absurd hv (hnone v),
    fun _ _ v hv => absurd hv (hnone v)⟩

/-- A step that leaves the area alone. -/
theorem Held.of_eq (h : Held conn s) (hbytes : s'.world.io.bytes = s.world.io.bytes)
    (hd : s'.world.history.deliveries = s.world.history.deliveries)
    (hbeg : s'.buf.eback = s.buf.eback) (hlim : s'.buf.egptr = s.buf.egptr)
    (ht : s'.buf.type_ = s.buf.type_) (hb : s'.buf.buffer_ = s.buf.buffer_)
    (he : s'.buf.bufferEnd_ = s.buf.bufferEnd_)
    (hopen : s'.buf.isEndOfStream_ = s.buf.isEndOfStream_) : Held conn s' := by
  have hgone : ∀ {v : Delivery}, v.GoneIn s → v.GoneIn s' := fun hv =>
    hv.imp (fun hlt => hbytes.symm ▸ hlt) fun hempty => hbeg.trans (hempty.trans hlim.symm)
  refine ⟨fun v hv => ?_, fun v hv => ?_, fun hs hf v hv => ?_⟩
  · rw [hbytes]
    exact h.le v (hd ▸ hv)
  · refine (h.last v (hd ▸ hv)).imp hgone fun hstill => ?_
    exact ⟨hstill.fresh, hstill.bytes.trans hbytes.symm, hstill.type.trans ht.symm,
      hstill.buffer.trans hb.symm, hstill.end_.trans he.symm, hstill.eback.trans hbeg.symm,
      hstill.egptr.trans hlim.symm⟩
  · exact hgone (h.ended (hopen.symm.trans hs) (ht ▸ hf) v (hd ▸ hv))

/-- A step after which the area is empty. -/
theorem Held.of_empty (h : Held conn s) (hbytes : s'.world.io.bytes = s.world.io.bytes)
    (hd : s'.world.history.deliveries = s.world.history.deliveries)
    (hempty : s'.buf.eback = s'.buf.egptr) : Held conn s' :=
  ⟨fun v hv => hbytes.symm ▸ h.le v (hd ▸ hv), fun _ _ => .inl (.inr hempty),
    fun _ _ _ _ => .inr hempty⟩

/-- Nothing is left of the area when the reader goes on to another stream. -/
theorem Held.reset {t : StreamType} (h : Held conn s) (he : s.buf.isEndOfStream_ = true)
    (hf : Follows conn s.buf.type_) : Held conn ⟨s.buf.reset t, s.world⟩ :=
  ⟨h.le, fun v hv => .inl (h.ended he hf v hv), nofun⟩

/-- A read that fails. -/
theorem Held.of_recvNone {b : ServerStreambuf} {w : World} {io : Io} (h : Held conn ⟨b, w⟩)
    (hbytes : io.bytes = []) : Held conn ⟨b, w.setIo io⟩ := by
  rcases hw : w.io.bytes with _ | ⟨x, bs⟩
  · exact h.of_eq (hbytes.trans hw.symm) rfl rfl rfl rfl rfl rfl rfl
  · have hlt : ∀ v ∈ w.history.deliveries.getLast?, io.bytes.length < v.io.bytes.length := by
      intro v hv
      have hle : w.io.bytes.length ≤ v.io.bytes.length := h.le v hv
      rw [hw, List.length_cons] at hle
      rw [hbytes, List.length_nil]
      omega
    exact ⟨fun v hv => Nat.le_of_lt (hlt v hv), fun v hv => .inl (.inl (hlt v hv)),
      fun _ _ v hv => .inl (hlt v hv)⟩

/-- **Every step keeps this.**  At the end of a stream which another one follows no content of it
may be left (`hspent`). -/
theorem ReaderStep.held (hs : ReaderStep conn c c') (ho : OpenReader conn.role c.state.buf)
    (hfinal : c.state.world.io.Final)
    (hspent : ∀ h st, c.mode = .loop h st → c.state.buf.isEndOfStream_ = true →
      Follows conn c.state.buf.type_ → c.state.buf.isContentMustBeDiscarded_ = false →
      c.state.buf.gptr < c.state.buf.bufferEnd_ → c.state.buf.unreadContentLength_ = 0)
    (h : Held conn c.state) : Held conn c'.state := by
  have hsize := ho.size_ge
  have hbump : ∀ {b : ServerStreambuf} (b' : ServerStreambuf) (n : Nat), OpenReader conn.role b →
      b'.getArea = b.getArea → (b'.gbump n).eback = b.eback ∧ (b'.gbump n).egptr = b.egptr :=
    fun _ n ho e => ⟨eback_eq (gbump_getArea_eq (e.trans ho.getArea_eq) n),
      egptr_eq (gbump_getArea_eq (e.trans ho.getArea_eq) n)⟩
  cases hs with
  | @recv _ _ b w bytes io hend hread hne =>
      have hbytes := (hfinal.of_read (by dsimp only at hsize; omega) hread).2.1 _ rfl
      have hlt : ∀ v ∈ w.history.deliveries.getLast?, io.bytes.length < v.io.bytes.length := by
        intro v hv
        have hle : w.io.bytes.length ≤ v.io.bytes.length := h.le v hv
        rw [hbytes, List.length_append] at hle
        omega
      exact ⟨fun v hv => Nat.le_of_lt (hlt v hv), fun v hv => .inl (.inl (hlt v hv)),
        fun _ _ v hv => .inl (hlt v hv)⟩
  | recvNone hend hread hnone =>
      exact h.of_recvNone ((hfinal.of_read (by dsimp only at hsize; omega) hread).2.2 hnone)
  -- The delivery just made becomes the last one, and what was handed out is its area.
  | @deliver hd st b w hh hu hdis hcur n hn b' hb' =>
      have hlast : ∀ {v : Delivery},
          v ∈ (w.history.deliveries ++ [Delivery.mk b' w.io]).getLast? → v = ⟨b', w.io⟩ :=
        fun hv => by
          rw [List.getLast?_append, List.getLast?_singleton] at hv
          exact (Option.some.inj hv).symm
      refine ⟨fun v hv => Nat.le_of_eq (by rw [hlast hv]; rfl), fun v hv => .inr ?_,
        fun he hf v hv => ?_⟩
      · obtain rfl := hlast hv
        subst hb'
        exact ⟨rfl, rfl, rfl, rfl, rfl, rfl, rfl⟩
      · subst hb'
        exact absurd (hspent hd st rfl he hf hdis hcur) (Nat.pos_iff_ne_zero.mp hu)
  -- Content or padding is skipped: the get area of the last delivery stays.
  | @discard _ _ b w _ _ _ n =>
      obtain ⟨hbeg, hlim⟩ := hbump
        (b.setUnreadContentLength (b.unreadContentLength_ - n)) n ho rfl
      exact h.of_eq rfl rfl hbeg hlim rfl rfl rfl rfl
  | @skip _ _ b w _ _ n =>
      obtain ⟨hbeg, hlim⟩ := hbump
        (b.setUnreadPaddingLength (b.unreadPaddingLength_ - n)) n ho rfl
      exact h.of_eq rfl rfl hbeg hlim rfl rfl rfl rfl
  | @accumulate _ b w _ _ _ n =>
      obtain ⟨hbeg, hlim⟩ := hbump b n ho rfl
      exact h.of_eq rfl rfl hbeg hlim rfl rfl rfl rfl
  -- The accumulated header has emptied the area: nothing is left to be given back.
  | invalid => exact h.of_empty rfl rfl rfl
  | dispatch => exact h.of_empty rfl rfl rfl
  | endOfStream => exact h.of_empty rfl rfl rfl
  | switch hrole ht he => exact h.reset he (.inr ⟨ht, hrole⟩)
  | @take b w =>
      obtain ⟨hbeg, hlim⟩ := hbump b 1 ho rfl
      exact h.of_eq rfl rfl hbeg hlim rfl rfl rfl rfl
  | _ => exact h.of_eq rfl rfl rfl rfl rfl rfl rfl rfl

/-- A character put back into an area that was own content is own content. -/
theorem Delivery.StillIn.unget_isOwn {b : ServerStreambuf} {w : World}
    (h : v.StillIn ⟨b, w⟩) (hlt : b.eback < b.gptr) (hle : b.gptr ≤ b.egptr)
    (hv : v.IsOwn conn T) (last : Option Delivery) : (Unget.mk b w.io last).area.IsOwn conn T := by
  obtain ⟨rs, hd, pre, area, harea, hT, hversion, hown, hlen⟩ := hv
  have hbuffer : v.buf.buffer_ = b.buffer_ := h.buffer
  have heback : v.buf.gptr = b.eback := h.fresh.symm.trans h.eback
  have hegptr : v.buf.egptr = b.egptr := h.egptr
  have hahead : State.ahead ⟨v.buf, { io := v.io }⟩ v.buf.egptr =
      State.ahead ⟨b, { io := w.io }⟩ b.egptr := by
    rw [State.ahead, State.ahead, hegptr, hbuffer, h.end_, h.bytes]
  rw [hbuffer, heback, hegptr] at harea
  -- The character lies behind those that have been taken before it.
  have hsplit : area = b.buffer_.load b.eback (b.gptr - 1 - b.eback) ++
      b.buffer_.load (b.gptr - 1) (b.egptr - (b.gptr - 1)) := by
    rw [harea, show b.egptr - b.eback = b.gptr - 1 - b.eback + (b.egptr - (b.gptr - 1)) by omega,
      Mem.load_add, show b.eback + (b.gptr - 1 - b.eback) = b.gptr - 1 by omega]
  refine ⟨rs, hd, pre ++ b.buffer_.load b.eback (b.gptr - 1 - b.eback), _, rfl, ?_, hversion,
    h.type ▸ hown, ?_⟩
  · rw [hT, hahead, hsplit]
    simp only [List.append_assoc]
    rfl
  · rw [hsplit, List.length_append] at hlen
    rw [List.length_append]
    exact Nat.le_trans (Nat.le_of_eq (Nat.add_assoc _ _ _)) hlen

/-- **A character that is put back** is own content, if all that was handed out is. -/
theorem Held.unget_isOwn {b : ServerStreambuf} {w : World} (h : Held conn ⟨b, w⟩)
    (hlt : b.eback < b.gptr) (hr : (Unget.mk b w.io w.history.deliveries.getLast?).Regular)
    (hown : ∀ v ∈ w.history.deliveries, v.IsOwn conn T) :
    (Unget.mk b w.io w.history.deliveries.getLast?).area.IsOwn conn T := by
  obtain ⟨hle, hlast⟩ := hr
  obtain ⟨v, hv, hbytes⟩ := Option.map_eq_some_iff.mp hlast
  rcases h.last v hv with (hless | hempty) | hstill
  · exact absurd hbytes (Nat.ne_of_gt hless)
  · dsimp only at hle hempty
    omega
  · exact hstill.unget_isOwn hlt hle (hown v (List.mem_of_getLast? hv)) _

end

end Fcgi
