import Fcgi.Input.Pause

/-!
# Input — where the reader is in what the client sends

Over a clean transport all bytes to come can be reached, so a reader is at a place in the string of
them, `State.ahead`.  What is known of a `Spot` and of a `Pause` over any transport holds of it.

* `InLoop conn t size u p out bs s`: inside `underflow()`, with `u` bytes of content and `p` of
  padding left of the record it is in, and `bs` ahead.
* `Idle conn t size u p out area bs s`: between two calls, with the characters `area` at hand.

**`header_ahead`**: whatever the cuts, the rounds of `underflow()` before the next header lead to
its processing.

Beside the place these say that the reader is in order (`Steady`): its stream has not ended, nothing
is to be discarded, and what is left of the record fits into the buffer.  The theorems on the
streams of a request start from one of them and come back to it.
-/

namespace Fcgi
open Lib
open ServerStreambuf (gptr_eq egptr_eq gbump_getArea_eq)

/-- The bytes from the offset `pos` of the buffer on: those received, then those to come. -/
def State.ahead (s : State) (pos : Nat) : List UInt8 :=
  s.buf.buffer_.load pos (s.buf.bufferEnd_ - pos) ++ s.world.io.bytes

namespace State

variable {s : State} {pos k : Nat}

/-- The bytes at hand are the first of those ahead. -/
theorem take_ahead (s : State) {pos k : Nat} (h : k ≤ s.buf.bufferEnd_ - pos) :
    (s.ahead pos).take k = s.buf.buffer_.load pos k := ServerStreambuf.take_received h

/-- Some of the bytes at hand are passed over. -/
theorem drop_ahead (s : State) {pos k : Nat} (h : k ≤ s.buf.bufferEnd_ - pos) :
    (s.ahead pos).drop k = s.ahead (pos + k) := ServerStreambuf.drop_received h

/-- All the bytes at hand are ahead. -/
theorem length_ahead (s : State) (pos : Nat) : s.buf.bufferEnd_ - pos ≤ (s.ahead pos).length :=
  ServerStreambuf.length_received

/-- At the end of those received, what arrives is ahead. -/
theorem ahead_end (h : s.buf.bufferEnd_ ≤ pos) : s.ahead pos = s.world.io.bytes :=
  ServerStreambuf.received_end h

/-- Over a clean transport, what can be reached is ahead. -/
theorem reach_ahead (h : s.world.io.Clean) (pos : Nat) : s.reach pos = s.ahead pos :=
  congrArg (s.buf.received pos ++ ·) h.reach_eq

variable {b b' : ServerStreambuf} {w w' : World} {io : Io}

/-- It depends on what has been received, and the transport. -/
theorem ahead_congr (hb : b'.buffer_ = b.buffer_) (he : b'.bufferEnd_ = b.bufferEnd_)
    (hio : w'.io = w.io) : State.ahead ⟨b', w'⟩ pos = State.ahead ⟨b, w⟩ pos := by
  simp only [ahead, hb, he, hio]

/-- Bytes that arrive are the first of those to come. -/
theorem ahead_recv {bytes : List UInt8} (hend : b.gptr = b.bufferEnd_)
    (hbytes : w.io.bytes = bytes ++ io.bytes) :
    State.ahead ⟨((b.setBuffer (b.buffer_.store 0 bytes)).setBufferEnd bytes.length).setg 0 0
      bytes.length, w.setIo io⟩ 0 = State.ahead ⟨b, w⟩ b.gptr := by
  rw [ahead_end (s := ⟨b, w⟩) (Nat.le_of_eq hend.symm), hbytes]
  exact congrArg (· ++ io.bytes) (ServerStreambuf.received_recv b bytes)

end State

/-- A reader of the stream `t` in good order, over a clean transport: `u` bytes of content and `p`
bytes of padding of its record are still to come, and `out` is all that has been sent. -/
structure Steady (conn : ConnectionInfo) (t : StreamType) (size u p : Nat) (out : List UInt8)
    (s : State) : Prop where
  openReader : OpenReader conn.role s.buf
  type : s.buf.type_ = t
  bufferSize : s.buf.bufferSize_ = size
  open_ : s.buf.isEndOfStream_ = false
  kept : s.buf.isContentMustBeDiscarded_ = false
  content : s.buf.unreadContentLength_ = u
  padding : s.buf.unreadPaddingLength_ = p
  fits : u ≤ size
  clean : s.world.io.Clean
  written : s.world.io.written = out

/-- Inside `underflow()`. -/
structure InLoop (conn : ConnectionInfo) (t : StreamType) (size u p : Nat)
    (out bs : List UInt8) (s : State) : Prop extends Steady conn t size u p out s where
  bytes : s.ahead s.buf.gptr = bs

/-- Between two calls. -/
structure Idle (conn : ConnectionInfo) (t : StreamType) (size u p : Nat)
    (out area bs : List UInt8) (s : State) : Prop extends Steady conn t size u p out s where
  ordered : s.buf.gptr ≤ s.buf.egptr
  area : s.buf.buffer_.load s.buf.gptr (s.buf.egptr - s.buf.gptr) = area
  bytes : s.ahead s.buf.egptr = bs

section

variable {conn : ConnectionInfo} {t : StreamType} {size u p u' p' : Nat}
  {out area bs : List UInt8} {s s' : State}

theorem Steady.invariantOk (h : Steady conn t size u p out s) (hg : s.buf.gptr ≤ s.buf.egptr) :
    s.buf.InvariantOk conn.role :=
  h.openReader.invariantOk (by rw [h.content, h.bufferSize]; exact h.fits) hg

/-! ### A clean transport -/

theorem InLoop.spot (h : InLoop conn t size u p out bs s) :
    Spot conn t size u p false s.outer bs s :=
  ⟨⟨rfl, h.openReader, h.type, h.bufferSize, h.kept, h.content, h.padding⟩,
    (State.reach_ahead h.clean _).trans h.bytes⟩

theorem Idle.pause (h : Idle conn t size u p out area bs s) :
    Pause conn t size u p s.outer area bs s :=
  ⟨⟨rfl, h.openReader, h.type, h.bufferSize, h.kept, h.content, h.padding⟩, h.ordered, h.area,
    (State.reach_ahead h.clean _).trans h.bytes⟩

/-- Reading on, the reader stays in good order. -/
theorem Footing.steady (h' : Footing conn t size u' p' false s.outer s')
    (h : Steady conn t size u p out s) (hu : u' ≤ size) (hc : s'.world.io.Clean) :
    Steady conn t size u' p' out s' where
  openReader := h'.openReader
  type := h'.type
  bufferSize := h'.bufferSize
  open_ := (congrArg Outer.ended h'.outer).trans h.open_
  kept := h'.discard
  content := h'.content
  padding := h'.padding
  fits := hu
  clean := hc
  written := (congrArg Outer.written h'.outer).trans h.written

/-- A place over any transport, where the reader is in order. -/
theorem Spot.inLoop (h' : Spot conn t size u' p' false s.outer bs s')
    (h : Steady conn t size u p out s) (hu : u' ≤ size) (hc : s'.world.io.Clean) :
    InLoop conn t size u' p' out bs s' :=
  ⟨h'.toFooting.steady h hu hc, (State.reach_ahead hc _).symm.trans h'.bytes⟩

theorem Pause.idle (h' : Pause conn t size u' p' s.outer area bs s')
    (h : Steady conn t size u p out s) (hu : u' ≤ size) (hc : s'.world.io.Clean) :
    Idle conn t size u' p' out area bs s' :=
  ⟨h'.toFooting.steady h hu hc, h'.ordered, h'.area, (State.reach_ahead hc _).symm.trans h'.bytes⟩

/-! ### Rounds -/

/-- What `underflow()` does with a header it has read, and then. -/
def afterHeader (conn : ConnectionInfo) (header : List UInt8) (fuel : Nat) : M (Option UInt8) :=
  (do
    noteDispatch false (Header.ofBytes header)
    processAccumulated conn fuel (underflow conn fuel) header) >>=
  Prog.goOn (underflowLoop conn fuel)

/-- **The rounds before the next header.** -/
theorem InLoop.header_ahead (header : List UInt8) {pad hd rest : List UInt8}
    (h : InLoop conn t size 0 pad.length out (pad ++ (hd ++ rest)) s)
    (hlen : header.length + hd.length = 8) (hne : hd ≠ []) :
    ∃ s', InLoop conn t size 0 0 out rest s' ∧
      Prog.Leads (fun n => underflowLoop conn n header) s (afterHeader conn (header ++ hd)) s' := by
  have hpos := List.length_pos_iff.mpr hne
  have hto : toRead 0 pad.length header = (pad ++ hd).length := by
    rw [toRead, List.length_append]
    omega
  have hbytes : pad ++ (hd ++ rest) = pad ++ hd ++ rest := (List.append_assoc _ _ _).symm
  have hle : toRead 0 pad.length header ≤ (pad ++ (hd ++ rest)).length := by
    rw [hto, hbytes, (List.length_append : (pad ++ hd ++ rest).length = _)]
    exact Nat.le_add_right _ _
  obtain ⟨s', h', hclean, hleads⟩ := h.spot.header_ahead
    (show header.length ≤ 8 by omega) (fun hu => absurd hu (Nat.lt_irrefl 0)) (by simp [hne]) hle
  rw [hto, hbytes, List.drop_left] at h'
  have hcompleted : completed 0 pad.length header (pad ++ (hd ++ rest)) = header ++ hd := by
    rw [completed, Nat.zero_add, List.drop_left, List.take_left' (by omega)]
  rw [hcompleted, decide_eq_false (by omega)] at hleads
  exact ⟨s', h'.inLoop h.toSteady (Nat.zero_le _) (hclean h.clean),
    hleads.of_succ (f := fun n => underflowLoop conn n header) fun _ => rfl⟩

end

end Fcgi
