import Fcgi.Output.Close

/-!
# Output — what a writer can do to its state

`WriterStep conn s bs s'` lists every way in which the calls on an output stream change the state,
if no write fails; `bs` is what they accept.  `WriteError` is a write that fails and sends nothing,
`WriterAborted` lists the states in which the process stops.

**`overflow_steps`**, **`close_steps`**: from any buffer of an output stream, open or closed,
whatever the transport does, the calls take these steps and no others.

What is to be said of all calls is then shown for the three steps, the failed write and the aborted
states, and `overflow()` is not unfolded again.  The invariant is `WriterOk`, which allows that
pptr() is one past epptr(), as it is after a write that failed when the buffer was full: the next
`overflow()` with a character fails its assertion there.
-/

namespace Fcgi
open Lib
open ServerStreambuf (pbase_eq pptr_eq epptr_eq pbump_putArea_eq)

/-! ### Output buffers in any state -/

/-- A buffer of the output stream `t`, open or closed.  After a failed write pptr() may be one
past epptr(). -/
structure WriterOk (t : StreamType) (b : ServerStreambuf) : Prop where
  type : b.type_ = t
  output : t = .out ∨ t = .err
  putArea : (b.putArea = none ∧ b.isEndOfStream_ = true) ∨
    ∃ cur, b.putArea = some ⟨8, cur, b.bufferSize_ - 1⟩ ∧ 8 ≤ cur ∧ cur ≤ b.bufferSize_
  size_ge : 2048 ≤ b.bufferSize_
  size_le : b.bufferSize_ ≤ 65528
  size_mod : b.bufferSize_ % 8 = 0
  capacity : b.bufferSize_ ≤ b.capacity

/-- The buffer of an output stream is not a reader's. -/
theorem WriterOk.isReader {t : StreamType} {b : ServerStreambuf} (h : WriterOk t b) :
    b.isReader = false := by
  rw [ServerStreambuf.isReader, h.type]
  rcases h.output with rfl | rfl <;> rfl

theorem WriterOk.isClosed_iff {t : StreamType} {b : ServerStreambuf} (h : WriterOk t b) :
    b.isClosed = true ↔ b.putArea = none := by
  rw [ServerStreambuf.isClosed, h.isReader, if_neg Bool.false_ne_true, Option.isNone_iff_eq_none]

/-- Open, it has one, from behind the header to the last byte of the buffer. -/
theorem WriterOk.put {t : StreamType} {b : ServerStreambuf} (h : WriterOk t b)
    (hc : ¬ b.isClosed = true) :
    ∃ cur, b.putArea = some ⟨8, cur, b.bufferSize_ - 1⟩ ∧ 8 ≤ cur ∧ cur ≤ b.bufferSize_ :=
  h.putArea.resolve_left fun hn => hc (h.isClosed_iff.mpr hn.1)

/-- An open buffer is one in any state. -/
theorem Writer.writerOk {t : StreamType} {ending : Bool} {b : ServerStreambuf}
    (h : Writer t ending b) : WriterOk t b := by
  obtain ⟨cur, hp⟩ := h.putArea
  exact ⟨h.type, h.output, .inr ⟨cur, hp.area, hp.le, Nat.le_of_lt hp.lt⟩, hp.size_ge, hp.size_le,
    hp.size_mod, hp.capacity⟩

/-- The members that a buffer for output does not use. -/
structure WriteOnly (b : ServerStreambuf) : Prop where
  getArea : b.getArea = none
  content : b.unreadContentLength_ = 0
  padding : b.unreadPaddingLength_ = 0

/-- The invariant of a writer that has sent what it had. -/
theorem WriterOk.invariantOk {t : StreamType} {b : ServerStreambuf} {role : Role}
    (h : WriterOk t b) (hu : WriteOnly b) (harea : b.putArea = some ⟨8, 8, b.bufferSize_ - 1⟩) :
    b.InvariantOk role :=
  PutArea.invariantOk ⟨harea, Nat.le_refl _, Nat.lt_of_lt_of_le (by decide) h.size_ge, h.size_ge,
    h.size_le, h.size_mod, h.capacity⟩ h.isReader hu.getArea hu.content hu.padding

/-- The buffer with other contents, and another put area. -/
theorem WriterOk.of_eq {t : StreamType} {b b' : ServerStreambuf} (h : WriterOk t b)
    (ht : b'.type_ = b.type_) (hsize : b'.bufferSize_ = b.bufferSize_)
    (hcap : b'.capacity = b.capacity)
    (hput : (b'.putArea = none ∧ b'.isEndOfStream_ = true) ∨
      ∃ cur, b'.putArea = some ⟨8, cur, b.bufferSize_ - 1⟩ ∧ 8 ≤ cur ∧ cur ≤ b.bufferSize_) :
    WriterOk t b' where
  type := ht.trans h.type
  output := h.output
  putArea := hsize ▸ hput
  size_ge := hsize ▸ h.size_ge
  size_le := hsize ▸ h.size_le
  size_mod := hsize ▸ h.size_mod
  capacity := by rw [hsize, hcap]; exact h.capacity

/-! ### The steps -/

/-- The world after a call of `write` that has sent `bs`. -/
def World.sent (w : World) (bs : List UInt8) : World :=
  w.setIo { w.io with sends := w.io.sends.tail, written := w.io.written ++ bs }

/-- The world after a call of `write` that has failed. -/
def World.unsent (w : World) : World := w.setIo { w.io with sends := w.io.sends.tail }

/-- `r` is the record made of the put area and the character `ch`. -/
structure Flushes (conn : ConnectionInfo) (b : ServerStreambuf) (ch : Option UInt8) (r : Record) :
    Prop where
  area : ∃ cur, b.putArea = some ⟨8, cur, b.bufferSize_ - 1⟩ ∧ 8 < cur ∧
    cur + ch.toList.length ≤ b.bufferSize_
  eos : b.isEndOfStream_ = false
  record : StreamRecord b.type_ conn.requestId (b.pending ++ ch.toList) r
  padding : r.padding.length = Math.pad8 r.content.length

/-- `rs` are the records that end the stream, which has been asked for. -/
structure Finishes (conn : ConnectionInfo) (b : ServerStreambuf) (rs : List Record) : Prop where
  area : b.putArea = some ⟨8, 8, b.bufferSize_ - 1⟩
  eos : b.isEndOfStream_ = false
  asked : b.isEndRecordsMustBeTransmitted_ = true
  records : rs = endRecords conn b.type_ b.isPutAreaAtLeastOnceConsumed_

/-- The buffer with the record `r` built in it; pptr() is at its end. -/
def ServerStreambuf.holding (b : ServerStreambuf) (m : Mem) (r : Record) : ServerStreambuf :=
  (b.setBuffer m).pbump (r.bytes.length - b.pptr)

/-- One change of the state of a writer, in which the bytes are accepted. -/
inductive WriterStep (conn : ConnectionInfo) :
    State → List UInt8 → State → Prop
  /-- A character is put into the put area. -/
  | put {b : ServerStreambuf} {w : World} {cur : Nat} (c : UInt8)
      (hput : b.putArea = some ⟨8, cur, b.bufferSize_ - 1⟩) (hlt : cur < b.bufferSize_ - 1) :
      WriterStep conn ⟨b, w⟩ [c] ⟨(b.setBuffer (b.buffer_.store cur [c])).pbump 1, w⟩
  /-- The put area is sent, and is empty again. -/
  | flush {b : ServerStreambuf} {w : World} {ch : Option UInt8} {r : Record} (m : Mem)
      (hf : Flushes conn b ch r) : WriterStep conn ⟨b, w⟩ ch.toList
        ⟨((b.setBuffer m).setPutAreaAtLeastOnceConsumed true).setp 8 (b.bufferSize_ - 1),
          w.sent r.bytes⟩
  /-- The stream is ended. -/
  | finish {b : ServerStreambuf} {w : World} {rs : List Record} (m : Mem)
      (hf : Finishes conn b rs) : WriterStep conn ⟨b, w⟩ []
        ⟨((b.setBuffer m).setEndRecordsMustBeTransmitted false).setEndOfStream true,
          if rs = [] then w else w.sent (Frame.join rs)⟩

/-- A write fails and sends nothing. -/
inductive WriteError (conn : ConnectionInfo) : State → State → Prop
  | flush {b : ServerStreambuf} {w : World} {ch : Option UInt8} {r : Record} {m : Mem}
      (hs : .error ∈ w.io.sends) (hf : Flushes conn b ch r)
      (hm : m.load 0 r.bytes.length = r.bytes) : WriteError conn ⟨b, w⟩ ⟨b.holding m r, w.unsent⟩
  | finish {b : ServerStreambuf} {w : World} {rs : List Record} (m : Mem)
      (hs : .error ∈ w.io.sends) (hf : Finishes conn b rs) :
      WriteError conn ⟨b, w⟩ ⟨b.setBuffer m, w.unsent⟩

/-- Steps without a failed write. -/
inductive Written (conn : ConnectionInfo) (s : State) :
    List UInt8 → State → Prop
  | refl : Written conn s [] s
  | tail {bs cs : List UInt8} {s' s'' : State} (h : Written conn s bs s')
      (hs : WriterStep conn s' cs s'') : Written conn s (bs ++ cs) s''

/-- The states in which a call is aborted; `extra` tells the calls that may have a character for
`overflow()` from the others. -/
inductive WriterAborted (conn : ConnectionInfo) (extra : Bool) (s₀ : State) : State → Prop
  /-- `overflow()` on a closed stream. -/
  | closed {bs : List UInt8} {s : State} (hr : Written conn s₀ bs s)
      (hput : s.buf.putArea = none) : WriterAborted conn extra s₀ s
  /-- `overflow()` is given a character while pptr() is past epptr(). -/
  | past {bs : List UInt8} {s : State} (hr : Written conn s₀ bs s) (hextra : extra = true)
      (heos : s.buf.isEndOfStream_ = false) (hlt : s.buf.epptr < s.buf.pptr) :
      WriterAborted conn extra s₀ s
  /-- Only a part of the records is sent. -/
  | short {bs : List UInt8} {b b' : ServerStreambuf} {w : World} {rs : List Record} {n : Nat}
      (hr : Written conn s₀ bs ⟨b, w⟩) (hs : .part n ∈ w.io.sends)
      (hn : n < (Frame.join rs).length)
      (hrs : (∃ ch r, Flushes conn b ch r ∧ rs = [r]) ∨ Finishes conn b rs) :
      WriterAborted conn extra s₀ ⟨b', w.sent ((Frame.join rs).take n)⟩
  | invariant {bs : List UInt8} {s : State} (hr : Written conn s₀ bs s)
      (harea : s.buf.putArea = some ⟨8, 8, s.buf.bufferSize_ - 1⟩)
      (hi : ¬ s.buf.InvariantOk conn.role) : WriterAborted conn extra s₀ s

/-- What is known at an exit that is not a return. -/
def WriterFault (conn : ConnectionInfo) (extra : Bool) (s₀ : State) :
    Fault Exception → State → Prop
  | .exc _, s => ∃ bs s₁, Written conn s₀ bs s₁ ∧ WriteError conn s₁ s
  | .abort, s => WriterAborted conn extra s₀ s
  | .undef, _ => False
  | .spent, _ => False

section

variable {conn : ConnectionInfo} {t : StreamType} {s s' s'' : State}
  {bs cs : List UInt8}

/-- One step is a sequence of steps. -/
theorem Written.one (hs : WriterStep conn s bs s') : Written conn s bs s' :=
  .tail .refl hs

/-- Sequences of steps follow each other. -/
theorem Written.trans (h : Written conn s bs s') (h' : Written conn s' cs s'') :
    Written conn s (bs ++ cs) s'' := by
  induction h' with
  | refl => rwa [List.append_nil]
  | tail _ hs ih => rw [← List.append_assoc]; exact .tail ih hs

/-- What every step preserves holds after all of them. -/
theorem Written.invariant {I : State → Prop} (h : Written conn s bs s')
    (step : ∀ {s bs s'}, WriterStep conn s bs s' → I s → I s') (h₀ : I s) : I s' := by
  induction h with
  | refl => exact h₀
  | tail _ hs ih => exact step hs ih

/-- Every step keeps the invariant. -/
theorem WriterStep.ok (hs : WriterStep conn s bs s') (h : WriterOk t s.buf) :
    WriterOk t s'.buf := by
  have hsize := h.size_ge
  cases hs with
  | put c hput hlt =>
      obtain ⟨hn, -⟩ | ⟨cur', hput', hle, -⟩ := h.putArea
      · cases hn.symm.trans hput
      · cases hput.symm.trans hput'
        exact h.of_eq rfl rfl rfl (.inr ⟨_, pbump_putArea_eq (b := ServerStreambuf.setBuffer _ _)
          hput 1, by omega, by dsimp only at hsize ⊢; omega⟩)
  | flush m hf => exact h.of_eq rfl rfl rfl (.inr ⟨8, rfl, Nat.le_refl _, by omega⟩)
  | finish m hf => exact h.of_eq rfl rfl rfl (.inr ⟨8, hf.area, Nat.le_refl _, by omega⟩)

/-- The record is what is pending, the character and the padding behind a header; it takes a
multiple of eight bytes. -/
theorem Flushes.length_bytes {b : ServerStreambuf} {ch : Option UInt8} {r : Record}
    (h : Flushes conn b ch r) {cur lim : Nat} (hput : b.putArea = some ⟨8, cur, lim⟩) :
    r.bytes.length = cur + ch.toList.length + r.padding.length ∧ r.bytes.length % 8 = 0 ∧
      r.padding.length < 8 := by
  obtain ⟨cur', hput', hlt, -⟩ := h.area
  cases hput.symm.trans hput'
  have hcontent : r.content.length = cur - 8 + ch.toList.length := by
    rw [h.record.content, List.length_append, ServerStreambuf.pending, Mem.length_load,
      pbase_eq hput, pptr_eq hput]
  have hbytes : r.bytes.length = 8 + (r.content.length + r.padding.length) := by
    rw [r.bytes_eq, List.length_append, List.length_append, Header.length_bytes]
  have haligned := h.record.aligned
  have hpad := Math.pad8_lt r.content.length
  rw [h.padding] at *
  omega

/-- After a failed write the put area ends with the record. -/
theorem ServerStreambuf.holding_putArea {b : ServerStreambuf} {cur lim : Nat} {m : Mem} {r : Record}
    (hput : b.putArea = some ⟨8, cur, lim⟩) (hle : cur ≤ r.bytes.length) :
    (b.holding m r).putArea = some ⟨8, r.bytes.length, lim⟩ := by
  rw [ServerStreambuf.holding, pptr_eq hput,
    pbump_putArea_eq (b := b.setBuffer m) hput, Nat.add_sub_cancel' hle]

/-- A failed write keeps the invariant, too. -/
theorem WriteError.ok (he : WriteError conn s s') (h : WriterOk t s.buf) : WriterOk t s'.buf := by
  have hmod := h.size_mod
  cases he with
  | flush hs hf hm =>
      obtain ⟨cur, hput, hlt, hle⟩ := hf.area
      obtain ⟨hlen, hmod', hpad⟩ := hf.length_bytes hput
      refine h.of_eq rfl rfl rfl (.inr ⟨_, ServerStreambuf.holding_putArea hput (by omega), ?_⟩)
      dsimp only at hmod ⊢
      omega
  | finish m hs hf => exact h.of_eq rfl rfl rfl h.putArea

theorem Written.ok (h : Written conn s bs s') (hok : WriterOk t s.buf) :
    WriterOk t s'.buf := h.invariant (I := fun s => WriterOk t s.buf) (fun hs => hs.ok) hok

/-- A step uses up answers of the transport and adds none. -/
theorem WriterStep.sends (hs : WriterStep conn s bs s') :
    s'.world.io.sends ⊆ s.world.io.sends := by
  cases hs with
  | flush m hf => exact fun _ => List.mem_of_mem_tail
  | finish m hf =>
      dsimp only
      split
      · exact fun _ => id
      · exact fun _ => List.mem_of_mem_tail
  | _ => exact fun _ => id

theorem Written.sends (h : Written conn s bs s') :
    s'.world.io.sends ⊆ s.world.io.sends := by
  induction h with
  | refl => exact fun _ => id
  | tail _ hs ih => exact fun _ hx => ih (hs.sends hx)

/-- What ends a call may come after steps of it. -/
theorem WriterFault.after {extra : Bool} {x : Fault Exception} (h : Written conn s bs s')
    (hx : WriterFault conn extra s' x s'') : WriterFault conn extra s x s'' := by
  cases x with
  | exc e =>
      obtain ⟨cs, s₁, hr, he⟩ := hx
      exact ⟨_, s₁, h.trans hr, he⟩
  | abort =>
      cases hx with
      | closed hr hput => exact .closed (h.trans hr) hput
      | past hr hextra heos hlt => exact .past (h.trans hr) hextra heos hlt
      | short hr hs hn hrs => exact .short (h.trans hr) hs hn hrs
      | invariant hr harea hi => exact .invariant (h.trans hr) harea hi
  | undef => exact hx
  | spent => exact hx

end

/-! ### `overflow()` takes no other steps -/

section calls

variable {conn : ConnectionInfo} {t : StreamType} {b : ServerStreambuf}
  {w : World} {cur : Nat}

/-- The record `sendPutArea` sends. -/
theorem sendPutArea_eq (hid : conn.requestId < 65536) (hok : WriterOk t b)
    (hput : b.putArea = some ⟨8, cur, b.bufferSize_ - 1⟩) (hcur : 8 < cur)
    (heos : b.isEndOfStream_ = false) {ch : Option UInt8}
    (hle : cur + ch.toList.length ≤ b.bufferSize_) (w : World) :
    ∃ r m, Flushes conn b ch r ∧ m.load 0 r.bytes.length = r.bytes ∧
      sendPutArea conn ch ⟨b, w⟩ = (do
        onIo (Io.writeAll r.bytes)
        modifyBuf fun b => b.setPutAreaAtLeastOnceConsumed true : M Unit) ⟨b.holding m r, w⟩ := by
  have hsize := hok.size_ge
  have hsize' := hok.size_le
  have hmod := hok.size_mod
  have hcap := hok.capacity
  obtain ⟨r, m, hr, hlen, hm, heq⟩ := sendPutArea_record ch hid hput hcur (by omega)
    (by omega) (by omega) (by omega) w
  have hcontent : r.content.length = cur - 8 + ch.toList.length := by
    rw [hr.content, List.length_append, ServerStreambuf.pending, Mem.length_load, pbase_eq hput,
      pptr_eq hput]
  have hpadding : r.padding.length = Math.pad8 r.content.length := by
    rw [r.bytes_eq, List.length_append, List.length_append, Header.length_bytes] at hlen
    omega
  refine ⟨r, m, ⟨⟨cur, hput, hcur, hle⟩, heos, hr, hpadding⟩, hm, ?_⟩
  rw [ServerStreambuf.holding, pptr_eq hput]
  exact heq

/-- The three ways a write ends. -/
theorem onIo_writeAll_cases (b : ServerStreambuf) (w : World) (bytes : List UInt8) :
    onIo (Io.writeAll bytes) ⟨b, w⟩ = (.ok (), ⟨b, w.sent bytes⟩) ∨
    (.error ∈ w.io.sends ∧ ∃ e,
      onIo (Io.writeAll bytes) ⟨b, w⟩ = (.error (.exc e), ⟨b, w.unsent⟩)) ∨
    ∃ n, .part n ∈ w.io.sends ∧ n < bytes.length ∧
      onIo (Io.writeAll bytes) ⟨b, w⟩ = (.error .abort, ⟨b, w.sent (bytes.take n)⟩) := by
  rcases Io.writeAll_cases bytes w.io with h | ⟨hs, e, h⟩ | ⟨n, hs, hn, h⟩
  · exact .inl (onIo_run h)
  · exact .inr (.inl ⟨hs, e, onIo_run h⟩)
  · exact .inr (.inr ⟨n, hs, hn, onIo_run h⟩)

/-- What `overflow()` accepts of the character it is given. -/
def ServerStreambuf.accepted (b : ServerStreambuf) (ch : Option UInt8) : List UInt8 :=
  if b.pptr = b.pbase then [] else ch.toList

/-- The put area after `overflow()` has sent it. -/
structure Flushed (conn : ConnectionInfo) (s₀ : State) (ch : Option UInt8)
    (s : State) : Prop where
  written : Written conn s₀ (s₀.buf.accepted ch) s
  area : s.buf.putArea = some ⟨8, 8, s.buf.bufferSize_ - 1⟩
  eos : s.buf.isEndOfStream_ = false
  asked : s.buf.isEndRecordsMustBeTransmitted_ = s₀.buf.isEndRecordsMustBeTransmitted_

/-- Sending the put area is one step, or a failed write, or the end of the process. -/
theorem flush_steps (hid : conn.requestId < 65536) (hok : WriterOk t b)
    (hput : b.putArea = some ⟨8, cur, b.bufferSize_ - 1⟩) (hge : 8 ≤ cur)
    (hle : cur ≤ b.bufferSize_) (heos : b.isEndOfStream_ = false) (ch : Option UInt8) (w : World) :
    Triple (fun s => s = ⟨b, w⟩)
      (do sendPutArea conn ch; modifyBuf fun b => b.setp Header.size (b.bufferSize_ - 1))
      (fun _ s => Flushed conn ⟨b, w⟩ ch s) (WriterFault conn ch.isSome ⟨b, w⟩) := by
  rintro s rfl
  by_cases h8 : cur = 8
  · -- Nothing is pending, and a character would be dropped.
    subst h8
    have hacc : b.accepted ch = [] := by
      rw [ServerStreambuf.accepted, if_pos (by rw [pptr_eq hput, pbase_eq hput])]
    have hrun : sendPutArea conn ch ⟨b, w⟩ = (.ok (), ⟨b, w⟩) := by
      rw [sendPutArea, Prog.bind_ok (Prog.get_run _)]
      dsimp only
      rw [pptr_eq hput, pbase_eq hput, Nat.sub_self, if_pos rfl, Prog.pure_run]
    have hsetp : b.setp 8 (b.bufferSize_ - 1) = b := by
      cases b with
      | mk => simp only [ServerStreambuf.setp] at hput ⊢; rw [hput]
    rw [Prog.bind_ok hrun, modifyBuf_run, Header.size, hsetp]
    exact ⟨by rw [hacc]; exact .refl, hput, heos, rfl⟩
  by_cases hroom : cur + ch.toList.length ≤ b.bufferSize_
  · have hacc : b.accepted ch = ch.toList := by
      rw [ServerStreambuf.accepted, if_neg (by rw [pptr_eq hput, pbase_eq hput]; exact h8)]
    obtain ⟨r, m, hf, hm, heq⟩ := sendPutArea_eq hid hok hput (by omega) heos hroom w
    rw [Prog.bind_run, heq]
    -- The record is written whole, or the call throws, or it accepts only the beginning.
    rcases onIo_writeAll_cases (b.holding m r) w r.bytes with h | ⟨hs, e, h⟩ | ⟨n, hs, hn, h⟩
    · rw [Prog.bind_ok h, modifyBuf_run]
      refine ⟨?_, rfl, heos, rfl⟩
      rw [hacc]
      exact .one (.flush m hf)
    · rw [Prog.bind_error h]
      exact ⟨_, _, .refl, .flush hs hf hm⟩
    · have hjoin : r.bytes = Frame.join [r] := by
        rw [Frame.join_cons, Frame.join_nil, List.append_nil]
      rw [Prog.bind_error h, hjoin]
      exact .short .refl hs (hjoin ▸ hn) (.inl ⟨ch, r, hf, rfl⟩)
  · -- The buffer is full to its last byte: pptr() is past epptr().
    have hlt : b.epptr < b.pptr := by
      have : ch.toList.length ≤ 1 := by cases ch <;> simp
      have := hok.size_ge
      rw [pptr_eq hput, epptr_eq hput]
      omega
    -- Only an extra character meets the assertion of `sputc()`.
    cases ch with
    | none => exact absurd hle (by simpa using hroom)
    | some c =>
        have hrun : sendPutArea conn (some c) ⟨b, w⟩ = (.error .abort, ⟨b, w⟩) := by
          rw [sendPutArea, Prog.bind_ok (Prog.get_run _)]
          dsimp only
          rw [pptr_eq hput, pbase_eq hput, if_neg (by omega), Prog.bind_error (x := .abort)]
          rw [storeExtra, Prog.bind_ok (Prog.get_run _), Prog.bind_error]
          rw [Prog.assert_run, if_neg (Nat.not_le_of_lt hlt)]
        rw [Prog.bind_error hrun]
        exact .past .refl rfl heos hlt

theorem sendEndRecords_steps (extra : Bool) (hok : WriterOk t b) (w : World) {rs : List Record}
    (hf : Finishes conn b rs) :
    Triple (fun s => s = ⟨b, w⟩) (sendEndRecords conn)
      (fun _ s => Written conn ⟨b, w⟩ [] s ∧ s.buf.isEndOfStream_ = true ∧
        s.buf.isEndRecordsMustBeTransmitted_ = false ∧
        s.buf.putArea = some ⟨8, 8, s.buf.bufferSize_ - 1⟩) (WriterFault conn extra ⟨b, w⟩) := by
  rintro s rfl
  have hsize := hok.size_ge
  have hcap := hok.capacity
  obtain ⟨m, heq⟩ := sendEndRecords_eq hok.type hok.output hf.area (by omega) w
  have hrs : endRecords conn t b.isPutAreaAtLeastOnceConsumed_ = rs := by
    rw [hf.records, hok.type]
  have hdone : Written conn ⟨b, w⟩ [] _ := .one (.finish m hf)
  rw [heq, hrs]
  by_cases hnil : rs = []
  · rw [if_pos hnil] at hdone
    rw [if_pos hnil, Prog.bind_ok (Prog.pure_run _ _), modifyBuf_run]
    exact ⟨hdone, rfl, rfl, hf.area⟩
  · rw [if_neg hnil] at hdone
    rw [if_neg hnil]
    rcases onIo_writeAll_cases (b.setBuffer m) w (Frame.join rs) with h | ⟨hs, e, h⟩ |
      ⟨n, hs, hn, h⟩
    · rw [Prog.bind_ok h, modifyBuf_run]
      exact ⟨hdone, rfl, rfl, hf.area⟩
    · rw [Prog.bind_error h]
      exact ⟨_, _, .refl, .finish m hs hf⟩
    · rw [Prog.bind_error h]
      exact .short .refl hs hn (.inr hf)

/-- Where nothing is pending the invariant is asserted; where it does not hold, the process stops.
-/
theorem assertInvariantOk_writer (extra : Bool) {s₀ s : State} {bs : List UInt8}
    (hr : Written conn s₀ bs s) (harea : s.buf.putArea = some ⟨8, 8, s.buf.bufferSize_ - 1⟩) :
    Triple (fun s' => s' = s) (assertInvariantOk conn)
      (fun _ s' => s' = s ∧ s.buf.InvariantOk conn.role) (WriterFault conn extra s₀) := by
  refine Triple.get fun s' hs' => Triple.assert (fun t ht hi => ⟨ht.trans hs', hs' ▸ hi⟩)
    fun t ht hi => ?_
  subst ht hs'
  exact .invariant hr harea hi

/-- What is known of a result of `overflow()`. -/
def Overflown (conn : ConnectionInfo) (s₀ : State) (ch : Option UInt8) :
    Option UInt8 → State → Prop
  | none, s => s = s₀ ∧ s₀.buf.isEndOfStream_ = true ∧ s₀.buf.isClosed = false
  | some c, s => c = ch.getD 0 ∧ Written conn s₀ (s₀.buf.accepted ch) s ∧
      s₀.buf.isClosed = false ∧ s.buf.isEndOfStream_ = s₀.buf.isEndRecordsMustBeTransmitted_ ∧
      s.buf.isEndRecordsMustBeTransmitted_ = false ∧ s.buf.InvariantOk conn.role

/-- **The steps of `overflow()`.**  From any output buffer, whatever the transport does. -/
theorem overflow_steps (hid : conn.requestId < 65536) {s₀ : State}
    (hok : WriterOk t s₀.buf) (ch : Option UInt8) :
    Triple (fun s => s = s₀) (overflow conn ch) (Overflown conn s₀ ch)
      (WriterFault conn ch.isSome s₀) := by
  obtain ⟨b, w⟩ := s₀
  refine Triple.get fun s hs => ?_
  subst hs
  refine Triple.bind (Triple.assert (Q := fun _ s => s = ⟨b, w⟩ ∧ b.isClosed = false)
    (fun _ ht hp => ⟨ht, Bool.eq_false_iff.mpr hp.2⟩) fun _ ht hp => ?_) fun _ => ?_
  · subst ht
    refine .closed .refl (hok.isClosed_iff.mp ?_)
    by_contra hc
    exact hp ⟨by rw [hok.isReader]; nofun, hc⟩
  refine Triple.ite (fun heos => Triple.pure fun _ ht => ⟨ht.1, heos, ht.2⟩) fun heos => ?_
  rintro s ⟨rfl, hopen⟩
  have heos : b.isEndOfStream_ = false := Bool.eq_false_iff.mpr heos
  obtain ⟨cur, hput, hge, hle⟩ := hok.put (Bool.eq_false_iff.mp hopen)
  rw [Prog.bind_ok (Prog.assert_true (p := b.pbase = Header.size) (pbase_eq hput) _)]
  rw [← bind_assoc]
  -- The pending record goes out first; the end records follow if they were asked for.
  refine Triple.bind (flush_steps hid hok hput hge hle heos ch w) (fun _ => ?_) _ rfl
  refine Triple.get fun s hs => ?_
  have hsok : WriterOk t s.buf := hs.written.ok hok
  refine Triple.ite (fun hask => ?_) fun hask => ?_
  · have hask₀ : b.isEndRecordsMustBeTransmitted_ = true := hs.asked.symm.trans hask
    have hf : Finishes conn s.buf _ := ⟨hs.area, hs.eos, hask, rfl⟩
    refine Triple.bind ((sendEndRecords_steps _ hsok s.world hf).conseq (fun _ ht => ht)
      (fun _ _ ht => ht) fun _ _ hx => hx.after hs.written) fun _ => ?_
    rintro s₁ ⟨hr, heos₁, hask₁, harea⟩
    have hr₁ : Written conn ⟨b, w⟩ (b.accepted ch) s₁ := by
      rw [← List.append_nil (b.accepted ch)]
      exact hs.written.trans hr
    exact Triple.bind (assertInvariantOk_writer _ hr₁ harea) (fun _ => Triple.pure fun s ht => by
      obtain ⟨rfl, hi⟩ := ht
      exact ⟨rfl, hr₁, hopen, heos₁.trans hask₀.symm, hask₁, hi⟩) _ rfl
  · have hask : s.buf.isEndRecordsMustBeTransmitted_ = false := Bool.eq_false_iff.mpr hask
    refine Triple.bind (assertInvariantOk_writer _ hs.written hs.area) fun _ =>
      Triple.pure fun s₁ ht => ?_
    obtain ⟨rfl, hi⟩ := ht
    exact ⟨rfl, hs.written, hopen, hs.eos.trans (hs.asked.symm.trans hask).symm, hask, hi⟩

/-! ### The calls that lead to it -/

/-- `sync()` does what `overflow()` without a character does, or nothing, where the stream has
ended. -/
theorem sync_steps (hid : conn.requestId < 65536) {s₀ : State}
    (hok : WriterOk t s₀.buf) :
    Triple (fun s => s = s₀) (sync conn) (fun r s => if r = -1 then s = s₀ ∧
        s₀.buf.isEndOfStream_ = true ∧ s₀.buf.isClosed = false
      else Overflown conn s₀ none (some 0) s) (WriterFault conn false s₀) := by
  refine Triple.bind (overflow_steps hid hok none) fun r => Triple.pure fun s hs => ?_
  cases r with
  | none => exact hs
  | some c =>
      obtain rfl : c = 0 := hs.1
      exact hs

/-- A character is accepted by steps, or refused where the stream has ended. -/
theorem sputc_steps (hid : conn.requestId < 65536) {s₀ : State} (hok : WriterOk t s₀.buf)
    (c : UInt8) :
    Triple (fun s => s = s₀) (sputc conn c)
      (fun r s => if r = none then s = s₀ ∧ s₀.buf.isEndOfStream_ = true
        else r = some c ∧ Written conn s₀ [c] s) (WriterFault conn true s₀) := by
  refine Triple.get fun s hs => ?_
  subst hs
  obtain ⟨b, w⟩ := s
  refine Triple.ite (fun hlt => ?_) fun hge => ?_
  · dsimp only at hlt ⊢
    obtain ⟨hput, -⟩ | ⟨cur, hput, hge, hle⟩ := hok.putArea
    · dsimp only at hput
      rw [ServerStreambuf.pptr, ServerStreambuf.epptr, hput] at hlt
      exact absurd hlt (Nat.lt_irrefl 0)
    · dsimp only at hput hge hle
      have hcap := hok.capacity
      dsimp only at hcap
      rw [pptr_eq hput, epptr_eq hput] at hlt
      rw [pptr_eq hput]
      rintro _ rfl
      rw [Prog.bind_ok (storeBuf_run (by rw [List.length_singleton]; omega)),
        Prog.bind_ok (modifyBuf_run _), Prog.pure_run]
      exact ⟨rfl, .one (.put c hput hlt)⟩
  · refine (overflow_steps hid hok (some c)).post fun r s hs => ?_
    cases r with
    | none => exact ⟨hs.1, hs.2.1⟩
    | some x =>
        -- The put area is full, so the character is accepted.
        obtain ⟨rfl, hwritten, hopen, -⟩ := hs
        obtain ⟨cur, hput, hge', hle⟩ := hok.put (Bool.eq_false_iff.mp hopen)
        have hsize := hok.size_ge
        dsimp only at hput hge' hle hge hsize
        rw [pptr_eq hput, epptr_eq hput] at hge
        rw [ServerStreambuf.accepted, if_neg (by
          dsimp only; rw [pptr_eq hput, pbase_eq hput]; omega)] at hwritten
        exact ⟨rfl, hwritten⟩

/-- A sequence is accepted by steps as far as the stream is open. -/
theorem xsputn_steps (hid : conn.requestId < 65536) : ∀ (bytes : List UInt8) {s₀ : State},
    WriterOk t s₀.buf → Triple (fun s => s = s₀) (xsputn conn bytes)
      (fun n s => Written conn s₀ (bytes.take n) s ∧
        (n < bytes.length → s.buf.isEndOfStream_ = true)) (WriterFault conn true s₀)
  | [], _, _ => Triple.pure fun s hs => ⟨hs ▸ .refl, fun h => absurd h (Nat.lt_irrefl 0)⟩
  | c :: cs, s₀, hok => by
      refine Triple.bind (sputc_steps hid hok c) fun r => ?_
      cases r with
      | none =>
          refine Triple.pure fun s hs => ?_
          obtain ⟨rfl, heos⟩ := hs
          exact ⟨.refl, fun _ => heos⟩
      | some x =>
          intro s₁ hs₁
          have hr : Written conn s₀ [c] s₁ := hs₁.2
          refine Triple.bind ((xsputn_steps hid cs (hr.ok hok)).conseq (fun _ ht => ht)
            (fun _ _ ht => ht) fun _ _ hx => hx.after hr) (fun n =>
              Triple.pure fun s hs => ?_) _ rfl
          exact ⟨hr.trans hs.1, fun hlt => hs.2 (Nat.lt_of_succ_lt_succ hlt)⟩

/-- The end of the stream is asked for. -/
def State.asked (s : State) : State := ⟨s.buf.setEndRecordsMustBeTransmitted true, s.world⟩

/-- The stream is closed. -/
def State.shut (s : State) : State := ⟨s.buf.setgNull.setpNull, s.world⟩

/-- Asking for the end keeps the invariant. -/
theorem WriterOk.asked {s : State} (h : WriterOk t s.buf) : WriterOk t s.asked.buf :=
  h.of_eq rfl rfl rfl h.putArea

theorem WriterOk.shut {s : State} (h : WriterOk t s.buf) (heos : s.buf.isEndOfStream_ = true) :
    WriterOk t s.shut.buf := h.of_eq rfl rfl rfl (.inl ⟨rfl, heos⟩)

/-- The invariant of a writer that has been closed. -/
theorem WriterOk.shut_invariantOk {s : State} {role : Role} (h : WriterOk t s.buf)
    (hu : WriteOnly s.buf)
    (heos : s.buf.isEndOfStream_ = true) : s.shut.buf.InvariantOk role := by
  have hr : s.shut.buf.isReader = false := h.isReader
  have hc : s.shut.buf.isClosed = true := by rw [ServerStreambuf.isClosed, hr]; rfl
  have hcontent : s.shut.buf.unreadContentLength_ = 0 := hu.content
  have hpadding : s.shut.buf.unreadPaddingLength_ = 0 := hu.padding
  simp only [ServerStreambuf.InvariantOk, hr, hc, hcontent, hpadding]
  exact ⟨fun hn => absurd hn Bool.false_ne_true, ⟨h.size_ge, h.size_le, h.size_mod⟩,
    ⟨Nat.zero_le _, Nat.zero_le _⟩, ⟨Nat.zero_le _, Nat.zero_le _⟩,
    fun hn => absurd hn Bool.false_ne_true, .inl ⟨trivial, .inr heos, rfl, rfl⟩,
    .inr (.inl trivial), .inl Bool.false_ne_true⟩

/-- The stream has been ended in the state `s`, as `close()` asked for in `s₀`. -/
structure StreamEnded (conn : ConnectionInfo) (s₀ s : State) : Prop where
  written : Written conn s₀.asked [] s
  eos : s.buf.isEndOfStream_ = true
  asked : s.buf.isEndRecordsMustBeTransmitted_ = false
  invariantOk : s.buf.InvariantOk conn.role

/-- The states in which `close()` is aborted. -/
inductive CloseAborted (conn : ConnectionInfo) (inbuf : ServerStreambuf) (s₀ : State) :
    State → Prop
  | overflow {s : State} (h : WriterAborted conn false s₀.asked s) : CloseAborted conn inbuf s₀ s
  | input (hin : ¬ InputOpen conn.role inbuf) : CloseAborted conn inbuf s₀ s₀
  /-- The stream had been ended before. -/
  | ended (heos : s₀.buf.isEndOfStream_ = true) (hmay : MayClose conn.role inbuf) :
      CloseAborted conn inbuf s₀ s₀.asked
  | invariant {s : State} (h : StreamEnded conn s₀ s) (hi : ¬ s.shut.buf.InvariantOk conn.role) :
      CloseAborted conn inbuf s₀ s.shut

/-- What is known where `close()` faults. -/
def CloseFault (conn : ConnectionInfo) (inbuf : ServerStreambuf) (s₀ : State) :
    Fault Exception → State → Prop
  | .exc e, s => s₀.buf.isClosed = false ∧ WriterFault conn false s₀.asked (.exc e) s ∨
      s = s₀ ∧ ¬ MayClose conn.role inbuf
  | .abort, s => s₀.buf.isClosed = false ∧ CloseAborted conn inbuf s₀ s
  | .undef, _ => False
  | .spent, _ => False

/-- **The steps of `close()`.** -/
theorem close_steps (hid : conn.requestId < 65536) (inbuf : ServerStreambuf) {s₀ : State}
    (hok : WriterOk t s₀.buf) :
    Triple (fun s => s = s₀) (close conn inbuf)
      (fun _ s => s₀.buf.isClosed = true ∧ s = s₀ ∨
        s₀.buf.isClosed = false ∧ ∃ s₁, StreamEnded conn s₀ s₁ ∧ s = s₁.shut)
      (CloseFault conn inbuf s₀) := by
  refine Triple.get fun s hs => ?_
  subst hs
  refine Triple.ite (fun hc => Triple.pure fun _ ht => .inl ⟨hc, ht⟩) fun hc => ?_
  have hopen : s.buf.isClosed = false := Bool.eq_false_iff.mpr hc
  refine Triple.ite (fun _ => ?_) fun hr => absurd (by rw [hok.isReader]; nofun) hr
  -- The assertions on the input buffer; each of their failures is named in `CloseFault`.
  refine Triple.bind (Triple.assert (Q := fun _ t => t = s ∧ (inbuf.isReader = true ∧
    ¬ inbuf.isClosed = true)) (fun _ ht hp => ⟨ht, hp⟩) fun _ ht hp => ?_) fun _ => ?_
  · subst ht
    exact ⟨hopen, .input fun h => hp ⟨h.reader, Bool.eq_false_iff.mp h.open_⟩⟩
  refine Triple.bind (Triple.assert (Q := fun _ t => t = s) (fun _ ht _ => ht.1)
    fun _ ht hp => ?_) fun _ => ?_
  · obtain ⟨rfl, -⟩ := ht
    exact ⟨hopen, .input fun h => hp h.stream⟩
  refine Triple.ite (fun hmay => ?_) fun hmay => Triple.throw fun _ ht => .inr ⟨ht, hmay⟩
  -- From here the end of the stream is asked for, and `sync()` writes what is pending.
  refine Triple.bind (Q := fun _ t => t = s.asked) (fun _ ht => by subst ht; rfl) fun _ => ?_
  refine Triple.bind ((sync_steps hid hok.asked).conseq (fun _ => id)
    (fun _ _ => id) fun x t hx => ?_) fun r => ?_
  · cases x with
    | exc e => exact .inl ⟨hopen, hx⟩
    | abort => exact ⟨hopen, .overflow hx⟩
    | undef => exact hx
    | spent => exact hx
  refine Triple.get fun s₂ hs₂ => ?_
  by_cases hr : r = -1
  · -- The stream had been ended before: the assertion fails.
    rw [if_pos hr] at hs₂
    obtain ⟨rfl, heos, -⟩ := hs₂
    refine Triple.bind (Triple.assert (Q := fun _ _ => False) (fun _ _ hp => absurd rfl hp.2)
      fun _ ht _ => ?_) fun _ _ h => h.elim
    subst ht
    exact ⟨hopen, .ended heos hmay⟩
  rw [if_neg hr] at hs₂
  obtain ⟨-, hwritten, -, heos, hasked, hi⟩ := hs₂
  have hended : StreamEnded conn s s₂ :=
    ⟨by simpa only [ServerStreambuf.accepted, Option.toList_none, ite_self] using hwritten,
      heos, hasked, hi⟩
  refine Triple.bind (Triple.assert (Q := fun _ t => t = s₂) (fun _ ht _ => ht)
    fun _ _ hp => absurd ⟨hended.eos, by rw [hasked]; nofun⟩ hp) fun _ => ?_
  refine Triple.bind (Q := fun _ t => t = s₂.shut) (fun _ ht => by subst ht; rfl) fun _ => ?_
  refine Triple.get fun s₃ hs₃ => ?_
  subst hs₃
  have hclosed : s₂.shut.buf.isClosed = true :=
    ((hended.written.ok hok.asked).shut hended.eos).isClosed_iff.mpr rfl
  refine Triple.bind (Triple.assert (Q := fun _ t => t = s₂.shut) (fun _ ht _ => ht)
    fun _ _ hp => absurd hclosed hp) fun _ => Triple.get fun s₄ hs₄ => ?_
  subst hs₄
  refine Triple.assert (fun _ ht _ => .inr ⟨hopen, s₂, hended, ht⟩) fun _ ht hi => ?_
  subst ht
  exact ⟨hopen, .invariant hended hi⟩

end calls

end Fcgi
