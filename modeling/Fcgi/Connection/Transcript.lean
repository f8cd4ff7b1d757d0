import Fcgi.Output.Close
import Fcgi.Connection.Runs

/-!
# Connection — what a connection writes

A run that uses the two output streams and then closes the connection.  `Wrote ops c c'` is the
invariant of its first part: the records sent so far, and what is pending.

**`output_transcript`**: the bytes written are records of the connection's request; their contents
are what the application wrote to `out()` and `err()`, and only the end of each stream is an empty
record.

The two streams write to one descriptor, so their records come in any order; what is said of one of
them is said of its own records (`streamContent`) and is not changed by those of the other
(`StreamWrote`).  The records of `close()` are at most five (`Closing`): what is pending in `err()`
and the end of it, if it has been used; what is pending in `out()`, the end of it and that of the
request.
-/

namespace Fcgi
open Lib

/-- The contents of the records of the stream `t`, one after another. -/
def streamContent (t : StreamType) (rs : List Record) : List UInt8 :=
  (rs.filter fun r => r.recordType = t.recordType).flatMap Record.content

/-- The contents of records that follow each other. -/
theorem streamContent_append (t : StreamType) (rs rs' : List Record) :
    streamContent t (rs ++ rs') = streamContent t rs ++ streamContent t rs' := by
  rw [streamContent, List.filter_append, List.flatMap_append]; rfl

/-- Where all records are of the stream, none is left out. -/
theorem streamContent_of_type {t : StreamType} {rs : List Record}
    (h : ∀ r ∈ rs, r.recordType = t.recordType) :
    streamContent t rs = rs.flatMap Record.content := by
  rw [streamContent, List.filter_eq_self.mpr fun r hr => decide_eq_true (h r hr)]

/-- Where those of the stream are empty, there is no content. -/
theorem streamContent_eq_nil {t : StreamType} {rs : List Record}
    (h : ∀ r ∈ rs, r.recordType = t.recordType → r.content = []) : streamContent t rs = [] :=
  List.flatMap_eq_nil_iff.mpr fun r hr =>
    h r (List.mem_filter.mp hr).1 (of_decide_eq_true (List.mem_filter.mp hr).2)

/-! ### The calls on the output streams -/

/-- The bytes a call writes. -/
def OutOp.bytes : OutOp → List UInt8
  | .put c => [c]
  | .write bytes => bytes
  | .flush => []
  | .clear => []

/-- The bytes a call writes to `out()`. -/
def Op.outBytes : Op → List UInt8
  | .out op => op.bytes
  | _ => []

/-- The bytes a call writes to `err()`. -/
def Op.errBytes : Op → List UInt8
  | .err op => op.bytes
  | _ => []

/-- The application status after a call. -/
def Op.status (status : BitVec 32) : Op → BitVec 32
  | .setApplicationStatus status => status
  | _ => status

/-- Whether a call is made on an output stream or sets the application status. -/
def Op.isOutput : Op → Bool
  | .out _ => true
  | .err _ => true
  | .setApplicationStatus _ => true
  | _ => false

/-- A call on a good output stream transmits its bytes. -/
theorem OutOp.exec_transmits (op : OutOp) (conn : ConnectionInfo) {t : StreamType} {s : State}
    (hid : conn.requestId < 65536) (hsends : s.world.io.sends = []) (h : Writer t false s.buf) :
    ∃ s', op.exec conn false s = (.ok false, s') ∧ Transmits conn op.bytes s s' := by
  obtain ⟨b, w⟩ := s
  cases op with
  | put c =>
      obtain ⟨s', hrun, ht⟩ := sputc_transmits hid hsends h c
      exact ⟨s', by rw [OutOp.exec, if_neg Bool.false_ne_true,
        Prog.bind_ok (Prog.attempt_ok hrun)]; rfl, ht⟩
  | write bytes =>
      obtain ⟨s', hrun, ht⟩ := xsputn_transmits hid bytes hsends h
      refine ⟨s', ?_, ht⟩
      rw [OutOp.exec, if_neg Bool.false_ne_true, Prog.bind_ok (Prog.attempt_ok hrun)]
      simp
  | flush =>
      obtain ⟨s', hrun, ht⟩ := sync_transmits hid hsends h
      exact ⟨s', by rw [OutOp.exec, if_neg Bool.false_ne_true, pubsync,
        Prog.bind_ok (Prog.attempt_ok hrun)]; rfl, ht⟩
  | clear => exact ⟨⟨b, w⟩, rfl, Transmits.refl (h.type ▸ h)⟩

/-- A record of one of the output streams, with content. -/
def OutputRecord (id : Nat) (r : Record) : Prop :=
  r.content ≠ [] ∧ ∃ t, (t = .out ∨ t = .err) ∧ StreamRecord t id r.content r

/-- From `b` to `b'`, the bytes have been written to the stream `t`, and the records of it among
`rs` have been sent. -/
structure StreamWrote (t : StreamType) (rs : List Record) (bytes : List UInt8)
    (b b' : ServerStreambuf) : Prop where
  writer : Writer t false b'
  content : streamContent t rs ++ b'.pending = b.pending ++ bytes
  consumed : b'.isPutAreaAtLeastOnceConsumed_ =
    (b.isPutAreaAtLeastOnceConsumed_ || rs.any fun r => r.recordType = t.recordType)

namespace StreamWrote

variable {t : StreamType} {rs rs' : List Record} {bytes bytes' : List UInt8}
  {b b' b'' : ServerStreambuf}

/-- What is written one after the other is written together. -/
theorem trans (h : StreamWrote t rs bytes b b') (h' : StreamWrote t rs' bytes' b' b'') :
    StreamWrote t (rs ++ rs') (bytes ++ bytes') b b'' where
  writer := h'.writer
  content := by
    rw [streamContent_append, List.append_assoc, h'.content, ← List.append_assoc, h.content,
      List.append_assoc]
  consumed := by rw [h'.consumed, h.consumed, List.any_append, Bool.or_assoc]

/-- What is written to the other stream does not concern this one. -/
theorem other (h : Writer t false b) (hrs : ∀ r ∈ rs, r.recordType ≠ t.recordType) :
    StreamWrote t rs [] b b where
  writer := h
  content := by
    rw [streamContent_eq_nil fun r hr e => absurd e (hrs r hr), List.append_nil, List.nil_append]
  consumed := by
    rw [List.any_eq_false.mpr fun r hr => by simpa using hrs r hr, Bool.or_false]

theorem same (h : Writer t false b') (hrs : ∀ r ∈ rs, r.recordType = t.recordType)
    (hc : rs.flatMap Record.content ++ b'.pending = b.pending ++ bytes)
    (hp : b'.isPutAreaAtLeastOnceConsumed_ =
      (b.isPutAreaAtLeastOnceConsumed_ || !rs.isEmpty)) : StreamWrote t rs bytes b b' where
  writer := h
  content := by rw [streamContent_of_type hrs, hc]
  consumed := by
    rw [hp]
    cases rs with
    | nil => rfl
    | cons r rs => simp [hrs r List.mem_cons_self]

end StreamWrote

/-- From `c` to `c'`, the calls `ops` have been made, and the records `rs` have been sent. -/
structure Wrote (ops : List Op) (rs : List Record) (c c' : Connection) : Prop where
  role : c'.role_ = c.role_
  requestId : c'.requestId_ = c.requestId_
  in_ : c'.in_ = c.in_
  good : c'.out_.bad = false ∧ c'.err_.bad = false
  status : c'.applicationStatus_ = ops.foldl Op.status c.applicationStatus_
  world : c'.world = c.world.send (Frame.join rs)
  records : ∀ r ∈ rs, OutputRecord c.requestId_ r
  out : StreamWrote .out rs (ops.flatMap Op.outBytes) c.out_.streambuf_ c'.out_.streambuf_
  err : StreamWrote .err rs (ops.flatMap Op.errBytes) c.err_.streambuf_ c'.err_.streambuf_

namespace Wrote

variable {ops ops' : List Op} {rs rs' : List Record} {c c' c'' : Connection}

theorem refl (h : Writable c) : Wrote [] [] c c where
  role := rfl
  requestId := rfl
  in_ := rfl
  good := h.good
  status := rfl
  world := (World.send_nil _).symm
  records := nofun
  out := .other h.out nofun
  err := .other h.err nofun

/-- A connection that has written is writable. -/
theorem writable (h : Wrote ops rs c c') (hc : Writable c) : Writable c' where
  id := h.requestId ▸ hc.id
  sends := by rw [h.world]; exact hc.sends
  good := h.good
  out := h.out.writer
  err := h.err.writer
  in_ := by rw [h.role, h.in_]; exact hc.in_
  mayRead := by rw [h.role, h.in_]; exact hc.mayRead

/-- Runs of output calls follow each other. -/
theorem trans (h : Wrote ops rs c c') (h' : Wrote ops' rs' c' c'') :
    Wrote (ops ++ ops') (rs ++ rs') c c'' where
  role := h'.role.trans h.role
  requestId := h'.requestId.trans h.requestId
  in_ := h'.in_.trans h.in_
  good := h'.good
  status := by rw [h'.status, h.status, List.foldl_append]
  world := by rw [h'.world, h.world, World.send_send, Frame.join_append]
  records := fun r hr => (List.mem_append.mp hr).elim (h.records r)
    fun hr => h.requestId ▸ h'.records r hr
  out := by rw [List.flatMap_append]; exact h.out.trans h'.out
  err := by rw [List.flatMap_append]; exact h.err.trans h'.err

end Wrote

section

variable {fuel : Nat} {c : Connection}

/-- One call. -/
theorem Op.exec_wrote (hc : Writable c) : ∀ {op : Op}, op.isOutput = true →
    ∃ rs c', op.exec fuel c = (.ok (), c') ∧ Wrote [op] rs c c'
  | .out op, _ => by
      obtain ⟨s', hrun, ht⟩ := op.exec_transmits c.info (s := c.outState) hc.id
        hc.sends hc.out
      obtain ⟨rs, hw, hrs, hcontent, hused⟩ := ht.records
      -- All records are of this stream, so the other one is left as it is.
      have htype : ∀ r ∈ rs, r.recordType = .out := fun r hr => by
        have := (hrs r hr).2.recordType
        rwa [show c.outState.buf.type_ = .out from hc.out.type] at this
      refine ⟨rs, { c.setOut s' with out_.bad := false }, ?_, rfl, rfl, rfl, ⟨rfl, hc.good.2⟩,
        rfl, hw, fun r hr => ⟨(hrs r hr).1, .out, .inl rfl, hc.out.type ▸ (hrs r hr).2⟩,
        .same (hc.out.type ▸ ht.writer) htype ?_ hused,
        .other hc.err fun r hr => by rw [htype r hr]; decide⟩
      · rw [Op.exec, Prog.bind_ok (Prog.get_run _), hc.good.1,
          Prog.bind_ok (Connection.onOut_run hrun)]
        rfl
      · rw [List.flatMap_singleton]
        exact hcontent
  | .err op, _ => by
      obtain ⟨s', hrun, ht⟩ := op.exec_transmits c.info (s := c.errState) hc.id
        hc.sends hc.err
      obtain ⟨rs, hw, hrs, hcontent, hused⟩ := ht.records
      have htype : ∀ r ∈ rs, r.recordType = .err := fun r hr => by
        have := (hrs r hr).2.recordType
        rwa [show c.errState.buf.type_ = .err from hc.err.type] at this
      refine ⟨rs, { c.setErr s' with err_.bad := false }, ?_, rfl, rfl, rfl, ⟨hc.good.1, rfl⟩,
        rfl, hw, fun r hr => ⟨(hrs r hr).1, .err, .inr rfl, hc.err.type ▸ (hrs r hr).2⟩,
        .other hc.out fun r hr => by rw [htype r hr]; decide,
        .same (hc.err.type ▸ ht.writer) htype ?_ hused⟩
      · rw [Op.exec, Prog.bind_ok (Prog.get_run _), hc.good.2,
          Prog.bind_ok (Connection.onErr_run hrun)]
        rfl
      · rw [List.flatMap_singleton]
        exact hcontent
  | .setApplicationStatus status, _ =>
      ⟨[], { c with applicationStatus_ := status }, rfl, rfl, rfl, rfl, hc.good, rfl,
        (World.send_nil _).symm, nofun, .other hc.out nofun, .other hc.err nofun⟩

/-- **The invariant of a run that writes.** -/
theorem run_wrote : ∀ {ops : List Op} {c : Connection}, Writable c →
    (∀ op ∈ ops, op.isOutput = true) →
    ∃ rs c', run fuel ops c = (.ok (), c') ∧ Wrote ops rs c c'
  | [], c, hc, _ => ⟨[], c, rfl, .refl hc⟩
  | op :: ops, c, hc, hops => by
      obtain ⟨rs, c₁, hop, hw⟩ := op.exec_wrote hc (hops op List.mem_cons_self)
      obtain ⟨rs', c', hrun, hw'⟩ := run_wrote (hw.writable hc)
        fun op h => hops op (List.mem_cons_of_mem _ h)
      exact ⟨rs ++ rs', c', by rw [run_cons_ok hop, hrun], hw.trans hw'⟩

end

/-! ### Closing the connection -/

/-- A connection with its three streams closed. -/
structure Closed (c : Connection) : Prop where
  in_ : c.in_.streambuf_.isClosed = true
  out : c.out_.streambuf_.isClosed = true
  err : c.err_.streambuf_.isClosed = true

/-- `close()` of a closed connection does nothing. -/
theorem Closed.close {c : Connection} (h : Closed c) : Connection.close c = (.ok (), c) := by
  rw [Connection.close, Prog.bind_ok (Prog.get_run _),
    Prog.bind_ok (Connection.onErr_run (s := c.errState) (close_closed h.err)),
    Prog.bind_ok (Connection.onOut_run (s := c.outState) (close_closed h.out)),
    Connection.onIn_run (s := c.inState) (close_closed h.in_)]
  rfl

theorem Closed.run {c : Connection} (h : Closed c) (fuel : Nat) : ∀ k,
    run fuel (List.replicate k .close) c = (.ok (), c)
  | 0 => rfl
  | k + 1 => by
      rw [List.replicate_succ, run_cons_ok (show Op.exec fuel .close c = _ from h.close)]
      exact h.run fuel k

/-- The connection `c` is closed by `rs`: the rest of `err()`, its end, the rest of `out()`, its
end and the end of the request. -/
structure Closing (c : Connection) (errs outs rs : List Record) : Prop where
  err : ∀ r ∈ errs, r.content ≠ [] ∧ StreamRecord .err c.requestId_ r.content r
  out : ∀ r ∈ outs, r.content ≠ [] ∧ StreamRecord .out c.requestId_ r.content r
  errPending : errs.flatMap Record.content = c.err_.streambuf_.pending
  outPending : outs.flatMap Record.content = c.out_.streambuf_.pending
  eq : rs = errs ++ (if c.err_.streambuf_.isPutAreaAtLeastOnceConsumed_ || !errs.isEmpty then
      [Record.streamEnd .err c.requestId_] else []) ++ outs ++
    [Record.streamEnd .out c.requestId_,
      Record.endRequest c.requestId_ c.applicationStatus_ .requestComplete]

/-- **Closing a connection.** -/
theorem Writable.close {c : Connection} (hc : Writable c)
    (hmay : MayClose c.role_ c.in_.streambuf_) :
    ∃ errs outs rs c', Closing c errs outs rs ∧ Closed c' ∧
      c'.world = c.world.send (Frame.join rs) ∧
      Connection.close c = (if c.in_.streambuf_.unreadContentLength_ ≤
        c.in_.streambuf_.bufferSize_ then .ok () else .error .abort, c') := by
  obtain ⟨errs, be, herr, herrs, hep, hec⟩ := close_run c.info (w := c.world) hc.id
    hc.sends hc.err hc.mayRead hmay
  set w₁ := c.world.send (Frame.join (errs ++ endRecords c.info .err
    (c.err_.streambuf_.isPutAreaAtLeastOnceConsumed_ || !errs.isEmpty))) with hw₁
  obtain ⟨outs, bo, hout, houts, hop, hoc⟩ := close_run c.info (w := w₁) hc.id
    hc.sends hc.out hc.mayRead hmay
  set w₂ := w₁.send (Frame.join (outs ++ endRecords c.info .out
    (c.out_.streambuf_.isPutAreaAtLeastOnceConsumed_ || !outs.isEmpty))) with hw₂
  set bi := c.in_.streambuf_.setgNull.setpNull with hbi
  have hread := close_reader c.info c.in_.streambuf_ w₂ hc.in_
  have hrun : Connection.close c = (if c.in_.streambuf_.unreadContentLength_ ≤
      c.in_.streambuf_.bufferSize_ then .ok () else .error .abort,
      ((c.setErr ⟨be, w₁⟩).setOut ⟨bo, w₂⟩).setIn ⟨bi, w₂⟩) := by
    rw [Connection.close, Prog.bind_ok (Prog.get_run _), Prog.bind_ok (Connection.onErr_run herr),
      Prog.bind_ok (Connection.onOut_run (c := c.setErr ⟨be, w₁⟩) hout)]
    exact Connection.onIn_run (c := (c.setErr ⟨be, w₁⟩).setOut ⟨bo, w₂⟩) hread
  refine ⟨errs, outs, _, ((c.setErr ⟨be, w₁⟩).setOut ⟨bo, w₂⟩).setIn ⟨bi, w₂⟩,
    ⟨herrs, houts, hep, hop, rfl⟩, ⟨?_, hoc, hec⟩, ?_, hrun⟩
  · change bi.isClosed = true
    rw [ServerStreambuf.isClosed, show bi.isReader = true from hc.in_.reader]
    rfl
  · change w₂ = _
    rw [hw₂, hw₁, World.send_send, ← Frame.join_append]
    simp [endRecords, Connection.info]

/-- `close()` refuses, and has done nothing. -/
theorem Writable.close_not_may {c : Connection} (hc : Writable c)
    (hmay : ¬ MayClose c.role_ c.in_.streambuf_) : Connection.close c =
      (.error (.exc (.fcgi "not all FastCGI stdin has been read by Filter")), c) := by
  have hexc := Connection.onErr_run (m := fun conn => Fcgi.close conn c.in_.streambuf_)
    (s := c.errState) (Fcgi.close_not_may hc.err hc.mayRead hmay)
  rw [Connection.close, Prog.bind_ok (Prog.get_run _), Prog.bind_error hexc]
  rfl

/-! ### The transcript -/

/-- The records a connection sends for the bytes written to `out()` and `err()`: those sent before
it is closed, and those that closing it sends. -/
structure Transcript (id : Nat) (status : BitVec 32) (outBytes errBytes : List UInt8)
    (before closing : List Record) : Prop where
  out : streamContent .out (before ++ closing) = outBytes
  err : streamContent .err (before ++ closing) = errBytes
  requestId : ∀ r ∈ before ++ closing, r.requestId = id
  aligned : ∀ r ∈ before ++ closing, (r.content.length + r.padding.length) % 8 = 0
  zeros : ∀ r ∈ before ++ closing, ∀ x ∈ r.padding, x = 0
  nonempty : ∀ r ∈ before, r.content ≠ []
  ending : ∃ errs outs : List Record,
    (∀ r ∈ errs, r.recordType = .err ∧ r.content ≠ []) ∧
    (∀ r ∈ outs, r.recordType = .out ∧ r.content ≠ []) ∧
    closing = errs ++ (if errBytes = [] then [] else [Record.streamEnd .err id]) ++ outs ++
      [Record.streamEnd .out id, Record.endRequest id status .requestComplete]

/-- A stream has sent a record before its end if and only if something was written to it. -/
theorem StreamWrote.used_iff {t : StreamType} {rs errs : List Record} {bytes : List UInt8}
    {b b' : ServerStreambuf} (h : StreamWrote t rs bytes b b') (hp : b.pending = [])
    (hc : b.isPutAreaAtLeastOnceConsumed_ = false) (hrs : ∀ r ∈ rs, r.content ≠ [])
    (herrs : ∀ r ∈ errs, r.content ≠ []) (he : errs.flatMap Record.content = b'.pending) :
    (b'.isPutAreaAtLeastOnceConsumed_ || !errs.isEmpty) = true ↔ bytes ≠ [] := by
  have hcontent := h.content
  rw [hp, List.nil_append, ← he] at hcontent
  rw [h.consumed, hc, Bool.false_or, ← hcontent, ne_eq, List.append_eq_nil_iff, streamContent,
    List.flatMap_eq_nil_iff, List.flatMap_eq_nil_iff, Bool.or_eq_true, List.any_eq_true]
  constructor
  · rintro (⟨r, hr, ht⟩ | hne) ⟨h₁, h₂⟩
    · exact hrs r hr (h₁ r (List.mem_filter.mpr ⟨hr, ht⟩))
    · cases errs with
      | nil => cases hne
      | cons r errs => exact herrs r List.mem_cons_self (h₂ r List.mem_cons_self)
  · intro hne
    by_contra hn
    rw [not_or] at hn
    refine hne ⟨fun r hr => ?_, fun r hr => ?_⟩
    · exact absurd ⟨r, List.mem_filter.mp hr⟩ hn.1
    · cases errs with
      | nil => cases hr
      | cons r errs => exact absurd rfl hn.2

section

variable {c : Connection} {errs outs rs : List Record} {id : Nat}

/-- There is one record there at most. -/
theorem eq_of_mem_ends {b : Bool} {r e : Record} (h : r ∈ if b then [e] else []) : r = e := by
  cases b with
  | false => cases h
  | true => exact List.mem_singleton.mp h

/-- The records that close a connection are those of its streams and the end of the request. -/
theorem Closing.record (h : Closing c errs outs rs) (hid : c.requestId_ < 65536) {r : Record}
    (hr : r ∈ rs) : (∃ t, StreamRecord t c.requestId_ r.content r) ∨
      r = Record.endRequest c.requestId_ c.applicationStatus_ .requestComplete := by
  have hempty : ∀ t, StreamRecord t c.requestId_ (Record.streamEnd t c.requestId_).content
      (Record.streamEnd t c.requestId_) := fun t => by
    have := streamEnd_streamRecord t hid
    rwa [← this.content] at this
  rw [h.eq] at hr
  simp only [List.mem_append, List.mem_cons, List.not_mem_nil, or_false] at hr
  rcases hr with ((hr | hr) | hr) | hr | hr
  · exact .inl ⟨_, (h.err r hr).2⟩
  · exact .inl ⟨.err, eq_of_mem_ends hr ▸ hempty .err⟩
  · exact .inl ⟨_, (h.out r hr).2⟩
  · exact .inl ⟨.out, hr ▸ hempty .out⟩
  · exact .inr hr

/-- The ends of the streams and of the request carry nothing. -/
theorem streamContent_ends (t : StreamType) (ht : t = .out ∨ t = .err) (hid : id < 65536)
    (b : Bool) (status : BitVec 32) :
    streamContent t (if b then [Record.streamEnd .err id] else []) = [] ∧
      streamContent t [Record.streamEnd .out id,
        Record.endRequest id status .requestComplete] = [] := by
  constructor
  · exact streamContent_eq_nil fun r hr _ =>
      eq_of_mem_ends hr ▸ (streamEnd_streamRecord .err hid).content
  · refine streamContent_eq_nil fun r hr e => ?_
    simp only [List.mem_cons, List.not_mem_nil, or_false] at hr
    rcases hr with rfl | rfl
    · exact (streamEnd_streamRecord .out hid).content
    · rw [Record.recordType_endRequest] at e
      rcases ht with rfl | rfl <;> cases e

/-- The records of `close()` carry what was pending in `out()`. -/
theorem Closing.content_out (h : Closing c errs outs rs) (hid : c.requestId_ < 65536) :
    streamContent .out rs = c.out_.streambuf_.pending := by
  have herrs : streamContent .out errs = [] := streamContent_eq_nil fun r hr e => by
    rw [(h.err r hr).2.recordType] at e; cases e
  obtain ⟨hends, hlast⟩ := streamContent_ends .out (.inl rfl) hid
    (c.err_.streambuf_.isPutAreaAtLeastOnceConsumed_ || !errs.isEmpty) c.applicationStatus_
  rw [h.eq, streamContent_append, streamContent_append, streamContent_append, herrs, hends, hlast,
    List.append_nil, List.nil_append, List.nil_append,
    streamContent_of_type fun r hr => (h.out r hr).2.recordType]
  exact h.outPending

theorem Closing.content_err (h : Closing c errs outs rs) (hid : c.requestId_ < 65536) :
    streamContent .err rs = c.err_.streambuf_.pending := by
  have houts : streamContent .err outs = [] := streamContent_eq_nil fun r hr e => by
    rw [(h.out r hr).2.recordType] at e; cases e
  obtain ⟨hends, hlast⟩ := streamContent_ends .err (.inr rfl) hid
    (c.err_.streambuf_.isPutAreaAtLeastOnceConsumed_ || !errs.isEmpty) c.applicationStatus_
  rw [h.eq, streamContent_append, streamContent_append, streamContent_append, houts, hends, hlast,
    List.append_nil, List.append_nil, List.append_nil,
    streamContent_of_type fun r hr => (h.err r hr).2.recordType]
  exact h.errPending

end

/-- The transcript of a run that writes and of the closing after it. -/
theorem Wrote.transcript {ops : List Op} {before closing errs outs : List Record}
    {c c' : Connection} (hw : Wrote ops before c c') (hid : c.requestId_ < 65536)
    (hout : FreshWriter .out c.out_.streambuf_) (herr : FreshWriter .err c.err_.streambuf_)
    (hc : Closing c' errs outs closing) :
    Transcript c.requestId_ (ops.foldl Op.status c.applicationStatus_) (ops.flatMap Op.outBytes)
      (ops.flatMap Op.errBytes) before closing := by
  have hid' : c'.requestId_ < 65536 := hw.requestId.symm ▸ hid
  have hrecord : ∀ r ∈ before ++ closing, (∃ t, StreamRecord t c.requestId_ r.content r) ∨
      r = Record.endRequest c.requestId_ (ops.foldl Op.status c.applicationStatus_)
        .requestComplete := by
    intro r hr
    rcases List.mem_append.mp hr with hr | hr
    · obtain ⟨-, t, -, h⟩ := hw.records r hr
      exact .inl ⟨t, h⟩
    · have := hc.record hid' hr
      rwa [hw.requestId, hw.status] at this
  have hcontent := hw.out.content
  have hcontent' := hw.err.content
  rw [hout.pending, List.nil_append, ← hc.content_out hid', ← streamContent_append] at hcontent
  rw [herr.pending, List.nil_append, ← hc.content_err hid', ← streamContent_append] at hcontent'
  -- The end of `err()` is sent if something was written to it.
  have hused := hw.err.used_iff herr.pending herr.consumed (fun r hr => (hw.records r hr).1)
    (fun r hr => (hc.err r hr).1) hc.errPending
  have hend : (if c'.err_.streambuf_.isPutAreaAtLeastOnceConsumed_ || !errs.isEmpty then
      [Record.streamEnd .err c.requestId_] else []) =
      if ops.flatMap Op.errBytes = [] then [] else [Record.streamEnd .err c.requestId_] := by
    by_cases hb : ops.flatMap Op.errBytes = []
    · rw [if_pos hb, if_neg fun h => hused.mp h hb]
    · rw [if_neg hb, if_pos (hused.mpr hb)]
  have heq := hc.eq
  rw [hw.requestId, hw.status, hend] at heq
  refine ⟨hcontent, hcontent', fun r hr => ?_, fun r hr => ?_, fun r hr => ?_,
    fun r hr => (hw.records r hr).1, errs, outs,
    fun r hr => ⟨(hc.err r hr).2.recordType, (hc.err r hr).1⟩,
    fun r hr => ⟨(hc.out r hr).2.recordType, (hc.out r hr).1⟩, heq⟩
  · rcases hrecord r hr with ⟨t, h⟩ | rfl
    · exact h.requestId
    · exact Record.requestId_endRequest hid
  · rcases hrecord r hr with ⟨t, h⟩ | rfl
    · exact h.aligned
    · rw [Record.content_endRequest, Record.padding_endRequest, length_endRequestBody]; rfl
  · rcases hrecord r hr with ⟨t, h⟩ | rfl
    · exact h.zeros
    · rw [Record.padding_endRequest]; nofun

/-- **The output transcript.**  `c₀` is an accepted connection, of which some of the input may
have been read; then the calls `ops` are made on its output streams, and it is closed, once or
more often. -/
theorem output_transcript {uninit : Uninit} {fuel : Nat} {w w' : World} {c₀ c₁ : Connection}
    (ins : List InOp) (ops : List Op) (hsends : w.io.sends = [])
    (haccept : accept uninit fuel w = (.ok c₀, w'))
    (hin : run fuel (ins.map .«in») c₀ = (.ok (), c₁))
    (hops : ∀ op ∈ ops, op.isOutput = true)
    (hclose : ∀ e, (Connection.close (run fuel ops c₁).2).1 ≠ .error (.exc e)) (k : Nat) :
    ∃ before closing : List Record,
      (run fuel ops c₁).1 = .ok () ∧
      (run fuel ops c₁).2.world.io.written = c₁.world.io.written ++ Frame.join before ∧
      ∃ bytes, (run fuel (ops ++ List.replicate (k + 1) .close) c₁).2.world.io.written =
          c₁.world.io.written ++ bytes ∧
        Record.parse bytes = (before ++ closing, []) ∧
        Transcript c₀.requestId_ (ops.foldl Op.status 0) (ops.flatMap Op.outBytes)
          (ops.flatMap Op.errBytes) before closing := by
  obtain ⟨s₀, s₁, hacc, hs₀⟩ := accept_accepted hsends haccept
  have hro := hacc.readOnly.run hin
  have hid₁ : c₁.requestId_ = c₀.requestId_ := congrArg ConnectionInfo.requestId hro.info
  have hstatus₁ : c₁.applicationStatus_ = 0 :=
    (congrArg ConnectionInfo.applicationStatus hro.info).trans hacc.status
  have hc₁ := hacc.writable hs₀ hro
  obtain ⟨before, c₂, hrun, hw⟩ := run_wrote hc₁ hops
  have hc₂ := hw.writable hc₁
  rw [hrun] at hclose ⊢
  -- The close that returns is not refused, so the input has been read as far as it must be.
  have hmay : MayClose c₂.role_ c₂.in_.streambuf_ := by
    by_contra hmay
    exact hclose _ (congrArg Prod.fst (hc₂.close_not_may hmay))
  obtain ⟨errs, outs, closing, c₃, hclosing, hclosed, hworld, hres⟩ := hc₂.close hmay
  have hrun₃ : (run fuel (ops ++ List.replicate (k + 1) .close) c₁).2 = c₃ := by
    rw [run_append hrun, List.replicate_succ]
    split at hres
    · rw [run_cons_ok (show Op.exec fuel .close _ = _ from hres), hclosed.run]
    · rw [run, Prog.bind_error (Prog.attempt_abort (m := Op.exec fuel .close) hres)]
  have ht := hw.transcript hc₁.id (hro.out ▸ hacc.out) (hro.err ▸ hacc.err) hclosing
  rw [hstatus₁, hid₁] at ht
  -- What `close()` adds completes the transcript of the calls before it.
  refine ⟨before, closing, rfl, by rw [hw.world]; rfl, Frame.join (before ++ closing), ?_,
    Framing.frames_join _, ht⟩
  rw [hrun₃, hworld, hw.world, World.send_send, ← Frame.join_append]
  rfl

/-- Both streams are written to, and the connection is closed twice. -/
theorem output_transcript_closed_twice :
    ∃ c w', accept {} 9 (responderRequest []) = (.ok c, w') ∧ ∃ before closing : List Record,
      ∃ bytes, (run 9 ([.out (.write [104, 105]), .err (.put 33), .out .flush,
          .setApplicationStatus 7] ++ [.close, .close]) c).2.world.io.written =
          c.world.io.written ++ bytes ∧
        Record.parse bytes = (before ++ closing, []) ∧
        Transcript c.requestId_ 7 [104, 105] [33] before closing := by
  have key : (match accept {} 9 (responderRequest []) with
      | (.ok c, _) => (Connection.close (run 9 [.out (.write [104, 105]), .err (.put 33),
          .out .flush, .setApplicationStatus 7] c).2).1.isOk
      | _ => false) = true := by decide +kernel
  rcases e : accept {} 9 (responderRequest []) with ⟨x | c, w'⟩ <;> rw [e] at key
  · cases key
  · obtain ⟨before, closing, -, -, bytes, hw, hp, ht⟩ := output_transcript []
      [.out (.write [104, 105]), .err (.put 33), .out .flush, .setApplicationStatus 7] rfl e rfl
      (by decide) (fun x hx => by
        dsimp only at key
        rw [hx] at key; cases key) 1
    exact ⟨c, w', rfl, before, closing, bytes, hw, hp, ht⟩

end Fcgi
