import Fcgi.Output.Overflow

/-!
# Output — closing an output stream

`close_run`: closing an open output buffer sends what is pending, then the end records of its
stream, and leaves the buffer closed.  `close_closed`: closing it again does nothing.

The end records are built at the start of the memory, over what has been sent (`sendEndRecords_out`,
`sendEndRecords_err`): the end of the stream, 8 bytes, and after it in `out()` the end of the
request, 16 bytes, so one call of the transport sends both.  A filter is refused while it has unread
input and does not read the data stream yet (`MayClose`), before anything is changed
(`close_not_may`).
-/

namespace Fcgi
open Lib
open ServerStreambuf (pbase_eq pptr_eq epptr_eq)

/-- The condition under which an output stream may be closed, given the input buffer. -/
def MayClose (role : Role) (inbuf : ServerStreambuf) : Prop :=
  role ≠ .filter ∨ inbuf.type_ = .data ∨ inbuf.unreadContentLength_ = 0

instance (role : Role) (inbuf : ServerStreambuf) : Decidable (MayClose role inbuf) := by
  unfold MayClose; infer_instance

/-- What `close()` of an output stream asserts of the input buffer. -/
structure InputOpen (role : Role) (inbuf : ServerStreambuf) : Prop where
  reader : inbuf.isReader = true
  open_ : inbuf.isClosed = false
  stream : role = .authorizer ∨ inbuf.type_ ≠ .params

/-- The record of the stream `t` without content. -/
def Record.streamEnd (t : StreamType) (id : Nat) : Record :=
  Record.mk (Header.ofFields t.recordType id 0 0) [] [] (Header.protocolVersion_ofFields _)
    (Header.contentLength_ofFields (c := 0) _ (by decide)).symm
    (Header.paddingLength_ofFields (p := 0) _ (by decide)).symm

/-- The end of a stream is a record of the stream, without content and without padding. -/
theorem streamEnd_streamRecord (t : StreamType) {id : Nat} (hid : id < 65536) :
    StreamRecord t id [] (Record.streamEnd t id) where
  recordType := rfl
  requestId := Header.requestId_ofFields _ hid
  content := Record.content_mk _ _ _
  aligned := by rw [Record.streamEnd, Record.content_mk, Record.padding_mk]; rfl
  zeros := by rw [Record.streamEnd, Record.padding_mk]; nofun

theorem bytes_streamEnd (t : StreamType) (id : Nat) :
    (Record.streamEnd t id).bytes = (Header.ofFields t.recordType id 0 0).bytes :=
  List.append_nil _

/-- The records that end the stream `t`; `used` says whether a record of it has been sent. -/
def endRecords (conn : ConnectionInfo) (t : StreamType) (used : Bool) : List Record :=
  (if t ≠ .err ∨ used = true then [Record.streamEnd t conn.requestId] else []) ++
    if t = .out then [Record.endRequest conn.requestId conn.applicationStatus .requestComplete]
    else []

section

variable {conn : ConnectionInfo} {t : StreamType} {b : ServerStreambuf} {w : World}

/-- The header that ends a stream. -/
theorem make_streamEnd (t : StreamType) (s : State) :
    Header.make t.recordType conn.requestId 0 0 s =
      (.ok (Header.ofFields t.recordType conn.requestId 0 0), s) :=
  Header.make_run (by decide) (by decide) s

/-- Output is ended by its end and the end of the request. -/
theorem sendEndRecords_out {lim : Nat} (ht : b.type_ = .out)
    (hput : b.putArea = some ⟨8, 8, lim⟩) (hcap : 24 ≤ b.capacity) (w : World) :
    ∃ m, sendEndRecords conn ⟨b, w⟩ =
      (onIo (Io.writeAll (Frame.join (endRecords conn .out b.isPutAreaAtLeastOnceConsumed_))) >>=
        fun _ =>
        modifyBuf fun b => (b.setEndRecordsMustBeTransmitted false).setEndOfStream true : M Unit)
        ⟨b.setBuffer m, w⟩ := by
  rw [sendEndRecords, Prog.bind_ok (Prog.get_run _)]
  dsimp only
  rw [pptr_eq hput, pbase_eq hput, ht]
  set h := Header.ofFields StreamType.out.recordType conn.requestId 0 0
  set r := Record.endRequest conn.requestId conn.applicationStatus .requestComplete with hr
  have hlen : h.bytes.length = 8 := rfl
  have hrlen : r.bytes.length = 16 := rfl
  set m := (b.buffer_.store 0 h.bytes).store 8 r.bytes
  -- The record is stored right after the header, so both are sent at once.
  have hload : m.load 0 24 = h.bytes ++ r.bytes := by
    have hfirst := Mem.load_store b.buffer_ 0 h.bytes
    have hboth := Mem.load_store_append (b.buffer_.store 0 h.bytes) 0 8 r.bytes
    rw [hlen] at hfirst
    rw [hrlen] at hboth
    rw [show (24 : Nat) = 8 + 16 from rfl, hboth, hfirst]
  have hends : endRecords conn .out b.isPutAreaAtLeastOnceConsumed_ =
      [Record.streamEnd .out conn.requestId, r] := by
    rw [endRecords, if_pos (.inl (by decide)), if_pos rfl]; rfl
  refine ⟨m, ?_⟩
  rw [if_pos (.inl (by decide)), Prog.bind_ok (make_streamEnd _ _),
    Prog.bind_ok (storeBuf_run (by rw [hlen]; omega)), Prog.bind_ok (Prog.pure_run _ _),
    if_pos rfl, Prog.bind_ok (Record.endRequestRecord_run _),
    Prog.bind_ok (storeBuf_run (by
      rw [← hr, hrlen, Header.size, ServerStreambuf.setBuffer_capacity]; omega)),
    Prog.bind_ok (Prog.pure_run _ _), Prog.bind_ok (Prog.get_run _), if_pos (by decide), hends,
    Frame.join_cons, Frame.join_cons, Frame.join_nil, List.append_nil, bytes_streamEnd, ← hload]
  rfl

/-- Errors are ended by their end, where any have been sent. -/
theorem sendEndRecords_err {lim : Nat} (ht : b.type_ = .err)
    (hput : b.putArea = some ⟨8, 8, lim⟩) (hcap : 24 ≤ b.capacity) (w : World) :
    ∃ m, sendEndRecords conn ⟨b, w⟩ =
      ((if endRecords conn .err b.isPutAreaAtLeastOnceConsumed_ = [] then pure ()
        else onIo (Io.writeAll (Frame.join
          (endRecords conn .err b.isPutAreaAtLeastOnceConsumed_)))) >>= fun _ =>
        modifyBuf fun b => (b.setEndRecordsMustBeTransmitted false).setEndOfStream true : M Unit)
        ⟨b.setBuffer m, w⟩ := by
  rw [sendEndRecords, Prog.bind_ok (Prog.get_run _)]
  dsimp only
  rw [pptr_eq hput, pbase_eq hput, ht]
  have herr : ¬ StreamType.err ≠ StreamType.err := fun h => h rfl
  have hout : ¬ StreamType.err = StreamType.out := fun h => by cases h
  -- The end of `err()` is sent if something was sent of it before.
  by_cases hused : b.isPutAreaAtLeastOnceConsumed_ = true
  · set h := Header.ofFields StreamType.err.recordType conn.requestId 0 0 with hh
    have hlen : h.bytes.length = 8 := rfl
    have hload : (b.buffer_.store 0 h.bytes).load 0 8 = h.bytes := by
      have := Mem.load_store b.buffer_ 0 h.bytes
      rwa [hlen] at this
    have hends : endRecords conn .err b.isPutAreaAtLeastOnceConsumed_ =
        [Record.streamEnd .err conn.requestId] := by
      rw [endRecords, if_pos (.inr hused), if_neg hout, List.append_nil]
    refine ⟨b.buffer_.store 0 h.bytes, ?_⟩
    rw [if_pos (.inr fun hn => hn.2 hused), Prog.bind_ok (make_streamEnd _ _),
      Prog.bind_ok (storeBuf_run (by rw [hlen]; omega)), Prog.bind_ok (Prog.pure_run _ _),
      if_neg hout, Prog.bind_ok (Prog.pure_run _ _), Prog.bind_ok (Prog.get_run _),
      if_pos (by decide), hends, if_neg (List.cons_ne_nil _ _), Frame.join_cons,
      Frame.join_nil, List.append_nil, bytes_streamEnd, ← hh, ← hload]
    rfl
  · -- Nothing is stored, and nothing is sent.
    have hends : endRecords conn .err b.isPutAreaAtLeastOnceConsumed_ = [] := by
      rw [endRecords, if_neg fun h => h.elim herr hused, if_neg hout, List.append_nil]
    refine ⟨b.buffer_, ?_⟩
    rw [if_neg fun h => h.elim herr fun h => h ⟨rfl, hused⟩, Prog.bind_ok (Prog.pure_run _ _),
      if_neg hout, Prog.bind_ok (Prog.pure_run _ _), Prog.bind_ok (Prog.get_run _),
      if_neg (Nat.lt_irrefl 0), hends, if_pos rfl]
    rfl

/-- `sendEndRecords` sends the end of the stream in one piece. -/
theorem sendEndRecords_eq {lim : Nat} (ht : b.type_ = t) (hout : t = .out ∨ t = .err)
    (hput : b.putArea = some ⟨8, 8, lim⟩) (hcap : 24 ≤ b.capacity) (w : World) :
    ∃ m, sendEndRecords conn ⟨b, w⟩ =
      ((if endRecords conn t b.isPutAreaAtLeastOnceConsumed_ = [] then pure ()
        else onIo (Io.writeAll (Frame.join
          (endRecords conn t b.isPutAreaAtLeastOnceConsumed_)))) >>= fun _ =>
        modifyBuf fun b => (b.setEndRecordsMustBeTransmitted false).setEndOfStream true : M Unit)
        ⟨b.setBuffer m, w⟩ := by
  rcases hout with rfl | rfl
  · obtain ⟨m, hm⟩ := sendEndRecords_out ht hput hcap w
    have hne : endRecords conn .out b.isPutAreaAtLeastOnceConsumed_ ≠ [] := by
      rw [endRecords, if_pos (.inl (by decide))]; exact List.cons_ne_nil _ _
    exact ⟨m, by rw [hm, if_neg hne]⟩
  · exact sendEndRecords_err ht hput hcap w

/-- With no failure of the transport the end records are sent and the stream has ended. -/
theorem sendEndRecords_run (hsends : w.io.sends = []) (hw : Writer t true b)
    (hp : PutArea b 8) :
    ∃ m, sendEndRecords conn ⟨b, w⟩ = (.ok (),
      ⟨((b.setBuffer m).setEndRecordsMustBeTransmitted false).setEndOfStream true,
        w.send (Frame.join (endRecords conn t b.isPutAreaAtLeastOnceConsumed_))⟩) := by
  have hsize := hp.size_ge
  have hcap := hp.capacity
  obtain ⟨m, heq⟩ := sendEndRecords_eq hw.type hw.output hp.area (by omega) w
  refine ⟨m, ?_⟩
  rw [heq]
  by_cases hnil : endRecords conn t b.isPutAreaAtLeastOnceConsumed_ = []
  · rw [if_pos hnil, Prog.bind_ok (Prog.pure_run _ _), modifyBuf_run, hnil, Frame.join_nil,
      World.send_nil]
  · rw [if_neg hnil, Prog.bind_ok (onIo_writeAll_run hsends _), modifyBuf_run]

/-- What closing an output buffer sends: the records `rs` of what is pending, and the end. -/
theorem overflow_ends (hid : conn.requestId < 65536) (hsends : w.io.sends = [])
    (h : Writer t true b) :
    ∃ (rs : List Record) (b' : ServerStreambuf),
      overflow conn none ⟨b, w⟩ = (.ok (some 0), ⟨b', w.send (Frame.join (rs ++
        endRecords conn t (b.isPutAreaAtLeastOnceConsumed_ || !rs.isEmpty)))⟩) ∧
      (∀ r ∈ rs, r.content ≠ [] ∧ StreamRecord t conn.requestId r.content r) ∧
      rs.flatMap Record.content = b.pending ∧ b'.isEndOfStream_ = true ∧
      b'.isEndRecordsMustBeTransmitted_ = false ∧ b'.isReader = false ∧ b'.getArea = none ∧
      b'.unreadContentLength_ = 0 ∧ b'.unreadPaddingLength_ = 0 ∧ PutArea b' 8 := by
  obtain ⟨rs, b₁, hw, hp, hused, hrs, hcontent, hrun⟩ := overflow_flush hid hsends h none nofun
  obtain ⟨m, hend⟩ := sendEndRecords_run (w := w.send (Frame.join rs)) hsends hw hp
  set b' := ((b₁.setBuffer m).setEndRecordsMustBeTransmitted false).setEndOfStream true
  have hp' : PutArea b' 8 := ⟨hp.area, hp.le, hp.lt, hp.size_ge, hp.size_le, hp.size_mod,
    hp.capacity⟩
  have hi : b'.InvariantOk conn.role :=
    hp'.invariantOk hw.not_isReader hw.getArea hw.content hw.padding
  refine ⟨rs, b', ?_, hrs, ?_, rfl, rfl, hw.not_isReader, hw.getArea, hw.content, hw.padding, hp'⟩
  · rw [hrun, if_pos rfl, Prog.bind_ok hend, Prog.bind_ok (assertInvariantOk_run hi),
      Prog.pure_run, World.send_send, Frame.join_append, hused]
    rfl
  · rw [hcontent, Option.toList_none, List.append_nil]

/-- `close()` of an open output stream. -/
theorem close_output {conn : ConnectionInfo} {inbuf : ServerStreambuf} {s : State}
    (hr : s.buf.isReader = false) (hopen : s.buf.isClosed = false)
    (hin : InputOpen conn.role inbuf) : close conn inbuf s =
      if MayClose conn.role inbuf then closeOutput conn s else
      (.error (.exc (.fcgi "not all FastCGI stdin has been read by Filter")), s) := by
  rw [close, Prog.bind_ok (Prog.get_run _), hopen, if_neg Bool.false_ne_true, hr,
    if_pos Bool.false_ne_true,
    Prog.bind_ok (Prog.assert_true ⟨hin.reader, Bool.eq_false_iff.mp hin.open_⟩ _),
    Prog.bind_ok (Prog.assert_true hin.stream _)]
  by_cases hmay : MayClose conn.role inbuf
  · rw [if_pos hmay, if_pos (show conn.role ≠ .filter ∨ inbuf.type_ = .data ∨
      inbuf.unreadContentLength_ = 0 from hmay)]
  · rw [if_neg hmay, if_neg (show ¬ (conn.role ≠ .filter ∨ inbuf.type_ = .data ∨
      inbuf.unreadContentLength_ = 0) from hmay)]
    rfl

/-- **Closing an open output buffer.** -/
theorem close_run (conn : ConnectionInfo) {inbuf : ServerStreambuf} (hid : conn.requestId < 65536)
    (hsends : w.io.sends = []) (h : Writer t false b) (hin : InputOpen conn.role inbuf)
    (hmay : MayClose conn.role inbuf) :
    ∃ (rs : List Record) (b' : ServerStreambuf),
      close conn inbuf ⟨b, w⟩ = (.ok (), ⟨b', w.send (Frame.join (rs ++
        endRecords conn t (b.isPutAreaAtLeastOnceConsumed_ || !rs.isEmpty)))⟩) ∧
      (∀ r ∈ rs, r.content ≠ [] ∧ StreamRecord t conn.requestId r.content r) ∧
      rs.flatMap Record.content = b.pending ∧ b'.isClosed = true := by
  set b₁ := b.setEndRecordsMustBeTransmitted true
  have hw : Writer t true b₁ := by
    obtain ⟨cur, hp⟩ := h.putArea
    exact ⟨h.type, h.output, h.getArea, ⟨cur, hp.area, hp.le, hp.lt, hp.size_ge, hp.size_le,
      hp.size_mod, hp.capacity⟩, h.content, h.padding, h.open_, rfl⟩
  obtain ⟨rs, b₂, hrun, hrs, hcontent, heos, hending, hr, hg, hu, hu', hp⟩ :=
    overflow_ends hid hsends hw
  have hsync : sync conn ⟨b₁, w⟩ = (.ok 0, ⟨b₂, w.send (Frame.join (rs ++
      endRecords conn t (b.isPutAreaAtLeastOnceConsumed_ || !rs.isEmpty)))⟩) := by
    rw [sync, Prog.bind_ok hrun]; rfl
  set b₃ := b₂.setgNull.setpNull
  have hr₃ : b₃.isReader = false := hr
  have hc : b₃.isClosed = true := by rw [ServerStreambuf.isClosed, hr₃]; rfl
  have hi : b₃.InvariantOk conn.role := by
    simp only [ServerStreambuf.InvariantOk, hr₃, hc]
    exact ⟨fun h => absurd h Bool.false_ne_true, ⟨hp.size_ge, hp.size_le, hp.size_mod⟩,
      ⟨hu ▸ Nat.zero_le _, hu ▸ Nat.zero_le _⟩, ⟨hu' ▸ Nat.zero_le _, hu' ▸ Nat.zero_le _⟩,
      fun h => absurd h Bool.false_ne_true, .inl ⟨trivial, .inr heos, rfl, rfl⟩,
      .inr (.inl trivial), .inl Bool.false_ne_true⟩
  refine ⟨rs, b₃, (close_output h.not_isReader h.not_isClosed hin).trans ?_, hrs, hcontent, hc⟩
  rw [if_pos hmay, closeOutput, Prog.bind_ok (modifyBuf_run _), Prog.bind_ok hsync,
    Prog.bind_ok (Prog.get_run _), Prog.bind_ok (Prog.assert_true
      ⟨heos, Bool.eq_false_iff.mp hending⟩ _), closeAreas, Prog.bind_ok (modifyBuf_run _),
    Prog.bind_ok (Prog.get_run _), Prog.bind_ok (Prog.assert_true hc _),
    assertInvariantOk_run hi]

/-- A filter that has unread input is refused, and nothing has been changed. -/
theorem close_not_may {inbuf : ServerStreambuf} (h : Writer t false b)
    (hin : InputOpen conn.role inbuf) (hmay : ¬ MayClose conn.role inbuf) :
    close conn inbuf ⟨b, w⟩ =
      (.error (.exc (.fcgi "not all FastCGI stdin has been read by Filter")), ⟨b, w⟩) :=
  (close_output h.not_isReader h.not_isClosed hin).trans (if_neg hmay)

/-- Closing a closed buffer does nothing. -/
theorem close_closed {inbuf : ServerStreambuf} (h : b.isClosed = true) :
    close conn inbuf ⟨b, w⟩ = (.ok (), ⟨b, w⟩) := by
  rw [close, Prog.bind_ok (Prog.get_run _), if_pos h, Prog.pure_run]

end

end Fcgi
