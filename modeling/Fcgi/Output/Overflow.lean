import Fcgi.Streambuf.Writer

/-!
# Output — what `overflow()` and `sync()` send

`Writer t b`: `b` is an open buffer of the output stream `t`.  `Transmits conn bs s s'`: from `s`
to `s'` the bytes `bs` were accepted and records of the stream were sent, and what was pending
before, and then `bs`, is the content of these records, and then what is pending now.

* `overflow_transmits`: `overflow()` transmits the character it is given.
* `xsputn_transmits`, `sync_transmits`: so do the calls that lead to it.

The put area begins behind the place of a header and ends before the last byte of the buffer.  So
the character that did not fit is stored at epptr(), the padding after it is within the buffer for
its size is a multiple of eight, and the header is built in front: a record is sent from the start
of the memory, in place (`storeExtra_run`, `sendRecord_run`).  `Transmits` composes
(`Transmits.trans`), and a sequence is put by induction on it.
-/

namespace Fcgi
open Lib
open ServerStreambuf (pbase_eq pptr_eq epptr_eq pbump_putArea_eq)

/-! ### Open output buffers -/

/-- The put area of `b` is set up, with `cur` for pptr(). -/
structure PutArea (b : ServerStreambuf) (cur : Nat) : Prop where
  area : b.putArea = some ⟨8, cur, b.bufferSize_ - 1⟩
  le : 8 ≤ cur
  lt : cur < b.bufferSize_
  size_ge : 2048 ≤ b.bufferSize_
  size_le : b.bufferSize_ ≤ 65528
  size_mod : b.bufferSize_ % 8 = 0
  capacity : b.bufferSize_ ≤ b.capacity

/-- An open buffer of the output stream `t`, or of the same with the end records asked for. -/
structure Writer (t : StreamType) (ending : Bool) (b : ServerStreambuf) : Prop where
  type : b.type_ = t
  output : t = .out ∨ t = .err
  getArea : b.getArea = none
  putArea : ∃ cur, PutArea b cur
  content : b.unreadContentLength_ = 0
  padding : b.unreadPaddingLength_ = 0
  open_ : b.isEndOfStream_ = false
  ending_ : b.isEndRecordsMustBeTransmitted_ = ending

/-- The bytes of the put area. -/
def ServerStreambuf.pending (b : ServerStreambuf) : List UInt8 :=
  b.buffer_.load b.pbase (b.pptr - b.pbase)

section

variable {conn : ConnectionInfo} {t : StreamType} {ending : Bool} {b : ServerStreambuf}
  {cur : Nat} {w : World}

/-- What is pending lies between the header and pptr(). -/
theorem PutArea.pending (h : PutArea b cur) : b.pending = b.buffer_.load 8 (cur - 8) := by
  rw [ServerStreambuf.pending, pbase_eq h.area, pptr_eq h.area]

/-- An empty put area has nothing pending. -/
theorem ServerStreambuf.pending_nil {lim : Nat} (h : b.putArea = some ⟨8, 8, lim⟩) :
    b.pending = [] := by
  rw [ServerStreambuf.pending, pbase_eq h, pptr_eq h]; rfl

theorem PutArea.pending_nil (h : PutArea b 8) : b.pending = [] := b.pending_nil h.area

/-- setp() makes the put area empty. -/
theorem PutArea.empty (h : PutArea b cur) : PutArea (b.setp 8 (b.bufferSize_ - 1)) 8 where
  area := rfl
  le := Nat.le_refl _
  lt := by have := h.size_ge; rw [ServerStreambuf.setp_bufferSize_]; omega
  size_ge := h.size_ge
  size_le := h.size_le
  size_mod := h.size_mod
  capacity := h.capacity

/-- A character put into the put area is the last one pending. -/
theorem PutArea.put (h : PutArea b cur) (hlt : cur < b.bufferSize_ - 1) (c : UInt8) :
    PutArea ((b.setBuffer (b.buffer_.store cur [c])).pbump 1) (cur + 1) ∧
      ((b.setBuffer (b.buffer_.store cur [c])).pbump 1).pending = b.pending ++ [c] := by
  have hle := h.le
  have hsize := h.size_ge
  set b₁ := (b.setBuffer (b.buffer_.store cur [c])).pbump 1
  have h₁ : PutArea b₁ (cur + 1) :=
    ⟨pbump_putArea_eq (b := b.setBuffer _) h.area 1, by omega,
      by change cur + 1 < b.bufferSize_; omega, h.size_ge, h.size_le, h.size_mod, h.capacity⟩
  refine ⟨h₁, ?_⟩
  rw [h₁.pending, h.pending, show cur + 1 - 8 = cur - 8 + [c].length by
    rw [List.length_singleton]; omega]
  have hload := Mem.load_store_append b.buffer_ 8 (cur - 8) [c]
  rwa [show 8 + (cur - 8) = cur by omega] at hload

/-- The invariant of an output buffer that is not closed, whether or not its stream has ended. -/
theorem PutArea.invariantOk {role : Role} (hp : PutArea b cur) (hr : b.isReader = false)
    (hg : b.getArea = none) (hu : b.unreadContentLength_ = 0)
    (hu' : b.unreadPaddingLength_ = 0) : b.InvariantOk role := by
  have hc : b.isClosed = false := by rw [ServerStreambuf.isClosed, hr, hp.area]; rfl
  have := hp.le
  have := hp.lt
  simp only [ServerStreambuf.InvariantOk, hr, hc, hg, hp.area, pbase_eq hp.area,
    pptr_eq hp.area, epptr_eq hp.area, hu, hu', Header.size]
  exact ⟨fun h => (Bool.false_ne_true h).elim, ⟨hp.size_ge, hp.size_le, hp.size_mod⟩,
    ⟨Nat.zero_le _, Nat.zero_le _⟩, ⟨Nat.zero_le _, Nat.zero_le _⟩,
    fun h => (Bool.false_ne_true h).elim,
    .inr (.inr ⟨Bool.false_ne_true, trivial, fun h => by cases h⟩),
    .inr (.inr ⟨⟨hp.le, by omega⟩, .inr trivial⟩), .inl Bool.false_ne_true⟩

namespace Writer

/-- The buffer of an output stream is not a reader's. -/
theorem not_isReader (h : Writer t ending b) : b.isReader = false := by
  rw [ServerStreambuf.isReader, h.type]
  rcases h.output with rfl | rfl <;> rfl

theorem not_isClosed (h : Writer t ending b) : b.isClosed = false := by
  obtain ⟨cur, hp⟩ := h.putArea
  rw [ServerStreambuf.isClosed, h.not_isReader, hp.area]; rfl

/-- `is_invariant_ok()` holds of it. -/
theorem invariantOk (h : Writer t ending b) (role : Role) : b.InvariantOk role := by
  obtain ⟨cur, hp⟩ := h.putArea
  exact hp.invariantOk h.not_isReader h.getArea h.content h.padding

end Writer

end

/-! ### One record -/

/-- A record of the stream `t` with the content `cs`, padded with zeros to a multiple of eight. -/
structure StreamRecord (t : StreamType) (id : Nat) (cs : List UInt8) (r : Record) : Prop where
  recordType : r.recordType = t.recordType
  requestId : r.requestId = id
  content : r.content = cs
  aligned : (r.content.length + r.padding.length) % 8 = 0
  zeros : ∀ x ∈ r.padding, x = 0

/-- Header, content and zeros up to a multiple of eight are a record of the stream. -/
theorem streamRecord_exists {t : StreamType} {id : Nat} (cs : List UInt8) (hid : id < 65536)
    (hcs : cs.length < 65536) : ∃ r : Record, StreamRecord t id cs r ∧
      r.bytes = (Header.ofFields t.recordType id cs.length (Math.pad8 cs.length)).bytes ++
        (cs ++ List.replicate (Math.pad8 cs.length) 0) := by
  have hp := Math.pad8_lt cs.length
  refine ⟨Record.mk (Header.ofFields t.recordType id cs.length (Math.pad8 cs.length)) cs
    (List.replicate (Math.pad8 cs.length) 0) (Header.protocolVersion_ofFields _)
    (Header.contentLength_ofFields _ hcs).symm ?_,
    ⟨rfl, Header.requestId_ofFields _ hid, Record.content_mk _ _ _, ?_, ?_⟩, rfl⟩
  · rw [List.length_replicate, Header.paddingLength_ofFields _ (by omega)]
  · rw [Record.content_mk, Record.padding_mk, List.length_replicate]
    exact Math.add_pad8 _
  · rw [Record.padding_mk]
    exact fun x hx => List.eq_of_mem_replicate hx

/-- `sendRecord` sends one record, with the put area for its content. -/
theorem sendRecord_eq {conn : ConnectionInfo} {b : ServerStreambuf} {cur lim : Nat}
    (hid : conn.requestId < 65536) (hput : b.putArea = some ⟨8, cur, lim⟩) (hcur : 8 < cur)
    (hpad : cur + Math.pad8 (cur - 8) ≤ lim + 1) (hcap : lim + 1 ≤ b.capacity)
    (hlim : lim + 1 ≤ 65528) (w : World) :
    ∃ r m, StreamRecord b.type_ conn.requestId (b.buffer_.load 8 (cur - 8)) r ∧
      r.bytes.length = cur + Math.pad8 (cur - 8) ∧ m.load 0 r.bytes.length = r.bytes ∧
      sendRecord conn (cur - 8) ⟨b, w⟩ = (do
        onIo (Io.writeAll r.bytes)
        modifyBuf fun b => b.setPutAreaAtLeastOnceConsumed true : M Unit)
        ⟨(b.pbump (Math.pad8 (cur - 8))).setBuffer m, w⟩ := by
  set n := cur - 8 with hn
  set p := Math.pad8 n with hp
  have hp8 : p < 8 := Math.pad8_lt n
  have hlen : (b.buffer_.load 8 n).length = n := Mem.length_load _ _ _
  obtain ⟨r, hr, hbytes⟩ := streamRecord_exists (t := b.type_) (b.buffer_.load 8 n) hid
    (by omega)
  rw [hlen] at hbytes
  set h := Header.ofFields b.type_.recordType conn.requestId n p
  set m₁ := b.buffer_.store cur (List.replicate p 0)
  set b₂ := ((b.setBuffer m₁).pbump p).setBuffer (m₁.store 0 h.bytes) with hb₂
  have hput₂ : b₂.putArea = some ⟨8, cur + p, lim⟩ :=
    pbump_putArea_eq (b := b.setBuffer m₁) hput p
  -- The buffer then holds the bytes of the record.
  have hload : (m₁.store 0 h.bytes).load 0 (cur + p) = r.bytes := by
    have h8 : cur + p = h.bytes.length + (n + (List.replicate p 0 : List UInt8).length) := by
      rw [Header.length_bytes, List.length_replicate]; omega
    rw [hbytes, h8, Mem.load_add, Mem.load_store, Mem.load_store_ge _ _ (Nat.le_refl _),
      Header.length_bytes, Nat.zero_add]
    have := Mem.load_store_append b.buffer_ 8 n (List.replicate p 0)
    rw [show 8 + n = cur by omega] at this
    rw [this]
  have hrlen : r.bytes.length = cur + p := by rw [← hload, Mem.length_load]
  refine ⟨r, m₁.store 0 h.bytes, hr, hrlen, by rw [hrlen, hload], ?_⟩
  rw [sendRecord, Math.padding_streamsize (show n < 2 ^ 63 by omega),
    Prog.bind_ok (Prog.ofExcept_ok_run _ _), Math.toNat_pad8, Prog.bind_ok (Prog.get_run _),
    Prog.bind_ok (Prog.assert_true (by
      dsimp only; rw [pptr_eq hput, epptr_eq hput]; omega) _)]
  dsimp only
  rw [pptr_eq hput, Prog.bind_ok (storeBuf_run (by rw [List.length_replicate]; omega)),
    Prog.bind_ok (modifyBuf_run _), Prog.bind_ok (Header.make_run (by omega) (by omega) _),
    Prog.bind_ok (storeBuf_run (by
      rw [Header.length_bytes, ServerStreambuf.pbump_capacity,
        ServerStreambuf.setBuffer_capacity]; omega)),
    Prog.bind_ok (Prog.get_run _)]
  change (if 8 < b₂.pptr then (do
    onIo (Io.writeAll (b₂.buffer_.load 0 b₂.pptr))
    modifyBuf fun b => b.setPutAreaAtLeastOnceConsumed true) else pure () : M Unit) ⟨b₂, w⟩ = _
  rw [pptr_eq hput₂, if_pos (by omega), hb₂, ServerStreambuf.setBuffer_buffer_, hload]
  rfl

/-- The character that did not fit is stored behind the put area. -/
theorem storeExtra_run {b : ServerStreambuf} {w : World} {cur lim : Nat} {c : UInt8}
    (hput : b.putArea = some ⟨8, cur, lim⟩) (hle : cur ≤ lim) (hcap : lim + 1 ≤ b.capacity) :
    storeExtra (some c) ⟨b, w⟩ =
      (.ok (), ⟨(b.setBuffer (b.buffer_.store cur [c])).pbump 1, w⟩) := by
  rw [storeExtra, Prog.bind_ok (Prog.get_run _),
    Prog.bind_ok (Prog.assert_true (by dsimp only; rw [pptr_eq hput, epptr_eq hput]; exact hle) _)]
  dsimp only
  rw [pptr_eq hput, Prog.bind_ok (storeBuf_run (by rw [List.length_singleton]; omega)),
    modifyBuf_run]

/-- A put area that is not empty is sent as one record, together with the character given to
`overflow()`. -/
theorem sendPutArea_record {conn : ConnectionInfo} {b : ServerStreambuf} {cur lim : Nat}
    (ch : Option UInt8) (hid : conn.requestId < 65536) (hput : b.putArea = some ⟨8, cur, lim⟩)
    (hcur : 8 < cur) (hle : cur + ch.toList.length ≤ lim + 1) (hcap : lim + 1 ≤ b.capacity)
    (hlim : lim + 1 ≤ 65528) (hmod : (lim + 1) % 8 = 0) (w : World) :
    ∃ r m, StreamRecord b.type_ conn.requestId (b.pending ++ ch.toList) r ∧
      r.bytes.length = cur + ch.toList.length + Math.pad8 r.content.length ∧
      m.load 0 r.bytes.length = r.bytes ∧ sendPutArea conn ch ⟨b, w⟩ = (do
        onIo (Io.writeAll r.bytes)
        modifyBuf fun b => b.setPutAreaAtLeastOnceConsumed true : M Unit)
        ⟨(b.setBuffer m).pbump (r.bytes.length - cur), w⟩ := by
  have hpending : b.pending = b.buffer_.load 8 (cur - 8) := by
    rw [ServerStreambuf.pending, pbase_eq hput, pptr_eq hput]
  rw [sendPutArea, Prog.bind_ok (Prog.get_run _)]
  dsimp only
  rw [pptr_eq hput, pbase_eq hput, if_neg (by omega)]
  cases ch with
  | none =>
      simp only [Option.toList_none, List.length_nil, Nat.add_zero, List.append_nil] at hle ⊢
      have hpad := Math.pad8_lt (cur - 8)
      have hpad' := Math.add_pad8 (cur - 8)
      obtain ⟨r, m, hr, hlen, hm, heq⟩ := sendRecord_eq hid hput hcur (by omega) hcap hlim w
      have hcontent : r.content.length = cur - 8 := by rw [hr.content, Mem.length_load]
      refine ⟨r, m, hpending ▸ hr, by rw [hcontent, hlen], hm, ?_⟩
      rw [storeExtra, Prog.bind_ok (Prog.pure_run _ _), hlen, Nat.add_sub_cancel_left]
      exact heq
  | some c =>
      simp only [Option.toList_some, List.length_singleton] at hle ⊢
      have hpad := Math.pad8_lt (cur + 1 - 8)
      have hpad' := Math.add_pad8 (cur + 1 - 8)
      -- The character is first appended to the put area.
      set b₁ := (b.setBuffer (b.buffer_.store cur [c])).pbump 1
      have hput₁ : b₁.putArea = some ⟨8, cur + 1, lim⟩ :=
        pbump_putArea_eq (b := b.setBuffer _) hput 1
      obtain ⟨r, m, hr, hlen, hm, heq⟩ := sendRecord_eq (b := b₁) hid hput₁ (by omega) (by omega)
        hcap hlim w
      have hcontent : r.content.length = cur + 1 - 8 := by rw [hr.content, Mem.length_load]
      have hload : b₁.buffer_.load 8 (cur + 1 - 8) = b.pending ++ [c] := by
        have := Mem.load_store_append b.buffer_ 8 (cur - 8) [c]
        rw [show 8 + (cur - 8) = cur by omega, List.length_singleton] at this
        rw [hpending, ← this, show cur + 1 - 8 = cur - 8 + 1 by omega]
        rfl
      refine ⟨r, m, hload ▸ hr, by rw [hcontent, hlen], hm, ?_⟩
      rw [Prog.bind_ok (storeExtra_run hput (by omega) hcap), hlen]
      simp only [Option.isSome_some, if_true]
      rw [show cur - 8 + 1 = cur + 1 - 8 by omega, heq, Nat.add_assoc, Nat.add_sub_cancel_left,
        ← ServerStreambuf.pbump_pbump]
      rfl

/-- The put area is sent as one record, together with the character given to `overflow()`, or
nothing is sent if it is empty. -/
theorem sendPutArea_run {conn : ConnectionInfo} {b : ServerStreambuf} {w : World} {cur : Nat}
    {ch : Option UInt8} (hid : conn.requestId < 65536) (hsends : w.io.sends = [])
    (h : PutArea b cur) (hch : ch.isSome → 8 < cur) :
    ∃ (rs : List Record) (m : Mem) (b' : ServerStreambuf),
      sendPutArea conn ch ⟨b, w⟩ = (.ok (), ⟨b', w.send (Frame.join rs)⟩) ∧
      (∀ x y, b'.setp x y = ((b.setBuffer m).setPutAreaAtLeastOnceConsumed
        (b.isPutAreaAtLeastOnceConsumed_ || !rs.isEmpty)).setp x y) ∧
      (∀ r ∈ rs, r.content ≠ [] ∧ StreamRecord b.type_ conn.requestId r.content r) ∧
      rs.flatMap Record.content = b.pending ++ ch.toList := by
  have hle := h.le
  have hlt := h.lt
  have hsize := h.size_le
  have hcap := h.capacity
  have hmod := h.size_mod
  -- With nothing pending no record is made.
  by_cases h8 : cur = 8
  · subst h8
    obtain rfl : ch = none := by
      cases ch with
      | none => rfl
      | some c => exact absurd (hch rfl) (Nat.lt_irrefl 8)
    refine ⟨[], b.buffer_, b, ?_, fun x y => ?_, nofun, by rw [h.pending_nil]; rfl⟩
    · rw [sendPutArea, Prog.bind_ok (Prog.get_run _)]
      dsimp only
      rw [pptr_eq h.area, pbase_eq h.area, Nat.sub_self, if_pos rfl, Prog.pure_run, Frame.join_nil,
        World.send_nil]
    · simp only [List.isEmpty_nil, Bool.not_true, Bool.or_false]; rfl
  · have hone : ch.toList.length ≤ 1 := by cases ch <;> simp
    -- Otherwise the pending bytes and the character make one record.
    obtain ⟨r, m, hr, -, -, heq⟩ := sendPutArea_record ch hid h.area (by omega) (by omega)
      (by omega) (by omega) (by omega) w
    refine ⟨[r], m, ((b.setBuffer m).pbump (r.bytes.length - cur)).setPutAreaAtLeastOnceConsumed
      true, ?_, fun x y => ?_, fun r' hr' => ?_, ?_⟩
    · rw [heq, Prog.bind_ok (onIo_writeAll_run hsends _), modifyBuf_run, Frame.join_cons,
        Frame.join_nil, List.append_nil]
    · simp only [List.isEmpty_cons, Bool.not_false, Bool.or_true]; rfl
    · obtain rfl := List.mem_singleton.mp hr'
      refine ⟨fun hnil => ?_, hr.content ▸ hr⟩
      have hlen := congrArg List.length (hr.content.symm.trans hnil)
      rw [List.length_append, h.pending, Mem.length_load, List.length_nil] at hlen
      omega
    · rw [List.flatMap_singleton, hr.content]

/-- What `overflow()` does first: it empties the put area. -/
theorem overflow_flush {conn : ConnectionInfo} {t : StreamType} {ending : Bool}
    {b : ServerStreambuf} {w : World} (hid : conn.requestId < 65536) (hsends : w.io.sends = [])
    (h : Writer t ending b) (ch : Option UInt8) (hch : ch.isSome → b.pbase < b.pptr) :
    ∃ (rs : List Record) (b₁ : ServerStreambuf), Writer t ending b₁ ∧ PutArea b₁ 8 ∧
      b₁.isPutAreaAtLeastOnceConsumed_ = (b.isPutAreaAtLeastOnceConsumed_ || !rs.isEmpty) ∧
      (∀ r ∈ rs, r.content ≠ [] ∧ StreamRecord t conn.requestId r.content r) ∧
      rs.flatMap Record.content = b.pending ++ ch.toList ∧
      overflow conn ch ⟨b, w⟩ = (if ending = true then do
          sendEndRecords conn
          assertInvariantOk conn
          pure (some (ch.getD 0))
        else do
          assertInvariantOk conn
          pure (some (ch.getD 0)) : M (Option UInt8)) ⟨b₁, w.send (Frame.join rs)⟩ := by
  obtain ⟨cur, hp⟩ := h.putArea
  obtain ⟨rs, m, b', hrun, hsetp, hrs, hcontent⟩ := sendPutArea_run hid hsends hp
    (fun hs => by have := hch hs; rwa [pbase_eq hp.area, pptr_eq hp.area] at this)
  set b₁ := ((b.setBuffer m).setPutAreaAtLeastOnceConsumed
    (b.isPutAreaAtLeastOnceConsumed_ || !rs.isEmpty)).setp 8 (b.bufferSize_ - 1) with hb₁
  have hb' : b'.bufferSize_ = b.bufferSize_ := by
    have := congrArg ServerStreambuf.bufferSize_ (hsetp 0 0)
    exact this
  have hp₁ : PutArea b₁ 8 := PutArea.empty (b := (b.setBuffer m).setPutAreaAtLeastOnceConsumed _)
    ⟨hp.area, hp.le, hp.lt, hp.size_ge, hp.size_le, hp.size_mod, hp.capacity⟩
  refine ⟨rs, b₁, ⟨h.type, h.output, h.getArea, ⟨8, hp₁⟩, h.content, h.padding, h.open_,
    h.ending_⟩, hp₁, rfl, h.type ▸ hrs, hcontent, ?_⟩
  rw [overflow, Prog.bind_ok (Prog.get_run _), Prog.bind_ok (Prog.assert_true (by
    simp only [h.not_isReader, h.not_isClosed]
    exact ⟨Bool.false_ne_true, Bool.false_ne_true⟩) _)]
  dsimp only
  rw [h.open_, if_neg Bool.false_ne_true,
    Prog.bind_ok (Prog.assert_true (p := b.pbase = Header.size) (pbase_eq hp.area) _),
    Prog.bind_ok hrun, Prog.bind_ok (modifyBuf_run _), hb', Header.size, hsetp, ← hb₁,
    Prog.bind_ok (Prog.get_run _), show b₁.isEndRecordsMustBeTransmitted_ = ending from h.ending_]

/-! ### Calls that keep the stream open -/

/-- From `s` to `s'`, with no end records asked for. -/
structure Transmits (conn : ConnectionInfo) (bs : List UInt8) (s s' : State) : Prop where
  writer : Writer s.buf.type_ false s'.buf
  records : ∃ rs : List Record, s'.world = s.world.send (Frame.join rs) ∧
    (∀ r ∈ rs, r.content ≠ [] ∧ StreamRecord s.buf.type_ conn.requestId r.content r) ∧
    rs.flatMap Record.content ++ s'.buf.pending = s.buf.pending ++ bs ∧
    s'.buf.isPutAreaAtLeastOnceConsumed_ =
      (s.buf.isPutAreaAtLeastOnceConsumed_ || !rs.isEmpty)

namespace Transmits

variable {conn : ConnectionInfo} {bs cs : List UInt8} {s s' s'' : State}

theorem refl (h : Writer s.buf.type_ false s.buf) : Transmits conn [] s s :=
  ⟨h, [], by simp, nofun, by simp, by simp⟩

/-- The stream of the buffer does not change. -/
theorem type (h : Transmits conn bs s s') : s'.buf.type_ = s.buf.type_ := h.writer.type

/-- No answer of the transport is used up where none was left. -/
theorem sends (h : Transmits conn bs s s') : s'.world.io.sends = s.world.io.sends := by
  obtain ⟨rs, hw, -⟩ := h.records
  rw [hw, World.sends_send]

/-- What is transmitted one after the other is transmitted together. -/
theorem trans (h : Transmits conn bs s s') (h' : Transmits conn cs s' s'') :
    Transmits conn (bs ++ cs) s s'' := by
  obtain ⟨rs, hw, hrs, hc, hp⟩ := h.records
  obtain ⟨rs', hw', hrs', hc', hp'⟩ := h'.records
  rw [h.type] at hrs'
  refine ⟨h.type ▸ h'.writer, rs ++ rs', ?_, ?_, ?_, ?_⟩
  · rw [hw', hw, World.send_send, Frame.join_append]
  · exact fun r hr => (List.mem_append.mp hr).elim (hrs r) (hrs' r)
  · rw [List.flatMap_append, List.append_assoc, hc', ← List.append_assoc, hc, List.append_assoc]
  · rw [hp', hp, Bool.or_assoc]
    cases rs <;> simp

end Transmits

section calls

variable {conn : ConnectionInfo} {t : StreamType} {b : ServerStreambuf} {w : World}

/-- **`overflow()` on an open stream.**  The character is not dropped, provided that the put area
is not empty, and all that was pending is sent. -/
theorem overflow_transmits (hid : conn.requestId < 65536) (hsends : w.io.sends = [])
    (h : Writer t false b) (ch : Option UInt8) (hch : ch.isSome → b.pbase < b.pptr) :
    ∃ s', overflow conn ch ⟨b, w⟩ = (.ok (some (ch.getD 0)), s') ∧
      Transmits conn ch.toList ⟨b, w⟩ s' ∧ s'.buf.pending = [] := by
  obtain ⟨rs, b₁, hw, hp, hused, hrs, hcontent, hrun⟩ := overflow_flush hid hsends h ch hch
  have hpending := hp.pending_nil
  refine ⟨⟨b₁, w.send (Frame.join rs)⟩, ?_, ⟨h.type ▸ hw, rs, rfl, h.type ▸ hrs, ?_, hused⟩,
    hpending⟩
  · rw [hrun, if_neg Bool.false_ne_true,
      Prog.bind_ok (assertInvariantOk_run (hw.invariantOk _)), Prog.pure_run]
  · rw [hcontent, hpending, List.append_nil]

/-- `sync()` sends what is pending and accepts nothing. -/
theorem sync_transmits (hid : conn.requestId < 65536) (hsends : w.io.sends = [])
    (h : Writer t false b) :
    ∃ s', sync conn ⟨b, w⟩ = (.ok 0, s') ∧ Transmits conn [] ⟨b, w⟩ s' := by
  obtain ⟨s', hrun, ht, -⟩ := overflow_transmits hid hsends h none nofun
  exact ⟨s', by rw [sync, Prog.bind_ok hrun]; rfl, ht⟩

/-- A character that is put is accepted. -/
theorem sputc_transmits (hid : conn.requestId < 65536) (hsends : w.io.sends = [])
    (h : Writer t false b) (c : UInt8) :
    ∃ s', sputc conn c ⟨b, w⟩ = (.ok (some c), s') ∧ Transmits conn [c] ⟨b, w⟩ s' := by
  obtain ⟨cur, hp⟩ := h.putArea
  have hle := hp.le
  have hge := hp.size_ge
  have hcap := hp.capacity
  rw [sputc, Prog.bind_ok (Prog.get_run _)]
  dsimp only
  rw [pptr_eq hp.area, epptr_eq hp.area]
  by_cases hlt : cur < b.bufferSize_ - 1
  · rw [if_pos hlt, Prog.bind_ok (storeBuf_run (by rw [List.length_singleton]; omega)),
      Prog.bind_ok (modifyBuf_run _), Prog.pure_run]
    obtain ⟨hp₁, hpending⟩ := hp.put hlt c
    exact ⟨_, rfl, h.type ▸ ⟨h.type, h.output, h.getArea, ⟨_, hp₁⟩, h.content, h.padding,
      h.open_, h.ending_⟩, [], by simp, nofun, hpending, by simp⟩
  · rw [if_neg hlt]
    obtain ⟨s', hrun, ht, -⟩ := overflow_transmits hid hsends h (some c) (fun _ => by
      rw [pbase_eq hp.area, pptr_eq hp.area]; omega)
    exact ⟨s', hrun, ht⟩

theorem xsputn_transmits (hid : conn.requestId < 65536) :
    ∀ (bs : List UInt8) {s : State}, s.world.io.sends = [] → Writer t false s.buf →
      ∃ s', xsputn conn bs s = (.ok bs.length, s') ∧ Transmits conn bs s s'
  | [], s, _, h => ⟨s, rfl, Transmits.refl (h.type ▸ h)⟩
  | c :: cs, ⟨b, w⟩, hsends, h => by
      obtain ⟨s₁, hrun₁, ht₁⟩ := sputc_transmits hid hsends h c
      obtain ⟨s₂, hrun₂, ht₂⟩ := xsputn_transmits hid cs (ht₁.sends.trans hsends)
        (h.type ▸ ht₁.writer)
      refine ⟨s₂, ?_, ht₁.trans ht₂⟩
      rw [xsputn, Prog.bind_ok hrun₁]
      dsimp only
      rw [Prog.bind_ok hrun₂]; rfl

end calls

end Fcgi
