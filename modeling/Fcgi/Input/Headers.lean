import Fcgi.Input.Position

/-!
# Input — from a header on

What `underflow()` does once it has read a header, for each kind of record.

* `own_content`: the content of the reader's own record comes next.
* `own_end`: its own record without content ends the stream.
* `unknown_content`: the content of an unknown management record comes next.
* **`repeats_stuck`**: `underflow()` does not return after a record of another request, a
  get-values record, or a management record without content.  The loop processes the header again.

The last is shown by an invariant of the loop (`Stale`): the header is whole, and content is left
only where it is passed over.  A round from there discards the content, skips the padding, finds
that nothing is missing of the header and processes it, which leads there again; so no round is the
last.  It does not matter what is answered meanwhile, nor what else the client sends.
-/

namespace Fcgi
open Lib
open ServerStreambuf (gptr_eq egptr_eq)

/-- The end of the stream has been reached, with `bs` ahead. -/
structure Ended (conn : ConnectionInfo) (t : StreamType) (size : Nat) (out bs : List UInt8)
    (s : State) : Prop where
  openReader : OpenReader conn.role s.buf
  type : s.buf.type_ = t
  bufferSize : s.buf.bufferSize_ = size
  ended : s.buf.isEndOfStream_ = true
  area : s.buf.gptr = s.buf.egptr
  clean : s.world.io.Clean
  written : s.world.io.written = out
  bytes : s.ahead s.buf.egptr = bs

/-- The header of a record after which the loop comes back to the same header. -/
def Header.Repeats (conn : ConnectionInfo) (h : Header) : Prop :=
  h.IsRejected conn ∨ h.IsGetValues ∨ (h.isManagementRecord ∧ h.contentLength = 0)

section

variable {conn : ConnectionInfo} {t : StreamType} {size : Nat} {out rest hd : List UInt8}
  {s : State}

/-! ### Processing a header -/

/-- The header has been processed: what it announces is ahead. -/
theorem InLoop.dispatched (h : InLoop conn t size 0 0 out rest s) (header : Header)
    (d : Dispatch) (hc : header.contentLength ≤ size) :
    InLoop conn t size header.contentLength header.paddingLength out rest
      ⟨s.buf.dispatched header, s.world.addDispatch d⟩ :=
  ⟨⟨h.openReader.dispatched _, h.type, h.bufferSize, h.open_, h.kept, rfl, rfl, hc, h.clean,
    h.written⟩, h.bytes⟩

/-- `process_header()` of a valid header is its branch and the assertion. -/
theorem processHeader_ok (fuel : Nat) (call : M (Option UInt8)) {header : Header}
    {b : ServerStreambuf} {w : World} {r : ProcessHeaderResult} {s' : State}
    (hv : header.protocolVersion = 1)
    (hrun : dispatch conn fuel call header ⟨b.dispatched header, w⟩ = (.ok r, s'))
    (hi : s'.buf.InvariantOk conn.role) :
    processHeader conn fuel call header ⟨b.setg b.gptr b.gptr b.gptr, w⟩ = (.ok r, s') := by
  rw [processHeader, Header.checkValidity, if_neg (not_not.mpr hv),
    Prog.bind_ok (Prog.pure_run _ _), Prog.bind_ok (modifyBuf_run _)]
  refine (Prog.bind_ok hrun).trans ?_
  rw [Prog.bind_ok (assertInvariantOk_run hi), Prog.pure_run]

/-- A header of the reader's own stream. -/
theorem dispatch_own {fuel : Nat} {call : M (Option UInt8)} {header : Header}
    (hid : conn.requestId ≠ 0) (ho : header.IsOwn conn s.buf.type_) :
    dispatch conn fuel call header s = (.ok .contentMustBeConsumed, s) := by
  have hm : ¬ header.isManagementRecord = true := fun h =>
    hid (ho.1.symm.trans (beq_iff_eq.mp h))
  rw [dispatch, Prog.bind_ok (Prog.get_run _),
    if_neg (ho.2 ▸ StreamType.recordType_ne_beginRequest _), if_neg hm,
    if_neg (not_not.mpr ho.1), if_pos ho.2, Prog.pure_run]

/-- The loop goes on after the header. -/
theorem afterHeader_again {fuel : Nat} {b : ServerStreambuf} {w : World} {r : ProcessHeaderResult}
    {s' s'' : State}
    (hrun : processHeader conn fuel (underflow conn fuel) (Header.ofBytes hd)
      ⟨b.setg b.gptr b.gptr b.gptr, w.addDispatch ⟨Header.ofBytes hd, false, b, w.io⟩⟩ =
        (.ok r, s'))
    (hafter : afterProcess conn hd r s' = (.ok (.again hd), s'')) :
    afterHeader conn hd fuel ⟨b, w⟩ = underflowLoop conn fuel hd s'' := by
  rw [afterHeader, Prog.bind_ok (a := .again hd)]
  · rfl
  · rw [processing_run, Prog.bind_ok hrun, hafter]

/-- An own record with content. -/
theorem InLoop.own_content (h : InLoop conn t size 0 0 out rest s) (hid : conn.requestId ≠ 0)
    (hv : (Header.ofBytes hd).protocolVersion = 1) (ho : (Header.ofBytes hd).IsOwn conn t)
    (hc : 0 < (Header.ofBytes hd).contentLength)
    (hsize : (Header.ofBytes hd).contentLength ≤ size) :
    ∃ s', InLoop conn t size (Header.ofBytes hd).contentLength (Header.ofBytes hd).paddingLength
        out rest s' ∧
      Prog.Leads (afterHeader conn hd) s (fun n => underflowLoop conn n hd) s' := by
  obtain ⟨b, w⟩ := s
  set d : Dispatch := ⟨Header.ofBytes hd, false, b, w.io⟩
  have h₁ := h.dispatched _ d hsize
  refine ⟨_, h₁, .of_eq fun n => ?_⟩
  have hrun := processHeader_ok n (underflow conn n) hv (dispatch_own hid
    (s := ⟨b.dispatched (Header.ofBytes hd), w.addDispatch d⟩) (h₁.type.symm ▸ ho))
    (h₁.invariantOk (Nat.le_refl _))
  exact afterHeader_again hrun (afterProcess_more (by rw [h₁.content]; omega))

/-- An own record without content: the stream has ended.  A filter goes on to its data. -/
theorem InLoop.own_end (h : InLoop conn t size 0 0 out rest s) (hid : conn.requestId ≠ 0)
    (hv : (Header.ofBytes hd).protocolVersion = 1) (ho : (Header.ofBytes hd).IsOwn conn t)
    (hc : (Header.ofBytes hd).contentLength = 0) :
    ∃ s', Prog.Runs (afterHeader conn hd) s (.ok none) s' ∧
      if conn.role = .filter ∧ t = .«in» then Idle conn .data size 0 0 out [] rest s'
      else Ended conn t size out rest s' := by
  obtain ⟨b, w⟩ := s
  set d : Dispatch := ⟨Header.ofBytes hd, false, b, w.io⟩
  have h₁ := h.dispatched (Header.ofBytes hd) d (by omega)
  have hrun := fun n => processHeader_ok n (underflow conn n) hv
    (dispatch_own hid (s := ⟨b.dispatched (Header.ofBytes hd), w.addDispatch d⟩)
      (h₁.type.symm ▸ ho)) (h₁.invariantOk (Nat.le_refl _))
  set b₁ := b.dispatched (Header.ofBytes hd)
  -- The buffer when the end of the stream has been set: an empty get area at gptr().
  obtain ⟨b₂, hb₂⟩ : ∃ b₂, b₂ = (b₁.setg b₁.gptr b₁.gptr b₁.gptr).setEndOfStream true := ⟨_, rfl⟩
  have ho₂ : OpenReader conn.role b₂ := hb₂ ▸ h₁.openReader.setg_gptr.setEndOfStream _
  have hu₂ : b₂.unreadContentLength_ = 0 := hb₂ ▸ h₁.content.trans hc
  have harea : b₂.getArea = some ⟨b.gptr, b.gptr, b.gptr⟩ := hb₂ ▸ rfl
  have hsize : b₂.bufferSize_ = size := hb₂ ▸ h.bufferSize
  have htype : b₂.type_ = t := hb₂ ▸ h₁.type
  have heos : b₂.isEndOfStream_ = true := hb₂ ▸ rfl
  have hpast : b₂.gptr = b₂.egptr := (gptr_eq harea).trans (egptr_eq harea).symm
  have hbytes : State.ahead ⟨b₂, w.addDispatch d⟩ b₂.egptr = rest := by
    rw [egptr_eq harea]
    exact (State.ahead_congr (hb₂ ▸ rfl) (hb₂ ▸ rfl) rfl).trans h.bytes
  have hset : setEndOfStream conn ⟨b₁, w.addDispatch d⟩ = (.ok (), ⟨b₂, w.addDispatch d⟩) := by
    rw [setEndOfStream, Prog.bind_ok (modifyBuf_eq hb₂.symm)]
    exact assertInvariantOk_run (ho₂.invariantOk (hu₂ ▸ Nat.zero_le _) (Nat.le_of_eq hpast))
  -- What decides whether the reader goes on with the data.
  have hready : (b₂.isReadyToFilterData conn = true) ↔ (conn.role = .filter ∧ t = .«in») := by
    simp only [ServerStreambuf.isReadyToFilterData, ho₂.not_isClosed, htype, Bool.not_false,
      Bool.true_and, Bool.and_eq_true, beq_iff_eq, heos, and_true]
  have hround : ∀ n, (do
      noteDispatch false (Header.ofBytes hd)
      processAccumulated conn n (underflow conn n) hd : M _) ⟨b, w⟩ = (do
        if b₂.isReadyToFilterData conn then resetReader conn .data else pure ()
        pure (.done none) : M _) ⟨b₂, w.addDispatch d⟩ := fun n => by
    rw [processing_run, Prog.bind_ok (hrun n),
      afterProcess_end (h₁.content.trans hc), Prog.bind_ok hset, Prog.bind_ok (Prog.get_run _)]
  by_cases hf : conn.role = .filter ∧ t = .«in»
  · -- The same buffer goes on with the data.
    have ho₃ : OpenReader conn.role (b₂.reset .data) :=
      ho₂.reset rfl (.inr (.inr (.inr ⟨hf.1, .inr rfl⟩)))
    have hreset : resetReader conn .data ⟨b₂, w.addDispatch d⟩ =
        (.ok (), ⟨b₂.reset .data, w.addDispatch d⟩) := by
      rw [resetReader, Prog.bind_ok (Prog.get_run _), Prog.bind_ok (Prog.assert_true
        ⟨ho₂.reader, Bool.eq_false_iff.mp ho₂.not_isClosed⟩ _), Prog.bind_ok (modifyBuf_run _)]
      exact assertInvariantOk_run (ho₃.invariantOk (Nat.zero_le _) (Nat.le_of_eq hpast))
    refine ⟨⟨b₂.reset .data, w.addDispatch d⟩, .of_eq fun n => ?_, ?_⟩
    · rw [afterHeader, Prog.bind_ok (a := .done none)]
      · rfl
      · rw [hround n, if_pos (hready.mpr hf)]
        exact (Prog.bind_ok hreset).trans rfl
    · rw [if_pos hf]
      have hnone : b₂.egptr - b₂.gptr = 0 := Nat.sub_eq_zero_of_le (Nat.le_of_eq hpast.symm)
      exact ⟨⟨ho₃, rfl, hsize, rfl, rfl, rfl, rfl, Nat.zero_le _, h.clean, h.written⟩,
        Nat.le_of_eq hpast, congrArg (b₂.buffer_.load b₂.gptr) hnone, hbytes⟩
  · refine ⟨⟨b₂, w.addDispatch d⟩, .of_eq fun n => ?_, ?_⟩
    · rw [afterHeader, Prog.bind_ok (a := .done none)]
      · rfl
      · rw [hround n, if_neg (mt hready.mp hf)]
        rfl
    · rw [if_neg hf]
      exact ⟨ho₂, htype, hsize, heos, hpast, h.clean, h.written, hbytes⟩

/-- An unknown management record with content, which comes next; the answer may fail. -/
theorem InLoop.unknown_content (h : InLoop conn t size 0 0 out rest s)
    (hv : (Header.ofBytes hd).protocolVersion = 1)
    (hm : (Header.ofBytes hd).isManagementRecord)
    (hb : (Header.ofBytes hd).recordType ≠ .beginRequest)
    (hg : (Header.ofBytes hd).recordType ≠ .getValues)
    (hsize : (Header.ofBytes hd).contentLength ≤ size) :
    Prog.Stuck (afterHeader conn hd) s ∨ ∃ s' out', InLoop conn t size
        (Header.ofBytes hd).contentLength (Header.ofBytes hd).paddingLength out' rest s' ∧
      Prog.Leads (afterHeader conn hd) s (fun n => underflowLoop conn n hd) s' := by
  obtain ⟨b, w⟩ := s
  set d : Dispatch := ⟨Header.ofBytes hd, false, b, w.io⟩
  have h₁ := h.dispatched _ d hsize
  set b₁ := b.dispatched (Header.ofBytes hd)
  set r := (Record.unknownType (Header.ofBytes hd).recordType).bytes
  have hdisp : ∀ n, dispatch conn n (underflow conn n) (Header.ofBytes hd)
      ⟨b₁, w.addDispatch d⟩ =
      (onIo (Io.writeAll r) >>= fun _ => pure .managementProcessed : M _) ⟨b₁, w.addDispatch d⟩ :=
    fun n => by
      rw [dispatch, Prog.bind_ok (Prog.get_run _), if_neg hb, if_pos hm, processManagementRecord,
        if_neg hg, Prog.bind_ok (Record.unknownTypeRecord_run _)]
  -- The answer is written whole, or the call ends with it.
  rcases Io.writeAll_cases r (w.addDispatch d).io with e | e
  · right
    obtain ⟨w₁, hw₁⟩ : ∃ w₁, w₁ = (w.addDispatch d).setIo { w.io with
      sends := w.io.sends.tail, written := w.io.written ++ r } := ⟨_, rfl⟩
    have h₂ : InLoop conn t size (Header.ofBytes hd).contentLength
        (Header.ofBytes hd).paddingLength (out ++ r) rest ⟨b₁, w₁⟩ :=
      ⟨⟨h₁.openReader, h₁.type, h₁.bufferSize, h₁.open_, h₁.kept, h₁.content, h₁.padding, h₁.fits,
        hw₁ ▸ h.clean, hw₁ ▸ congrArg (· ++ r) h.written⟩, hw₁ ▸ h₁.bytes⟩
    refine ⟨_, _, h₂, .of_eq fun n => ?_⟩
    have hrun := processHeader_ok n (underflow conn n) (b := b)
      (w := w.addDispatch d) hv (r := .managementProcessed) (by
        rw [hdisp, Prog.bind_ok (onIo_run e), hw₁]
        rfl) (h₂.invariantOk (Nat.le_refl _))
    exact afterHeader_again hrun rfl
  · left
    have hx : ∃ x s', onIo (Io.writeAll r) ⟨b₁, w.addDispatch d⟩ = (.error x, s') := by
      rcases e with ⟨-, x, e⟩ | ⟨n, -, -, e⟩
      · exact ⟨_, _, onIo_run e⟩
      · exact ⟨_, _, onIo_run e⟩
    obtain ⟨x, s', hx⟩ := hx
    have hruns : Prog.Runs (afterHeader conn hd) ⟨b, w⟩ (.error x) s' := .of_eq fun n => by
      have hrun : processHeader conn n (underflow conn n) (Header.ofBytes hd)
          ⟨b.setg b.gptr b.gptr b.gptr, w.addDispatch d⟩ = (.error x, s') := by
        rw [processHeader, Header.checkValidity, if_neg (not_not.mpr hv),
          Prog.bind_ok (Prog.pure_run _ _), Prog.bind_ok (modifyBuf_run _)]
        exact Prog.bind_error ((hdisp n).trans (Prog.bind_error hx))
      refine Prog.bind_error ?_
      rw [processing_run, Prog.bind_error hrun]
    exact hruns.stuck

/-! ### Headers that come back -/

/-- Content is left only where it is passed over. -/
def Stale (conn : ConnectionInfo) (hd : List UInt8) (s : State) : Prop :=
  0 < s.buf.unreadContentLength_ →
    (Header.ofBytes hd).IsRejected conn ∧ s.buf.isContentMustBeDiscarded_ = true

/-- A program of the transport leaves the buffer as it is. -/
theorem onIo_buf {α : Type} {m : Prog Io Exception α} (b : ServerStreambuf) :
    Triple (fun s => s.buf = b) (onIo m) (fun _ s => s.buf = b) fun _ _ => True := by
  rintro ⟨b', w⟩ rfl
  rcases e : m w.io with ⟨x | a, io⟩
  · rw [onIo_run e]; trivial
  · rw [onIo_run e]

theorem sendGetValuesResult_buf {header : Header} {vars : NamesValues} (b : ServerStreambuf) :
    Triple (fun s => s.buf = b) (sendGetValuesResult conn header vars) (fun _ s => s.buf = b)
      fun _ _ => True := by
  intro s hs
  by_cases hfit : 8 + (replyContent (vars.pairs_.map NameValue.name)).length ≤ replySize
  · obtain ⟨r, -, -, -, -, hrun⟩ := sendGetValuesResult_run
      rfl hfit s
    rw [hrun]
    exact onIo_buf b s hs
  · rw [sendGetValuesResult_abort hfit]
    trivial

theorem endRequest_buf {header : Header} (ps : ProtocolStatus) (b : ServerStreambuf) :
    Triple (fun s => s.buf = b) (endRequest header ps) (fun _ s => s.buf = b) fun _ _ => True :=
  fun s hs => endRequest_eq header ps s ▸ onIo_buf b s hs

/-- The result for a header that repeats, and the content left then. -/
def Again (conn : ConnectionInfo) (h : Header) : ProcessHeaderResult → State → Prop
  | .managementProcessed, s => s.buf.unreadContentLength_ = 0
  | .contentMustBeDiscarded, _ => h.IsRejected conn
  | _, _ => False

/-- After a management record of the kinds in question, the loop goes on. -/
theorem processManagementRecord_again {fuel : Nat} {call : M (Option UInt8)} {header : Header}
    (hh : header.IsGetValues ∨ header.contentLength = 0) :
    Triple (fun s => s.buf.unreadContentLength_ = header.contentLength)
      (processManagementRecord conn fuel call header) (fun r s => Again conn header r s)
      fun _ _ => True := by
  refine Triple.ite (fun _ => ?_) fun ht => ?_
  · refine Triple.bind (Q := fun _ _ => True) (fun s _ => ?_) fun p => ?_
    · rcases NamesValues.ofStream call fuel {} 3 s with ⟨x | p, s'⟩ <;> trivial
    · rcases p with ⟨vars, is⟩
      refine Triple.bind (Q := fun _ _ => True) (fun _ _ => trivial) fun _ =>
        Triple.get fun s _ => Triple.ite (fun _ => ?_) fun hu => ?_
      · refine Triple.bind (Q := fun _ _ => False) ?_ fun _ s h => h.elim
        exact Triple.bind ((endRequest_buf _ s.buf).pre fun t ht => ht ▸ rfl) fun _ =>
          Triple.throw fun _ _ => trivial
      · refine Triple.bind ((sendGetValuesResult_buf s.buf).pre fun t ht => ht ▸ rfl) fun _ =>
          Triple.pure fun t ht => ?_
        rw [Again, ht]
        omega
  · have h0 : header.contentLength = 0 := hh.resolve_left fun h => ht h.2
    rintro ⟨b, w⟩ hb
    rw [Prog.bind_ok (Record.unknownTypeRecord_run _)]
    exact Triple.bind (onIo_buf b) (fun _ => Triple.pure fun s hs => by
      rw [Again, hs]; exact hb.trans h0) ⟨b, w⟩ rfl

/-- After any header of these kinds, the loop goes on. -/
theorem dispatch_again {fuel : Nat} {call : M (Option UInt8)} {header : Header}
    (hh : header.Repeats conn) :
    Triple (fun s => s.buf.unreadContentLength_ = header.contentLength)
      (dispatch conn fuel call header) (fun r s => Again conn header r s) fun _ _ => True := by
  refine Triple.get fun s hs => Triple.ite (fun hb => ?_) fun hb => Triple.ite (fun hm => ?_)
    fun hm => Triple.ite (fun hid => Triple.pure fun _ _ => .inr ⟨hm, hid⟩) fun hid => ?_
  · exact Triple.bind ((endRequest_buf _ s.buf).pre fun t ht => ht ▸ rfl) fun _ =>
      Triple.pure fun _ _ => .inl hb
  · refine (processManagementRecord_again ?_).pre fun t ht => ht ▸ hs
    rcases hh with (hh | hh) | hh | hh
    · exact absurd hh hb
    · exact absurd hm hh.1
    · exact .inl hh
    · exact .inr hh.2
  · rcases hh with (hh | hh) | hh | hh
    · exact absurd hh hb
    · exact absurd hh.2 hid
    · exact absurd hh.1 hm
    · exact absurd hh.1 hm

theorem processAccumulated_again {fuel : Nat} {call : M (Option UInt8)} {st : Bool}
    (hh : (Header.ofBytes hd).Repeats conn) :
    Triple (fun _ => True)
      (do noteDispatch st (Header.ofBytes hd); processAccumulated conn fuel call hd)
      (fun r s => r = .again hd ∧ Stale conn hd s) fun _ _ => True := by
  refine Triple.bind (Q := fun _ _ => True) (fun _ _ => trivial) fun _ =>
    Triple.bind (Q := fun _ _ => True) (fun _ _ => trivial) fun _ =>
    Triple.bind (Q := fun r s => Again conn (Header.ofBytes hd) r s) ?_ fun r => ?_
  · refine Triple.bind (Q := fun _ _ => True) (Triple.ite (fun _ => Triple.throw fun _ _ => trivial)
      fun _ => Triple.pure fun _ h => h) fun _ => ?_
    refine Triple.bind (Q := fun _ s => s.buf.unreadContentLength_ =
      (Header.ofBytes hd).contentLength) (Triple.modify fun _ _ => rfl) fun _ =>
      Triple.bind (dispatch_again hh) fun r => ?_
    refine Triple.bind (Q := fun _ s => Again conn (Header.ofBytes hd) r s) ?_ fun _ =>
      Triple.pure fun _ h => h
    exact Triple.get fun s hs => Triple.assert (fun t ht _ => ht ▸ hs) fun _ _ _ => trivial
  · cases r with
    | requestRejected => exact fun s hs => hs.elim
    | contentMustBeConsumed => exact fun s hs => hs.elim
    | managementProcessed =>
        exact Triple.pure fun s hs => ⟨rfl, fun h => absurd h (by rw [hs]; exact Nat.lt_irrefl 0)⟩
    | contentMustBeDiscarded =>
        exact Triple.bind (Q := fun _ s => Stale conn hd s) (fun s hs _ => ⟨hs, rfl⟩) fun _ =>
          Triple.pure fun s hs => ⟨rfl, hs⟩

/-- The invariant is about the buffer only. -/
theorem Stale.of_buf {s' : State} (h : Stale conn hd s)
    (hu : s'.buf.unreadContentLength_ = s.buf.unreadContentLength_)
    (hdis : s'.buf.isContentMustBeDiscarded_ = s.buf.isContentMustBeDiscarded_) :
    Stale conn hd s' := fun h' => by
  rw [hdis]
  exact h (hu ▸ h')

theorem readRecords_stale :
    Triple (Stale conn hd) readRecords (fun _ s => Stale conn hd s) fun _ _ => True := by
  refine Triple.get fun s hs => Triple.ite (fun _ => ?_) fun _ => Triple.pure fun t ht => ht ▸ hs
  refine Triple.bind (Q := fun _ t => t.buf = s.buf)
    ((onIo_buf s.buf).pre fun t ht => congrArg State.buf ht) fun bytes =>
    Triple.ite (fun _ => ?_) fun _ => Triple.throw fun _ _ => trivial
  refine Triple.bind (Q := fun _ t => Stale conn hd t) ?_ fun _ t ht => ht.of_buf rfl rfl
  refine Triple.get fun t ht => Triple.ite (fun _ => ?_) fun _ => Triple.fault fun _ _ => trivial
  rintro t' rfl
  exact hs.of_buf (congrArg ServerStreambuf.unreadContentLength_ ht :)
    (congrArg ServerStreambuf.isContentMustBeDiscarded_ ht :)

/-- Content is discarded and not delivered. -/
theorem setUpContent_stale :
    Triple (Stale conn hd) (setUpContent conn)
      (fun r s => match r with
        | some (.done _) => False
        | some (.again _) => Stale conn hd s
        | none => s.buf.unreadContentLength_ = 0) fun _ _ => True := by
  rintro ⟨b, w⟩ hs
  by_cases hu : 0 < b.unreadContentLength_
  · obtain ⟨hrej, hdis⟩ := hs hu
    obtain ⟨b₁, hb₁⟩ : ∃ b₁, b₁ = (b.setUnreadContentLength (b.unreadContentLength_ -
      min b.unreadContentLength_ (b.bufferEnd_ - b.gptr))).gbump
        (min b.unreadContentLength_ (b.bufferEnd_ - b.gptr)) := ⟨_, rfl⟩
    rw [setUpContent_discard hu hdis rfl hb₁]
    by_cases hu' : 0 < b₁.unreadContentLength_
    · rw [if_pos hu']
      exact fun _ => ⟨hrej, hb₁ ▸ hdis⟩
    · rw [if_neg hu']
      exact Nat.eq_zero_of_not_pos hu'
  · have hu₀ : b.unreadContentLength_ = 0 := Nat.eq_zero_of_not_pos hu
    rw [setUpContent_none hu₀]
    exact hu₀

theorem skipPadding_stale :
    Triple (fun s => s.buf.unreadContentLength_ = 0) skipPadding
      (fun _ s => s.buf.unreadContentLength_ = 0) fun _ _ => True := by
  refine Triple.get fun s hs => Triple.ite (fun _ => ?_) fun _ => Triple.pure fun t ht => ht ▸ hs
  refine Triple.bind (Q := fun _ t => t.buf.unreadContentLength_ = 0) ?_ fun _ =>
    Triple.get fun t ht => Triple.pure fun t' ht' => ht' ▸ ht
  rintro t rfl
  exact hs

theorem accumulateHeader_stale (hlen : hd.length = 8) :
    Triple (fun s => s.buf.unreadContentLength_ = 0) (accumulateHeader hd)
      (fun hd' _ => hd' = hd) fun _ _ => True := by
  rintro ⟨b, w⟩ hs
  rw [accumulateHeader_all (Nat.le_of_eq hlen.symm)]

/-- A round with such a header, processed before, leads to another. -/
theorem underflowRound_again {fuel : Nat} {call : M (Option UInt8)} (hlen : hd.length = 8)
    (hh : (Header.ofBytes hd).Repeats conn) :
    Triple (Stale conn hd) (underflowRound conn fuel call hd)
      (fun r s => r = .again hd ∧ Stale conn hd s) fun _ _ => True := by
  refine Triple.bind readRecords_stale fun _ => Triple.get fun s hs => ?_
  refine Triple.bind (Triple.assert (Q := fun _ t => t = s) (fun t ht _ => ht)
    fun _ _ _ => trivial) fun _ => Triple.bind (setUpContent_stale.pre fun t ht => ht ▸ hs)
    fun r => ?_
  rcases r with _ | ⟨_ | r⟩
  · refine Triple.get fun s hs => Triple.bind (Triple.assert (Q := fun _ t => t = s)
      (fun t ht _ => ht) fun _ _ _ => trivial) fun _ => ?_
    refine Triple.bind (skipPadding_stale.pre fun t ht => ht ▸ hs) fun r => ?_
    cases r with
    | true => exact Triple.pure fun s hs => ⟨rfl, fun h => absurd hs (by omega)⟩
    | false =>
        refine Triple.get fun s hs => Triple.bind (Triple.assert (Q := fun _ t => t = s)
          (fun t ht _ => ht) fun _ _ _ => trivial) fun _ => ?_
        refine Triple.bind ((accumulateHeader_stale hlen).pre fun t ht => ht ▸ hs) fun hd' => ?_
        rintro s rfl
        refine Triple.ite (P := fun _ => True) (fun hlt => ?_) (fun _ => ?_) s trivial
        · rw [hlen, Header.size] at hlt
          omega
        · exact Triple.bind (Q := fun _ _ => True) (Triple.assert (fun _ _ _ => trivial)
            fun _ _ _ => trivial) fun _ => processAccumulated_again hh
  · exact Triple.pure fun s hs => ⟨rfl, hs⟩
  · exact fun s hs => hs.elim

/-- **`underflow()` does not return** after such a header. -/
theorem repeats_stuck (hlen : hd.length = 8) (hh : (Header.ofBytes hd).Repeats conn) :
    Prog.Stuck (afterHeader conn hd) s := by
  intro n a s' h
  obtain ⟨r, s₁, hround, hgo⟩ := Prog.bind_eq_ok h
  obtain ⟨rfl, hstale⟩ := (processAccumulated_again hh).of_ok trivial hround
  refine Prog.recLoop_stuck (I := fun h s => h = hd ∧ Stale conn hd s) (fun k call b => ?_)
    ⟨rfl, hstale⟩ n a s' hgo
  rintro s ⟨rfl, hs⟩
  refine (underflowRound_again hlen hh).conseq (fun _ h => h) ?_ (fun _ _ h => h) s hs
  rintro r s ⟨rfl, hs⟩
  exact ⟨rfl, hs⟩

end

end Fcgi
