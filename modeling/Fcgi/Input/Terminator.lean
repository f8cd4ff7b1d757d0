import Fcgi.Input.Stable
import Fcgi.Input.Headers

/-!
# Input — the end of stdin

`History.StdinRead`: the reader has processed the header that ends stdin.  **`underflow_abreast`**:
unless it aborts, the reader of a filter is at the data stream from then on, and not before.

The type of the stream changes only where such a header has been processed and nothing has failed
since, which is a property of the processing of a header (`header_abreast`); the rest of
`underflow()` leaves both alone (`Lasting`).  A failed assertion may come between the note and the
change, so nothing is said of it.
-/

namespace Fcgi
open Lib

/-- The header is of the stdin of the request `req`, which is being read, and announces no
content. -/
structure Dispatch.EndsStdin (req : Nat) (d : Dispatch) : Prop where
  type : d.buf.type_ = .«in»
  version : d.header.protocolVersion = 1
  requestId : d.header.requestId = req
  recordType : d.header.recordType = .«in»
  content : d.header.contentLength = 0

/-- Stdin has been read to its end: the header that ends it has been processed. -/
def History.StdinRead (req : Nat) (history : History) : Prop :=
  ∃ d ∈ history.dispatches, d.EndsStdin req

/-- The reader is at the data stream if and only if it has read stdin to its end. -/
def Abreast (req : Nat) (s : State) : Prop :=
  s.buf.type_ = .data ↔ s.world.history.StdinRead req

section

variable {conn : ConnectionInfo} {b : ServerStreambuf} {w : World} {d : Dispatch} {req : Nat}

theorem stdinRead_addDispatch : (w.addDispatch d).history.StdinRead req ↔
    w.history.StdinRead req ∨ d.EndsStdin req := by
  simp only [History.StdinRead, World.addDispatch_history_dispatches, List.mem_append,
    List.mem_singleton, or_and_right, exists_or, exists_eq_left]

/-- A header that does not end stdin. -/
theorem Abreast.addDispatch (h : Abreast req ⟨b, w⟩) (hd : ¬ d.EndsStdin req) :
    Abreast req ⟨b, w.addDispatch d⟩ :=
  h.trans (stdinRead_addDispatch.trans (or_iff_left hd)).symm

/-- What keeps the type and the headers keeps it. -/
theorem abreast_lasting : Lasting (Abreast req) where
  buf _ _ _ ht h := by rw [Abreast, ht]; exact h
  io _ _ _ h := h
  entry _ _ _ h := h
  answer _ _ _ h := h
  delivery _ _ _ h := h

/-! ### The processing of a header -/

/-- Of a failed assertion nothing is asked. -/
theorem Unaborted.of_abort {α : Type} {P I : State → Prop} {m : M α} {Q : α → State → Prop}
    (h : Triple P m Q fun x _ => x = .abort) : Triple P m Q (Unaborted I) :=
  h.conseq (fun _ => id) (fun _ _ => id) fun _ _ hx hne => absurd hx hne

theorem assertInvariantOk_same (s₀ : State) : Triple (fun s => s = s₀) (assertInvariantOk conn)
    (fun _ s => s = s₀) fun x _ => x = .abort :=
  Triple.get fun _ hs => Triple.assert (fun _ ht _ => ht.trans hs) fun _ _ _ => rfl

/-- The header of a record of the stream that is being read. -/
theorem processHeader_own (hid : conn.requestId ≠ 0) (fuel : Nat) (call : M (Option UInt8))
    {header : Header} (hv : header.protocolVersion = 1) (ho : header.IsOwn conn b.type_) :
    Triple (fun s => s = ⟨b.setg b.gptr b.gptr b.gptr, w⟩) (processHeader conn fuel call header)
      (fun r s => r = .contentMustBeConsumed ∧ s = ⟨b.dispatched header, w⟩)
      fun x _ => x = .abort := by
  rintro s rfl
  have hrun : dispatch conn fuel call header ⟨b.dispatched header, w⟩ = _ := dispatch_own hid ho
  rw [processHeader, Header.checkValidity, if_neg (not_not.mpr hv),
    Prog.bind_ok (Prog.pure_run _ _), Prog.bind_ok (modifyBuf_run _)]
  refine Triple.bind (Q := fun r s => r = .contentMustBeConsumed ∧ s = ⟨b.dispatched header, w⟩)
    (P := fun s => s = ⟨b.dispatched header, w⟩) ?_ (fun r => ?_) _ rfl
  · rintro s rfl
    rw [hrun]
    exact ⟨rfl, rfl⟩
  · rintro s ⟨rfl, rfl⟩
    exact Triple.bind (assertInvariantOk_same _) (fun _ => Triple.pure fun _ hs => ⟨rfl, hs⟩) _ rfl

/-- The end of a stream. -/
theorem setEndOfStream_same : Triple (fun s => s = ⟨b, w⟩) (setEndOfStream conn)
    (fun _ s => s = ⟨(b.setg b.gptr b.gptr b.gptr).setEndOfStream true, w⟩)
    fun x _ => x = .abort := by
  rintro s rfl
  rw [setEndOfStream, Prog.bind_ok (modifyBuf_run _)]
  exact assertInvariantOk_same _ _ rfl

theorem resetReader_same (type : StreamType) : Triple (fun s => s = ⟨b, w⟩)
    (resetReader conn type) (fun _ s => s = ⟨b.reset type, w⟩) fun x _ => x = .abort := by
  refine Triple.get fun _ _ => Triple.bind (Q := fun _ s => s = ⟨b, w⟩)
    (Triple.assert (fun _ _ _ => ?_) fun _ _ _ => rfl) fun _ => ?_
  · subst_vars; rfl
  · rintro s rfl
    rw [Prog.bind_ok (modifyBuf_run _)]
    exact assertInvariantOk_same _ _ rfl

/-- What the header of a record of the stream leads to, in the state in which it is dispatched: its
content is there to be read, or the stream ends.  A filter goes on to its data. -/
inductive OwnProcessed (conn : ConnectionInfo) (header : List UInt8) (b : ServerStreambuf)
    (w : World) : Flow (List UInt8) (Option UInt8) → State → Prop
  | content (h : b.unreadContentLength_ ≠ 0) : OwnProcessed conn header b w (.again header) ⟨b, w⟩
  | ended (h : b.unreadContentLength_ = 0)
      (hready : ¬ ((b.setg b.gptr b.gptr b.gptr).setEndOfStream true).isReadyToFilterData conn) :
      OwnProcessed conn header b w (.done none)
        ⟨(b.setg b.gptr b.gptr b.gptr).setEndOfStream true, w⟩
  | data (h : b.unreadContentLength_ = 0)
      (hready : ((b.setg b.gptr b.gptr b.gptr).setEndOfStream true).isReadyToFilterData conn) :
      OwnProcessed conn header b w (.done none)
        ⟨((b.setg b.gptr b.gptr b.gptr).setEndOfStream true).reset .data, w⟩

/-- The processing of a header of the stream. -/
theorem own_processed (hid : conn.requestId ≠ 0) (fuel : Nat) (call : M (Option UInt8))
    (stale : Bool) {header : List UInt8} (hv : (Header.ofBytes header).protocolVersion = 1)
    (ho : (Header.ofBytes header).IsOwn conn b.type_) :
    Triple (fun s => s = ⟨b, w⟩) (do
        noteDispatch stale (Header.ofBytes header)
        processAccumulated conn fuel call header)
      (OwnProcessed conn header (b.dispatched (Header.ofBytes header))
        (w.addDispatch ⟨Header.ofBytes header, stale, b, w.io⟩))
      fun x _ => x = .abort := by
  set b₁ := b.dispatched (Header.ofBytes header)
  set w₁ := w.addDispatch ⟨Header.ofBytes header, stale, b, w.io⟩
  rintro s rfl
  rw [processing_run]
  refine Triple.bind (processHeader_own hid fuel call hv ho) (fun r => ?_) _ rfl
  rintro s ⟨rfl, rfl⟩
  refine Triple.get (P := fun s => s = ⟨b₁, w₁⟩) (fun s hs => ?_) _ rfl
  subst hs
  refine Triple.ite (fun h0 => ?_) fun h0 => Triple.pure fun t ht => ht ▸ .content h0
  refine Triple.bind setEndOfStream_same fun _ => Triple.get fun s hs => ?_
  subst hs
  refine Triple.ite (fun hready => ?_) fun hready => Triple.pure fun t ht => ht ▸ .ended h0 hready
  exact Triple.bind (resetReader_same .data) fun _ => Triple.pure fun t ht => ht ▸ .data h0 hready

variable (hid : conn.requestId ≠ 0) (hrole : conn.role = .filter) {fuel : Nat}
  {call : M (Option UInt8)}

include hid hrole

/-- A header of the stream that is being read. -/
theorem own_abreast (hs : Abreast conn.requestId ⟨b, w⟩) (stale : Bool) {header : List UInt8}
    (hv : (Header.ofBytes header).protocolVersion = 1)
    (ho : (Header.ofBytes header).IsOwn conn b.type_) :
    Triple (fun s => s = ⟨b, w⟩) (do
        noteDispatch stale (Header.ofBytes header)
        processAccumulated conn fuel call header)
      (fun _ => Abreast conn.requestId) (Unaborted (Abreast conn.requestId)) := by
  refine (Unaborted.of_abort (own_processed hid fuel call stale hv ho)).post fun r s h => ?_
  cases h with
  | content h => exact hs.addDispatch fun he => h he.content
  | ended h hready =>
      -- The stream that ends here is not stdin.
      have htype : b.type_ ≠ .«in» := fun ht => hready (by
        simp [ServerStreambuf.isReadyToFilterData, ServerStreambuf.isClosed,
          ServerStreambuf.isReader, ServerStreambuf.dispatched, hrole, ht])
      exact hs.addDispatch fun he => htype he.type
  | data h hready =>
      -- Stdin ends here, and the reader goes on to the data.
      simp only [ServerStreambuf.isReadyToFilterData, Bool.and_eq_true, beq_iff_eq] at hready
      have htype : b.type_ = .«in» := hready.1.2
      exact ⟨fun _ => stdinRead_addDispatch.mpr (.inr ⟨htype, hv, ho.1,
        ho.2.trans (congrArg StreamType.recordType htype), h⟩), fun _ => rfl⟩

theorem header_abreast
    (hcall : KeepsOr (Unaborted (Abreast conn.requestId)) (Abreast conn.requestId) call)
    (stale : Bool) (header : List UInt8) :
    KeepsOr (Unaborted (Abreast conn.requestId)) (Abreast conn.requestId) (do
      noteDispatch stale (Header.ofBytes header)
      processAccumulated conn fuel call header) := by
  rintro ⟨b, w⟩ hs
  by_cases hown : (Header.ofBytes header).protocolVersion = 1 ∧
      (Header.ofBytes header).IsOwn conn b.type_
  · exact own_abreast hid hrole hs stale hown.1 hown.2 _ rfl
  have hend : ∀ io, ¬ (Dispatch.mk (Header.ofBytes header) stale b io).EndsStdin conn.requestId :=
    fun io h => hown ⟨h.version, h.requestId, (show b.type_ = .«in» from h.type) ▸ h.recordType⟩
  rw [processing_run]
  refine Triple.bind (processHeader_lasting abreast_lasting .unaborted hcall _ b.type_)
    (fun r => ?_) _ ⟨hs.addDispatch (hend _), rfl⟩
  have keep : ∀ {α : Type} {m : M α} {p : Prop}, Keeps (Abreast conn.requestId) m →
      Triple (fun s => Abreast conn.requestId s ∧ p) m (fun _ => Abreast conn.requestId)
        (Unaborted (Abreast conn.requestId)) :=
    fun hm => (hm.or .unaborted).pre fun _ hs => hs.1
  cases r with
  | requestRejected =>
      exact keep (.bind (setEndOfStream_lasting abreast_lasting) fun _ => .pure _)
  | managementProcessed => exact keep (.pure _)
  | contentMustBeConsumed => exact fun s hs => absurd (hs.2 rfl) hown
  | contentMustBeDiscarded =>
      exact keep (.bind (modifyBuf_lasting abreast_lasting fun _ => rfl) fun _ => .pure _)

/-! ### The calls of the input stream -/

theorem underflow_abreast (fuel : Nat) :
    KeepsOr (Unaborted (Abreast conn.requestId)) (Abreast conn.requestId) (underflow conn fuel) :=
  underflow_lasting abreast_lasting .unaborted (header_abreast hid hrole) fuel

end

end Fcgi
