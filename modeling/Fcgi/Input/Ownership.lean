import Fcgi.Input.Handed

/-!
# Input — whose bytes the reader hands out

`Owned conn T c`: with `T` the bytes of the client, the reader knows where in `T` it is, and all
that it has handed out was content of the stream it was reading (`Delivery.IsOwn`).  A step keeps
this (`ReaderStep.owned`) as long as the history is `Regular`:

* the headers processed are valid, and only the stream's own records, and those of other requests,
  have content;
* a get-values record has no padding if its header is processed again;
* the record that ends a stream has no padding if another stream follows.

Where the reader is in `T` is said by `Place`: in the content of a record, in its padding, or in a
header, of which a part has been read.  `Aligned` connects that with the counters of the buffer and
the bytes that are still to come, and each step advances it.  Only a header after which all bytes
are passed over leaves it without a place, and then nothing more is handed out (`Lost`).
-/

namespace Fcgi
open Lib
open ServerStreambuf (gptr_eq egptr_eq gbump_getArea_eq)

/-- The header of a record after which the loop only passes over bytes, until they run out. -/
def Header.IsSkipped (conn : ConnectionInfo) (h : Header) : Prop :=
  h.IsRejected conn ∨ h.isManagementRecord ∧ h.recordType ≠ .getValues

/-- The processing of a header after which the place is known. -/
structure Dispatch.Regular (conn : ConnectionInfo) (d : Dispatch) : Prop where
  version : d.header.protocolVersion = 1
  content : d.header.contentLength ≠ 0 →
    d.header.IsOwn conn d.buf.type_ ∨ d.header.IsRejected conn
  stale : d.stale = true →
    d.header.IsSkipped conn ∨ d.header.contentLength = 0 ∧ d.header.paddingLength = 0
  ending : d.header.IsOwn conn d.buf.type_ → d.header.contentLength = 0 →
    Follows conn d.buf.type_ → d.header.paddingLength = 0

instance (conn : ConnectionInfo) (h : Header) : Decidable (h.IsRejected conn) := by
  unfold Header.IsRejected; infer_instance

instance (conn : ConnectionInfo) (h : Header) : Decidable (h.IsSkipped conn) := by
  unfold Header.IsSkipped; infer_instance

instance (conn : ConnectionInfo) (t : StreamType) (h : Header) : Decidable (h.IsOwn conn t) := by
  unfold Header.IsOwn; infer_instance

instance (conn : ConnectionInfo) (d : Dispatch) : Decidable (d.Regular conn) :=
  decidable_of_iff (d.header.protocolVersion = 1 ∧
      (d.header.contentLength ≠ 0 → d.header.IsOwn conn d.buf.type_ ∨ d.header.IsRejected conn) ∧
      (d.stale = true → d.header.IsSkipped conn ∨
        d.header.contentLength = 0 ∧ d.header.paddingLength = 0) ∧
      (d.header.IsOwn conn d.buf.type_ → d.header.contentLength = 0 →
        Follows conn d.buf.type_ → d.header.paddingLength = 0))
    ⟨fun ⟨h₁, h₂, h₃, h₄⟩ => ⟨h₁, h₂, h₃, h₄⟩, fun ⟨h₁, h₂, h₃, h₄⟩ => ⟨h₁, h₂, h₃, h₄⟩⟩

/-- Moreover the variables of a get-values record are read to the last character at hand. -/
structure History.Regular (conn : ConnectionInfo) (history : History) : Prop where
  dispatches : ∀ d ∈ history.dispatches, d.Regular conn
  answers : ∀ a ∈ history.answers, a.buf.egptr ≤ a.buf.gptr
  ungets : ∀ u ∈ history.ungets, u.Regular

instance (conn : ConnectionInfo) (history : History) : Decidable (history.Regular conn) :=
  decidable_of_iff ((∀ d ∈ history.dispatches, d.Regular conn) ∧
      (∀ a ∈ history.answers, a.buf.egptr ≤ a.buf.gptr) ∧ ∀ u ∈ history.ungets, u.Regular)
    ⟨fun ⟨h₁, h₂, h₃⟩ => ⟨h₁, h₂, h₃⟩, fun ⟨h₁, h₂, h₃⟩ => ⟨h₁, h₂, h₃⟩⟩

/-- All that has been handed out is own content, and so is all that has been put back. -/
structure History.OwnOnly (conn : ConnectionInfo) (T : List UInt8) (history : History) : Prop where
  deliveries : ∀ v ∈ history.deliveries, v.IsOwn conn T
  ungets : ∀ u ∈ history.ungets, u.area.IsOwn conn T

/-! ### Where the reader is -/

/-- Before `rest` in `T` the reader has got a part `hd` of a header, or a part of a record of
which `u` bytes of content and `p` of padding are to come. -/
inductive Place (conn : ConnectionInfo) (T : List UInt8) (t : StreamType) (u p : Nat) :
    List UInt8 → List UInt8 → Prop
  | header {rs : List Record} {hd rest : List UInt8} (hu : u = 0) (hp : p = 0)
      (hT : T = Frame.join rs ++ (hd ++ rest)) : Place conn T t u p hd rest
  | body {rs : List Record} {h : Header} {pre rest : List UInt8} (hv : h.protocolVersion = 1)
      (hT : T = Frame.join rs ++ (h.bytes ++ (pre ++ rest)))
      (hlen : pre.length + u + p = h.contentLength + h.paddingLength)
      (hown : 0 < u → p = h.paddingLength ∧ h.IsOwn conn t) : Place conn T t u p [] rest

/-- At the end of a record, the next header begins. -/
theorem Place.at_header {conn : ConnectionInfo} {T hd rest : List UInt8} {t : StreamType}
    (h : Place conn T t 0 0 hd rest) : ∃ rs : List Record, T = Frame.join rs ++ (hd ++ rest) := by
  cases h with
  | @header rs _ _ _ _ hT => exact ⟨rs, hT⟩
  | @body rs h pre _ hv hT hlen =>
      let r : Record := ⟨h.bytes, pre, rfl, by
        simp only [fcgi, Header.ofBytes_bytes, hv, if_true, ← hlen, Nat.add_zero]⟩
      refine ⟨rs ++ [r], ?_⟩
      rw [hT, Frame.join_append, Frame.join_cons, Frame.join_nil, Frame.bytes, List.append_nil,
        List.nil_append, List.append_assoc, List.append_assoc]

/-- What of the next header has been read. -/
def Mode.header : Mode → List UInt8
  | .loop h false => h
  | _ => []

/-- The bytes the reader has not seen. -/
def Config.rest (c : Config) : List UInt8 :=
  c.state.ahead (match c.mode with
    | .idle => max c.state.buf.gptr c.state.buf.egptr
    | _ => c.state.buf.gptr)

/-- A header after which bytes are passed over is being processed, or has been. -/
inductive Lost (conn : ConnectionInfo) : Config → Prop
  | loop {h : List UInt8} {s : State} (hh : (Header.ofBytes h).IsSkipped conn)
      (hu : 0 < s.buf.unreadContentLength_ → s.buf.isContentMustBeDiscarded_ = true) :
      Lost conn ⟨.loop h true, s⟩
  | process {h : List UInt8} {s : State} (hh : (Header.ofBytes h).IsSkipped conn)
      (hu : 0 < s.buf.unreadContentLength_ → s.buf.isContentMustBeDiscarded_ = true ∨
        (Header.ofBytes h).IsRejected conn) :
      Lost conn ⟨.process h, s⟩

/-- The reader knows where in `T` it is. -/
structure Aligned (conn : ConnectionInfo) (T : List UInt8) (c : Config) : Prop where
  kept : c.state.buf.isContentMustBeDiscarded_ = false
  place : Place conn T c.state.buf.type_ c.state.buf.unreadContentLength_
    c.state.buf.unreadPaddingLength_ c.mode.header c.rest
  notSkipped : ∀ h, c.mode = .loop h true ∨ c.mode = .process h →
    ¬ (Header.ofBytes h).IsSkipped conn
  ending : ∀ h, c.mode = .process h → (Header.ofBytes h).IsOwn conn c.state.buf.type_ →
    (Header.ofBytes h).contentLength = 0 → Follows conn c.state.buf.type_ →
    c.state.buf.unreadPaddingLength_ = 0
  ended : c.state.buf.isEndOfStream_ = true → Follows conn c.state.buf.type_ →
    c.state.buf.unreadContentLength_ = 0 ∧ c.state.buf.unreadPaddingLength_ = 0
  notEnded : ∀ h, c.mode = .loop h false → c.state.buf.isEndOfStream_ = false

/-- The reader is at a place of `T`, and has handed out what is its own. -/
structure Owned (conn : ConnectionInfo) (T : List UInt8) (c : Config) : Prop where
  final : c.state.world.io.Final
  sends : .error ∉ c.state.world.io.sends
  past : ∀ h, c.mode = .process h → c.state.buf.egptr ≤ c.state.buf.gptr
  own : c.state.world.history.OwnOnly conn T
  held : Held conn c.state
  /-- Nothing is ahead, or bytes are passed over until this is so, or the place is known. -/
  place : c.rest = [] ∨ Lost conn c ∨ Aligned conn T c

/-! ### One step -/

section

variable {conn : ConnectionInfo} {T : List UInt8} {c c' : Config}

/-- A header that is processed again is not of the stream. -/
theorem Header.IsSkipped.not_own {h : Header} {t : StreamType} (hid : conn.requestId ≠ 0)
    (hs : h.IsSkipped conn) : ¬ h.IsOwn conn t := by
  rintro ⟨hrid, hrt⟩
  rcases hs with (hb | hf) | hm
  · exact t.recordType_ne_beginRequest (hrt.symm.trans hb)
  · exact hf.2 hrid
  · exact hid (hrid.symm.trans (beq_iff_eq.mp hm.1))

/-- A history that is regular was so before. -/
theorem ReaderStep.regular (hs : ReaderStep conn c c')
    (h : c'.state.world.history.Regular conn) : c.state.world.history.Regular conn := by
  obtain ⟨hd, ha, hu⟩ := h
  cases hs with
  | invalid => exact ⟨fun d h => hd d (List.mem_append_left _ h), ha, hu⟩
  | dispatch => exact ⟨fun d h => hd d (List.mem_append_left _ h), ha, hu⟩
  | resume => exact ⟨hd, fun a h => ha a (List.mem_append_left _ h), hu⟩
  | unget => exact ⟨hd, ha, fun b h => hu b (List.mem_append_left _ h)⟩
  | _ => exact ⟨hd, ha, hu⟩

/-- The transport stays one from which nothing more arrives. -/
theorem ReaderStep.final (hs : ReaderStep conn c c') (ho : OpenReader conn.role c.state.buf)
    (h : c.state.world.io.Final) : c'.state.world.io.Final := by
  have hsize := ho.size_ge
  cases hs with
  | recv hend hread => exact (h.of_read (by dsimp only at hsize; omega) hread).1
  | recvNone hend hread => exact (h.of_read (by dsimp only at hsize; omega) hread).1
  | _ => exact h

/-- Where a read brings nothing, nothing is to come. -/
theorem Owned.rest_recvNone {h : List UInt8} {st : Bool} {b : ServerStreambuf} {w : World}
    {r : Except (Fault Exception) (List UInt8)} {io : Io} (ow : Owned conn T ⟨.loop h st, b, w⟩)
    (ho : OpenReader conn.role b) (hend : b.gptr = b.bufferEnd_)
    (hread : Io.read b.bufferSize_ w.io = (r, io)) (hnone : ∀ bytes, r = .ok bytes → bytes = []) :
    Config.rest ⟨.idle, b, w.setIo io⟩ = [] := by
  have hsize := ho.size_ge
  refine (State.ahead_end (s := ⟨b, w.setIo io⟩) ?_).trans
    ((ow.final.of_read (by omega) hread).2.2 hnone)
  exact Nat.le_trans (Nat.le_of_eq hend.symm) (Nat.le_max_left _ _)

/-- Bytes that arrive are those that were ahead. -/
theorem Owned.rest_recv {h : List UInt8} {st : Bool} {b : ServerStreambuf} {w : World}
    {bytes : List UInt8} {io : Io} (ow : Owned conn T ⟨.loop h st, b, w⟩)
    (ho : OpenReader conn.role b) (hend : b.gptr = b.bufferEnd_)
    (hread : Io.read b.bufferSize_ w.io = (.ok bytes, io)) :
    Config.rest ⟨.loop h st, ((b.setBuffer (b.buffer_.store 0 bytes)).setBufferEnd
      bytes.length).setg 0 0 bytes.length, w.setIo io⟩ = Config.rest ⟨.loop h st, b, w⟩ := by
  have hsize := ho.size_ge
  exact State.ahead_recv hend ((ow.final.of_read (by omega) hread).2.1 _ rfl)

/-- While a header is processed, no character is at hand. -/
theorem ReaderStep.past (hs : ReaderStep conn c c')
    (hr : c'.state.world.history.Regular conn)
    (h : ∀ h, c.mode = .process h → c.state.buf.egptr ≤ c.state.buf.gptr) :
    ∀ h, c'.mode = .process h → c'.state.buf.egptr ≤ c'.state.buf.gptr := by
  intro h' he
  cases hs with
  | dispatch => exact Nat.le_refl _
  | reply => exact h _ rfl
  | endOfStream => exact Nat.le_refl _
  | switch => exact h _ rfl
  | resume => exact hr.answers _ (List.mem_append_right _ (List.mem_singleton_self _))
  | _ => exact nomatch he

/-- A get-values record is not skipped. -/
theorem Header.IsGetValues.not_isSkipped {h : Header} (hg : h.IsGetValues) :
    ¬ h.IsSkipped conn := by
  rintro ((hb | hf) | hm)
  · exact absurd (hb.symm.trans hg.2) (by decide)
  · exact hf.1 hg.1
  · exact hm.2 hg.2

/-- Between two calls, with no character at hand, all bytes behind gptr() are to come. -/
theorem Config.rest_idle {b : ServerStreambuf} {w : World} (h : b.egptr ≤ b.gptr) :
    Config.rest ⟨.idle, b, w⟩ = State.ahead ⟨b, w⟩ b.gptr :=
  congrArg (State.ahead ⟨b, w⟩) (Nat.max_eq_left h)

/-- With some at hand, those behind them. -/
theorem Config.rest_area {b : ServerStreambuf} {w : World} (h : b.gptr ≤ b.egptr) :
    Config.rest ⟨.idle, b, w⟩ = State.ahead ⟨b, w⟩ b.egptr :=
  congrArg (State.ahead ⟨b, w⟩) (Nat.max_eq_right h)

/-- Bytes that are passed over are no longer ahead. -/
theorem Config.rest_gbump (h : List UInt8) {h' : List UInt8} {st : Bool}
    {b b' : ServerStreambuf} {w : World} {n : Nat} (ho : OpenReader conn.role b)
    (hn : n ≤ b.avail) (hg : b'.getArea = b.getArea)
    (hb : b'.buffer_ = b.buffer_) (he : b'.bufferEnd_ = b.bufferEnd_) :
    Config.rest ⟨.loop h' st, b'.gbump n, w⟩ = (Config.rest ⟨.loop h st, b, w⟩).drop n := by
  have hcur : (b'.gbump n).gptr = b.gptr + n :=
    gptr_eq (gbump_getArea_eq (hg.trans ho.getArea_eq) n)
  refine Eq.trans ?_ (State.drop_ahead ⟨b, w⟩ hn).symm
  rw [Config.rest, State.ahead, State.ahead]
  change b'.buffer_.load (b'.gbump n).gptr (b'.bufferEnd_ - (b'.gbump n).gptr) ++ _ = _
  rw [hcur, hb, he]

/-- Where the bytes are at hand, they are those at the beginning of what is to come. -/
theorem State.ahead_area {b : ServerStreambuf} {w : World} {n : Nat} (hn : n ≤ b.avail) :
    State.ahead ⟨b, w⟩ b.gptr =
      b.buffer_.load b.gptr n ++ State.ahead ⟨b, w⟩ (b.gptr + n) := by
  rw [← State.drop_ahead _ hn, ← State.take_ahead ⟨b, w⟩ hn, List.take_append_drop]

/-- Bytes that run out do not come back. -/
theorem ReaderStep.rest (hs : ReaderStep conn c c') (ho : OpenReader conn.role c.state.buf)
    (hr : c'.state.world.history.Regular conn) (ow : Owned conn T c) (hnil : c.rest = []) :
    c'.rest = [] := by
  -- What is left is a suffix of what was left before the step, and that was empty.
  have hsize := ho.size_ge
  have hle := ho.egptr_le
  have hlen := State.length_ahead c.state c.state.buf.gptr
  cases hs with
  | enter hopen hpast => exact (Config.rest_idle hpast).symm.trans hnil
  | recv hend hread => exact (ow.rest_recv ho hend hread).trans hnil
  | recvNone hend hread hnone => exact ow.rest_recvNone ho hend hread hnone
  | deliver hh hu hd hcur =>
      rw [show State.ahead _ _ = [] from hnil, List.length_nil] at hlen
      dsimp only at hlen
      omega
  | @discard h _ b w hu hd hcur n hn =>
      refine Eq.trans (Config.rest_gbump h ho (hn ▸ Nat.min_le_right _ _) rfl rfl rfl) ?_
      rw [hnil, List.drop_nil]
  | @skip h _ b w hu hp n hn =>
      refine Eq.trans (Config.rest_gbump h ho (hn ▸ Nat.min_le_right _ _) rfl rfl rfl) ?_
      rw [hnil, List.drop_nil]
  | @accumulate h b w hh hu hp n hn =>
      refine Eq.trans (Config.rest_gbump h ho (hn ▸ Nat.min_le_right _ _) rfl rfl rfl) ?_
      rw [hnil, List.drop_nil]
  | invalid =>
      rw [Config.rest_idle (Nat.le_refl _)]
      exact hnil
  | replyError => exact (Config.rest_idle (ow.past _ rfl)).trans hnil
  | leave => exact (Config.rest_idle (ow.past _ rfl)).trans hnil
  | resume =>
      have := hr.answers _ (List.mem_append_right _ (List.mem_singleton_self _))
      exact (Config.rest_idle this).symm.trans hnil
  | take hlt =>
      have he := gbump_getArea_eq ho.getArea_eq 1
      rw [Config.rest_area (by rw [gptr_eq he, egptr_eq he]; exact hlt), egptr_eq he]
      exact (Config.rest_area (Nat.le_of_lt hlt)).symm.trans hnil
  | unget hlt =>
      have := (hr.ungets _ (List.mem_append_right _ (List.mem_singleton_self _))).ordered
      exact (Config.rest_area (b := ServerStreambuf.setg _ _ _ _)
        (Nat.le_trans (Nat.sub_le _ _) this)).trans ((Config.rest_area this).symm.trans hnil)
  | _ => exact hnil

/-- A header that begins to be processed, after which bytes are passed over. -/
theorem Lost.of_dispatch {h : List UInt8} {st : Bool} {b : ServerStreambuf} {w w' : World}
    (hid : conn.requestId ≠ 0) (hd : Dispatch.Regular conn ⟨Header.ofBytes h, st, b, w.io⟩)
    (hh : (Header.ofBytes h).IsSkipped conn) :
    Lost conn ⟨.process h, b.dispatched (Header.ofBytes h), w'⟩ :=
  .process hh fun hu => .inr ((hd.content (Nat.pos_iff_ne_zero.mp hu)).resolve_left
    (hh.not_own hid))

/-- Bytes are passed over until they run out. -/
theorem Lost.step (hid : conn.requestId ≠ 0) (hs : ReaderStep conn c c')
    (ho : OpenReader conn.role c.state.buf) (hr : c'.state.world.history.Regular conn)
    (ow : Owned conn T c) (hl : Lost conn c) : c'.rest = [] ∨ Lost conn c' := by
  cases hl with
  | @loop h s hh hu =>
      cases hs with
      | recv => exact .inr (.loop hh hu)
      | recvNone hend hread hnone => exact .inl (ow.rest_recvNone ho hend hread hnone)
      | deliver _ hu' hd => exact absurd ((hu hu').symm.trans hd) nofun
      | discard _ hd => exact .inr (.loop hh fun _ => hd)
      | discarded hu' => exact .inr (.loop hh fun h => absurd hu' (Nat.pos_iff_ne_zero.mp h))
      | skip hu' => exact .inr (.loop hh fun h => absurd hu' (Nat.pos_iff_ne_zero.mp h))
      | invalid _ _ _ hv =>
          exact absurd (hr.dispatches _ (List.mem_append_right _
            (List.mem_singleton_self _))).version hv
      | dispatch =>
          exact .inr (Lost.of_dispatch hid (hr.dispatches _ (List.mem_append_right _
            (List.mem_singleton_self _))) hh)
  | @process h s hh hu =>
      have hown : ∀ t, ¬ (Header.ofBytes h).IsOwn conn t := fun t => hh.not_own hid
      cases hs with
      | reply => exact .inr (.process hh hu)
      | replyError hs => exact absurd hs ow.sends
      | consume ho' => exact absurd ho' (hown _)
      | manage hm hb =>
          refine .inr (.loop hh fun h => (hu h).resolve_right ?_)
          exact fun hf => hf.elim hb fun hf => hf.1 hm
      | reject => exact .inr (.loop hh fun _ => rfl)
      | endOfStream ho' => exact absurd ho' (hown _)
      | switch => exact .inr (.process hh fun h => absurd h (Nat.lt_irrefl 0))
      | leave hl =>
          -- Such a header is neither of the request nor of a get-values record.
          have hne : ¬ ((Header.ofBytes h).requestId = conn.requestId ∧
              (Header.ofBytes h).recordType ≠ .beginRequest) := fun ⟨hrid, hb⟩ => by
            rcases hh with (hb' | hf) | hm
            · exact hb hb'
            · exact hf.2 hrid
            · exact hid (hrid.symm.trans (beq_iff_eq.mp hm.1))
          rcases hl with hl | hg | hv
          · exact absurd hl.2 hne
          · exact absurd hh hg.not_isSkipped
          · exact absurd ⟨hv.1, hv.2.2⟩ hne

theorem Place.of_eq {t : StreamType} {u p : Nat} {hd hd' rest rest' : List UInt8}
    (h : Place conn T t u p hd rest) (he : hd' = hd) (hr : rest' = rest) :
    Place conn T t u p hd' rest' := he ▸ hr ▸ h

/-- The bytes of `rest` that belong to the record are no longer ahead. -/
theorem Place.advance {t : StreamType} {u p n : Nat} {hd rest : List UInt8}
    (h : Place conn T t u p hd rest) (u' p' : Nat) (hpos : 0 < u + p) (hn : n ≤ rest.length)
    (hsum : u' + p' + n = u + p) (hown : 0 < u' → p' = p) :
    hd = [] ∧ Place conn T t u' p' [] (rest.drop n) := by
  cases h with
  | header hu hp => omega
  | @body rs h pre _ hv hT hlen hown' =>
      have hT' : T = Frame.join rs ++ (h.bytes ++ ((pre ++ rest.take n) ++ rest.drop n)) := by
        rw [hT, List.append_assoc, List.take_append_drop]
      refine ⟨rfl, .body hv hT' ?_ fun hu' => ?_⟩
      · rw [List.length_append, List.length_take]; omega
      · have hp := hown hu'
        rw [hp]
        exact hown' (by omega)

theorem Config.length_rest {h : List UInt8} {st : Bool} {b : ServerStreambuf} {w : World} {n : Nat}
    (hn : n ≤ b.avail) : n ≤ (Config.rest ⟨.loop h st, b, w⟩).length :=
  Nat.le_trans hn (State.length_ahead ⟨b, w⟩ b.gptr)

/-- Content is handed out: it is that of an own record. -/
theorem Aligned.deliver {h : List UInt8} {st : Bool} {b b' : ServerStreambuf} {w : World} {n : Nat}
    (ha : Aligned conn T ⟨.loop h st, b, w⟩) (hu : 0 < b.unreadContentLength_)
    (hn : n = min b.unreadContentLength_ b.avail)
    (hb' : b' = (b.setUnreadContentLength (b.unreadContentLength_ - n)).setg b.gptr b.gptr
      (b.gptr + n)) : Delivery.IsOwn conn T ⟨b', w.io⟩ := by
  have hplace := ha.place
  have hle : n ≤ b.avail := by omega
  dsimp only at hplace
  generalize hrest : Config.rest ⟨.loop h st, b, w⟩ = rest at hplace
  generalize (Mode.loop h st).header = hd at hplace
  cases hplace with
  | header hu' => omega
  | @body rs r pre _ hv hT hlen hown =>
      obtain ⟨hp, hown⟩ := hown hu
      refine ⟨rs, r, pre, b.buffer_.load b.gptr n, ?_, ?_, hv, ?_, ?_⟩
      · subst hb'
        exact (congrArg (b.buffer_.load b.gptr) (Nat.add_sub_cancel_left _ _)).symm
      · rw [hT, ← hrest]
        subst hb'
        exact congrArg (fun bs => Frame.join rs ++ (r.bytes ++ (pre ++ bs)))
          (State.ahead_area (w := w) hle)
      · subst hb'; exact hown
      · rw [Mem.length_load]; omega

/-- A header that is processed again is not one after which all is passed over. -/
theorem Aligned.passed {h : List UInt8} {s : State} (ha : Aligned conn T ⟨.process h, s⟩) :
    ∀ h', Mode.loop h true = .loop h' true ∨ Mode.loop h true = .process h' →
      ¬ (Header.ofBytes h').IsSkipped conn := by
  rintro _ (⟨⟨⟩⟩ | ⟨⟨⟩⟩)
  exact ha.notSkipped _ (.inr rfl)

section

variable {h : List UInt8} {st : Bool} {b : ServerStreambuf} {w : World} {n : Nat}

/-- Between two records the next header is ahead. -/
theorem Aligned.at_header (ha : Aligned conn T c) (hu : c.state.buf.unreadContentLength_ = 0)
    (hp : c.state.buf.unreadPaddingLength_ = 0) :
    ∃ rs : List Record, T = Frame.join rs ++ (c.mode.header ++ c.rest) := by
  have hplace := ha.place
  rw [hu, hp] at hplace
  exact hplace.at_header

theorem Aligned.delivered (ha : Aligned conn T ⟨.loop h st, b, w⟩)
    (hu : 0 < b.unreadContentLength_) (hd : b.isContentMustBeDiscarded_ = false)
    (hn : n ≤ b.avail) (hle : n ≤ b.unreadContentLength_) (v : Delivery) :
    Aligned conn T ⟨.idle, (b.setUnreadContentLength (b.unreadContentLength_ - n)).setg b.gptr
      b.gptr (b.gptr + n), w.addDelivery v⟩ := by
  obtain ⟨-, hplace⟩ := ha.place.advance (n := n) (b.unreadContentLength_ - n)
    b.unreadPaddingLength_ (by dsimp only; omega) (Config.length_rest hn)
    (by dsimp only; omega) fun _ => rfl
  refine ⟨hd, hplace.of_eq rfl ?_, nofun, nofun, fun he hf => ?_, nofun⟩
  · exact (Config.rest_area (b := ServerStreambuf.setg _ _ _ _) (Nat.le_add_right _ _)).trans
      (State.drop_ahead ⟨b, w⟩ hn).symm
  · exact absurd (ha.ended he hf).1 (Nat.pos_iff_ne_zero.mp hu)

theorem Aligned.skip (ha : Aligned conn T ⟨.loop h st, b, w⟩) (ho : OpenReader conn.role b)
    (hu : b.unreadContentLength_ = 0) (hp : 0 < b.unreadPaddingLength_) (hn : n ≤ b.avail)
    (hle : n ≤ b.unreadPaddingLength_) :
    Aligned conn T
      ⟨.loop h st, (b.setUnreadPaddingLength (b.unreadPaddingLength_ - n)).gbump n, w⟩ := by
  obtain ⟨hhd, hplace⟩ := ha.place.advance (n := n) 0
    (b.unreadPaddingLength_ - n) (by dsimp only; omega) (Config.length_rest hn)
    (by dsimp only; omega) nofun
  refine ⟨ha.kept, Place.of_eq (hu.symm ▸ hplace) hhd ?_, ha.notSkipped, nofun,
    fun he hf => ?_, ha.notEnded⟩
  · exact Config.rest_gbump h ho hn rfl rfl rfl
  · exact absurd (ha.ended he hf).2 (Nat.pos_iff_ne_zero.mp hp)

/-- Bytes of the header have been read. -/
theorem Aligned.accumulate (ha : Aligned conn T ⟨.loop h false, b, w⟩)
    (ho : OpenReader conn.role b) (hu : b.unreadContentLength_ = 0)
    (hp : b.unreadPaddingLength_ = 0) (hn : n ≤ b.avail) :
    Aligned conn T ⟨.loop (h ++ b.buffer_.load b.gptr n) false, b.gbump n, w⟩ := by
  obtain ⟨rs, hT⟩ := ha.at_header hu hp
  refine ⟨ha.kept, .header hu hp (?_ : T = Frame.join rs ++ _), nofun, nofun, ha.ended,
    fun _ _ => ha.notEnded _ rfl⟩
  rw [hT, Config.rest_gbump h ho hn rfl rfl rfl, Mode.header, Mode.header, List.append_assoc]
  refine congrArg (fun bs => Frame.join rs ++ (h ++ bs)) ?_
  exact (State.ahead_area (w := w) hn).trans (congrArg _ (State.drop_ahead ⟨b, w⟩ hn).symm)

/-- The header begins a record, unless it has been processed before: then it announced nothing. -/
theorem Aligned.dispatch (ha : Aligned conn T ⟨.loop h st, b, w⟩) (hh : h.length = 8)
    (hu : b.unreadContentLength_ = 0) (hp : b.unreadPaddingLength_ = 0)
    (hd : Dispatch.Regular conn ⟨Header.ofBytes h, st, b, w.io⟩)
    (hskip : ¬ (Header.ofBytes h).IsSkipped conn) (d : Dispatch) :
    Aligned conn T ⟨.process h, b.dispatched (Header.ofBytes h), w.addDispatch d⟩ := by
  obtain ⟨rs, hT⟩ := ha.at_header hu hp
  refine ⟨ha.kept, ?_, ?_, ?_, fun he hf => ?_, nofun⟩
  · cases st with
    | true =>
        have h0 := (hd.stale rfl).resolve_left hskip
        exact .header h0.1 h0.2 hT
    | false =>
        have hT' : T = Frame.join rs ++ ((Header.ofBytes h).bytes ++
            ([] ++ Config.rest ⟨.loop h false, b, w⟩)) := by
          rw [hT, Header.bytes_ofBytes hh]; rfl
        refine .body hd.version hT' (congrArg (· + _) (Nat.zero_add _)) fun hu' => ?_
        exact ⟨rfl, (hd.content (Nat.pos_iff_ne_zero.mp hu')).resolve_right fun hf =>
          hskip (.inl hf)⟩
  · rintro _ (⟨⟨⟩⟩ | ⟨⟨⟩⟩)
    exact hskip
  · rintro _ ⟨⟨⟩⟩
    exact hd.ending
  · cases st with
    | true => exact (hd.stale rfl).resolve_left hskip
    | false => exact absurd ((ha.notEnded _ rfl).symm.trans he) nofun

end

/-- Where the reader knows its place, it goes on to know it, until it has to pass over bytes. -/
theorem Aligned.step (hid : conn.requestId ≠ 0) (hs : ReaderStep conn c c')
    (ho : OpenReader conn.role c.state.buf) (hr : c'.state.world.history.Regular conn)
    (ow : Owned conn T c) (ha : Aligned conn T c) :
    c'.rest = [] ∨ Lost conn c' ∨ Aligned conn T c' := by
  cases hs with
  | enter hopen hpast =>
      exact .inr (.inr ⟨ha.kept, ha.place.of_eq rfl (Config.rest_idle hpast).symm, nofun, nofun,
        ha.ended, fun _ _ => hopen⟩)
  | recv hend hread =>
      exact .inr (.inr ⟨ha.kept, ha.place.of_eq rfl (ow.rest_recv ho hend hread), ha.notSkipped,
        ha.ending, ha.ended, ha.notEnded⟩)
  | recvNone hend hread hnone => exact .inl (ow.rest_recvNone ho hend hread hnone)
  | deliver _ hu hd _ hn hb' => exact hb' ▸ .inr (.inr (ha.delivered hu hd (by omega) (by omega) _))
  | discard _ hd => exact absurd (ha.kept.symm.trans hd) nofun
  | discarded _ hd => exact absurd (ha.kept.symm.trans hd) nofun
  | skip hu hp hn => exact .inr (.inr (ha.skip ho hu hp (by omega) (by omega)))
  | accumulate _ hu hp hn => exact .inr (.inr (ha.accumulate ho hu hp (by omega)))
  | invalid _ _ _ hv =>
      exact absurd (hr.dispatches _ (List.mem_append_right _ (List.mem_singleton_self _))).version
        hv
  | @dispatch h st b w hh hu hp hv =>
      have hd := hr.dispatches _ (List.mem_append_right _ (List.mem_singleton_self _))
      by_cases hskip : (Header.ofBytes h).IsSkipped conn
      · exact .inr (.inl (Lost.of_dispatch hid hd hskip))
      · exact .inr (.inr (ha.dispatch hh hu hp hd hskip _))
  | reply =>
      exact .inr (.inr ⟨ha.kept, ha.place, ha.notSkipped, ha.ending, ha.ended, nofun⟩)
  | replyError hs => exact absurd hs ow.sends
  | consume =>
      exact .inr (.inr ⟨ha.kept, ha.place, ha.passed, nofun, ha.ended, nofun⟩)
  | manage =>
      exact .inr (.inr ⟨ha.kept, ha.place, ha.passed, nofun, ha.ended, nofun⟩)
  | reject hf => exact absurd (.inl hf) (ha.notSkipped _ (.inr rfl))
  | @endOfStream h b w ho' hu hc =>
      exact .inr (.inr ⟨ha.kept, ha.place, ha.notSkipped, ha.ending,
        fun _ hf => ⟨hu, ha.ending _ rfl ho' hc hf⟩, nofun⟩)
  | @switch h b w hrole ht he =>
      -- A filter's stdin ends without padding, so that the next header is ahead.
      obtain ⟨hu, hp⟩ := ha.ended he (.inr ⟨ht, hrole⟩)
      obtain ⟨rs, hT⟩ := ha.at_header hu hp
      exact .inr (.inr ⟨rfl, .header rfl rfl hT, ha.notSkipped, fun _ _ _ _ hf =>
        hf.elim (fun hf => absurd hf.1 nofun) fun hf => absurd hf.1 nofun, nofun, nofun⟩)
  | leave =>
      exact .inr (.inr ⟨ha.kept, ha.place.of_eq rfl (Config.rest_idle (ow.past _ rfl)), nofun,
        nofun, ha.ended, nofun⟩)
  | @resume h b w hg names =>
      -- The variables have been read to the last character at hand.
      have := hr.answers _ (List.mem_append_right _ (List.mem_singleton_self _))
      refine .inr (.inr ⟨ha.kept, ha.place.of_eq rfl (Config.rest_idle this).symm, ?_, ?_, ha.ended,
        nofun⟩)
      · rintro _ (⟨⟨⟩⟩ | ⟨⟨⟩⟩)
        exact hg.not_isSkipped
      · rintro _ ⟨⟨⟩⟩ ho'
        exact absurd (ho'.1.symm.trans (beq_iff_eq.mp hg.1)) hid
  | @take b w hlt =>
      have he := gbump_getArea_eq ho.getArea_eq 1
      refine .inr (.inr ⟨ha.kept, ha.place.of_eq rfl ?_, nofun, nofun, ha.ended, nofun⟩)
      rw [Config.rest_area (by rw [gptr_eq he, egptr_eq he]; exact hlt), egptr_eq he]
      exact (Config.rest_area (Nat.le_of_lt hlt)).symm
  | @unget b w hlt =>
      have := (hr.ungets _ (List.mem_append_right _ (List.mem_singleton_self _))).ordered
      refine .inr (.inr ⟨ha.kept, ha.place.of_eq rfl ?_, nofun, nofun, ha.ended, nofun⟩)
      exact (Config.rest_area (b := ServerStreambuf.setg _ _ _ _)
        (Nat.le_trans (Nat.sub_le _ _) this)).trans (Config.rest_area this).symm

/-- Where content may be left to be handed out, no stream has ended that another one follows. -/
theorem Owned.spent (ow : Owned conn T c) : ∀ h st, c.mode = .loop h st →
    c.state.buf.isEndOfStream_ = true → Follows conn c.state.buf.type_ →
    c.state.buf.isContentMustBeDiscarded_ = false →
    c.state.buf.gptr < c.state.buf.bufferEnd_ → c.state.buf.unreadContentLength_ = 0 := by
  intro h st hm he hf hd hcur
  obtain ⟨m, s⟩ := c
  obtain rfl : m = .loop h st := hm
  rcases ow.place with hnil | hl | ha
  · have := State.length_ahead s s.buf.gptr
    rw [show State.ahead s s.buf.gptr = [] from hnil, List.length_nil] at this
    dsimp only at hcur
    omega
  · cases hl with
    | loop _ hu =>
        by_contra hpos
        exact absurd ((hu (Nat.pos_of_ne_zero hpos)).symm.trans hd) nofun
  · exact (ha.ended he hf).1

/-- **A step hands out own content only**, and puts only such content back. -/
theorem ReaderStep.own (hs : ReaderStep conn c c')
    (hr : c'.state.world.history.Regular conn) (ow : Owned conn T c) :
    c'.state.world.history.OwnOnly conn T := by
  cases hs with
  | @deliver h st b w hh hu hd hcur n hn b' hb' =>
      refine ⟨fun v hv => ?_, ow.own.ungets⟩
      rcases List.mem_append.mp hv with hv | hv
      · exact ow.own.deliveries v hv
      · cases List.mem_singleton.mp hv
        rcases ow.place with hnil | hl | ha
        · have := State.length_ahead ⟨b, w⟩ b.gptr
          rw [show State.ahead ⟨b, w⟩ b.gptr = [] from hnil, List.length_nil] at this
          dsimp only at this
          omega
        · cases hl with
          | loop hh hu' => exact absurd ((hu' hu).symm.trans hd) nofun
        · exact ha.deliver hu hn hb'
  | @unget b w hlt =>
      refine ⟨ow.own.deliveries, fun u hu => ?_⟩
      rcases List.mem_append.mp hu with hu | hu
      · exact ow.own.ungets u hu
      · cases List.mem_singleton.mp hu
        exact ow.held.unget_isOwn hlt (hr.ungets _ (List.mem_append_right _
          (List.mem_singleton_self _))) ow.own.deliveries
  | _ => exact ⟨ow.own.deliveries, ow.own.ungets⟩

/-- The reader goes on to hand out own content. -/
theorem ReaderStep.owned (hid : conn.requestId ≠ 0) (hs : ReaderStep conn c c')
    (ho : OpenReader conn.role c.state.buf) (hr : c'.state.world.history.Regular conn)
    (ow : Owned conn T c) : Owned conn T c' where
  final := hs.final ho ow.final
  sends h := ow.sends (hs.sends_subset h)
  past := hs.past hr ow.past
  own := hs.own hr ow
  held := hs.held ho ow.final ow.spent ow.held
  place := by
    rcases ow.place with hnil | hl | ha
    · exact .inl (hs.rest ho hr ow hnil)
    · exact (hl.step hid hs ho hr ow).imp_right .inl
    · exact ha.step hid hs ho hr ow

end

end Fcgi
