import Fcgi.Connection.Assertions
import Fcgi.Connection.Guarantee
import Fcgi.Connection.Switching
import Fcgi.Input.Ownership
import Fcgi.Input.Progress

/-!
# Connection — when `underflow()` ends

**`underflow_ends`**: from any state of a reader, and whatever is still to come, `underflow()`
returns or throws after as many rounds as `State.rank` says, unless a header without content and
padding is processed over and over.

**`foreign_spins`**: it is, when a record of another request carries nothing and more bytes come.

The first is `underflow_ranked` of `Input/Progress.lean`, with what is known of the state before the
call, and with the failed assertions excluded by a tame history.  For the second, a header stays
where it has been accumulated for as long as the call lasts.  Where it announces nothing, the next
round finds it whole, has nothing to read before it, and processes it again: the states of `Between`
are not left (`Between.round`).
-/

namespace Fcgi
open Lib

instance (conn : ConnectionInfo) (d : Dispatch) : Decidable (d.Spins conn) := by
  unfold Dispatch.Spins; infer_instance

instance (conn : ConnectionInfo) (history : History) : Decidable (history.Spun conn) := by
  unfold History.Spun; infer_instance

section

variable {conn : ConnectionInfo} {t : StreamType} {size : Nat} {out rest hd : List UInt8}
  {s s' : State}

/-- **`underflow()` ends**, if no header spins: the fuel that it takes is bounded by what is left
to be read.  And it ends by a return or an exception, where no assertion fails. -/
theorem underflow_ends (hs : ReaderState conn s) {fuel : Nat} (hfuel : s.rank < fuel)
    {r : Except (Fault Exception) (Option UInt8)} (hrun : underflow conn fuel s = (r, s'))
    (hspun : ¬ s'.world.history.Spun conn) :
    r ≠ .error .spent ∧ (s.world.AllOrNothing → Tame inBufferSize s'.world.history →
      (∃ c, r = .ok c) ∨ ∃ e, r = .error (.exc e)) := by
  have hlive : r ≠ .error .spent := by
    rintro rfl
    exact hspun (underflow_spent hs.openReader hfuel hrun)
  refine ⟨hlive, fun hw ht => ?_⟩
  rcases r with x | c
  · have hx := hs.fault hrun
    cases x with
    | exc e => exact .inr ⟨e, rfl⟩
    | abort => exact absurd ht (hx.not_tame hs.bounded.entered hw)
    | undef => exact hx.elim
    | spent => exact absurd rfl hlive
  · exact .inl ⟨c, rfl⟩

/-! ### Headers that spin -/

/-- The header of a record of another request that carries nothing. -/
structure Header.IsBare (conn : ConnectionInfo) (h : Header) : Prop where
  valid : h.protocolVersion = 1
  notBegin : h.recordType ≠ .beginRequest
  notManagement : h.isManagementRecord = false
  foreign : h.requestId ≠ conn.requestId
  content : h.contentLength = 0
  padding : h.paddingLength = 0

/-- In the loop, behind a record and before other bytes. -/
structure Between (conn : ConnectionInfo) (s : State) : Prop where
  openReader : OpenReader conn.role s.buf
  clean : s.world.io.Clean
  content : s.buf.unreadContentLength_ = 0
  padding : s.buf.unreadPaddingLength_ = 0
  more : s.ahead s.buf.gptr ≠ []

/-- A reader in its loop, with nothing of a record left and more bytes to come, is there. -/
theorem InLoop.between (h : InLoop conn t size 0 0 out rest s) (hrest : rest ≠ []) :
    Between conn s :=
  ⟨h.openReader, h.clean, h.content, h.padding, h.bytes ▸ hrest⟩

/-- **A bare header** is processed, and the reader is where it was, with the header whole. -/
theorem Between.process (h : Between conn s) (hh : (Header.ofBytes hd).IsBare conn) (stale : Bool)
    (fuel : Nat) (call : M (Option UInt8)) :
    ∃ s', (do
      noteDispatch stale (Header.ofBytes hd)
      processAccumulated conn fuel call hd : M _) s = (.ok (.again hd), s') ∧ Between conn s' := by
  obtain ⟨b, w⟩ := s
  have ho := h.openReader
  set d : Dispatch := ⟨Header.ofBytes hd, stale, b, w.io⟩
  have ho' : OpenReader conn.role (b.dispatched (Header.ofBytes hd)) := ho.dispatched _
  have hdisp : dispatch conn fuel call (Header.ofBytes hd)
      ⟨b.dispatched (Header.ofBytes hd), w.addDispatch d⟩ =
        (.ok .contentMustBeDiscarded, ⟨b.dispatched (Header.ofBytes hd), w.addDispatch d⟩) := by
    rw [dispatch, Prog.bind_ok (Prog.get_run _), if_neg hh.notBegin,
      if_neg (Bool.eq_false_iff.mp hh.notManagement), if_pos hh.foreign, Prog.pure_run]
  have hcontent : (b.dispatched (Header.ofBytes hd)).unreadContentLength_ = 0 := hh.content
  have hi : (b.dispatched (Header.ofBytes hd)).InvariantOk conn.role :=
    ho'.invariantOk (hcontent ▸ Nat.zero_le _) (Nat.le_refl _)
  rw [processing_run, Prog.bind_ok (processHeader_ok fuel call hh.valid hdisp hi)]
  refine ⟨_, rfl, ?_, h.clean, hh.content, hh.padding, h.more⟩
  exact ho'.setContentMustBeDiscarded _

theorem Between.spot (h : Between conn s) : Spot conn s.buf.type_ s.buf.bufferSize_ 0 0
    s.buf.isContentMustBeDiscarded_ s.outer (s.ahead s.buf.gptr) s :=
  ⟨⟨rfl, h.openReader, rfl, rfl, rfl, h.content, h.padding⟩, State.reach_ahead h.clean _⟩

/-- Such a spot is there, if more bytes come. -/
theorem Spot.between {dis : Bool} {o : Outer} (h : Spot conn t size 0 0 dis o rest s)
    (hc : s.world.io.Clean) (hrest : rest ≠ []) : Between conn s :=
  ⟨h.openReader, hc, h.content, h.padding,
    ((State.reach_ahead hc _).symm.trans h.bytes).symm ▸ hrest⟩

/-- A round that starts with the header of the round before ends with it. -/
theorem Between.round (h : Between conn s) (hlen : hd.length = 8)
    (hh : (Header.ofBytes hd).IsBare conn) (fuel : Nat) (call : M (Option UInt8)) :
    ∃ s', underflowRound conn fuel call hd s = (.ok (.again hd), s') ∧ Between conn s' := by
  have hread : toRead 0 0 hd = 0 := by
    rw [toRead]
    omega
  rcases h.spot.round (Nat.le_of_eq hlen) (fun hu => absurd hu (Nat.lt_irrefl 0)) h.more with
    ⟨k, header', s₁, hn, -⟩ | ⟨-, s₁, h₁, hround⟩
  · -- Nothing is to be read.
    have := hn.toRead
    have := hn.pos
    omega
  · have hspot := h₁.spot
    rw [hread, List.drop_zero] at hspot
    obtain ⟨s', hprocess, h'⟩ := (hspot.between (h₁.clean h.clean) h.more).process hh
      (decide (hd.length = 8)) fuel call
    have hcompleted : completed 0 0 hd (s.ahead s.buf.gptr) = hd := by
      rw [completed, hlen, Nat.sub_self, List.take_zero, List.append_nil]
    rw [hcompleted] at hround
    exact ⟨s', (hround fuel call).trans hprocess, h'⟩

/-- **The header spins**: once it has been read, `underflow()` never ends, with whatever fuel. -/
theorem foreign_spins (h : Idle conn t size 0 0 out [] (hd ++ rest) s) (hlen : hd.length = 8)
    (hh : (Header.ofBytes hd).IsBare conn) (hrest : rest ≠ []) (fuel : Nat) :
    (underflow conn fuel s).1 = .error .spent := by
  have hne : hd ≠ [] := fun e => by rw [e] at hlen; cases hlen
  obtain ⟨s₁, h₁, hleads⟩ : ∃ s₁, InLoop conn t size 0 0 out rest s₁ ∧
      Prog.Leads (fun n => underflowLoop conn n []) s.entered (afterHeader conn ([] ++ hd)) s₁ :=
    InLoop.header_ahead [] (show InLoop conn t size 0 ([] : List UInt8).length out
      ([] ++ (hd ++ rest)) s.entered from h.entered.inLoop.1) ((Nat.zero_add _).trans hlen) hne
  rw [h.underflow_eq]
  refine hleads.spent (fun n => ?_) fuel
  obtain ⟨s₂, hprocess, h₂⟩ := (h₁.between hrest).process hh false n (underflow conn n)
  rw [List.nil_append, afterHeader, Prog.bind_ok hprocess]
  refine Prog.recLoop_spent (I := fun h s => h = hd ∧ Between conn s) ?_ n ⟨rfl, h₂⟩
  rintro n call _ s ⟨rfl, hs⟩
  obtain ⟨s', hround, hs'⟩ := hs.round hlen hh n _
  exact ⟨_, s', hround, rfl, hs'⟩

end

/-- `underflow()` returns in the middle of the header of the first record.  When its content has
been taken, it goes on through the padding and the other record, and throws. -/
theorem underflow_ends_cut : ∃ c w' c', accept {} 99 cutRequest = (.ok c, w') ∧
    run 99 [.«in» (.read 4)] c = (.ok (), c') ∧
    ((∃ r, (underflow c.info 99 c.inState).1 = .ok r) ∨
      ∃ e, (underflow c.info 99 c.inState).1 = .error (.exc e)) ∧
    ((∃ r, (underflow c'.info 99 c'.inState).1 = .ok r) ∨
      ∃ e, (underflow c'.info 99 c'.inState).1 = .error (.exc e)) := by
  let Halts := fun c : Connection => c.inState.rank < 99 ∧ c.inState.world.io.sends = [] ∧
    ¬ (underflow c.info 99 c.inState).2.world.history.Spun c.info ∧
    Tame inBufferSize (underflow c.info 99 c.inState).2.world.history
  obtain ⟨c, w', haccept, key⟩ := Prog.of_returns (r := accept {} 99 cutRequest)
    (p := fun (c : Connection) _ => decide (Halts c) &&
      Prog.returns (fun _ c' => decide (Halts c')) (run 99 [.«in» (.read 4)] c))
    (by decide +kernel)
  obtain ⟨hhalts, key⟩ := Bool.and_eq_true_iff.mp key
  obtain ⟨_, c', hrun, key⟩ := Prog.of_returns key
  obtain ⟨hfuel, hsends, hspun, htame⟩ := of_decide_eq_true hhalts
  obtain ⟨hfuel', hsends', hspun', htame'⟩ := of_decide_eq_true key
  obtain ⟨s₀, s₁, hacc, -⟩ := accept_ok haccept
  refine ⟨c, w', c', haccept, hrun, ?_, ?_⟩
  · exact (underflow_ends (.input haccept .refl rfl hacc.readOnly.reached) hfuel rfl
      hspun).2 (.of_nil hsends) htame
  · exact (underflow_ends (.read haccept hrun) hfuel' rfl hspun').2 (.of_nil hsends') htame'

/-- While the parameters are read, a record of the request 2 without content comes, and then
another byte. -/
theorem underflow_does_not_end : ¬ ∀ conn s, ReaderState conn s → s.world.io.Clean →
    ∃ fuel, (∃ c, (underflow conn fuel s).1 = .ok c) ∨
      ∃ e, (underflow conn fuel s).1 = .error (.exc e) := by
  intro h
  set w : World := { io := { incoming := [.data [1, 4, 0, 2, 0, 0, 0, 0, 1]] } }
  obtain ⟨b, -, hfresh⟩ := construct_reader .responder (fun _ => 0) inBufferSize w (by decide)
    (by decide)
  rw [show inBufferSize - inBufferSize % 8 = inBufferSize from rfl] at hfresh
  have hw : w.io.Clean := by decide
  have hidle : Idle .responder .params inBufferSize 0 0 [] []
      ([1, 4, 0, 2, 0, 0, 0, 0] ++ [1]) ⟨b, w⟩ := hfresh.idle .responder hw
  have hbare : (Header.ofBytes [1, 4, 0, 2, 0, 0, 0, 0]).IsBare .responder :=
    ⟨rfl, by decide, rfl, by decide, rfl, rfl⟩
  have hspent := foreign_spins hidle rfl hbare (List.cons_ne_nil _ _)
  have hs : ReaderState .responder ⟨b, w⟩ := .params hfresh ⟨.refl, hfresh.openReader⟩
  obtain ⟨fuel, ⟨c, hc⟩ | ⟨e, he⟩⟩ := h .responder ⟨b, w⟩ hs hw
  · cases hc.symm.trans (hspent fuel)
  · cases he.symm.trans (hspent fuel)

end Fcgi
