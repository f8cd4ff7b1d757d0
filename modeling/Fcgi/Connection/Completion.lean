import Fcgi.Connection.FirstRecord
import Fcgi.Connection.Termination
import Fcgi.Input.Whole

/-!
# Connection — when the parameters are complete

**`parameters_complete`**: whatever follows the begin-request record, and wherever the transport
closes or fails, `accept()` returns a connection only if the stream of the parameters has ended
behind a pair, and then with all the pairs; otherwise it throws.  That is so unless the client
sends a record that the reader cannot deal with.

The constructor of the input stream hands the characters of the stream to the decoder of the pairs,
which stops in good order only at the end of the stream, and the characters are those that
`Decodes` makes of the bytes (`readParameters_complete`).  It does come to an end, for each round of
`underflow()` uses up bytes or ends (`readParameters_spent`), and no assertion fails
(`Aborted.not_tame`).
-/

namespace Fcgi
open Lib

/-- `bs` begins with records of the parameters and the one that ends them, and their contents are
the pairs `nv`. -/
def CompleteList (conn : ConnectionInfo) (bs : List UInt8) (nv : NamesValues) : Prop :=
  ∃ chars rest, Decodes conn .params inBufferSize 0 0 bs chars rest ∧
    PairsBytes nv.contents chars

/-- The connection that a begin-request record at the front of `bs` asks for. -/
def FirstRecord.info (uninit : Uninit) (bs : List UInt8) : ConnectionInfo where
  role := ⟨be16 (bs.getD 8 0) (bs.getD 9 0)⟩
  requestId := be16 (bs.getD 2 0) (bs.getD 3 0)
  stack := uninit.stack

section

variable {conn : ConnectionInfo} {uninit : Uninit} {fuel : Nat} {w w' : World} {s s' : State}

/-! ### Reading the parameters -/

/-- A fresh buffer stands at the beginning of its stream. -/
theorem FreshReader.pause {t : StreamType} {size : Nat} (h : FreshReader conn.role t size s.buf) :
    Pause conn t size 0 0 s.outer [] s.world.io.reach s := by
  have hcur : s.buf.gptr = 0 := ServerStreambuf.gptr_eq h.area
  have hlim : s.buf.egptr = 0 := ServerStreambuf.egptr_eq h.area
  refine ⟨⟨rfl, h.openReader, h.type, h.size, h.discard, h.content, h.padding⟩,
    Nat.le_of_eq (hcur.trans hlim.symm), ?_, ?_⟩
  · rw [hcur, hlim, Nat.sub_self, Mem.load_zero]
  · rw [State.reach, hlim]
    exact ServerStreambuf.received_end (Nat.le_of_eq h.end_)

/-- Where the parameters are read they are complete. -/
theorem readParameters_complete (h : FreshReader conn.role .params inBufferSize s.buf)
    {nv : NamesValues} {is : Istream} (hrun : readParameters conn fuel s = (.ok (nv, is), s')) :
    s'.world.history.Mixed ∨ CompleteList conn s.world.io.reach nv := by
  obtain ⟨⟨nv', is'⟩, s₁, hstream, hrun⟩ := Prog.bind_eq_ok hrun
  dsimp only at hrun
  by_cases hbad : ¬ is'.eof = true ∨ is'.bad = true
  · rw [if_pos hbad] at hrun
    cases hrun
  rw [if_neg hbad] at hrun
  obtain ⟨chars, hend, hps⟩ := ((decodes_feeds (T := s.world.io.reach) fuel).ofStream rfl fuel
    32).of_ok (.inr ⟨_, _, _, _, _, h.pause, Nat.zero_le _, h.open_,
      fun _ _ hd => hd⟩) hstream
      (Bool.eq_false_iff.mpr fun e => hbad (.inr e))
  have hlast : nv = nv' ∧ (s₁.world.history.Mixed → s'.world.history.Mixed) := by
    by_cases hrole : conn.role = .responder ∨ conn.role = .filter
    · rw [if_pos hrole] at hrun
      obtain ⟨_, s₂, hreset, hrun⟩ := Prog.bind_eq_ok hrun
      cases hrun
      exact ⟨rfl, fun hm => Triple.of_ok (resetReader_stable mixed_stable _) hm hreset⟩
    · rw [if_neg hrole] at hrun
      cases hrun
      exact ⟨rfl, id⟩
  obtain ⟨rfl, hmixed⟩ := hlast
  exact hend.imp hmixed fun ⟨rest, hd⟩ => ⟨chars, rest, hd, hps⟩

/-- It takes no more fuel than a bounded amount, unless a header spins. -/
theorem readParameters_spent (h : OpenReader conn.role s.buf) (hfuel : s.rank < fuel)
    (hrun : readParameters conn fuel s = (.error .spent, s')) : s'.world.history.Spun conn := by
  have hcall : RankedCall conn fuel (underflow conn fuel) := fun k G hk =>
    enterUnderflow_ranked (underflowLoop_ranked fuel [] hk)
  have hstream : Triple (Ranked conn (min s.rank s.rank) True)
      (NamesValues.ofStream (underflow conn fuel) fuel {} 32)
      (fun _ => Ranked conn (min s.rank s.rank) True)
      (RankedFault conn (min s.rank s.rank) True) :=
    (hcall.drains fun _ => hfuel).ofStream (.inl hfuel) fun _ _ => trivial
  rcases Prog.bind_eq_error hrun with hrun | ⟨⟨nv, is⟩, s₁, -, hrun⟩
  · exact hstream.of_error ⟨h, Nat.le_of_eq (Nat.min_self _).symm, .inl trivial⟩ hrun
  · -- What follows does not take any.
    dsimp only at hrun
    by_cases hbad : ¬ is.eof = true ∨ is.bad = true
    · rw [if_pos hbad] at hrun
      cases hrun
    rw [if_neg hbad] at hrun
    by_cases hrole : conn.role = .responder ∨ conn.role = .filter
    · rw [if_pos hrole] at hrun
      rcases Prog.bind_eq_error hrun with hreset | ⟨_, s₂, -, hrun⟩
      · exact nomatch (resetReader_same _).of_error (P := fun s => s = s₁) rfl hreset
      · cases hrun
    · rw [if_neg hrole] at hrun
      cases hrun

/-- An input stream that has been made has got all the pairs. -/
theorem construct_istream_complete {nv : NamesValues} {is : ServerIstream}
    (h : ServerIstream.construct conn uninit fuel w = (.ok (nv, is), w')) :
    w'.history.Mixed ∨ CompleteList conn w.io.reach nv := by
  obtain ⟨b, hfresh, hsettled⟩ := construct_istream_settled conn uninit w
  obtain ⟨s, hread, -, rfl⟩ := settled_eq_ok ((hsettled fuel).symm.trans h)
  exact readParameters_complete (s := ⟨b, w⟩) hfresh hread

/-- The output streams are constructed without fail. -/
theorem construct_eq (uninit : Uninit) (fuel : Nat) (role : Role) (id : Nat) (keep : Bool)
    (w : World) : (∃ x w', Connection.construct uninit fuel role id keep w = (.error x, w') ∧
      ServerIstream.construct { role, requestId := id, stack := uninit.stack } uninit fuel w =
        (.error x, w')) ∨
    ∃ c is w', Connection.construct uninit fuel role id keep w = (.ok c, w') ∧
      ServerIstream.construct { role, requestId := id, stack := uninit.stack } uninit fuel w =
        (.ok (c.parameters_, is), w') := by
  set conn : ConnectionInfo := { role, requestId := id, stack := uninit.stack }
  rcases e : ServerIstream.construct conn uninit fuel w with ⟨x | ⟨nv, is⟩, w'⟩
  · exact .inl ⟨x, w', Prog.bind_error (Prog.bind_error e), rfl⟩
  · obtain ⟨out, hout, -⟩ := construct_writer conn uninit.outBuffer w'
      (show 2048 ≤ outBufferSize by decide) (by decide) (.inl rfl)
    obtain ⟨err, herr, -⟩ := construct_writer conn uninit.errBuffer w'
      (show 2048 ≤ errBufferSize by decide) (by decide) (.inr rfl)
    exact .inr ⟨_, is, w', Connection.construct_run rfl e hout herr, rfl⟩

/-- The connection is constructed from complete parameters, or an exception is thrown. -/
theorem construct_complete {role : Role} {id : Nat} {keep : Bool}
    {r : Except (Fault Exception) Connection} (hw : w.AllOrNothing)
    (hfuel : 2 * w.io.bytes.length + 1 < fuel)
    (hrun : Connection.construct uninit fuel role id keep w = (r, w'))
    (hconn : conn = { role, requestId := id, stack := uninit.stack })
    (htame : Tame inBufferSize w'.history) (hspun : ¬ w'.history.Spun conn)
    (hmixed : ¬ w'.history.Mixed) :
    (∃ e, r = .error (.exc e)) ∨
      ∃ c, r = .ok c ∧ CompleteList conn w.io.reach c.parameters_ := by
  subst hconn
  rcases construct_eq uninit fuel role id keep w with ⟨x, w₁, hc, his⟩ | ⟨c, is, w₁, hc, his⟩
  · cases hc.symm.trans hrun
    have hfault := construct_istream_fault hw his
    cases x with
    | exc e => exact .inl ⟨e, rfl⟩
    | abort => exact absurd htame hfault
    | undef => exact hfault.elim
    | spent =>
        obtain ⟨b, s, hfresh, hread, hs⟩ := hfault
        refine absurd (hs ▸ readParameters_spent hfresh.openReader ?_ hread) hspun
        have hleft : State.left ⟨b, w⟩ = w.io.bytes.length := by
          rw [State.left, ServerStreambuf.avail, hfresh.end_, Nat.zero_sub, Nat.zero_add]
        exact Nat.lt_of_le_of_lt (State.rank_le _) (hleft.symm ▸ hfuel)
  · cases hc.symm.trans hrun
    exact .inr ⟨c, rfl, (construct_istream_complete his).resolve_left hmixed⟩

/-- **The parameters are complete**, or `accept()` throws. -/
theorem parameters_complete {bs : List UInt8} {io₁ io₂ : Io}
    {r : Except (Fault Exception) Connection}
    (hheader : Io.read 8 w.io = (.ok (bs.take 8), io₁))
    (hbody : Io.read 8 io₁ = (.ok ((bs.drop 8).take 8), io₂)) (hbegins : FirstRecord.Begins bs)
    (hconn : conn = FirstRecord.info uninit bs) (hw : w.AllOrNothing)
    (hfuel : 2 * io₂.bytes.length + 1 < fuel)
    (hrun : accept uninit fuel w = (r, w')) (htame : Tame inBufferSize w'.history)
    (hspun : ¬ w'.history.Spun conn) (hmixed : ¬ w'.history.Mixed) :
    (∃ e, r = .error (.exc e)) ∨
      ∃ c, r = .ok c ∧ CompleteList conn io₂.reach c.parameters_ := by
  have haccept := ((accept_classified uninit fuel hheader hbody).1 hbegins).1
  have hsends : (w.setIo io₂).io.sends = w.io.sends :=
    (Io.read_sends hbody).1.trans (Io.read_sends hheader).1
  exact construct_complete (w := w.setIo io₂) (hw.of_sends fun _ h => hsends ▸ h) hfuel
    (haccept.symm.trans hrun) hconn htame hspun hmixed

end

/-- A client that asks a responder for the request 1. `bytes` come with the begin-request record,
`more` later, and then the transport fails. -/
def brokenRequest (bytes more : List UInt8) : World where
  io := { incoming := [.data ([1, 1, 0, 1, 0, 8, 0, 0, 0, 1, 0, 0, 0, 0, 0, 0] ++ bytes),
    .data more, .error] }

/-- Two parameters, cut in the second. -/
theorem parameters_complete_two :
    ∃ c, (accept {} 99 (brokenRequest [1, 4, 0, 1, 0, 8, 0, 0, 1, 1, 65, 66, 1, 1]
        [67, 68, 1, 4, 0, 1, 0, 0, 0, 0])).1 = .ok c ∧
      ∃ bs io, CompleteList (FirstRecord.info {} bs) io c.parameters_ := by
  set w := brokenRequest [1, 4, 0, 1, 0, 8, 0, 0, 1, 1, 65, 66, 1, 1]
    [67, 68, 1, 4, 0, 1, 0, 0, 0, 0]
  obtain ⟨c, w', haccept, key⟩ := Prog.of_returns (r := accept {} 99 w)
    (p := fun _ (w' : World) => decide (Tame inBufferSize w'.history ∧
      ¬ w'.history.Spun (FirstRecord.info {} [1, 1, 0, 1, 0, 8, 0, 0, 0, 1, 0, 0, 0, 0, 0, 0]) ∧
      ¬ w'.history.Mixed))
    (by decide +kernel)
  obtain ⟨htame, hspun, hmixed⟩ := of_decide_eq_true key
  have hbegins : FirstRecord.Begins [1, 1, 0, 1, 0, 8, 0, 0, 0, 1, 0, 0, 0, 0, 0, 0] :=
    ⟨rfl, ⟨rfl, by decide, rfl⟩, by decide, by decide⟩
  have hheader : Io.read 8 w.io = (.ok ([1, 1, 0, 1, 0, 8, 0, 0, 0, 1, 0, 0, 0, 0, 0, 0].take 8),
    (Io.read 8 w.io).2) := rfl
  rcases parameters_complete hheader rfl hbegins rfl (.of_nil rfl) (by decide)
    haccept htame hspun hmixed with ⟨e, h⟩ | ⟨c', h, hc⟩
  · cases h
  · cases h
    exact ⟨c, congrArg Prod.fst haccept, _, _, hc⟩

/-- A management record of the type 12 is taken for the parameters, of which there are none. -/
theorem parameters_not_complete : ∃ (w : World) (bs : List UInt8) (io₁ io₂ : Io) (c : Connection),
    Io.read 8 w.io = (.ok (bs.take 8), io₁) ∧ Io.read 8 io₁ = (.ok ((bs.drop 8).take 8), io₂) ∧
    FirstRecord.Begins bs ∧ w.io.sends = [] ∧
    io₂.reach = [1, 12, 0, 0, 0, 4, 0, 0, 1, 1, 65, 66] ++ [1, 4, 0, 1, 0, 0, 0, 0] ∧
    (accept {} 99 w).1 = .ok c ∧ c.parameters_.contents = [([65], [66])] ∧
    ¬ CompleteList (FirstRecord.info {} bs) io₂.reach c.parameters_ := by
  set w := brokenRequest [1, 12, 0, 0, 0, 4, 0, 0, 1, 1, 65, 66] [1, 4, 0, 1, 0, 0, 0, 0]
  obtain ⟨c, w', haccept, key⟩ := Prog.of_returns (r := accept {} 99 w)
    (p := fun (c : Connection) _ => decide (c.parameters_.contents = [([65], [66])]))
    (by decide +kernel)
  refine ⟨w, [1, 1, 0, 1, 0, 8, 0, 0, 0, 1, 0, 0, 0, 0, 0, 0], _, _, c, rfl, rfl,
    ⟨rfl, ⟨rfl, by decide, rfl⟩, by decide, by decide⟩, rfl, rfl, congrArg Prod.fst haccept,
    of_decide_eq_true key, ?_⟩
  rintro ⟨chars, rest, hd, -⟩
  exact absurd hd.own.1 (by decide)

end Fcgi
