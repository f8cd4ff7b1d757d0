import Fcgi.Input.Contents
import Fcgi.Connection.Runs

/-!
# Connection — from one input stream to the next

The parameters are followed by stdin, and in a filter stdin by data.  The reader switches at the
header that ends a stream, and forgets the padding announced there: the next stream begins with
the padding of the record that ends the one before (`readParameters_switch`, `Stream.ends`).

**`input_streams_switched_iff`**: so the streams are read as they were sent if and only if those
records have no padding.

What is stated is where the reader stands: before the first header of a stream, with all of its
records to come (`InputsRead`).  A reader that stands there gives the characters and comes to the
end (`Stream.ends`), and what is then to come begins with the padding of the last record.  So it
stands before the next stream if there is no padding, and otherwise before other bytes.
-/

namespace Fcgi
open Lib

section

variable {conn : ConnectionInfo} {t : StreamType} {size : Nat} {out bs rest : List UInt8}
  {s : State} {ps : List Record} {last : Record}

/-- For a program that reads a stream to its end. -/
theorem Stream.callee (hid : conn.requestId ≠ 0) (hlast : last.Ends conn t)
    (hf : ¬ (conn.role = .filter ∧ t = .«in»)) (fuel : Nat) :
    Callee (fun s => ∃ chars, Stream conn t size (last.bytes ++ rest) out chars s)
      (fun s => ∃ chars, Stream conn t size (last.bytes ++ rest) out chars s)
      (Ended conn t size out (last.padding ++ rest)) (fun _ => True) (fun _ _ => True)
      (underflow conn fuel) where
  call := by
    rintro s ⟨⟨chars, h⟩, hge⟩
    rcases e : underflow conn fuel s with ⟨x | r, s'⟩
    · trivial
    · cases chars with
      | nil =>
          obtain ⟨s'', hrun, hs''⟩ := h.ends hid hlast
          obtain ⟨e', rfl⟩ := hrun.eq_of_ok e
          cases e'
          rw [if_neg hf] at hs''
          exact hs''
      | cons c chars =>
          obtain ⟨c₀, s'', hrun, hs'', hlt⟩ := h.underflow_cons hid hge
          obtain ⟨e', rfl⟩ := hrun.eq_of_ok e
          cases e'
          exact ⟨⟨_, hs''⟩, hlt⟩
  take := by
    rintro s ⟨⟨chars, h⟩, hlt⟩
    obtain ⟨c, cs, s', rfl, htake, h'⟩ := h.takeChar_cons hlt
    rw [htake]
    exact ⟨cs, h'⟩
  start _ h := h
  stop _ _ := trivial
  eof _ _ := trivial
  caught _ _ _ := trivial

/-- At the end of a stream, the reader goes on to another. -/
theorem Ended.reset {t' : StreamType} (h : Ended conn t size out bs s)
    (hr : ReaderOk conn.role t') (ht : (s.buf.reset t').isReader = true) :
    resetReader conn t' s = (.ok (), ⟨s.buf.reset t', s.world⟩) ∧
      Idle conn t' size 0 0 out [] bs ⟨s.buf.reset t', s.world⟩ := by
  obtain ⟨b, w⟩ := s
  have ho := h.openReader
  have ho' : OpenReader conn.role (b.reset t') := ho.reset ht hr
  have hle : (b.reset t').gptr ≤ (b.reset t').egptr := Nat.le_of_eq h.area
  refine ⟨?_, ⟨ho', rfl, h.bufferSize, rfl, rfl, rfl, rfl, Nat.zero_le _, h.clean, h.written⟩, hle,
    ?_, h.bytes⟩
  · rw [resetReader, Prog.bind_ok (Prog.get_run _), Prog.bind_ok (Prog.assert_true
      ⟨ho.reader, Bool.eq_false_iff.mp ho.not_isClosed⟩ _), Prog.bind_ok (modifyBuf_run _)]
    exact assertInvariantOk_run (ho'.invariantOk (Nat.zero_le _) hle)
  · have : (b.reset t').egptr - (b.reset t').gptr = 0 := Nat.sub_eq_zero_of_le
      (Nat.le_of_eq h.area.symm)
    rw [this, Mem.load_zero]

/-- **The parameters have been read**: stdin begins with the padding of their last record. -/
theorem readParameters_switch (hid : conn.requestId ≠ 0)
    (hrole : conn.role = .responder ∨ conn.role = .filter)
    (h : Idle conn .params size 0 0 out [] (Frame.join ps ++ (last.bytes ++ rest)) s)
    (hps : ∀ r ∈ ps, r.Carries conn .params size) (hlast : last.Ends conn .params) {fuel : Nat}
    {p : NamesValues × Istream} {s' : State} (hrun : readParameters conn fuel s = (.ok p, s')) :
    Idle conn .«in» size 0 0 out [] (last.padding ++ rest) s' := by
  have hf : ¬ (conn.role = .filter ∧ StreamType.params = .«in») := fun h => nomatch h.2
  obtain ⟨⟨vars, is⟩, s₁, hstream, hrest⟩ := Prog.bind_eq_ok hrun
  have hend := (((Stream.callee hid hlast hf fuel).ofStream (fun _ _ _ => trivial)
    (fun _ _ => trivial) fuel rfl (by decide)).of_ok ⟨_, h.stream _ rfl hps⟩ hstream).2
  dsimp only at hrest hend
  by_cases heof : ¬ is.eof = true ∨ is.bad = true
  · rw [if_pos heof] at hrest
    cases hrest
  · have hended := hend (Bool.eq_false_iff.mpr fun h => heof (.inr h))
    obtain ⟨hreset, hidle⟩ := hended.reset
      (.inr (.inr (hrole.imp (⟨·, rfl⟩) (⟨·, .inl rfl⟩)))) rfl
    rw [if_neg heof, if_pos hrole, Prog.bind_ok hreset] at hrest
    cases hrest
    exact hidle

/-- A fresh buffer stands before the first header. -/
theorem FreshReader.idle (conn : ConnectionInfo) {w : World} {b : ServerStreambuf}
    (h : FreshReader conn.role t size b) (hc : w.io.Clean) :
    Idle conn t size 0 0 w.io.written [] w.io.bytes ⟨b, w⟩ := by
  have hg : b.gptr = 0 := ServerStreambuf.gptr_eq h.area
  have he : b.egptr = 0 := ServerStreambuf.egptr_eq h.area
  refine ⟨⟨h.openReader, h.type, h.size, h.open_, h.discard, h.content, h.padding, Nat.zero_le _,
    hc, rfl⟩, ?_, ?_, ?_⟩
  · exact Nat.le_of_eq (hg.trans he.symm)
  · dsimp only
    rw [hg, he, Mem.load_zero]
  · rw [State.ahead]
    dsimp only
    rw [h.end_, he, Mem.load_zero, List.nil_append]

end

/-! ### The streams of a request -/

/-- The reader is at the first record of stdin, delivers what the records `ins` of it carry, and
then the end of the stream; in a filter it is then at the first record of data, and delivers what
the records `ds` carry, and then the end of the stream. -/
structure InputsRead (conn : ConnectionInfo) (size : Nat) (out : List UInt8) (ins ds : List Record)
    (stdin data : List UInt8) (s : State) : Prop where
  atStdin : Idle conn .«in» size 0 0 out [] stdin s
  read : ∃ s', Prog.Runs (fun n => xsgetn (underflow conn n) ((Record.contents ins).length + 1)) s
      (.ok (Record.contents ins)) s' ∧
    (conn.role = .responder → ∀ n, underflow conn n s' = (.ok none, s')) ∧
    (conn.role = .filter → Idle conn .data size 0 0 out [] data s' ∧
      ∃ s'', Prog.Runs (fun n => xsgetn (underflow conn n) ((Record.contents ds).length + 1)) s'
          (.ok (Record.contents ds)) s'' ∧
        ∀ n, underflow conn n s'' = (.ok none, s''))

section

variable {conn : ConnectionInfo} {size : Nat} {out tail rest : List UInt8} {s : State}
  {ins ds : List Record} {lastP lastIn lastData : Record}

/-- Stdin read to its end. -/
theorem Idle.stdin_read (hid : conn.requestId ≠ 0)
    (h : Idle conn .«in» size 0 0 out [] (Frame.join ins ++ (lastIn.bytes ++ tail)) s)
    (hins : ∀ r ∈ ins, r.Carries conn .«in» size) (hlastIn : lastIn.Ends conn .«in») :
    ∃ s', Prog.Runs (fun n => xsgetn (underflow conn n) ((Record.contents ins).length + 1)) s
        (.ok (Record.contents ins)) s' ∧
      if conn.role = .filter then
        Idle conn .data size 0 0 out [] (lastIn.padding ++ tail) s'
      else Ended conn .«in» size out (lastIn.padding ++ tail) s' := by
  obtain ⟨s', hrun, hs'⟩ := (h.stream _ rfl hins).xsgetn_runs hid
    (fun s hs => hs.sbumpc_end hid hlastIn)
  refine ⟨s', hrun, ?_⟩
  simpa only [and_true] using hs'

/-- The streams after the parameters are read as they were sent if and only if the records before
them have no padding. -/
theorem inputsRead_iff (hid : conn.requestId ≠ 0)
    (h : Idle conn .«in» size 0 0 out [] (lastP.padding ++
      (Frame.join ins ++ (lastIn.bytes ++ tail))) s)
    (hins : ∀ r ∈ ins, r.Carries conn .«in» size) (hlastIn : lastIn.Ends conn .«in»)
    (hdata : conn.role = .filter → tail = Frame.join ds ++ (lastData.bytes ++ rest) ∧
      (∀ r ∈ ds, r.Carries conn .data size) ∧ lastData.Ends conn .data) :
    InputsRead conn size out ins ds (Frame.join ins ++ (lastIn.bytes ++ tail)) tail s ↔
      lastP.padding = [] ∧ (conn.role = .filter → lastIn.padding = []) := by
  constructor
  · rintro ⟨hstdin, s', hrun, -, hfilter⟩
    have hp : lastP.padding = [] := List.self_eq_append_left.mp (hstdin.bytes.symm.trans h.bytes)
    refine ⟨hp, fun hf => ?_⟩
    obtain ⟨s'', hrun', hs''⟩ := hstdin.stdin_read hid hins hlastIn
    obtain ⟨-, rfl⟩ := hrun.unique hrun'
    rw [if_pos hf] at hs''
    exact List.self_eq_append_left.mp ((hfilter hf).1.bytes.symm.trans hs''.bytes)
  · rintro ⟨hp, hin⟩
    rw [hp, List.nil_append] at h
    obtain ⟨s', hrun, hs'⟩ := h.stdin_read hid hins hlastIn
    refine ⟨h, s', hrun, fun hr n => ?_, fun hf => ?_⟩
    · rw [if_neg (fun hf => by rw [hr] at hf; cases hf)] at hs'
      exact hs'.underflow_eq n
    · rw [if_pos hf, hin hf, List.nil_append] at hs'
      obtain ⟨htail, hds, hlastData⟩ := hdata hf
      refine ⟨hs', ?_⟩
      rw [htail] at hs'
      obtain ⟨s'', hrun', hs''⟩ := (hs'.stream _ rfl hds).xsgetn_runs hid
        (fun s hs => hs.sbumpc_end hid hlastData)
      rw [if_neg (fun h => nomatch h.2)] at hs''
      exact ⟨s'', hrun', hs''.underflow_eq⟩

end

/-- What `accept()` has left to be read, once it has read the parameters. -/
theorem accept_stdin {uninit : Uninit} {fuel : Nat} {w w' : World} {c : Connection}
    {begin_ rest : List UInt8} {ps : List Record} {last : Record}
    (haccept : accept uninit fuel w = (.ok c, w')) (hclean : w.io.Clean)
    (hrole : c.role_ = .responder ∨ c.role_ = .filter) (hbegin : begin_.length = 16)
    (hbytes : w.io.bytes = begin_ ++ (Frame.join ps ++ (last.bytes ++ rest)))
    (hps : ∀ r ∈ ps, r.Carries c.info .params inBufferSize) (hlast : last.Ends c.info .params) :
    Idle c.info .«in» inBufferSize 0 0 w.io.written [] (last.padding ++ rest) c.inState := by
  obtain ⟨s₀, s₁, hacc, -, -, header, body, io, hheader, hbody, hread, hread', -⟩ :=
    accept_ok haccept
  obtain ⟨hc, hio⟩ := hclean.of_read (by decide) hread
  obtain ⟨hc', hio'⟩ := hc.of_read (by decide) hread'
  have hwritten : s₀.world.io.written = w.io.written :=
    (Io.read_sends hread').2.trans (Io.read_sends hread).2
  rw [hio, hio', ← List.append_assoc] at hbytes
  have hs₀ := (List.append_inj hbytes (by rw [List.length_append, hheader, hbody, hbegin])).2
  obtain ⟨fuel', p, hrun⟩ := hacc.parameters
  have hidle := hacc.fresh.idle c.info (w := s₀.world) hc'
  rw [hs₀, hwritten] at hidle
  exact readParameters_switch hacc.id_pos hrole hidle hps hlast hrun

/-- **The streams of a request** to a responder or a filter are read as they were sent, if and
only if the record that ends the parameters has no padding, nor in a filter the one that ends
stdin. -/
theorem input_streams_switched_iff {uninit : Uninit} {fuel : Nat} {w w' : World} {c : Connection}
    {begin_ tail rest : List UInt8} {ps ins ds : List Record} {lastP lastIn lastData : Record}
    (haccept : accept uninit fuel w = (.ok c, w')) (hclean : w.io.Clean)
    (hrole : c.role_ = .responder ∨ c.role_ = .filter) (hbegin : begin_.length = 16)
    (hbytes : w.io.bytes = begin_ ++ (Frame.join ps ++ (lastP.bytes ++
      (Frame.join ins ++ (lastIn.bytes ++ tail)))))
    (hps : ∀ r ∈ ps, r.Carries c.info .params inBufferSize) (hlastP : lastP.Ends c.info .params)
    (hins : ∀ r ∈ ins, r.Carries c.info .«in» inBufferSize) (hlastIn : lastIn.Ends c.info .«in»)
    (hdata : c.role_ = .filter → tail = Frame.join ds ++ (lastData.bytes ++ rest) ∧
      (∀ r ∈ ds, r.Carries c.info .data inBufferSize) ∧ lastData.Ends c.info .data) :
    InputsRead c.info inBufferSize w.io.written ins ds
        (Frame.join ins ++ (lastIn.bytes ++ tail)) tail c.inState ↔
      lastP.padding = [] ∧ (c.role_ = .filter → lastIn.padding = []) := by
  obtain ⟨s₀, s₁, hacc, -⟩ := accept_ok haccept
  exact inputsRead_iff hacc.id_pos
    (accept_stdin haccept hclean hrole hbegin hbytes hps hlastP) hins hlastIn hdata

/-- Is there a connection for the request 1, in this role? -/
def accepts (role : Role) (w : World) : Bool :=
  match accept {} 9 w with
  | (.ok c, _) => c.role_ = role ∧ c.requestId_ = 1
  | _ => false

/-- `accept()` returns a connection for the request 1 with this role. -/
theorem accepts_ok (role : Role) {w : World} (h : accepts role w = true) :
    ∃ c w', accept {} 9 w = (.ok c, w') ∧ c.role_ = role ∧ c.requestId_ = 1 := by
  rw [accepts] at h
  rcases e : accept {} 9 w with ⟨x | c, w'⟩ <;> rw [e] at h
  · cases h
  · exact ⟨c, w', rfl, of_decide_eq_true h⟩

/-- Two characters of stdin, and no padding in the record before them. -/
theorem input_streams_switched_unpadded : ∃ c w',
    accept {} 9 (responderRequest [1, 5, 0, 1, 0, 2, 0, 0, 104, 105, 1, 5, 0, 1, 0, 0, 0, 0]) =
      (.ok c, w') ∧
    InputsRead c.info inBufferSize [] [Record.mk (Header.ofFields .«in» 1 2 0) [104, 105] []
      rfl rfl rfl] [] [1, 5, 0, 1, 0, 2, 0, 0, 104, 105, 1, 5, 0, 1, 0, 0, 0, 0] [] c.inState := by
  obtain ⟨c, w', haccept, hrole, hid⟩ := accepts_ok .responder
    (w := responderRequest [1, 5, 0, 1, 0, 2, 0, 0, 104, 105, 1, 5, 0, 1, 0, 0, 0, 0])
    (by decide +kernel)
  have hnf : c.role_ ≠ .filter := by rw [hrole]; decide
  have hbytes : (responderRequest [1, 5, 0, 1, 0, 2, 0, 0, 104, 105,
      1, 5, 0, 1, 0, 0, 0, 0]).io.bytes = [1, 1, 0, 1, 0, 8, 0, 0, 0, 1, 0, 0, 0, 0, 0, 0] ++
    (Frame.join ([] : List Record) ++ ((Record.mk (Header.ofFields .params 1 0 0) [] []
      rfl rfl rfl).bytes ++ (Frame.join [Record.mk (Header.ofFields .«in» 1 2 0) [104, 105] []
      rfl rfl rfl] ++ ((Record.mk (Header.ofFields .«in» 1 0 0) [] [] rfl rfl rfl).bytes ++
      [])))) := rfl
  have hdata : c.role_ = .filter → [] = Frame.join ([] : List Record) ++
      ((Record.mk (Header.ofFields .data 1 0 0) [] [] rfl rfl rfl).bytes ++ []) ∧
      (∀ r ∈ ([] : List Record), r.Carries c.info .data inBufferSize) ∧
      (Record.mk (Header.ofFields .data 1 0 0) [] [] rfl rfl rfl).Ends c.info .data :=
    fun h => absurd h hnf
  refine ⟨c, w', haccept, (input_streams_switched_iff haccept (by decide) (.inl hrole) rfl hbytes
    (fun _ h => absurd h List.not_mem_nil) ⟨⟨hid.symm, rfl⟩, rfl⟩
    (List.forall_mem_singleton.mpr ⟨⟨hid.symm, rfl⟩, by decide, by decide⟩)
    ⟨⟨hid.symm, rfl⟩, rfl⟩ hdata).mpr ⟨rfl, fun h => absurd h hnf⟩⟩

/-- A byte of padding in the record that ends the parameters. -/
theorem input_streams_not_switched : ∃ c w',
    accept {} 9 { io := { incoming := [.data [1, 1, 0, 1, 0, 8, 0, 0, 0, 1, 0, 0, 0, 0, 0, 0,
      1, 4, 0, 1, 0, 0, 1, 0, 0, 1, 5, 0, 1, 0, 0, 0, 0]] } } = (.ok c, w') ∧
    ¬ InputsRead c.info inBufferSize [] [] [] [1, 5, 0, 1, 0, 0, 0, 0] [] c.inState := by
  obtain ⟨c, w', haccept, hrole, hid⟩ := accepts_ok .responder
    (w := { io := { incoming := [.data [1, 1, 0, 1, 0, 8, 0, 0, 0, 1, 0, 0, 0, 0, 0, 0,
      1, 4, 0, 1, 0, 0, 1, 0, 0, 1, 5, 0, 1, 0, 0, 0, 0]] } }) (by decide +kernel)
  have hbytes : [1, 1, 0, 1, 0, 8, 0, 0, 0, 1, 0, 0, 0, 0, 0, 0, 1, 4, 0, 1, 0, 0, 1, 0, 0,
      1, 5, 0, 1, 0, 0, 0, 0] = [1, 1, 0, 1, 0, 8, 0, 0, 0, 1, 0, 0, 0, 0, 0, 0] ++
    (Frame.join ([] : List Record) ++ ((Record.mk (Header.ofFields .params 1 0 1) [] [0]
      rfl rfl rfl).bytes ++ [1, 5, 0, 1, 0, 0, 0, 0])) := rfl
  have hidle := accept_stdin haccept (by decide) (.inl hrole) rfl hbytes
    (fun _ h => absurd h List.not_mem_nil) ⟨⟨hid.symm, rfl⟩, rfl⟩
  refine ⟨c, w', haccept, fun h => ?_⟩
  have := h.atStdin.bytes.symm.trans hidle.bytes
  exact absurd (congrArg List.length this) (by decide)

end Fcgi
