import Fcgi.Basics.Decoding
import Fcgi.Connection.Application
import Fcgi.Connection.FirstRecord
import Fcgi.Connection.Switching
import Fcgi.Connection.Refuelled

/-!
# Connection — a request, sent and accepted

`ClientRequest` is what a client asks for; `Encoding` is a way of sending it, in records of its
choice.  `ClientRequest.feed` is what the application is to read.

**`Encoding.accepted`**: whatever the records and the padding in them, and however the bytes after
the begin-request record arrive, `accept()` returns a connection for the request, with its
parameters, from which the application reads its input.

The first record has no padding, nor has one that ends a stream which another follows: `accept()`
and `reset_reader()` would not pass it over.  Behind the first record the reader stands before the
parameters (`Idle`); it gives their characters one by one and the end of the stream after them
(`Stream.supplies`), from which the decoder makes the pairs (`readParameters_taken`), and it is then
reset for stdin, where the streams that follow are the parts of the feed.
-/

namespace Fcgi
open Lib

/-- What a client asks for. -/
structure ClientRequest where
  role : Role
  id : Nat
  keep : Bool
  parameters : List (List UInt8 × List UInt8)
  stdin : List UInt8
  data : List UInt8

namespace ClientRequest

/-- The connection of the request, as the buffers know it. -/
def info (r : ClientRequest) : ConnectionInfo where
  role := r.role
  requestId := r.id

/-- What the application is to read.  To an authorizer nothing is sent after the parameters. -/
def feed (r : ClientRequest) : Feed UInt8 :=
  if r.role = .responder then ⟨[r.stdin], none, true⟩
  else if r.role = .filter then ⟨[r.stdin, r.data], none, true⟩
  else ⟨[], none, false⟩

end ClientRequest

instance (conn : ConnectionInfo) (t : StreamType) (size : Nat) (r : Record) :
    Decidable (r.Carries conn t size) :=
  decidable_of_iff ((r.head.requestId = conn.requestId ∧ r.head.recordType = t.recordType) ∧
    0 < r.head.contentLength ∧ r.head.contentLength ≤ size) .rfl

instance (conn : ConnectionInfo) (t : StreamType) (r : Record) : Decidable (r.Ends conn t) :=
  decidable_of_iff ((r.head.requestId = conn.requestId ∧ r.head.recordType = t.recordType) ∧
    r.head.contentLength = 0) .rfl

/-- The records in which a stream is sent. -/
structure Sending (conn : ConnectionInfo) (t : StreamType) (chars : List UInt8) where
  records : List Record
  last : Record
  carries : ∀ r ∈ records, r.Carries conn t inBufferSize
  ends : last.Ends conn t
  contents : Record.contents records = chars

/-- The bytes of a stream, and the bytes `rest` after it. -/
def Sending.bytes {conn : ConnectionInfo} {t : StreamType} {chars : List UInt8}
    (s : Sending conn t chars) (rest : List UInt8) : List UInt8 :=
  Frame.join s.records ++ (s.last.bytes ++ rest)

/-- They are the same for any connection of the request. -/
def Sending.of_id {conn conn' : ConnectionInfo} {t : StreamType} {chars : List UInt8}
    (s : Sending conn t chars) (hid : conn'.requestId = conn.requestId) : Sending conn' t chars :=
  ⟨s.records, s.last, fun r hr => (s.carries r hr).of_id hid, s.ends.of_id hid, s.contents⟩

/-- A way of sending a request.  Where a stream follows, the record that ends the one before it is
not padded. -/
structure Encoding (r : ClientRequest) where
  begin_ : Record
  begins : FirstRecord.Begins begin_.bytes
  length : begin_.bytes.length = 16
  role : be16 (begin_.bytes.getD 8 0) (begin_.bytes.getD 9 0) = r.role.value
  id : be16 (begin_.bytes.getD 2 0) (begin_.bytes.getD 3 0) = r.id
  keep : decide ((begin_.bytes.getD 10 0).toNat % 2 = 1) = r.keep
  pairs : List UInt8
  encoded : PairsBytes r.parameters pairs
  small : ∀ p ∈ r.parameters, p.1.length + p.2.length < 2 ^ 31
  params : Sending r.info .params pairs
  stdin : Sending r.info .«in» r.stdin
  data : Sending r.info .data r.data
  paramsUnpadded : r.role = .responder ∨ r.role = .filter → params.last.padding = []
  stdinUnpadded : r.role = .filter → stdin.last.padding = []

namespace Encoding

variable {r : ClientRequest}

/-- The streams after the parameters. -/
def streams (e : Encoding r) (rest : List UInt8) : List UInt8 :=
  if r.role = .responder then e.stdin.bytes rest
  else if r.role = .filter then e.stdin.bytes (e.data.bytes rest)
  else rest

/-- The bytes of the request, and the bytes `rest` after it. -/
def bytes (e : Encoding r) (rest : List UInt8) : List UInt8 :=
  e.begin_.bytes ++ e.params.bytes (e.streams rest)

end Encoding

section

variable {conn : ConnectionInfo} {t : StreamType} {size : Nat} {out chars rest : List UInt8}
  {s : State} {last : Record}

/-! ### The parameters -/

/-- With enough fuel the stream gives its characters, and ends. -/
theorem Stream.supplies (hid : conn.requestId ≠ 0) (hlast : last.Ends conn t)
    (hf : ¬ (conn.role = .filter ∧ t = .«in»))
    (h : Stream conn t size (last.bytes ++ rest) out chars s) :
    ∃ N s', (∀ n, N ≤ n → Supplies (underflow conn n) chars (.ok ()) s s') ∧
      Ended conn t size out (last.padding ++ rest) s' := by
  induction chars generalizing s with
  | nil =>
      obtain ⟨s', ⟨N, hN⟩, hs'⟩ := h.sbumpc_end hid hlast
      rw [if_neg hf] at hs'
      exact ⟨N, s', fun n hn => .eof ((hN n).2 hn), hs'⟩
  | cons c chars ih =>
      obtain ⟨s₁, ⟨M, hM⟩, h₁⟩ := h.sbumpc_cons hid
      obtain ⟨N, s', hN, hs'⟩ := ih h₁
      exact ⟨max M N, s', fun n hn => .char ((hM n).2 (by omega)) (hN n (by omega)), hs'⟩

/-- What the constructor of the input stream leaves to the application. -/
def ParametersTaken (conn : ConnectionInfo) (size : Nat) (out bs : List UInt8) (is : Istream)
    (s : State) : Prop :=
  if conn.role = .responder ∨ conn.role = .filter then
    is.good = true ∧ Idle conn .«in» size 0 0 out [] bs s
  else is.good = false ∧ ∃ bs', Ended conn .params size out bs' s

/-- **The parameters are read**, with enough fuel. -/
theorem readParameters_taken (hid : conn.requestId ≠ 0) {pairs : List UInt8}
    {ps : List (List UInt8 × List UInt8)} (hps : PairsBytes ps pairs)
    (hsmall : ∀ p ∈ ps, p.1.length + p.2.length < 2 ^ 31) (p : Sending conn .params pairs)
    (h : Idle conn .params inBufferSize 0 0 out [] (p.bytes rest) s)
    (hpad : conn.role = .responder ∨ conn.role = .filter → p.last.padding = []) :
    ∃ n nv is s', readParameters conn n s = (.ok (nv, is), s') ∧ nv.contents = ps ∧
      ParametersTaken conn inBufferSize out rest is s' := by
  have hf : ¬ (conn.role = .filter ∧ StreamType.params = .«in») := by simp
  obtain ⟨N, s₁, hN, hend⟩ := (h.stream _ rfl p.carries).supplies hid p.ends hf
  rw [p.contents] at hN
  set n := max N (pairs.length + 1)
  obtain ⟨nv, is, hg, hc, hloop⟩ := NamesValues.readPairs_ok hps hsmall
    (hN n (Nat.le_max_left _ _)) (rfl : ({} : Istream).good = true)
    (Nat.le_max_right _ _ : pairs.length < n) {}
  have hstream := (NamesValues.ofStream_eq rfl (by decide : 32 ≤ 64) n).trans hloop
  -- The stream has ended, and nothing else is wrong with it.
  have hbad : is.bad = false := by
    simp only [Istream.good, Bool.and_eq_true, Bool.not_eq_true'] at hg
    exact hg.2
  have hok : ¬ (¬ (is.stopped (.ok ())).eof = true ∨ (is.stopped (.ok ())).bad = true) := by
    simp [Istream.stopped, hbad]
  by_cases hrole : conn.role = .responder ∨ conn.role = .filter
  · obtain ⟨hreset, hidle⟩ := hend.reset
      (.inr (.inr (hrole.imp (⟨·, rfl⟩) (⟨·, .inl rfl⟩)))) rfl
    rw [hpad hrole, List.nil_append] at hidle
    refine ⟨n, nv, (is.stopped (.ok ())).clear, ⟨s₁.buf.reset .«in», s₁.world⟩, ?_, hc, ?_⟩
    · rw [readParameters, Prog.bind_ok hstream]
      dsimp only
      rw [if_neg hok, if_pos hrole, Prog.bind_ok hreset, Prog.pure_run]
    · rw [ParametersTaken, if_pos hrole]
      exact ⟨rfl, hidle⟩
  · refine ⟨n, nv, is.stopped (.ok ()), s₁, ?_, hc, ?_⟩
    · rw [readParameters, Prog.bind_ok hstream]
      dsimp only
      rw [if_neg hok, if_neg hrole, Prog.pure_run]
    · rw [ParametersTaken, if_neg hrole]
      exact ⟨by simp [Istream.stopped, Istream.good], _, hend⟩

end

/-! ### The connection -/

section

variable {uninit : Uninit} {w : World} {r : ClientRequest}

/-- The streams after the parameters are an input in parts. -/
theorem Encoding.inlet (e : Encoding r) {conn : ConnectionInfo} {out rest : List UInt8}
    {is : Istream} {s : State} (hrole : conn.role = r.role) (hid : conn.requestId = r.id)
    (h : ParametersTaken conn inBufferSize out (e.streams rest) is s) :
    Inlet conn inBufferSize out r.feed.parts s ∧ is.good = r.feed.good := by
  rw [ParametersTaken, hrole] at h
  rw [ClientRequest.feed]
  by_cases hr : r.role = .responder
  · rw [if_pos (.inl hr), Encoding.streams, if_pos hr] at h
    have hs := h.2.stream e.stdin.records rfl (e.stdin.of_id hid).carries
    rw [e.stdin.contents] at hs
    rw [if_pos hr]
    refine ⟨.stream hs (e.stdin.of_id hid).ends fun hf => ?_, h.1⟩
    rw [hrole, hr] at hf
    cases hf.1
  by_cases hf : r.role = .filter
  · rw [if_pos (.inr hf), Encoding.streams, if_neg hr, if_pos hf] at h
    have hs := h.2.stream e.stdin.records rfl (e.stdin.of_id hid).carries
    rw [e.stdin.contents] at hs
    have hin := Inlet.stdin hs (e.stdin.of_id hid).ends (e.stdinUnpadded hf) (hrole.trans hf)
      (e.data.of_id hid).carries (e.data.of_id hid).ends
    rw [e.data.contents] at hin
    rw [if_neg hr, if_pos hf]
    exact ⟨hin, h.1⟩
  · rw [if_neg fun h => h.elim hr hf] at h
    obtain ⟨hgood, bs, hended⟩ := h
    rw [if_neg hr, if_neg hf]
    exact ⟨.ended hended (by simp), hgood⟩

/-- No character has been read yet that could be put back. -/
theorem ClientRequest.feed_last (r : ClientRequest) : r.feed.last = none := by
  rw [ClientRequest.feed]
  split
  · rfl
  · split <;> rfl

/-- The constructor of the connection, where that of its input stream has returned. -/
theorem construct_ok {fuel : Nat} {role : Role} {id : Nat} {keep : Bool} {w' : World}
    {nv : NamesValues} {is : ServerIstream}
    (h : ServerIstream.construct { role, requestId := id, stack := uninit.stack } uninit fuel w =
      (.ok (nv, is), w')) :
    ∃ c, Connection.construct uninit fuel role id keep w = (.ok c, w') ∧
      c.info = { role, requestId := id, stack := uninit.stack } ∧ c.isKeepConnection_ = keep ∧
      c.parameters_ = nv ∧ c.in_ = is ∧ c.world = w' := by
  set conn : ConnectionInfo := { role, requestId := id, stack := uninit.stack }
  obtain ⟨out, hout, -⟩ := construct_writer conn uninit.outBuffer w'
    (show 2048 ≤ outBufferSize by decide) (by decide) (.inl rfl)
  obtain ⟨err, herr, -⟩ := construct_writer conn uninit.errBuffer w'
    (show 2048 ≤ errBufferSize by decide) (by decide) (.inr rfl)
  exact ⟨_, Connection.construct_run rfl h hout herr, rfl, rfl, rfl, rfl, rfl⟩

variable (uninit) in
/-- **A request is accepted.**  If the begin-request record is read whole, header and body, then
with enough fuel `accept()` returns a connection for the request, whatever the records that the
rest is sent in and however their bytes arrive. -/
theorem Encoding.accepted (e : Encoding r) {rest : List UInt8} {io₁ io₂ : Io}
    (hbytes : w.io.bytes = e.bytes rest) (hclean : w.io.Clean) (hsends : w.io.sends = [])
    (hwritten : w.io.written = [])
    (hheader : Io.read 8 w.io = (.ok (e.begin_.bytes.take 8), io₁))
    (hbody : Io.read 8 io₁ = (.ok ((e.begin_.bytes.drop 8).take 8), io₂)) :
    ∃ N c w', (∀ fuel, N ≤ fuel → accept uninit fuel w = (.ok c, w')) ∧
      c.role_ = r.role ∧ c.requestId_ = r.id ∧ c.isKeepConnection_ = r.keep ∧
      c.parameters_.contents = r.parameters ∧ Provides r.feed c := by
  obtain ⟨hclean₁, hio₁⟩ := hclean.of_read (by decide) hheader
  obtain ⟨hclean₂, hio₂⟩ := hclean₁.of_read (by decide) hbody
  have hlen : 8 ≤ e.begin_.bytes.length := Nat.le_trans (by decide) e.begins.length
  have hrest : io₂.bytes = e.params.bytes (e.streams rest) := by
    have hfirst := hio₁.symm.trans hbytes
    rw [hio₂, ← List.append_assoc, Encoding.bytes] at hfirst
    exact (List.append_inj hfirst (by
      simp only [List.length_append, List.length_take, List.length_drop, e.length]; rfl)).2
  have haccept : ∀ fuel, accept uninit fuel w =
      Connection.construct uninit fuel r.role r.id r.keep (w.setIo io₂) := fun fuel => by
    rw [accept_begins uninit fuel hheader ⟨hlen, e.begins.version⟩ e.begins.header hbody
      e.begins.length e.begins.role, e.role, e.id, e.keep]
  -- The constructor reads the parameters.
  set conn : ConnectionInfo := { role := r.role, requestId := r.id, stack := uninit.stack }
  have hid : r.id ≠ 0 := e.id ▸ e.begins.header.id
  obtain ⟨b, hfresh, hsettled⟩ := construct_istream_settled conn uninit (w.setIo io₂)
  have hidle := hfresh.idle conn (w := w.setIo io₂) hclean₂
  have hsilent : (w.setIo io₂).io.written = [] :=
    ((Io.read_sends hbody).2.trans (Io.read_sends hheader).2).trans hwritten
  rw [show (w.setIo io₂).io.bytes = _ from hrest, hsilent] at hidle
  obtain ⟨n, nv, is, s', hrun, hcontents, htaken⟩ := readParameters_taken hid e.encoded e.small
    (e.params.of_id rfl : Sending conn _ _) hidle e.paramsUnpadded
  have his : ServerIstream.construct conn uninit n (w.setIo io₂) =
      (.ok (nv, ⟨is, s'.buf⟩), s'.world) := by
    rw [hsettled, hrun]
    rfl
  obtain ⟨c, hc, hinfo, hkeep, hnv, hcin, hworld⟩ := construct_ok his
  have hrole : c.role_ = r.role := congrArg ConnectionInfo.role hinfo
  have hcid : c.requestId_ = r.id := congrArg ConnectionInfo.requestId hinfo
  have hok := (haccept n).trans hc
  obtain ⟨hinlet, hgood⟩ := e.inlet rfl rfl htaken
  refine ⟨n, c, s'.world, fun fuel hfuel => ?_, hrole, hcid, hkeep, hnv ▸ hcontents, ?_,
    accept_intact hsends hok, hcid ▸ hid, [], hworld ▸ hinlet.written, nofun⟩
  · have hran : (accept uninit n w).1 ≠ .error .spent := by
      rw [hok]
      simp
    rw [(accept_refuels hfuel uninit).eq hran, hok]
  · have hstate : c.inState = s' := by rw [Connection.inState, hcin, hworld]
    refine ⟨⟨?_, ?_⟩, ?_, fun hne => absurd r.feed_last hne⟩
    · rw [hstate, hinfo, hworld, hinlet.written]
      exact hinlet
    · intro c' hc'
      rw [r.feed_last] at hc'
      cases hc'
    · rw [hcin, hgood]

end

end Fcgi
