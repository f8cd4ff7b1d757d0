import Fcgi.Input.Traversal
import Fcgi.Output.Overflow
import Fcgi.Connection.Definitions

/-!
# Connection — what `Listener::accept()` returns

**`accept_ok`**: the connection `accept()` returns has one of the three roles and a request id
between 1 and 65535; its input buffer has read the parameters to the end of their stream and,
unless the role is the authorizer's, has been reset to read stdin; its output buffers are open and
empty.

`accept()` is taken apart into what it calls, and each part has its lemma: the constructor of a
buffer for output changes nothing of the world (`construct_writer`), that of the input buffer leaves
it fresh (`construct_reader`), the parameters are read by steps of the reader until their stream has
ended (`readParameters_steps`), and the header and the body come from one read each
(`readHeader_ok`, `readBeginRequestBody_ok`).
-/

namespace Fcgi
open Lib
open ServerStreambuf (gptr_eq egptr_eq pptr_eq pbase_eq)

/-! ### Constructing a stream buffer -/

/-- The constructor of a buffer: `setbuf()`, and the assertion of the invariant. -/
theorem construct_run (conn : ConnectionInfo) (buffer : Mem) {size : Nat} (type : StreamType)
    (w : World) (h₁ : 2048 ≤ size) (h₂ : size ≤ 65528) {b₀ b : ServerStreambuf}
    (hb₀ : b₀ = { type_ := type, buffer_ := buffer, capacity := size })
    (hb : b = b₀.replaced buffer size) (hi : b.InvariantOk conn.role) :
    ServerStreambuf.construct conn buffer size type w = (.ok b, w) := by
  have hfresh : ¬ b₀.StartsLate := by subst hb₀; simp [ServerStreambuf.StartsLate]
  have hrun : setbuf conn buffer size ⟨b₀, w⟩ = (.ok (), ⟨b, w⟩) := by
    rw [setbuf_run h₁ h₂ hfresh, ← hb, assertInvariantOk_run hi]
  subst hb₀
  rw [ServerStreambuf.construct, Prog.bind_ok hrun, assertInvariantOk_run hi]

/-- An output buffer into which nothing has been written. -/
structure FreshWriter (t : StreamType) (b : ServerStreambuf) : Prop where
  writer : Writer t false b
  pending : b.pending = []
  consumed : b.isPutAreaAtLeastOnceConsumed_ = false

/-- A buffer for output is made empty, of the largest size that is a multiple of eight. -/
theorem construct_writer (conn : ConnectionInfo) (buffer : Mem) {size : Nat} {t : StreamType}
    (w : World) (h₁ : 2048 ≤ size) (h₂ : size ≤ 65528) (ht : t = .out ∨ t = .err) :
    ∃ b, ServerStreambuf.construct conn buffer size t w = (.ok b, w) ∧ FreshWriter t b ∧
      b.bufferSize_ = size - size % 8 := by
  set b₀ : ServerStreambuf := { type_ := t, buffer_ := buffer, capacity := size } with hb₀
  have hr : b₀.isReader = false := by rcases ht with rfl | rfl <;> rfl
  set b := (b₀.setMemory buffer size (size - size % 8)).setgNull.setp 8 (size - size % 8 - 1)
    with hb
  have hw : Writer t false b := ⟨rfl, ht, rfl, ⟨8, rfl, Nat.le_refl _,
    show 8 < size - size % 8 by omega, show 2048 ≤ size - size % 8 by omega,
    show size - size % 8 ≤ 65528 by omega, show (size - size % 8) % 8 = 0 by omega,
    show size - size % 8 ≤ size by omega⟩, rfl, rfl, rfl, rfl⟩
  refine ⟨b, construct_run conn buffer t w h₁ h₂ hb₀ ?_ (hw.invariantOk _), ⟨hw, ?_, rfl⟩, rfl⟩
  · rw [ServerStreambuf.replaced, if_neg (Bool.eq_false_iff.mp hr)]
  · rw [ServerStreambuf.pending, pbase_eq (b := b) rfl, pptr_eq (b := b) rfl]; rfl

/-- Making it does not change the world. -/
theorem construct_writer_steps (conn : ConnectionInfo) (buffer : Mem) {size : Nat}
    {t : StreamType} {P : World → Prop} {E : Fault Exception → World → Prop} (h₁ : 2048 ≤ size)
    (h₂ : size ≤ 65528) (ht : t = .out ∨ t = .err) :
    Triple P (ServerStreambuf.construct conn buffer size t) (fun _ => P) E := by
  intro w hw
  obtain ⟨b, hb, -⟩ := construct_writer conn buffer w h₁ h₂ ht
  rw [hb]
  exact hw

/-- What has been made is such a buffer. -/
theorem construct_writer_ok {conn : ConnectionInfo} {buffer : Mem} {size : Nat} {t : StreamType}
    {w w' : World} {b : ServerStreambuf} (h₁ : 2048 ≤ size) (h₂ : size ≤ 65528)
    (ht : t = .out ∨ t = .err)
    (h : ServerStreambuf.construct conn buffer size t w = (.ok b, w')) :
    FreshWriter t b ∧ w' = w := by
  obtain ⟨b', hb', hw, -⟩ := construct_writer conn buffer w h₁ h₂ ht
  cases hb'.symm.trans h
  exact ⟨hw, rfl⟩

/-- An input buffer into which nothing has been read. -/
structure FreshReader (role : Role) (t : StreamType) (size : Nat) (b : ServerStreambuf) :
    Prop where
  openReader : OpenReader role b
  type : b.type_ = t
  size : b.bufferSize_ = size
  area : b.getArea = some ⟨0, 0, 0⟩
  end_ : b.bufferEnd_ = 0
  content : b.unreadContentLength_ = 0
  padding : b.unreadPaddingLength_ = 0
  discard : b.isContentMustBeDiscarded_ = false
  open_ : b.isEndOfStream_ = false

/-- A buffer for input is made with nothing read. -/
theorem construct_reader (conn : ConnectionInfo) (buffer : Mem) (size : Nat) (w : World)
    (h₁ : 2048 ≤ size) (h₂ : size ≤ 65528) :
    ∃ b, ServerStreambuf.construct conn buffer size .params w = (.ok b, w) ∧
      FreshReader conn.role .params (size - size % 8) b := by
  set b₀ : ServerStreambuf := { type_ := .params, buffer_ := buffer, capacity := size } with hb₀
  set b := (((b₀.setMemory buffer size (size - size % 8)).setg 0 0 0).setBufferEnd 0).setpNull
    with hb
  have ho : OpenReader conn.role b := ⟨rfl, .inl rfl, ⟨0, 0, 0, rfl, Nat.le_refl _,
    Nat.le_refl _, Nat.le_refl _, Nat.le_refl _⟩, rfl, Nat.zero_le _,
    show 2048 ≤ size - size % 8 by omega, show size - size % 8 ≤ 65528 by omega,
    show (size - size % 8) % 8 = 0 by omega, show size - size % 8 ≤ size by omega,
    Nat.zero_le _, Nat.zero_le _⟩
  exact ⟨b, construct_run conn buffer .params w h₁ h₂ hb₀ rfl
    (ho.invariantOk (Nat.zero_le _) (Nat.le_refl _)), ho, rfl, rfl, rfl, rfl, rfl, rfl, rfl, rfl⟩

/-! ### The stream type of a reader -/

/-- A step changes the stream type in one way only. -/
theorem ReaderStep.type {conn : ConnectionInfo} {c c' : Config} (h : ReaderStep conn c c') :
    c'.state.buf.type_ = c.state.buf.type_ ∨ conn.role = .filter ∧
      c.state.buf.type_ = .«in» ∧ c'.state.buf.type_ = .data := by
  cases h with
  | deliver _ _ _ _ _ hb' => subst hb'; exact .inl rfl
  | switch hrole ht => exact .inr ⟨hrole, ht, rfl⟩
  | _ => exact .inl rfl

/-- The stream that is read changes once at most, for a filter, from stdin to data. -/
theorem Reached.type {conn : ConnectionInfo} {c : Config} {m : Mode} {s : State}
    (hr : Reached conn c m s) : s.buf.type_ = c.state.buf.type_ ∨
      conn.role = .filter ∧ c.state.buf.type_ = .«in» ∧ s.buf.type_ = .data := by
  refine hr.invariant (I := fun d => d.state.buf.type_ = c.state.buf.type_ ∨
    conn.role = .filter ∧ c.state.buf.type_ = .«in» ∧ d.state.buf.type_ = .data)
    (fun hs ih => ?_) (.inl rfl)
  rcases ih with e | ⟨hrole, e, e'⟩ <;> rcases hs.type with f | ⟨hrole', f, f'⟩
  · exact .inl (f.trans e)
  · exact .inr ⟨hrole', e.symm.trans f, f'⟩
  · exact .inr ⟨hrole, e, f.trans e'⟩
  · exact .inr ⟨hrole, e, f'⟩

/-- No step changes the size of the buffer. -/
theorem ReaderStep.size {conn : ConnectionInfo} {c c' : Config} (h : ReaderStep conn c c') :
    c'.state.buf.bufferSize_ = c.state.buf.bufferSize_ := by
  cases h with
  | deliver _ _ _ _ _ hb' => subst hb'; rfl
  | _ => rfl

/-! ### Reading the parameters -/

section readParameters

variable {conn : ConnectionInfo} {s₀ : State} {size : Nat}

/-- The state in which the parameters have been read. -/
structure ParametersRead (conn : ConnectionInfo) (s₀ s₁ : State) : Prop where
  atEnd : AtEnd conn ⟨.idle, s₀⟩ s₁
  type : s₁.buf.type_ = .params
  ended : s₁.buf.isEndOfStream_ = true

/-- The input buffer of the connection, made from that of the parameters. -/
def inputBuffer (role : Role) (b : ServerStreambuf) : ServerStreambuf :=
  if role = .responder ∨ role = .filter then b.reset .«in» else b

/-- The input buffer of the connection is open. -/
theorem ParametersRead.openReader {s₁ : State} (h : ParametersRead conn s₀ s₁) :
    OpenReader conn.role (inputBuffer conn.role s₁.buf) := by
  have ho := h.atEnd.returned.reached.openReader
  rw [inputBuffer]
  split
  · rename_i hrole
    exact ho.reset rfl (.inr (.inr (hrole.imp (⟨·, rfl⟩) (⟨·, .inl rfl⟩))))
  · exact ho

/-- Reading the parameters takes steps of the reader, and resets it for stdin unless the role is the
authorizer's. -/
theorem readParameters_steps (s₀ : State) (h₀ : FreshReader conn.role .params size s₀.buf)
    (fuel : Nat) :
    Triple (fun s => s = s₀) (readParameters conn fuel)
      (fun _ s => ∃ s₁, ParametersRead conn s₀ s₁ ∧
        s = ⟨inputBuffer conn.role s₁.buf, s₁.world⟩) (ReaderFault conn ⟨.idle, s₀⟩) := by
  have hr₀ : Reached conn ⟨.idle, s₀⟩ .idle s₀ := ⟨.refl, h₀.openReader⟩
  refine Triple.bind (((underflow_steps fuel).callee_open.ofStream (fun _ _ hs => hs)
    (fun s hs => ⟨_, hs.1.reached⟩) fuel rfl (by decide)).pre fun s hs => ?_)
    fun p => ?_
  · subst hs
    exact ⟨⟨hr₀, fun e => absurd (h₀.open_.symm.trans e) Bool.false_ne_true⟩, h₀.open_⟩
  · rcases p with ⟨nv, is⟩
    refine Triple.ite (fun _ => Triple.throw fun s hs => hs.1) fun heof => ?_
    have hbad : is.bad = false := Bool.eq_false_iff.mpr fun h => heof (.inr h)
    rintro ⟨b₁, w₁⟩ ⟨hr, hend⟩
    have hat := hend hbad
    have htype : b₁.type_ = .params := by
      rcases hr.type with e | ⟨-, e, -⟩
      · exact e.trans h₀.type
      · cases h₀.type.symm.trans e
    have hp : ParametersRead conn s₀ ⟨b₁, w₁⟩ := ⟨hat, htype, hat.eof.resolve_right fun e =>
      by cases htype.symm.trans e⟩
    have ho := hr.openReader
    -- A responder or a filter goes on with its standard input.
    by_cases hrole : conn.role = .responder ∨ conn.role = .filter
    · have hin : inputBuffer conn.role b₁ = b₁.reset .«in» := by rw [inputBuffer, if_pos hrole]
      have hoin := hp.openReader
      dsimp only at hoin
      rw [hin] at hoin
      rw [if_pos hrole, resetReader]
      rw [Prog.bind_ok (m := (Prog.get >>= _)) (a := ()) (by
        rw [Prog.bind_ok (Prog.get_run _), Prog.bind_ok (Prog.assert_true
          ⟨ho.reader, Bool.eq_false_iff.mp ho.not_isClosed⟩ _), Prog.bind_ok (modifyBuf_run _),
          assertInvariantOk_run (hoin.invariantOk (Nat.zero_le _) hat.returned.ordered)])]
      exact ⟨_, hp, by rw [hin]⟩
    · rw [if_neg hrole]
      exact ⟨_, hp, by rw [inputBuffer, if_neg hrole]⟩

end readParameters

/-! ### The input stream -/

/-- Closing an open input buffer: the assertion at its end fails if the buffer still has to read
more content than it may hold. -/
theorem close_reader (conn : ConnectionInfo) {b : ServerStreambuf} (inbuf : ServerStreambuf)
    (w : World) (ho : OpenReader conn.role b) :
    close conn inbuf ⟨b, w⟩ =
      (if b.unreadContentLength_ ≤ b.bufferSize_ then .ok () else .error .abort,
        ⟨b.setgNull.setpNull, w⟩) := by
  set b' := b.setgNull.setpNull
  have hr : b'.isReader = true := ho.reader
  have hc : b'.isClosed = true := by rw [ServerStreambuf.isClosed, hr]; rfl
  have hi : b'.InvariantOk conn.role ↔ b.unreadContentLength_ ≤ b.bufferSize_ := by
    simp only [ServerStreambuf.InvariantOk, hr, hc]
    refine ⟨fun h => h.2.2.1.1, fun h => ⟨fun _ => ho.end_le, ⟨ho.size_ge, ho.size_le,
      ho.size_mod⟩, ⟨h, ho.content⟩, ⟨?_, ho.padding⟩, fun _ => ho.readerOk,
      .inl ⟨trivial, .inl trivial, rfl, rfl⟩, .inl trivial, .inr (.inl trivial)⟩⟩
    exact Nat.le_trans ho.padding (Nat.le_trans (by decide) ho.size_ge)
  rw [close, Prog.bind_ok (Prog.get_run _)]
  dsimp only
  rw [ho.not_isClosed, if_neg Bool.false_ne_true, ho.reader, if_neg fun h => h rfl, closeAreas,
    Prog.bind_ok (modifyBuf_run _), Prog.bind_ok (Prog.get_run _),
    Prog.bind_ok (Prog.assert_true hc _), assertInvariantOk, Prog.bind_ok (Prog.get_run _),
    Prog.assert_run]
  by_cases hu : b.unreadContentLength_ ≤ b.bufferSize_
  · rw [if_pos hu, if_pos (hi.mpr hu)]
  · rw [if_neg hu, if_neg fun h => hu (hi.mp h)]

/-- What the constructor of the input stream makes of the reading of the parameters: an exception
destroys the buffer, which closes it. -/
def settled : Except (Fault Exception) (NamesValues × Istream) × State →
    Except (Fault Exception) (NamesValues × ServerIstream) × World
  | (.ok p, s) => (.ok (p.1, ⟨p.2, s.buf⟩), s.world)
  | (.error (.exc e), s) => (if s.buf.unreadContentLength_ ≤ s.buf.bufferSize_ then
      .error (.exc e) else .error .abort, s.world)
  | (.error x, s) => (.error x, s.world)

/-- The world is not changed by how the constructor ends. -/
theorem settled_world (p : Except (Fault Exception) (NamesValues × Istream) × State) :
    (settled p).2 = p.2.world := by
  obtain ⟨(_ | _ | _ | _) | _, s⟩ := p <;> rfl

/-- A stream that has been made has the buffer of the reading. -/
theorem settled_eq_ok {p : Except (Fault Exception) (NamesValues × Istream) × State}
    {nv : NamesValues} {is : ServerIstream} {w : World} (h : settled p = (.ok (nv, is), w)) :
    ∃ s, p = (.ok (nv, is.ios), s) ∧ is.streambuf_ = s.buf ∧ w = s.world := by
  obtain ⟨x | p, s⟩ := p
  · cases x with
    | exc e =>
        obtain ⟨h, -⟩ := Prod.mk.inj h
        split at h <;> cases h
    | _ => cases h
  · cases h
    exact ⟨s, rfl, rfl, rfl⟩

/-- **The constructor of the input stream** reads the parameters into a fresh buffer. -/
theorem construct_istream_settled (conn : ConnectionInfo) (uninit : Uninit) (w : World) :
    ∃ b, FreshReader conn.role .params inBufferSize b ∧
      ∀ fuel, ServerIstream.construct conn uninit fuel w =
        settled (readParameters conn fuel ⟨b, w⟩) := by
  obtain ⟨b, hb, hfresh⟩ := construct_reader conn uninit.inBuffer inBufferSize w
    (by decide) (by decide)
  refine ⟨b, hfresh, fun fuel => ?_⟩
  rw [ServerIstream.construct, Prog.bind_ok hb, ServerIstream.constructBody]
  have hsteps := readParameters_steps ⟨b, w⟩ hfresh fuel _ rfl
  rcases e : readParameters conn fuel ⟨b, w⟩ with ⟨x | p, s⟩
  · cases x with
    | exc x =>
        rw [e] at hsteps
        have hclose := close_reader conn s.buf s.world hsteps.openReader
        rw [readOrClose, Prog.bind_ok (Prog.attempt_exc e)]
        dsimp only [settled]
        rw [Prog.bind_ok (Prog.get_run _)]
        by_cases hu : s.buf.unreadContentLength_ ≤ s.buf.bufferSize_
        · rw [if_pos hu] at hclose
          rw [if_pos hu, Prog.bind_ok (Prog.attempt_ok hclose), Prog.throw_run]
        · rw [if_neg hu] at hclose
          rw [if_neg hu, Prog.bind_error (Prog.attempt_abort hclose)]
    | _ => simp only [readOrClose, Prog.bind_run, Prog.attempt, e, settled]
  · rw [readOrClose, Prog.bind_ok (Prog.attempt_ok e)]
    rfl

/-! ### The connection -/

/-- What is known of a connection that `accept()` has just returned.  `s₀` is the state in which
it began to read the parameters, `s₁` that in which it had read them. -/
structure Accepted (size : Nat) (s₀ s₁ : State) (c : Connection) : Prop where
  role : c.role_ = .responder ∨ c.role_ = .authorizer ∨ c.role_ = .filter
  id_pos : c.requestId_ ≠ 0
  id_lt : c.requestId_ < 65536
  fresh : FreshReader c.role_ .params size s₀.buf
  read : ParametersRead c.info s₀ s₁
  in_ : c.in_.streambuf_ = inputBuffer c.role_ s₁.buf
  world : c.world = s₁.world
  out : FreshWriter .out c.out_.streambuf_
  err : FreshWriter .err c.err_.streambuf_
  good : c.out_.bad = false ∧ c.err_.bad = false
  status : c.applicationStatus_ = 0
  parameters : ∃ fuel p, readParameters c.info fuel s₀ =
    (.ok p, ⟨c.in_.streambuf_, c.world⟩)

/-- A call of the transport changes the transport and nothing else. -/
theorem World.onIo_run {α : Type} {m : Prog Io Exception α} {w : World}
    {r : Except (Fault Exception) α} {io : Io} (h : m w.io = (r, io)) :
    World.onIo m w = (r, w.setIo io) := Prog.zoom_run h

/-- A refusal sends its record and throws. -/
theorem refuse_run {α : Type} {w : World} (h : w.io.sends = []) (record : List UInt8)
    (e : Exception) : (refuse record e : World.M α) w = (.error (.exc e), w.send record) := by
  rw [refuse, Prog.bind_ok (World.onIo_run (Io.writeAll_run h record)), Prog.throw_run, World.send]

/-- What a call of the transport returns, it returns in the world too. -/
theorem onIo_ok {α : Type} {m : Prog Io Exception α} {w w' : World} {a : α}
    (h : World.onIo m w = (.ok a, w')) : m w.io = (.ok a, w'.io) ∧ w' = w.setIo w'.io := by
  rw [World.onIo, Prog.zoom] at h
  rcases e : m w.io with ⟨r, io⟩
  simp only [e] at h
  cases h
  exact ⟨rfl, rfl⟩

/-- The header is made of the eight bytes of one read; its version is 1. -/
theorem readHeader_ok {w w' : World} {h : Header} (hrun : readHeader w = (.ok h, w')) :
    ∃ bytes, bytes.length = 8 ∧ h = Header.ofBytes bytes ∧ h.protocolVersion = 1 ∧
      Io.read 8 w.io = (.ok bytes, w'.io) ∧ w' = w.setIo w'.io := by
  obtain ⟨bytes, w₁, hread, hrun⟩ := Prog.bind_eq_ok hrun
  obtain ⟨hread, hw⟩ := onIo_ok hread
  by_cases hlen : bytes.length ≠ Header.size
  · rw [if_pos hlen] at hrun
    cases hrun
  · rw [if_neg hlen] at hrun
    obtain ⟨_, w₂, hv, hrun⟩ := Prog.bind_eq_ok hrun
    rw [Header.checkValidity] at hv
    by_cases hver : (Header.ofBytes bytes).protocolVersion ≠ 1
    · rw [if_pos hver] at hv
      cases hv
    · rw [if_neg hver] at hv
      cases hv
      cases hrun
      exact ⟨bytes, not_not.mp hlen, rfl, not_not.mp hver, hread, hw⟩

/-- The body is made of the eight bytes of one read. -/
theorem readBeginRequestBody_ok {w w' : World} {b : BeginRequestBody}
    (hrun : readBeginRequestBody w = (.ok b, w')) :
    ∃ bytes, bytes.length = 8 ∧ b = BeginRequestBody.ofBytes bytes ∧
      Io.read 8 w.io = (.ok bytes, w'.io) ∧ w' = w.setIo w'.io := by
  obtain ⟨bytes, w₁, hread, hrun⟩ := Prog.bind_eq_ok hrun
  obtain ⟨hread, hw⟩ := onIo_ok hread
  by_cases hlen : bytes.length ≠ BeginRequestBody.size
  · rw [if_pos hlen] at hrun
    cases hrun
  · rw [if_neg hlen] at hrun
    cases hrun
    exact ⟨bytes, not_not.mp hlen, rfl, hread, hw⟩

/-- A stream that has been made has read the parameters from a fresh buffer. -/
theorem construct_istream_ok {conn : ConnectionInfo} {uninit : Uninit} {fuel : Nat}
    {w w' : World} {nv : NamesValues} {is : ServerIstream}
    (h : ServerIstream.construct conn uninit fuel w = (.ok (nv, is), w')) :
    ∃ s₀ s₁ : State, s₀.world = w ∧ FreshReader conn.role .params inBufferSize s₀.buf ∧
      ParametersRead conn s₀ s₁ ∧ is.streambuf_ = inputBuffer conn.role s₁.buf ∧
      w' = s₁.world ∧ ∃ p, readParameters conn fuel s₀ = (.ok p, ⟨is.streambuf_, w'⟩) := by
  obtain ⟨b, hfresh, hsettled⟩ := construct_istream_settled conn uninit w
  obtain ⟨s, hread, hin, rfl⟩ := settled_eq_ok ((hsettled fuel).symm.trans h)
  obtain ⟨s₁, hp, rfl⟩ := (readParameters_steps ⟨b, w⟩ hfresh fuel).of_ok rfl hread
  exact ⟨⟨b, w⟩, s₁, rfl, hfresh, hp, hin, rfl, _, by rw [hread, hin]⟩

/-- The constructor of the connection, by those of its streams. -/
theorem Connection.construct_run {uninit : Uninit} {fuel : Nat} {role : Role} {id : Nat}
    {keep : Bool} {conn : ConnectionInfo} {nv : NamesValues} {is : ServerIstream} {w v : World}
    {out err : ServerStreambuf} (hconn : conn = { role, requestId := id, stack := uninit.stack })
    (hin : ServerIstream.construct conn uninit fuel w = (.ok (nv, is), v))
    (hout : ServerStreambuf.construct conn uninit.outBuffer outBufferSize .out v = (.ok out, v))
    (herr : ServerStreambuf.construct conn uninit.errBuffer errBufferSize .err v = (.ok err, v)) :
    Connection.construct uninit fuel role id keep w =
      (.ok (Parts.connection uninit role id keep ⟨nv, is, out, err⟩ v), v) := by
  subst hconn
  have hparts : constructParts uninit fuel role id w = (.ok ⟨nv, is, out, err⟩, v) := by
    rw [constructParts, Prog.bind_ok hin]
    dsimp only
    rw [Prog.bind_ok hout, Prog.bind_ok herr, Prog.pure_run]
  rw [Connection.construct, Prog.bind_ok hparts, Prog.bind_ok (Prog.get_run _), Prog.pure_run]

/-- A begin-request record that `accept()` goes on from, and how it has been read. -/
structure Begun (w : World) (h : Header) (b : BeginRequestBody) (w' : World)
    (header body : List UInt8) (io : Io) : Prop where
  header_length : header.length = 8
  body_length : body.length = 8
  header_eq : h = Header.ofBytes header
  body_eq : b = BeginRequestBody.ofBytes body
  notManagement : ¬ h.isManagementRecord
  content : h.contentLength = 8
  role : b.role = .responder ∨ b.role = .authorizer ∨ b.role = .filter
  read_header : Io.read 8 w.io = (.ok header, io)
  read_body : Io.read 8 io = (.ok body, w'.io)
  world : w' = w.setIo w'.io

/-- A first record that is gone on from is that of a request. -/
theorem readBeginRequest_begun {w w' : World} {h : Header} {b : BeginRequestBody}
    (hrun : readBeginRequest w = (.ok (h, b), w')) :
    ∃ header body io, Begun w h b w' header body io := by
  obtain ⟨h', w₁, hheader, hrun⟩ := Prog.bind_eq_ok hrun
  obtain ⟨header, hlen, rfl, -, hread, hw₁⟩ := readHeader_ok hheader
  by_cases hok : (Header.ofBytes header).recordType = .beginRequest ∧
      ¬ (Header.ofBytes header).isManagementRecord ∧
      (Header.ofBytes header).contentLength = BeginRequestBody.size
  · rw [if_pos hok] at hrun
    obtain ⟨b', w₂, hbody, hrun⟩ := Prog.bind_eq_ok hrun
    obtain ⟨body, hlen', rfl, hread', hw₂⟩ := readBeginRequestBody_ok hbody
    by_cases hrole : (BeginRequestBody.ofBytes body).role = .responder ∨
        (BeginRequestBody.ofBytes body).role = .authorizer ∨
        (BeginRequestBody.ofBytes body).role = .filter
    · rw [if_pos hrole] at hrun
      cases hrun
      exact ⟨header, body, w₁.io, hlen, hlen', rfl, rfl, hok.2.1, hok.2.2, hrole, hread, hread',
        by rw [hw₂, hw₁]; rfl⟩
    · rw [if_neg hrole] at hrun
      obtain ⟨_, _, -, hrun⟩ := Prog.bind_eq_ok hrun
      obtain ⟨_, _, -, hrun⟩ := Prog.bind_eq_ok hrun
      cases hrun
  · rw [if_neg hok] at hrun
    obtain ⟨_, _, -, hrun⟩ := Prog.bind_eq_ok hrun
    obtain ⟨_, _, -, hrun⟩ := Prog.bind_eq_ok hrun
    cases hrun

/-- **What `accept()` returns.** -/
theorem accept_ok {uninit : Uninit} {fuel : Nat} {w w' : World} {c : Connection}
    (h : accept uninit fuel w = (.ok c, w')) :
    ∃ s₀ s₁, Accepted inBufferSize s₀ s₁ c ∧ w' = c.world ∧ s₀.world = w.setIo s₀.world.io ∧
      ∃ header body io, header.length = 8 ∧ body.length = 8 ∧
        Io.read 8 w.io = (.ok header, io) ∧ Io.read 8 io = (.ok body, s₀.world.io) ∧
        (Header.ofBytes header).requestId = c.requestId_ ∧
        (BeginRequestBody.ofBytes body).role = c.role_ := by
  obtain ⟨⟨hd, b⟩, w₂, hbegun, h⟩ := Prog.bind_eq_ok h
  obtain ⟨header, body, io, hb⟩ := readBeginRequest_begun hbegun
  obtain ⟨p, w₃, hparts, h⟩ := Prog.bind_eq_ok h
  obtain ⟨⟨nv, is⟩, w₄, his, hparts⟩ := Prog.bind_eq_ok hparts
  obtain ⟨s₀, s₁, hs₀, hfresh, hp, hin, rfl, hparameters⟩ := construct_istream_ok his
  obtain ⟨bo, wo, hbo, hparts⟩ := Prog.bind_eq_ok hparts
  obtain ⟨be, we, hbe, hparts⟩ := Prog.bind_eq_ok hparts
  obtain ⟨hwo, rfl⟩ := construct_writer_ok (by decide) (by decide) (.inl rfl) hbo
  obtain ⟨hwe, rfl⟩ := construct_writer_ok (by decide) (by decide) (.inr rfl) hbe
  cases hparts
  cases h
  subst hs₀
  refine ⟨s₀, s₁, ⟨hb.role, ?_, ?_, hfresh, hp, hin, rfl, hwo, hwe, ⟨rfl, rfl⟩, rfl, _,
    hparameters⟩, rfl, hb.world, header, body, io, hb.header_length, hb.body_length,
    hb.read_header, hb.read_body, congrArg Header.requestId hb.header_eq.symm,
    congrArg BeginRequestBody.role hb.body_eq.symm⟩
  · exact fun h0 => hb.notManagement (beq_iff_eq.mpr h0)
  · exact Header.requestId_lt hd

/-- What is known of the connection that `accept()` has returned. -/
theorem accept_accepted {uninit : Uninit} {fuel : Nat} {w w' : World} {c : Connection}
    (hsends : w.io.sends = []) (h : accept uninit fuel w = (.ok c, w')) :
    ∃ s₀ s₁, Accepted inBufferSize s₀ s₁ c ∧ s₀.world.io.sends = [] := by
  obtain ⟨s₀, s₁, hacc, -, -, header, body, io, -, -, hread, hread', -, -⟩ := accept_ok h
  exact ⟨s₀, s₁, hacc, by rw [(Io.read_sends hread').1, (Io.read_sends hread).1, hsends]⟩

end Fcgi
