import Fcgi.Connection.RefusedClose

/-!
# Connection — replacing a buffer

`pubsetbuf()` of the buffer of one of the three streams, in the connections that calls of the
application and of `pubsetbuf()` lead to (`ReachableSetbuf`).

**`replacedSafely_iff_canReplace`**: with a size that `setbuf()` admits, a call loses no data and
opens no closed buffer if and only if it throws, or the buffer is open, nothing is pending in it,
and what a reader has still to read of a record fits into the new one (`CanReplace`).

Such calls change the size of a buffer, and `setbuf()` asserts the invariant at its end, so what is
known of the buffers in every such connection does not speak of their sizes (`ReaderKept`,
`WriteOnly`, `Buffers`).  The buffer of a reader and that of a writer are looked at separately
(`ReaderKept.canReplace_iff`, `WriterOk.canReplace_iff`).
-/

namespace Fcgi
open Lib

/-- The three streams of a connection. -/
inductive StreamName where
  | «in»
  | out
  | err
  deriving DecidableEq, Repr

namespace Connection

/-- The state of the buffer of a stream. -/
def streamState (c : Connection) : StreamName → State
  | .«in» => c.inState
  | .out => c.outState
  | .err => c.errState

/-- `pubsetbuf(buffer, size)` of the buffer of a stream. -/
def pubsetbuf (buffer : Mem) (size : Nat) : StreamName → Connection.M Unit
  | .«in» => onIn fun conn => setbuf conn buffer size
  | .out => onOut fun conn => setbuf conn buffer size
  | .err => onErr fun conn => setbuf conn buffer size

end Connection

/-- The connections that `accept()` and the calls of an application lead to, those of
`pubsetbuf()` included. -/
inductive ReachableSetbuf : Connection → Prop
  | accept {uninit : Uninit} {fuel : Nat} {w w' : World} {c : Connection}
      (h : accept uninit fuel w = (.ok c, w')) : ReachableSetbuf c
  | call {fuel : Nat} {op : Op} {r : Except Exception Unit} {c c' : Connection}
      (h : ReachableSetbuf c) (hrun : Prog.attempt (op.exec fuel) c = (.ok r, c')) :
      ReachableSetbuf c'
  | pubsetbuf {buffer : Mem} {size : Nat} {stream : StreamName} {r : Except Exception Unit}
      {c c' : Connection} (h : ReachableSetbuf c)
      (hrun : Prog.attempt (Connection.pubsetbuf buffer size stream) c = (.ok r, c')) :
      ReachableSetbuf c'

/-! ### The buffers between two calls -/

/-- What is known of an input buffer, open or closed. -/
structure ReaderKept (role : Role) (b : ServerStreambuf) : Prop where
  reader : b.isReader = true
  readerOk : ReaderOk role b.type_
  content : b.unreadContentLength_ ≤ 65535
  padding : b.unreadPaddingLength_ ≤ 255

/-- An open reader is such a buffer. -/
theorem OpenReader.kept {role : Role} {b : ServerStreambuf} (h : OpenReader role b) :
    ReaderKept role b := ⟨h.reader, h.readerOk, h.content, h.padding⟩

/-- What is known of the three buffers. -/
structure Buffers (c : Connection) : Prop where
  members : Members c
  in_ : ReaderKept c.role_ c.in_.streambuf_
  out : WriteOnly c.out_.streambuf_
  err : WriteOnly c.err_.streambuf_

section

variable {c c' : Connection}

theorem Alive.buffers (h : Alive c) (ho : OpenReader c.role_ c.in_.streambuf_) : Buffers c :=
  ⟨h.members, ho.kept, h.out, h.err⟩

/-- Every change of the connection keeps it. -/
theorem ConnectionStep.buffers (hs : ConnectionStep c c') (h : Buffers c) : Buffers c' := by
  have hm := hs.members h.members
  cases hs with
  | read ho hr => exact ⟨hm, hr.openReader.kept, h.out, h.err⟩
  | out hr => exact ⟨hm, h.in_, hr.writesOnly.unread h.out, h.err⟩
  | outError he => exact ⟨hm, h.in_, he.writesOnly.unread h.out, h.err⟩
  | err hr => exact ⟨hm, h.in_, h.out, hr.writesOnly.unread h.err⟩
  | errError he => exact ⟨hm, h.in_, h.out, he.writesOnly.unread h.err⟩
  | askErr => exact ⟨hm, h.in_, h.out, ⟨h.err.getArea, h.err.content, h.err.padding⟩⟩
  | shutErr => exact ⟨hm, h.in_, h.out, ⟨rfl, h.err.content, h.err.padding⟩⟩
  | askOut => exact ⟨hm, h.in_, ⟨h.out.getArea, h.out.content, h.out.padding⟩, h.err⟩
  | shutOut => exact ⟨hm, h.in_, ⟨rfl, h.out.content, h.out.padding⟩, h.err⟩
  | shutIn ho => exact ⟨hm, ⟨ho.reader, ho.readerOk, ho.content, ho.padding⟩, h.out, h.err⟩
  | _ => exact ⟨hm, h.in_, h.out, h.err⟩

/-! ### What `setbuf()` does -/

section setbuf

variable {conn : ConnectionInfo} {t : StreamType} {b : ServerStreambuf} {buffer : Mem} {size : Nat}

/-- The buffer of a reader with other memory has nothing in it. -/
theorem ReaderKept.replaced_isReader {role : Role} (h : ReaderKept role b) :
    b.replaced buffer size =
      (((b.setMemory buffer size (size - size % 8)).setg 0 0 0).setBufferEnd 0).setpNull := by
  rw [ServerStreambuf.replaced, if_pos h.reader]

/-- A replaced input buffer is open and empty. -/
theorem ReaderKept.replaced {role : Role} (h : ReaderKept role b) (h₁ : 2048 ≤ size)
    (h₂ : size ≤ 65528) : OpenReader role (b.replaced buffer size) := by
  rw [h.replaced_isReader]
  exact ⟨h.reader, h.readerOk, ⟨0, 0, 0, rfl, Nat.le_refl _, Nat.le_refl _, Nat.le_refl _,
    Nat.le_refl _⟩, rfl, Nat.zero_le _, show 2048 ≤ size - size % 8 by omega,
    show size - size % 8 ≤ 65528 by omega, show (size - size % 8) % 8 = 0 by omega,
    show size - size % 8 ≤ size by omega, h.content, h.padding⟩

/-- Its invariant: the content still to be read fits in. -/
theorem ReaderKept.replaced_invariantOk {role : Role} (h : ReaderKept role b) (h₁ : 2048 ≤ size)
    (h₂ : size ≤ 65528) : (b.replaced buffer size).InvariantOk role ↔
      b.unreadContentLength_ ≤ size - size % 8 := by
  have ho : OpenReader role (b.replaced buffer size) := h.replaced h₁ h₂
  have hu : (b.replaced buffer size).unreadContentLength_ = b.unreadContentLength_ := by
    rw [h.replaced_isReader]
    rfl
  have hs : (b.replaced buffer size).bufferSize_ = size - size % 8 := by
    rw [h.replaced_isReader]
    rfl
  rw [← hu, ← hs]
  refine ⟨fun hi => hi.2.2.1.1, fun hle => ho.invariantOk hle ?_⟩
  rw [h.replaced_isReader]
  exact Nat.le_refl 0

theorem WriterOk.replaced_eq (h : WriterOk t b) : b.replaced buffer size =
    (b.setMemory buffer size (size - size % 8)).setgNull.setp 8 (size - size % 8 - 1) := by
  rw [ServerStreambuf.replaced, if_neg (Bool.eq_false_iff.mp h.isReader)]

/-- A replaced output buffer is open and empty. -/
theorem WriterOk.replaced (h : WriterOk t b) (h₁ : 2048 ≤ size) (h₂ : size ≤ 65528) :
    WriterOk t (b.replaced buffer size) := by
  rw [h.replaced_eq]
  exact ⟨h.type, h.output, .inr ⟨8, rfl, Nat.le_refl _, show 8 ≤ size - size % 8 by omega⟩,
    show 2048 ≤ size - size % 8 by omega, show size - size % 8 ≤ 65528 by omega,
    show (size - size % 8) % 8 = 0 by omega, show size - size % 8 ≤ size by omega⟩

theorem WriteOnly.replaced (h : WriterOk t b) (hu : WriteOnly b) :
    WriteOnly (b.replaced buffer size) := by
  rw [h.replaced_eq]
  exact ⟨rfl, hu.content, hu.padding⟩

/-- A call replaces the buffer, or throws and leaves it as it was, or stops the process. -/
theorem setbuf_cases (conn : ConnectionInfo) (buffer : Mem) (size : Nat) (b : ServerStreambuf)
    (w : World) :
    (2048 ≤ size ∧ size ≤ 65528) ∧
      setbuf conn buffer size ⟨b, w⟩ = (.ok (), ⟨b.replaced buffer size, w⟩) ∨
    (∃ x, setbuf conn buffer size ⟨b, w⟩ = (.error x, ⟨b, w⟩)) ∨
    ∃ s, setbuf conn buffer size ⟨b, w⟩ = (.error .abort, s) := by
  by_cases hsize : 2048 ≤ size ∧ size ≤ 65528
  · by_cases hlate : b.StartsLate
    · exact .inr (.inl ⟨_, setbuf_throw hsize.1 hsize.2 hlate⟩)
    · rw [setbuf_run hsize.1 hsize.2 hlate]
      by_cases hi : (b.replaced buffer size).InvariantOk conn.role
      · exact .inl ⟨hsize, assertInvariantOk_run hi⟩
      · exact .inr (.inr ⟨_, assertInvariantOk_abort hi⟩)
  · refine .inr (.inl ⟨.abort, ?_⟩)
    rw [setbuf]
    exact Prog.bind_error (by rw [Prog.assert_run, if_neg hsize])

end setbuf

/-- What `pubsetbuf()` does to a connection, if it does not stop the process. -/
theorem Connection.pubsetbuf_buffers {buffer : Mem} {size : Nat} {stream : StreamName}
    {r : Except Exception Unit} (h : Buffers c)
    (hrun : Prog.attempt (Connection.pubsetbuf buffer size stream) c = (.ok r, c')) :
    Buffers c' := by
  -- The buffer is replaced, the call throws, or an assertion fails.
  have hsteps : Triple (fun d => d = c) (Connection.pubsetbuf buffer size stream)
      (fun _ d => Buffers d) (fun x d => Buffers d ∨ x = .abort) := by
    rintro d rfl
    cases stream with
    | «in» =>
        rcases setbuf_cases d.info buffer size d.in_.streambuf_ d.world with
          ⟨⟨h₁, h₂⟩, e⟩ | ⟨x, e⟩ | ⟨s, e⟩ <;>
          rw [Connection.pubsetbuf, Connection.onIn_run (m := fun conn => setbuf conn _ _) e]
        · have ho : OpenReader d.role_ (d.in_.streambuf_.replaced buffer size) :=
            h.in_.replaced h₁ h₂
          exact ⟨⟨h.members.id, .inl ho, h.members.out, h.members.err⟩, ho.kept, h.out, h.err⟩
        · exact .inl h
        · exact .inr rfl
    | out =>
        rcases setbuf_cases d.info buffer size d.out_.streambuf_ d.world with
          ⟨⟨h₁, h₂⟩, e⟩ | ⟨x, e⟩ | ⟨s, e⟩ <;>
          rw [Connection.pubsetbuf, Connection.onOut_run (m := fun conn => setbuf conn _ _) e]
        · exact ⟨⟨h.members.id, h.members.in_, h.members.out.replaced h₁ h₂, h.members.err⟩,
            h.in_, h.out.replaced h.members.out, h.err⟩
        · exact .inl h
        · exact .inr rfl
    | err =>
        rcases setbuf_cases d.info buffer size d.err_.streambuf_ d.world with
          ⟨⟨h₁, h₂⟩, e⟩ | ⟨x, e⟩ | ⟨s, e⟩ <;>
          rw [Connection.pubsetbuf, Connection.onErr_run (m := fun conn => setbuf conn _ _) e]
        · exact ⟨⟨h.members.id, h.members.in_, h.members.out, h.members.err.replaced h₁ h₂⟩,
            h.in_, h.out, h.err.replaced h.members.err⟩
        · exact .inl h
        · exact .inr rfl
  rcases hsteps.of_attempt rfl hrun with ⟨_, hb⟩ | ⟨_, hb⟩
  · exact hb
  · exact hb.resolve_right fun he => by cases he

/-- What is known of the buffers holds in every such connection. -/
theorem ReachableSetbuf.buffers (h : ReachableSetbuf c) : Buffers c := by
  induction h with
  | accept h =>
      obtain ⟨_, _, hacc, -⟩ := accept_ok h
      exact hacc.alive.buffers hacc.reached.openReader
  | call _ hrun ih =>
      exact (Op.attempt_steps ih.members hrun).invariant (fun hs => hs.buffers) ih
  | pubsetbuf _ hrun ih => exact Connection.pubsetbuf_buffers ih hrun

end

/-! ### What is lost -/

/-- No data are pending: all delivered characters are consumed and nothing received is left to
process; all characters accepted are sent. -/
def ServerStreambuf.NothingPending (b : ServerStreambuf) : Prop :=
  if b.isReader then ¬ b.gptr < b.egptr ∧ ¬ b.gptr < b.bufferEnd_ else b.pptr = b.pbase

instance (b : ServerStreambuf) : Decidable b.NothingPending := by
  unfold ServerStreambuf.NothingPending; infer_instance

/-- A call of `pubsetbuf()` has refused and changed nothing, or has succeeded with no data
pending and left a closed stream closed. -/
def ReplacedSafely (s : State) (r : Except (Fault Exception) Unit × State) : Prop :=
  r.1 = .error (.exc (.fcgi "cannot set FastCGI buffer (there are pending data)")) ∧ r.2 = s ∨
  r.1 = .ok () ∧ s.buf.NothingPending ∧ (s.buf.isClosed = true → r.2.buf.isClosed = true)

section

variable {c : Connection} {t : StreamType} {b : ServerStreambuf} {size : Nat}

/-- What `setbuf()` does to an open or closed buffer, whose areas are open afterwards. -/
theorem replacedSafely_iff {conn : ConnectionInfo} {w : World} {buffer : Mem} (h₁ : 2048 ≤ size)
    (h₂ : size ≤ 65528) (hopen : (b.replaced buffer size).isClosed = false) :
    ReplacedSafely ⟨b, w⟩ (setbuf conn buffer size ⟨b, w⟩) ↔
      b.StartsLate ∨ b.isClosed = false ∧ b.NothingPending ∧
        (b.replaced buffer size).InvariantOk conn.role := by
  by_cases hlate : b.StartsLate
  · rw [setbuf_throw h₁ h₂ hlate]
    exact iff_of_true (.inl ⟨rfl, rfl⟩) (.inl hlate)
  rw [setbuf_run h₁ h₂ hlate]
  by_cases hi : (b.replaced buffer size).InvariantOk conn.role
  · rw [assertInvariantOk_run hi, ReplacedSafely]
    simp only [hlate, hi, reduceCtorEq, false_and, false_or, true_and, hopen,
      Bool.false_eq_true, imp_false, Bool.not_eq_true, and_comm]
  · rw [assertInvariantOk_abort hi]
    refine iff_of_false ?_ fun h => h.elim hlate fun h => hi h.2.2
    rintro (⟨h, -⟩ | ⟨h, -⟩) <;> cases h

/-- The condition under which an input buffer can be replaced, and an output buffer. -/
def CanReplace (b : ServerStreambuf) (size : Nat) : Prop :=
  b.StartsLate ∨ b.isClosed = false ∧ b.NothingPending ∧
    (b.isReader = true → b.unreadContentLength_ ≤ size - size % 8)

instance (b : ServerStreambuf) (size : Nat) : Decidable (CanReplace b size) := by
  unfold CanReplace; infer_instance

/-- When the buffer of a reader is replaced safely. -/
theorem ReaderKept.canReplace_iff {conn : ConnectionInfo} {w : World} {buffer : Mem}
    (h : ReaderKept conn.role b) (h₁ : 2048 ≤ size) (h₂ : size ≤ 65528) :
    ReplacedSafely ⟨b, w⟩ (setbuf conn buffer size ⟨b, w⟩) ↔ CanReplace b size := by
  rw [replacedSafely_iff h₁ h₂ (h.replaced h₁ h₂).not_isClosed,
    h.replaced_invariantOk h₁ h₂, CanReplace]
  simp only [h.reader, forall_const]

theorem WriterOk.canReplace_iff {conn : ConnectionInfo} {w : World} {buffer : Mem}
    (h : WriterOk t b) (hu : WriteOnly b) (h₁ : 2048 ≤ size) (h₂ : size ≤ 65528) :
    ReplacedSafely ⟨b, w⟩ (setbuf conn buffer size ⟨b, w⟩) ↔ CanReplace b size := by
  have hok : WriterOk t (b.replaced buffer size) := h.replaced h₁ h₂
  have harea : (b.replaced buffer size).putArea =
      some ⟨8, 8, (b.replaced buffer size).bufferSize_ - 1⟩ := by
    rw [h.replaced_eq]
    rfl
  have hopen : (b.replaced buffer size).isClosed = false :=
    Bool.eq_false_iff.mpr fun hc => by rw [hok.isClosed_iff, harea] at hc; cases hc
  have hi : (b.replaced buffer size).InvariantOk conn.role :=
    hok.invariantOk (hu.replaced h) harea
  rw [replacedSafely_iff h₁ h₂ hopen, CanReplace]
  simp only [hi, h.isReader, Bool.false_eq_true, false_imp_iff]

/-- **Replacing a buffer loses nothing** if and only if it is refused, for an area that does not
begin where the first one does, or the stream is open, no data are pending and the content that
an input buffer has still to read fits into the new one. -/
theorem replacedSafely_iff_canReplace (h : ReachableSetbuf c) (stream : StreamName) (buffer : Mem)
    (h₁ : 2048 ≤ size) (h₂ : size ≤ 65528) :
    ReplacedSafely (c.streamState stream) (setbuf c.info buffer size (c.streamState stream)) ↔
      CanReplace (c.streamState stream).buf size := by
  have hb := h.buffers
  cases stream with
  | «in» => exact ReaderKept.canReplace_iff hb.in_ h₁ h₂
  | out => exact hb.members.out.canReplace_iff hb.out h₁ h₂
  | err => exact hb.members.err.canReplace_iff hb.err h₁ h₂

end

/-- For a request that has just been accepted: `out()` is empty, and the bytes of stdin that came
with it are not dropped. -/
theorem replacedSafely_accepted : ∃ c, ReachableSetbuf c ∧
    ReplacedSafely c.outState (setbuf c.info (fun _ => 0) 4096 c.outState) ∧
    ReplacedSafely c.inState (setbuf c.info (fun _ => 0) 4096 c.inState) := by
  obtain ⟨c, w', haccept, h⟩ := Prog.of_returns
    (r := accept {} 9 (responderRequest [1, 5, 0, 1, 0, 2, 0, 0, 104, 105]))
    (p := fun (c : Connection) _ =>
      decide (CanReplace c.outState.buf 4096 ∧ CanReplace c.inState.buf 4096))
    (by decide +kernel)
  have hc := ReachableSetbuf.accept haccept
  obtain ⟨hout, hin⟩ := of_decide_eq_true h
  exact ⟨c, hc, (replacedSafely_iff_canReplace hc .out _ (by decide) (by decide)).mpr hout,
    (replacedSafely_iff_canReplace hc .«in» _ (by decide) (by decide)).mpr hin⟩

/-- A character written to `out()` is gone when the buffer is replaced. -/
theorem replaced_unsafely : ¬ ∀ (c : Connection) (stream : StreamName) (buffer : Mem) (size : Nat),
    ReachableSetbuf c → 2048 ≤ size → size ≤ 65528 →
    ReplacedSafely (c.streamState stream) (setbuf c.info buffer size (c.streamState stream)) := by
  intro hall
  have htest : Prog.returns (fun (c₀ : Connection) _ => Prog.returns (fun _ (c : Connection) =>
      decide ((setbuf c.info (fun _ => 0) 4096 c.outState).1 = .ok () ∧
        ¬ c.outState.buf.NothingPending)) (run 9 [.out (.put 65)] c₀))
      (accept {} 9 (responderRequest [])) = true := by decide +kernel
  obtain ⟨c₀, w', haccept, hrun⟩ := Prog.of_returns htest
  obtain ⟨_, c', hput', hc⟩ := Prog.of_returns hrun
  obtain ⟨hok, hpending⟩ := of_decide_eq_true hc
  obtain ⟨r, c, hput, hrest⟩ := Prog.bind_eq_ok hput'
  obtain rfl : c = c' := congrArg Prod.snd hrest
  rcases hall c .out (fun _ => 0) 4096 ((ReachableSetbuf.accept haccept).call hput) (by decide)
    (by decide) with ⟨h, -⟩ | ⟨-, h, -⟩
  · cases hok.symm.trans h
  · exact hpending h

end Fcgi
