import Mathlib.Tactic.Simps.Basic
import Fcgi.Lib.Memory
import Fcgi.Math.Alignment
import Fcgi.Basics.Records
import Fcgi.Net.Descriptor

/-!
# Streambuf — the members of `server_Streambuf`

A pointer into the buffer is its offset from `buffer_`.  The three get pointers are null together
or not at all, and so are the three put pointers: an area is an `Option`.  `capacity` is the
number of bytes behind `buffer_`; a store past it is `Fault.undef`.

A program of a stream buffer runs on `State`: the buffer itself and what it shares with the other
two buffers of the connection (`World`).  Besides the transport that is a `History` of what the
reader has done, which the code does not have and no program here reads: the theorems about runs
speak of it.

Every member has a setter, with an equation for each of the other members (`simps`), so that a state
is known member by member without unfolding it.  `InvariantOk` is `is_invariant_ok()`.
-/

namespace Fcgi
open Lib

/-- `[beg, lim)` with the next position `cur`: `eback`, `gptr`, `egptr` or `pbase`, `pptr`,
`epptr`. -/
structure Area where
  beg : Nat
  cur : Nat
  lim : Nat
  deriving DecidableEq, Repr

/-- `server_Streambuf`, with the areas of its base class. -/
structure ServerStreambuf where
  type_ : StreamType
  isContentMustBeDiscarded_ : Bool := false
  isEndOfStream_ : Bool := false
  isEndRecordsMustBeTransmitted_ : Bool := false
  isPutAreaAtLeastOnceConsumed_ : Bool := false
  buffer_ : Mem
  capacity : Nat
  /-- Null in a writer, where nothing reads it. -/
  bufferEnd_ : Nat := 0
  bufferSize_ : Nat := 0
  unreadContentLength_ : Nat := 0
  unreadPaddingLength_ : Nat := 0
  getArea : Option Area := none
  putArea : Option Area := none

namespace ServerStreambuf

variable (b : ServerStreambuf)

/-- `is_reader()`. -/
def isReader : Bool := b.type_ == .«in» || b.type_ == .params || b.type_ == .data

/-- `is_closed()`. -/
def isClosed : Bool := if b.isReader then b.getArea.isNone else b.putArea.isNone

/-! ### The pointers of the base class `std::streambuf` -/

/-- The beginning of the get area. -/
def eback : Nat := (b.getArea.map Area.beg).getD 0
/-- The next character to be taken. -/
def gptr : Nat := (b.getArea.map Area.cur).getD 0
/-- The end of the get area. -/
def egptr : Nat := (b.getArea.map Area.lim).getD 0
/-- The beginning of the put area. -/
def pbase : Nat := (b.putArea.map Area.beg).getD 0
/-- Where the next character is put. -/
def pptr : Nat := (b.putArea.map Area.cur).getD 0
/-- The end of the put area. -/
def epptr : Nat := (b.putArea.map Area.lim).getD 0

/-! ### Setting the members -/

/-- Changes `type_`. -/
@[simps -fullyApplied]
def setType (type : StreamType) : ServerStreambuf := { b with type_ := type }

/-- Changes `is_content_must_be_discarded_`. -/
@[simps -fullyApplied]
def setContentMustBeDiscarded (value : Bool) : ServerStreambuf :=
  { b with isContentMustBeDiscarded_ := value }

/-- Changes `is_end_of_stream_`. -/
@[simps -fullyApplied]
def setEndOfStream (value : Bool) : ServerStreambuf := { b with isEndOfStream_ := value }

/-- Changes `is_end_records_must_be_transmitted_`. -/
@[simps -fullyApplied]
def setEndRecordsMustBeTransmitted (value : Bool) : ServerStreambuf :=
  { b with isEndRecordsMustBeTransmitted_ := value }

/-- Changes `is_put_area_at_least_once_consumed_`. -/
@[simps -fullyApplied]
def setPutAreaAtLeastOnceConsumed (value : Bool) : ServerStreambuf :=
  { b with isPutAreaAtLeastOnceConsumed_ := value }

/-- Changes the bytes of the buffer. -/
@[simps -fullyApplied]
def setBuffer (buffer : Mem) : ServerStreambuf := { b with buffer_ := buffer }

/-- Another block of memory of `capacity` bytes, of which `size` are used. -/
@[simps -fullyApplied]
def setMemory (buffer : Mem) (capacity size : Nat) : ServerStreambuf :=
  { b with buffer_ := buffer, capacity, bufferSize_ := size }

/-- Changes `buffer_end_`. -/
@[simps -fullyApplied]
def setBufferEnd (bufferEnd : Nat) : ServerStreambuf := { b with bufferEnd_ := bufferEnd }

/-- Changes `unread_content_length_`. -/
@[simps -fullyApplied]
def setUnreadContentLength (length : Nat) : ServerStreambuf :=
  { b with unreadContentLength_ := length }

/-- Changes `unread_padding_length_`. -/
@[simps -fullyApplied]
def setUnreadPaddingLength (length : Nat) : ServerStreambuf :=
  { b with unreadPaddingLength_ := length }

/-- `setg(beg, cur, lim)`. -/
@[simps -fullyApplied]
def setg (beg cur lim : Nat) : ServerStreambuf := { b with getArea := some ⟨beg, cur, lim⟩ }

/-- `setg(nullptr, nullptr, nullptr)`. -/
@[simps -fullyApplied]
def setgNull : ServerStreambuf := { b with getArea := none }

/-- `setp(beg, lim)`. -/
@[simps -fullyApplied]
def setp (beg lim : Nat) : ServerStreambuf := { b with putArea := some ⟨beg, beg, lim⟩ }

/-- `setp(nullptr, nullptr)`. -/
@[simps -fullyApplied]
def setpNull : ServerStreambuf := { b with putArea := none }

/-- `gbump(n)`. -/
@[simps -fullyApplied]
def gbump (n : Nat) : ServerStreambuf :=
  { b with getArea := b.getArea.map fun a => { a with cur := a.cur + n } }

/-- `pbump(n)`. -/
@[simps -fullyApplied]
def pbump (n : Nat) : ServerStreambuf :=
  { b with putArea := b.putArea.map fun a => { a with cur := a.cur + n } }

section pointers

variable {b} {beg cur lim : Nat}

theorem eback_eq (h : b.getArea = some ⟨beg, cur, lim⟩) : b.eback = beg := by rw [eback, h]; rfl
theorem gptr_eq (h : b.getArea = some ⟨beg, cur, lim⟩) : b.gptr = cur := by rw [gptr, h]; rfl
theorem egptr_eq (h : b.getArea = some ⟨beg, cur, lim⟩) : b.egptr = lim := by rw [egptr, h]; rfl
theorem pbase_eq (h : b.putArea = some ⟨beg, cur, lim⟩) : b.pbase = beg := by rw [pbase, h]; rfl
theorem pptr_eq (h : b.putArea = some ⟨beg, cur, lim⟩) : b.pptr = cur := by rw [pptr, h]; rfl
theorem epptr_eq (h : b.putArea = some ⟨beg, cur, lim⟩) : b.epptr = lim := by rw [epptr, h]; rfl

theorem gbump_getArea_eq (h : b.getArea = some ⟨beg, cur, lim⟩) (n : Nat) :
    (b.gbump n).getArea = some ⟨beg, cur + n, lim⟩ := by
  rw [gbump_getArea, h]; rfl

@[simp] theorem gbump_zero : b.gbump 0 = b := by
  cases b with
  | mk => simp only [gbump, Nat.add_zero, Option.map_id']

/-- Two moves of the next character to be taken. -/
theorem gbump_gbump (m n : Nat) : (b.gbump m).gbump n = b.gbump (m + n) := by
  cases b with
  | mk => simp only [gbump, Option.map_map, Function.comp_def, Nat.add_assoc]

/-- Two moves of the place to put characters at. -/
theorem pbump_pbump (m n : Nat) : (b.pbump m).pbump n = b.pbump (m + n) := by
  cases b with
  | mk => simp only [pbump, Option.map_map, Function.comp_def, Nat.add_assoc]

theorem pbump_putArea_eq (h : b.putArea = some ⟨beg, cur, lim⟩) (n : Nat) :
    (b.pbump n).putArea = some ⟨beg, cur + n, lim⟩ := by
  rw [pbump_putArea, h]; rfl

end pointers

/-- `is_invariant_ok()`, in a connection of the given role. -/
def InvariantOk (role : Role) : Prop :=
  (b.isReader → b.bufferEnd_ ≤ b.bufferSize_) ∧
  (2048 ≤ b.bufferSize_ ∧ b.bufferSize_ ≤ 65528 ∧ b.bufferSize_ % 8 = 0) ∧
  (b.unreadContentLength_ ≤ b.bufferSize_ ∧ b.unreadContentLength_ ≤ Header.maxContentLength) ∧
  (b.unreadPaddingLength_ ≤ b.bufferSize_ ∧ b.unreadPaddingLength_ ≤ Header.maxPaddingLength) ∧
  (b.isReader → b.type_ = .params ∨ role = ⟨0⟩ ∨ (role = .responder ∧ b.type_ = .«in») ∨
    (role = .filter ∧ (b.type_ = .«in» ∨ b.type_ = .data))) ∧
  ((b.isClosed ∧ (b.isReader ∨ b.isEndOfStream_) ∧ b.getArea = none ∧ b.putArea = none) ∨
    (b.isReader ∧ b.getArea ≠ none ∧ b.putArea = none) ∨
    (¬ b.isReader ∧ b.getArea = none ∧ b.putArea ≠ none)) ∧
  (b.isReader ∨ b.isClosed ∨ ((b.pbase ≤ b.pptr ∧ b.pptr ≤ b.epptr) ∧
    (b.isEndOfStream_ ∨ b.pbase = Header.size))) ∧
  (¬ b.isReader ∨ b.isClosed ∨
    (b.eback ≤ b.gptr ∧ b.gptr ≤ b.egptr ∧ b.egptr ≤ b.bufferEnd_))

instance (role : Role) : Decidable (b.InvariantOk role) := by
  unfold InvariantOk; infer_instance

end ServerStreambuf

/-! ### Programs of a stream buffer -/

/-- A header about to be handed to `process_header()`, with the buffer and the transport as they
are then.  `stale` says that the header was not read in this round of the loop. -/
structure Dispatch where
  header : Header
  stale : Bool
  buf : ServerStreambuf
  io : Io

/-- `underflow()` about to begin its loop, with the buffer and the transport as they are then. -/
structure Entry where
  buf : ServerStreambuf
  io : Io

/-- The end of the reading of a get-values record: the names of its variables, the buffer, and the
transport. -/
structure Answer where
  names : List (List UInt8)
  buf : ServerStreambuf
  io : Io

/-- A get area handed out by `underflow()`. -/
structure Delivery where
  buf : ServerStreambuf
  io : Io

/-- A character about to be put back into the get area, and what had been handed out last. -/
structure Unget where
  buf : ServerStreambuf
  io : Io
  last : Option Delivery

/-- History variables: what has happened so far.  Nothing depends on them, except that `answers`
counts the uses of the stack. -/
structure History where
  entries : List Entry := []
  dispatches : List Dispatch := []
  answers : List Answer := []
  deliveries : List Delivery := []
  ungets : List Unget := []

/-- The valid header `h` has been handed to `process_header()` while the stream `t` was read. -/
def History.Met (history : History) (t : StreamType) (h : Header) : Prop :=
  ∃ d ∈ history.dispatches, d.header = h ∧ d.header.protocolVersion = 1 ∧ d.buf.type_ = t

/-- What the three stream buffers of a connection share. -/
structure World where
  io : Io
  history : History := {}

namespace World

variable (w : World)

/-- Changes the transport. -/
@[simps]
def setIo (io : Io) : World := { w with io }

/-- Notes an entry. -/
@[simps! -fullyApplied]
def addEntry (e : Entry) : World :=
  { w with history.entries := w.history.entries ++ [e] }

/-- Notes a header that is dispatched. -/
@[simps! -fullyApplied]
def addDispatch (d : Dispatch) : World :=
  { w with history.dispatches := w.history.dispatches ++ [d] }

/-- Notes an answer. -/
@[simps! -fullyApplied]
def addAnswer (a : Answer) : World :=
  { w with history.answers := w.history.answers ++ [a] }

/-- Notes that characters are delivered. -/
@[simps! -fullyApplied]
def addDelivery (d : Delivery) : World :=
  { w with history.deliveries := w.history.deliveries ++ [d] }

/-- Notes that a character is given back. -/
@[simps! -fullyApplied]
def addUnget (b : ServerStreambuf) : World :=
  { w with history.ungets := w.history.ungets ++ [⟨b, w.io, w.history.deliveries.getLast?⟩] }

end World

/-- A stream buffer, and what it shares with the others. -/
structure State where
  buf : ServerStreambuf
  world : World

/-- The state in the loop of `underflow()` that has begun in `s`. -/
def State.entered (s : State) : State := ⟨s.buf, s.world.addEntry ⟨s.buf, s.world.io⟩⟩

/-- The members of `iServer_connection` a stream buffer reads, and the stack below it: `stack k`
is what lies in the memory of a local array the `k`-th time one is needed. -/
structure ConnectionInfo where
  role : Role
  requestId : Nat
  applicationStatus : BitVec 32 := 0
  stack : Nat → Mem := fun _ _ => 0

/-- The programs on what the buffers share. -/
abbrev World.M := Prog World Exception

/-- The programs of a stream buffer. -/
abbrev M := Prog State Exception

/-- A program of the transport. -/
def World.onIo {α : Type} (m : Prog Io Exception α) : World.M α :=
  Prog.zoom World.io (fun io w => w.setIo io) m

/-- A program on what the buffers share. -/
def onWorld {α : Type} (m : World.M α) : M α :=
  Prog.zoom State.world (fun world s => { s with world }) m

/-- A program of the transport, run by a stream buffer. -/
def onIo {α : Type} (m : Prog Io Exception α) : M α := onWorld (World.onIo m)

/-- Changes the buffer. -/
def modifyBuf (f : ServerStreambuf → ServerStreambuf) : M Unit :=
  Prog.modify fun s => { s with buf := f s.buf }

/-- Stores `bs` at the offset `off` of the buffer. -/
def storeBuf (off : Nat) (bs : List UInt8) : M Unit := do
  let s ← Prog.get
  if off + bs.length ≤ s.buf.capacity then
    modifyBuf fun b => b.setBuffer (b.buffer_.store off bs)
  else
    Prog.fault (.undef)

/-- `assert(is_invariant_ok())`. -/
def assertInvariantOk (conn : ConnectionInfo) : M Unit := do
  let s ← Prog.get
  Prog.assert (s.buf.InvariantOk conn.role)

/-! ### Running the primitives -/

section run

variable {α : Type} {b : ServerStreambuf} {w : World}

theorem modifyBuf_run (f : ServerStreambuf → ServerStreambuf) :
    modifyBuf f ⟨b, w⟩ = (.ok (), ⟨f b, w⟩) := rfl

theorem modifyBuf_eq {f : ServerStreambuf → ServerStreambuf} {b' : ServerStreambuf}
    (h : f b = b') : modifyBuf f ⟨b, w⟩ = (.ok (), ⟨b', w⟩) := by
  rw [modifyBuf_run, h]

theorem storeBuf_run {off : Nat} {bs : List UInt8} (h : off + bs.length ≤ b.capacity) :
    storeBuf off bs ⟨b, w⟩ = (.ok (), ⟨b.setBuffer (b.buffer_.store off bs), w⟩) := by
  rw [storeBuf, Prog.bind_ok (Prog.get_run _), if_pos h, modifyBuf_run]

/-- A program of the transport, evaluated. -/
theorem onIo_run {m : Prog Io Exception α} {r : Except (Fault Exception) α} {io : Io}
    (h : m w.io = (r, io)) : onIo m ⟨b, w⟩ = (r, ⟨b, w.setIo io⟩) := by
  simp only [onIo, onWorld, World.onIo, Prog.zoom, h]

/-- The world after `bs` has been sent. -/
def World.send (w : World) (bs : List UInt8) : World :=
  w.setIo { w.io with written := w.io.written ++ bs }

theorem onIo_writeAll_run (h : w.io.sends = []) (bs : List UInt8) :
    onIo (Io.writeAll bs) ⟨b, w⟩ = (.ok (), ⟨b, w.send bs⟩) := by
  rw [onIo_run (Io.writeAll_run h bs), World.send]

/-- The assertion of the invariant, where it holds. -/
theorem assertInvariantOk_run {conn : ConnectionInfo} (h : b.InvariantOk conn.role) :
    assertInvariantOk conn ⟨b, w⟩ = (.ok (), ⟨b, w⟩) := by
  rw [assertInvariantOk, Prog.bind_ok (Prog.get_run _), Prog.assert_true h]

theorem assertInvariantOk_abort {conn : ConnectionInfo} (h : ¬ b.InvariantOk conn.role) :
    assertInvariantOk conn ⟨b, w⟩ = (.error .abort, ⟨b, w⟩) := by
  rw [assertInvariantOk, Prog.bind_ok (Prog.get_run _), Prog.assert_run, if_neg h]

end run

/-- Every write sends all of its records, or fails and sends nothing. -/
def World.AllOrNothing (w : World) : Prop := ∀ n, .part n ∈ w.io.sends → Record.maxLength ≤ n

/-- What is left of such a transport is one. -/
theorem World.AllOrNothing.of_sends {w w' : World} (h : w.AllOrNothing)
    (hs : w'.io.sends ⊆ w.io.sends) : w'.AllOrNothing := fun n hn => h n (hs hn)

/-- Where all writes succeed, none is cut. -/
theorem World.AllOrNothing.of_nil {w : World} (h : w.io.sends = []) : w.AllOrNothing :=
  fun _ hn => absurd hn (by rw [h]; exact List.not_mem_nil)

@[simp] theorem World.sends_send (w : World) (bs : List UInt8) :
    (w.send bs).io.sends = w.io.sends := rfl

@[simp] theorem World.written_send (w : World) (bs : List UInt8) :
    (w.send bs).io.written = w.io.written ++ bs := rfl

@[simp] theorem World.incoming_send (w : World) (bs : List UInt8) :
    (w.send bs).io.incoming = w.io.incoming := rfl

@[simp] theorem World.history_send (w : World) (bs : List UInt8) :
    (w.send bs).history = w.history := rfl

@[simp] theorem World.send_nil (w : World) : w.send [] = w := by
  simp only [World.send, World.setIo, List.append_nil]

/-- What is sent in two parts is sent. -/
theorem World.send_send (w : World) (bs cs : List UInt8) :
    (w.send bs).send cs = w.send (bs ++ cs) := by
  simp only [World.send, World.setIo, List.append_assoc]

/-- `setbuf(buffer, size)`; `buffer` is given by what lies in it. -/
def setbuf (conn : ConnectionInfo) (buffer : Mem) (size : Nat) : M Unit := do
  Prog.assert (2048 ≤ size ∧ size ≤ 65528)
  let s ← Prog.get
  if (s.buf.getArea ≠ none ∧ s.buf.eback ≠ 0) ∨
      (s.buf.putArea ≠ none ∧ s.buf.pbase ≠ Header.size) then
    Prog.throw (.fcgi "cannot set FastCGI buffer (there are pending data)")
  else do
    let padding ← Prog.ofExcept (Math.padding true (BitVec.ofNat 64 size) 8)
    modifyBuf fun b => b.setMemory buffer size (size - (8 - padding.toNat) % 8)
    if s.buf.isReader then
      modifyBuf fun b => ((b.setg 0 0 0).setBufferEnd 0).setpNull
    else
      modifyBuf fun b => b.setgNull.setp Header.size (b.bufferSize_ - 1)
    assertInvariantOk conn

namespace ServerStreambuf

/-- The buffer over another block of memory, of `size` bytes, with nothing in its areas. -/
def replaced (b : ServerStreambuf) (buffer : Mem) (size : Nat) : ServerStreambuf :=
  if b.isReader then
    (((b.setMemory buffer size (size - size % 8)).setg 0 0 0).setBufferEnd 0).setpNull
  else (b.setMemory buffer size (size - size % 8)).setgNull.setp 8 (size - size % 8 - 1)

/-- What `setbuf()` takes for pending data: an area that does not begin where the first one
does. -/
def StartsLate (b : ServerStreambuf) : Prop :=
  (b.getArea ≠ none ∧ b.eback ≠ 0) ∨ (b.putArea ≠ none ∧ b.pbase ≠ Header.size)

instance (b : ServerStreambuf) : Decidable b.StartsLate := by
  unfold StartsLate; infer_instance

end ServerStreambuf

section

variable {conn : ConnectionInfo} {buffer : Mem} {size : Nat} {b : ServerStreambuf} {w : World}

/-- The size of the part of a block that is used. -/
theorem bufferSize_eq {size : Nat} : size - (8 - Math.pad8 size) % 8 = size - size % 8 := by
  unfold Math.pad8; omega

/-- `setbuf()` while data are pending. -/
theorem setbuf_throw (h₁ : 2048 ≤ size) (h₂ : size ≤ 65528) (h : b.StartsLate) :
    setbuf conn buffer size ⟨b, w⟩ =
      (.error (.exc (.fcgi "cannot set FastCGI buffer (there are pending data)")), ⟨b, w⟩) := by
  rw [setbuf, Prog.bind_ok (Prog.assert_true ⟨h₁, h₂⟩ _), Prog.bind_ok (Prog.get_run _)]
  exact congrFun (if_pos h) _

theorem setbuf_run (h₁ : 2048 ≤ size) (h₂ : size ≤ 65528) (h : ¬ b.StartsLate) :
    setbuf conn buffer size ⟨b, w⟩ = assertInvariantOk conn ⟨b.replaced buffer size, w⟩ := by
  have hrun : setbuf conn buffer size ⟨b, w⟩ =
      (do let padding ← Prog.ofExcept (Math.padding true (BitVec.ofNat 64 size) 8)
          modifyBuf fun b => b.setMemory buffer size (size - (8 - padding.toNat) % 8)
          if b.isReader then modifyBuf fun b => ((b.setg 0 0 0).setBufferEnd 0).setpNull
          else modifyBuf fun b => b.setgNull.setp Header.size (b.bufferSize_ - 1)
          assertInvariantOk conn : M Unit) ⟨b, w⟩ := by
    rw [setbuf, Prog.bind_ok (Prog.assert_true ⟨h₁, h₂⟩ _), Prog.bind_ok (Prog.get_run _)]
    exact congrFun (if_neg h) _
  rw [hrun, Math.padding_streamsize (show size < 2 ^ 63 by omega),
    Prog.bind_ok (Prog.ofExcept_ok_run _ _), Math.toNat_pad8, bufferSize_eq,
    Prog.bind_ok (modifyBuf_run _), ServerStreambuf.replaced]
  split
  · rw [Prog.bind_ok (modifyBuf_run _)]
  · rw [Prog.bind_ok (modifyBuf_run _)]
    rfl

end

/-- `server_Streambuf(connection, buffer, buffer_size, type)`. -/
def ServerStreambuf.construct (conn : ConnectionInfo) (buffer : Mem) (bufferSize : Nat)
    (type : StreamType) : World.M ServerStreambuf := fun w =>
  match (do setbuf conn buffer bufferSize; assertInvariantOk conn : M Unit)
      ⟨{ type_ := type, buffer_ := buffer, capacity := bufferSize }, w⟩ with
  | (.ok _, s) => (.ok s.buf, s.world)
  | (.error x, s) => (.error x, s.world)

end Fcgi
