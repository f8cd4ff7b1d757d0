import Fcgi.Connection.Completion
import Fcgi.Connection.Refuelled
import Fcgi.Input.Level

/-!
# Connection — `accept()` and the pieces in which the bytes arrive

* `Recut w w'`: the same bytes arrive, in other pieces.
* `FirstRecord.Handed io`: the reads of the begin-request record bring all that they ask for.
* `Accepts uninit w o`: `accept()` ends in the outcome `o`.

**`accept_recut`**: unless a get-values record is read where the cuts matter, the outcome depends
on no more than whether the first record is handed out.

The first record is read by two reads, so it is handed out if and only if each brings eight bytes; a
read that brings less throws, in both worlds or in one of them, and that is the dependence stated
(`readBeginRequest_short`, `readBeginRequest_recut`).  Behind it the input buffer is refilled until
a header is whole, so that two readers whose bytes are cut in different places stay at one level
(`Input/Level.lean`) and give the same characters (`readParameters_follows`).
-/

namespace Fcgi
open Lib

/-- The bytes that a read of `len` bytes brings now. -/
def Io.brings (len : Nat) (io : Io) : Nat :=
  match (Io.read len io).1 with
  | .ok bs => bs.length
  | .error _ => 0

/-- The header, and the body of a begin-request record, are handed out whole. -/
structure FirstRecord.Handed (io : Io) : Prop where
  header : io.brings 8 = 8
  version : io.bytes.getD 0 0 = 1
  body : FirstRecord.BeginHeader io.bytes → (Io.read 8 io).2.brings 8 = 8

instance (io : Io) : Decidable (FirstRecord.Handed io) :=
  decidable_of_iff (io.brings 8 = 8 ∧ io.bytes.getD 0 0 = 1 ∧
    (FirstRecord.BeginHeader io.bytes → (Io.read 8 io).2.brings 8 = 8)) ⟨fun h =>
    ⟨h.1, h.2.1, h.2.2⟩, fun h => ⟨h.header, h.version, h.body⟩⟩

/-- The same bytes, in other pieces. -/
structure Recut (w w' : World) : Prop where
  left : w.io.Clean
  right : w'.io.Clean
  bytes : w'.io.bytes = w.io.bytes
  sends : w'.io.sends = w.io.sends
  written : w'.io.written = w.io.written
  answers : w'.history.answers.length = w.history.answers.length

/-- What the client has asked for. -/
structure Request where
  role : Role
  requestId : Nat
  isKeepConnection : Bool
  parameters : NamesValues
  deriving DecidableEq

/-- What the client has asked for, as the connection has it. -/
def Connection.request (c : Connection) : Request :=
  ⟨c.role_, c.requestId_, c.isKeepConnection_, c.parameters_⟩

/-- The exception or the request, and all that has been written to the client. -/
def outcome (p : Except (Fault Exception) Connection × World) :
    Except (Fault Exception) Request × List UInt8 := (p.1.map Connection.request, p.2.io.written)

/-- `accept()` ends in the outcome `o`. -/
def Accepts (uninit : Uninit) (w : World)
    (o : Except (Fault Exception) Request × List UInt8) : Prop :=
  o.1 ≠ .error .spent ∧ ∃ n, outcome (accept uninit n w) = o

/-- `accept()` never comes to where the cuts matter. -/
def Uncut (uninit : Uninit) (w : World) : Prop :=
  ∀ n, ¬ (accept uninit n w).2.history.CutSensitive inBufferSize

section

variable {conn : ConnectionInfo} {uninit : Uninit} {w w' : World}

theorem Recut.symm (h : Recut w w') : Recut w' w :=
  ⟨h.right, h.left, h.bytes.symm, h.sends.symm, h.written.symm, h.answers.symm⟩

/-! ### The first record -/

theorem Io.brings_of_read {len : Nat} {io io' : Io} {bs : List UInt8}
    (h : Io.read len io = (.ok bs, io')) : io.brings len = bs.length := by
  rw [Io.brings, h]

/-- A read that brings all it asks for. -/
theorem Io.Clean.read_whole {io : Io} (hc : io.Clean) (h : io.brings 8 = 8) :
    ∃ io₁, Io.read 8 io = (.ok (io.bytes.take 8), io₁) ∧ 8 ≤ io.bytes.length ∧ io₁.Clean ∧
      io₁.bytes = io.bytes.drop 8 ∧ io₁.sends = io.sends ∧ io₁.written = io.written := by
  obtain ⟨bs, io₁, hread, hc₁, hbytes, -⟩ := hc.read (show 0 < 8 by decide)
  rw [Io.brings_of_read hread] at h
  obtain ⟨hsends, hwritten⟩ := Io.read_sends hread
  have htake : io.bytes.take 8 = bs := by rw [hbytes, ← h, List.take_left]
  refine ⟨io₁, htake ▸ hread, ?_, hc₁, ?_, hsends, hwritten⟩
  · rw [hbytes, List.length_append]
    omega
  · rw [hbytes, ← h, List.drop_left]

/-- A read that brings less. -/
theorem Io.Clean.read_short {io : Io} (hc : io.Clean) (h : io.brings 8 ≠ 8) :
    ∃ bs io₁, Io.read 8 io = (.ok bs, io₁) ∧ bs.length < 8 ∧ io₁.written = io.written := by
  obtain ⟨bs, io₁, hread, -⟩ := hc.read (show 0 < 8 by decide)
  rw [Io.brings_of_read hread] at h
  exact ⟨bs, io₁, hread, Nat.lt_of_le_of_ne (Io.length_read hread) h, (Io.read_sends hread).2⟩

/-- A first record that is not handed out whole. -/
theorem readBeginRequest_short (hc : w.io.Clean) (h : ¬ FirstRecord.Handed w.io) :
    ∃ io, readBeginRequest w = (.error (.exc (.fcgi "FastCGI protocol violation")), w.setIo io) ∧
      io.written = w.io.written := by
  by_cases hheader : w.io.brings 8 = 8
  · obtain ⟨io₁, hread, hlen, hc₁, -, -, hw₁⟩ := hc.read_whole hheader
    have hrun := readHeader_run hread
    by_cases hv : w.io.bytes.getD 0 0 = 1
    · rw [if_pos ⟨hlen, hv⟩] at hrun
      obtain ⟨hb, hbody⟩ := Classical.not_imp.mp fun hb => h ⟨hheader, hv, hb⟩
      rw [hread] at hbody
      obtain ⟨bs, io₂, hread', hlt, hw₂⟩ := hc₁.read_short hbody
      have hbody' : readBeginRequestBody (w.setIo io₁) =
          (.error (.exc (.fcgi "FastCGI protocol violation")), w.setIo io₂) := by
        have honIo : World.onIo (Io.read BeginRequestBody.size) (w.setIo io₁) =
            (.ok bs, w.setIo io₂) := World.onIo_run hread'
        have hsize : bs.length ≠ BeginRequestBody.size := Nat.ne_of_lt hlt
        rw [readBeginRequestBody, Prog.bind_ok honIo, if_pos hsize]
        rfl
      refine ⟨io₂, ?_, hw₂.trans hw₁⟩
      rw [readBeginRequest, Prog.bind_ok hrun, if_pos (beginHeader_iff.mp hb),
        Prog.bind_error hbody']
    · rw [if_neg fun e => hv e.2] at hrun
      exact ⟨io₁, Prog.bind_error hrun, hw₁⟩
  · obtain ⟨bs, io₁, hread, hlt, hw₁⟩ := hc.read_short hheader
    have hrun : readHeader w =
        (.error (.exc (.fcgi "FastCGI protocol violation")), w.setIo io₁) := by
      have honIo : World.onIo (Io.read Header.size) w = (.ok bs, w.setIo io₁) :=
        World.onIo_run hread
      have hsize : bs.length ≠ Header.size := Nat.ne_of_lt hlt
      rw [readHeader, Prog.bind_ok honIo, if_pos hsize]
      rfl
    exact ⟨io₁, Prog.bind_error hrun, hw₁⟩

theorem World.writeAll_recut (buf : List UInt8) :
    Rel Recut (World.onIo (Io.writeAll buf)) (World.onIo (Io.writeAll buf)) (fun _ => Recut) Recut
      fun _ => False := by
  intro w w' h
  obtain ⟨r, ss, out, hrun, hrun'⟩ := Io.writeAll_congr h.sends h.written buf
  rw [World.onIo_run hrun, World.onIo_run hrun']
  have h' : Recut (w.setIo { w.io with sends := ss, written := out })
      (w'.setIo { w'.io with sends := ss, written := out }) :=
    ⟨h.left, h.right, h.bytes, rfl, rfl, h.answers⟩
  cases r with
  | error x => exact .inr (.error h')
  | ok a => exact .inr (.ok h')

theorem acceptEndRequest_recut {α : Type} (header : Header) (ps : ProtocolStatus)
    (e : Exception) :
    Rel Recut (acceptEndRequest header ps e : World.M α) (acceptEndRequest header ps e)
      (fun _ => Recut) Recut fun _ => False := by
  intro w w' h
  rw [acceptEndRequest, Prog.bind_ok (Record.endRequestRecord_run _),
    Prog.bind_ok (Record.endRequestRecord_run _)]
  have hrefuse : ∀ record, Rel Recut (refuse record e : World.M α) (refuse record e)
      (fun _ => Recut) Recut fun _ => False := fun record =>
    Rel.seq (World.writeAll_recut record) fun _ => Rel.throw fun _ _ h => h
  exact hrefuse _ w w' h

/-- A first record that is handed out whole. -/
theorem readBeginRequest_recut (h : Recut w w') (hh : FirstRecord.Handed w.io)
    (hh' : FirstRecord.Handed w'.io) :
    Alike (fun _ => Recut) (fun w w' => w.io.written = w'.io.written) (readBeginRequest w)
      (readBeginRequest w') := by
  have hwritten : ∀ w w', Recut w w' → w.io.written = w'.io.written := fun _ _ h => h.written.symm
  obtain ⟨io₁, hread, hlen, hc₁, hbytes₁, hs₁, hw₁⟩ := h.left.read_whole hh.header
  obtain ⟨io₁', hread', -, hc₁', hbytes₁', hs₁', hw₁'⟩ := h.right.read_whole hh'.header
  have hrun := readHeader_run hread
  have hrun' := readHeader_run hread'
  rw [h.bytes] at hbytes₁' hrun'
  rw [if_pos ⟨hlen, hh.version⟩] at hrun hrun'
  rw [readBeginRequest, Prog.bind_ok hrun, Prog.bind_ok hrun']
  have h₁ : Recut (w.setIo io₁) (w'.setIo io₁') := ⟨hc₁, hc₁', hbytes₁'.trans hbytes₁.symm,
    hs₁'.trans (h.sends.trans hs₁.symm), hw₁'.trans (h.written.trans hw₁.symm), h.answers⟩
  -- With a begin-request header the body is read as well, whole in both runs.
  by_cases hb : FirstRecord.BeginHeader w.io.bytes
  · have hbody := hh.body hb
    have hbody' := hh'.body (h.bytes ▸ hb)
    rw [hread] at hbody
    rw [hread'] at hbody'
    obtain ⟨io₂, hread₂, hlen₂, hc₂, hbytes₂, hs₂, hw₂⟩ := hc₁.read_whole hbody
    obtain ⟨io₂', hread₂', -, hc₂', hbytes₂', hs₂', hw₂'⟩ := hc₁'.read_whole hbody'
    rw [hbytes₁, List.length_drop] at hlen₂
    rw [hbytes₁] at hread₂
    rw [hbytes₁'] at hread₂'
    have hrun₂ := readBeginRequestBody_run (w := w.setIo io₁) hread₂
    have hrun₂' := readBeginRequestBody_run (w := w'.setIo io₁') hread₂'
    rw [if_pos (by omega)] at hrun₂ hrun₂'
    have h₂ : Recut (w.setIo io₂) (w'.setIo io₂') := ⟨hc₂, hc₂',
      hbytes₂'.trans ((congrArg (List.drop 8) (hbytes₁'.trans hbytes₁.symm)).trans hbytes₂.symm),
      hs₂'.trans (h₁.sends.trans hs₂.symm), hw₂'.trans (h₁.written.trans hw₂.symm), h.answers⟩
    rw [if_pos (beginHeader_iff.mp hb), Prog.bind_ok hrun₂, Prog.bind_ok hrun₂']
    exact (Rel.fail (Rel.ite (R := Recut) (B := fun _ => False) Iff.rfl
      (fun _ => Rel.pure fun _ _ h => h) fun _ => acceptEndRequest_recut _ _ _) hwritten _ _
      h₂).resolve_left id
  · rw [if_neg fun e => hb (beginHeader_iff.mpr e)]
    exact ((acceptEndRequest_recut _ _ _).fail hwritten _ _ h₁).resolve_left id

/-! ### The parameters -/

/-- Nothing has been read yet. -/
theorem Recut.level (h : Recut w w') {size : Nat} {b b' : ServerStreambuf}
    (hb : FreshReader conn.role .params size b) (hb' : FreshReader conn.role .params size b') :
    Level conn size ⟨b, w⟩ ⟨b', w'⟩ := by
  have hp := hb.pause (s := ⟨b, w⟩)
  have hp' := hb'.pause (s := ⟨b', w'⟩)
  have hreach : w'.io.reach = w.io.reach := by
    rw [h.left.reach_eq, h.right.reach_eq, h.bytes]
  have hplaced' := hp'.placed h.right
  rw [hreach] at hplaced'
  refine ⟨_, _, _, _, ⟨hp.placed h.left, hplaced', ?_, ?_⟩, hp.rested (Nat.zero_le _) hb.open_,
    hp'.rested (Nat.zero_le _) hb'.open_⟩
  · simp only [State.outer, hb.open_, hb'.open_, h.sends, h.written, h.answers]
  · rw [hb.content, hb'.content]

/-- A reader whose characters are all read is reset. -/
theorem Rested.resetReader {size n p : Nat} {dis : Bool} {bs : List UInt8} {s : State}
    (h : Rested size s) (hp : Placed conn size n p dis bs s)
    (hrole : conn.role = .responder ∨ conn.role = .filter) :
    Fcgi.resetReader conn .«in» s = (.ok (), ⟨s.buf.reset .«in», s.world⟩) := by
  have ho := hp.openReader
  have hin : OpenReader conn.role (s.buf.reset .«in») :=
    ho.reset rfl (.inr (.inr (hrole.imp (⟨·, rfl⟩) (⟨·, .inl rfl⟩))))
  rw [Fcgi.resetReader, Prog.bind_ok (Prog.get_run _), Prog.bind_ok (Prog.assert_true
    ⟨ho.reader, Bool.eq_false_iff.mp ho.not_isClosed⟩ _), Prog.bind_ok (modifyBuf_run _),
    assertInvariantOk_run (hin.invariantOk (Nat.zero_le _) h.ordered)]

/-- **The parameters**, from two transports. -/
theorem readParameters_follows (k : Nat) :
    Lib.Follows (Level conn inBufferSize) (readParameters conn k) (fun n => readParameters conn n)
      (fun _ s t => s.world.io.written = t.world.io.written) (Stranded conn inBufferSize)
      (Cut inBufferSize) (Cut inBufferSize) := by
  have hwritten : ∀ {s t : State}, Stranded conn inBufferSize s t →
      s.world.io.written = t.world.io.written := fun h => congrArg Outer.written h.outer
  have hreset : Keeps (Cut inBufferSize) (resetReader conn .«in») :=
    resetReader_stable (cut_stable inBufferSize) _
  refine .bind (ofStream_follows (fun _ _ h => h.stranded)
    (sbumpc_follows (underflowLoop_follows k [])) k {} 32) fun p => ?_
  obtain ⟨nv, is⟩ := p
  refine .ite (fun _ => .throw fun _ _ h => h.1) fun hgood => ?_
  have hbad : is.bad = false := Bool.eq_false_iff.mpr fun h => hgood (.inr h)
  refine .ite (fun hrole => ?_) fun _ => .pure fun _ _ h => hwritten h.1
  refine .bind (Q := fun _ s t => s.world.io.written = t.world.io.written)
    (.of_rel hreset hreset ?_) fun _ => .pure fun _ _ h => h
  rintro s t ⟨hst, h⟩
  have hw := hwritten hst
  obtain ⟨n, p, dis, bs, hstood, hs, ht⟩ := h hbad
  rw [hs.resetReader hstood.left hrole, ht.resetReader hstood.right hrole]
  exact .inr (.ok hw)

/-- The parameters that the constructor of the input stream reads, if it does. -/
def settledParameters (p : Except (Fault Exception) (NamesValues × Istream) × State) :
    Except (Fault Exception) NamesValues × World :=
  ((settled p).1.map Prod.fst, (settled p).2)

/-- Both buffers are closed alike. -/
theorem settledParameters_alike
    {p q : Except (Fault Exception) (NamesValues × Istream) × State}
    (h : Alike (fun _ s t => s.world.io.written = t.world.io.written)
      (Stranded conn inBufferSize) p q) :
    Alike (fun _ w w' => w.io.written = w'.io.written) (fun w w' => w.io.written = w'.io.written)
      (settledParameters p) (settledParameters q) := by
  cases h with
  | ok h => exact .ok h
  | @error x s t h =>
      have hwritten : s.world.io.written = t.world.io.written := congrArg Outer.written h.outer
      obtain ⟨n, p, dis, bs, hst⟩ := h
      cases x with
      | exc e =>
          have hfits := hst.fits
          rw [settledParameters, settledParameters, settled, settled, hst.left.bufferSize,
            hst.right.bufferSize]
          by_cases hu : s.buf.unreadContentLength_ ≤ inBufferSize
          · rw [if_pos hu, if_pos (hfits.mp hu)]
            exact .error hwritten
          · rw [if_neg hu, if_neg fun h => hu (hfits.mpr h)]
            exact .error hwritten
      | _ => exact .error hwritten

/-- The parameters that the constructor of the input stream reads. -/
theorem construct_istream_ends (h : Recut w w') (k : Nat) :
    Ends (Prod.fst <$> ServerIstream.construct conn uninit k)
      (fun n => Prod.fst <$> ServerIstream.construct conn uninit n)
      (fun _ w w' => w.io.written = w'.io.written) (fun w w' => w.io.written = w'.io.written)
      (fun w => w.history.CutSensitive inBufferSize)
      (fun w => w.history.CutSensitive inBufferSize) w w' := by
  have hrun : ∀ v : World, ∃ b, FreshReader conn.role .params inBufferSize b ∧
      ∀ n, (Prod.fst <$> ServerIstream.construct conn uninit n) v =
        settledParameters (readParameters conn n ⟨b, v⟩) := fun v => by
    obtain ⟨b, hfresh, hsettled⟩ := construct_istream_settled conn uninit v
    refine ⟨b, hfresh, fun n => ?_⟩
    rw [Prog.map_run, hsettled, settledParameters]
  obtain ⟨b, hb, hsettled⟩ := hrun w
  obtain ⟨b', hb', hsettled'⟩ := hrun w'
  have hcut : ∀ p : Except (Fault Exception) (NamesValues × Istream) × State,
      Cut inBufferSize p.2 → (settledParameters p).2.history.CutSensitive inBufferSize :=
    fun p hp => (settled_world p).symm ▸ hp
  refine .settle (hsettled k) hsettled' ?_ hcut hcut (fun _ _ => settledParameters_alike)
    ((readParameters_follows k).ends _ _ (h.level hb hb'))
  rintro ⟨r, s⟩ hr
  obtain rfl : r = .error .spent := hr
  rfl

/-! ### The connection -/

/-- The connection asks for what its input stream has read; its other streams add nothing. -/
theorem construct_request (uninit : Uninit) (fuel : Nat) (role : Role) (id : Nat) (keep : Bool) :
    Connection.request <$> Connection.construct uninit fuel role id keep =
      Request.mk role id keep <$> (Prod.fst <$>
        ServerIstream.construct { role, requestId := id, stack := uninit.stack } uninit fuel) := by
  funext w
  rw [Prog.map_run, Prog.map_run, Prog.map_run]
  rcases construct_eq uninit fuel role id keep w with ⟨x, w', hc, his⟩ | ⟨c, is, w', hc, his⟩
  · rw [hc, his]
    rfl
  · obtain ⟨rfl, rfl, rfl⟩ := Connection.construct_members hc
    rw [hc, his]
    rfl

/-- **`accept()` from two transports**, both of which hand out the first record, or neither. -/
theorem accept_ends (h : Recut w w')
    (hh : FirstRecord.Handed w.io ↔ FirstRecord.Handed w'.io) (k : Nat) :
    Ends (Connection.request <$> accept uninit k) (fun n => Connection.request <$> accept uninit n)
      (fun _ w w' => w.io.written = w'.io.written) (fun w w' => w.io.written = w'.io.written)
      (fun w => w.history.CutSensitive inBufferSize)
      (fun w => w.history.CutSensitive inBufferSize) w w' := by
  have hrun : ∀ n, Connection.request <$> accept uninit n = readBeginRequest >>= fun p =>
      Connection.request <$> Connection.construct uninit n p.2.role p.1.requestId
        p.2.isKeepConn := fun n => by
    rw [accept, map_bind]
  simp only [hrun]
  by_cases hhanded : FirstRecord.Handed w.io
  · have hread := readBeginRequest_recut h hhanded (hh.mp hhanded)
    rcases e : readBeginRequest w with ⟨x | p, v⟩ <;>
      rcases e' : readBeginRequest w' with ⟨x' | p', v'⟩ <;> rw [e, e'] at hread
    · cases hread with
      | error hw =>
          refine .alike ⟨0, fun n _ => Prog.bind_error e'⟩ ?_
          rw [Prog.bind_error e]
          exact .error hw
    · cases hread
    · cases hread
    · cases hread with
      | ok hv =>
          refine .step e (fun _ => e') ?_
          simp only [construct_request]
          exact (construct_istream_ends hv k).map _ fun _ _ _ h => h
  · obtain ⟨io, e, hw⟩ := readBeginRequest_short h.left hhanded
    obtain ⟨io', e', hw'⟩ := readBeginRequest_short h.right (mt hh.mpr hhanded)
    refine .alike ⟨0, fun n _ => Prog.bind_error e'⟩ ?_
    rw [Prog.bind_error e]
    exact .error (hw.trans (h.written.symm.trans hw'.symm))

/-- It is enough to look at one run that ends, and at those with less fuel. -/
theorem Uncut.of_ended {N : Nat} (hN : (outcome (accept uninit N w)).1 ≠ .error .spent)
    (h : ∀ n ≤ N, ¬ (accept uninit n w).2.history.CutSensitive inBufferSize) : Uncut uninit w :=
  forall_fuel (f := accept uninit) (s := w) (P := fun p =>
    ¬ p.2.history.CutSensitive inBufferSize) (fun hn => accept_refuels hn uninit)
    (fun e => hN (by rw [outcome, e]; rfl)) h

/-- There is one outcome at most. -/
theorem Accepts.unique {o o' : Except (Fault Exception) Request × List UInt8}
    (h : Accepts uninit w o) (h' : Accepts uninit w o') : o = o' := by
  obtain ⟨hlive, n, rfl⟩ := h
  obtain ⟨hlive', n', rfl⟩ := h'
  have hne : ∀ {n}, (outcome (accept uninit n w)).1 ≠ .error .spent →
      (accept uninit n w).1 ≠ .error .spent := fun h e => h (by rw [outcome, e]; rfl)
  rcases Nat.le_total n n' with hn | hn
  · rw [(accept_refuels hn uninit).eq (hne hlive)]
  · rw [(accept_refuels hn uninit).eq (hne hlive')]

/-- The outcome is made of the request and of what has been written. -/
theorem outcome_eq (p : World.M Connection) (w : World) : outcome (p w) =
    (((Connection.request <$> p) w).1, ((Connection.request <$> p) w).2.io.written) := by
  rw [Prog.map_run, outcome]

/-- **The outcome is the same** for the other pieces. -/
theorem Accepts.recut {o : Except (Fault Exception) Request × List UInt8}
    (ho : Accepts uninit w o) (h : Recut w w')
    (hh : FirstRecord.Handed w.io ↔ FirstRecord.Handed w'.io) (hcut : Uncut uninit w)
    (hcut' : Uncut uninit w') : Accepts uninit w' o := by
  obtain ⟨hlive, k, rfl⟩ := ho
  have hends : Ends (Connection.request <$> accept uninit k) _ _ _ _ _ w w' := accept_ends h hh k
  rcases hends with hs | hb | ⟨N, hN⟩ | ⟨p, ⟨N, hN⟩, ha⟩
  · rw [outcome_eq] at hlive
    exact absurd hs hlive
  · rw [Prog.map_run] at hb
    exact absurd hb (hcut k)
  · have hb := hN N (Nat.le_refl N)
    dsimp only at hb
    rw [Prog.map_run] at hb
    exact absurd hb (hcut' N)
  · have hp := hN N (Nat.le_refl N)
    dsimp only at hp
    refine ⟨hlive, N, ?_⟩
    rw [outcome_eq, outcome_eq, hp, ha.result, ha.states]

/-- Where the first record is not handed out, `accept()` throws and has sent nothing. -/
theorem Accepts.of_short {o : Except (Fault Exception) Request × List UInt8}
    (ho : Accepts uninit w o) (hc : w.io.Clean) (hh : ¬ FirstRecord.Handed w.io) :
    o = (.error (.exc (.fcgi "FastCGI protocol violation")), w.io.written) := by
  obtain ⟨-, n, rfl⟩ := ho
  obtain ⟨io, hrun, hw⟩ := readBeginRequest_short hc hh
  rw [accept, outcome, Prog.bind_error hrun, ← hw]
  rfl

/-- **`accept()` from two transports**, unless a get-values record is read where the cuts matter.
Its outcome is the same if both hand out the first record, or neither; and, unless it is what
`accept()` does with a first record that is cut, only then. -/
theorem accept_recut (uninit : Uninit) (h : Recut w w') (hcut : Uncut uninit w)
    (hcut' : Uncut uninit w') (o : Except (Fault Exception) Request × List UInt8) :
    ((FirstRecord.Handed w.io ↔ FirstRecord.Handed w'.io) →
      (Accepts uninit w o ↔ Accepts uninit w' o)) ∧
    (o ≠ (.error (.exc (.fcgi "FastCGI protocol violation")), w.io.written) →
      Accepts uninit w o → (Accepts uninit w' o ↔ FirstRecord.Handed w'.io)) := by
  refine ⟨fun hh => ⟨fun ho => ho.recut h hh hcut hcut', fun ho =>
    ho.recut h.symm hh.symm hcut' hcut⟩, fun hne ho => ⟨fun ho' => ?_, fun hh' => ?_⟩⟩
  · by_contra hh'
    exact hne (h.written ▸ ho'.of_short h.right hh')
  · have hh : FirstRecord.Handed w.io := by_contra fun hh => hne (ho.of_short h.left hh)
    exact ho.recut h (iff_of_true hh hh') hcut hcut'

end

/-- A request to a responder with a parameter. -/
def requestBytes : List UInt8 := [1, 1, 0, 1, 0, 8, 0, 0, 0, 1, 0, 0, 0, 0, 0, 0,
  1, 4, 0, 1, 0, 4, 0, 0, 1, 1, 65, 66, 1, 4, 0, 1, 0, 0, 0, 0]

/-- The transport brings `pieces` one after the other. -/
def World.bringing (pieces : List (List UInt8)) : World where
  io := { incoming := pieces.map .data }

/-- What comes after the first record arrives byte by byte. -/
theorem accept_recut_pieces :
    Accepts {} (.bringing (requestBytes.take 16 :: (requestBytes.drop 16).map fun b => [b]))
      (.ok ⟨⟨1⟩, 1, false, ⟨[⟨[65, 66], 1, 1⟩]⟩⟩, []) := by
  have h : Recut (.bringing [requestBytes])
      (.bringing (requestBytes.take 16 :: (requestBytes.drop 16).map fun b => [b])) :=
    ⟨by decide, by decide, by decide, rfl, rfl, rfl⟩
  exact ((accept_recut {} h (.of_ended (N := 2) (by decide +kernel) (by decide +kernel))
    (.of_ended (N := 9) (by decide +kernel) (by decide +kernel)) _).1 (by decide)).mp
      ⟨nofun, 2, by decide +kernel⟩

/-- Where the first byte comes by itself, `accept()` throws. -/
theorem accept_depends_on_pieces :
    Recut (.bringing [requestBytes]) (.bringing [[1], requestBytes.drop 1]) ∧
    Accepts {} (.bringing [requestBytes]) (.ok ⟨⟨1⟩, 1, false, ⟨[⟨[65, 66], 1, 1⟩]⟩⟩, []) ∧
    ∀ o, Accepts {} (.bringing [[1], requestBytes.drop 1]) o →
      o = (.error (.exc (.fcgi "FastCGI protocol violation")), []) := by
  refine ⟨⟨by decide, by decide, by decide, rfl, rfl, rfl⟩, ⟨nofun, 2, by decide +kernel⟩, ?_⟩
  rintro _ ⟨-, n, rfl⟩
  rfl

/-- Behind a get-values record a part of the next header is at hand, or arrives later: `accept()`
fails an assertion, or throws. -/
theorem accept_depends_on_getValues_pieces : ∃ bs : List UInt8,
    Recut (.bringing [bs]) (.bringing [bs.take 24, bs.drop 24]) ∧
    FirstRecord.Handed (World.bringing [bs]).io ∧
    FirstRecord.Handed (World.bringing [bs.take 24, bs.drop 24]).io ∧
    Accepts {} (.bringing [bs]) (.error .abort, [1, 10, 0, 0, 0, 0, 0, 0]) ∧
    Accepts {} (.bringing [bs.take 24, bs.drop 24]) (.error (.exc (.fcgi
      "unexpected FastCGI input stream state after parameters read attempt")),
      [1, 10, 0, 0, 0, 0, 0, 0]) :=
  ⟨requestBytes.take 16 ++ [1, 9, 0, 0, 0, 0, 0, 0, 1, 4, 0, 1],
    ⟨by decide, by decide, by decide, rfl, rfl, rfl⟩, by decide, by decide,
    ⟨nofun, 9, by decide +kernel⟩, ⟨nofun, 9, by decide +kernel⟩⟩

end Fcgi
