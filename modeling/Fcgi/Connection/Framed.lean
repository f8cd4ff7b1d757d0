import Fcgi.Connection.Steps

/-!
# Connection — all that is written is framed

**`written_framed`**: whatever the client and the transport do, and in whichever order the
application reads, writes, flushes and closes, what has been written to the descriptor is a string
of whole records, each a multiple of eight bytes long, unless an assertion has failed.

The descriptor is written to at three places: where the reader answers, where the writer sends a
record of its stream, and where it sends the end records.  Each sends whole records of that length,
and a write that fails has sent nothing, so that every change of the connection keeps `Framed`
(`ConnectionStep.framed`).
-/

namespace Fcgi
open Lib

/-- What has been written is a string of whole records, each a multiple of eight bytes long. -/
def Framed (w : World) : Prop :=
  ∃ rs : List Record, w.io.written = Frame.join rs ∧ ∀ r ∈ rs, r.bytes.length % 8 = 0

section

variable {conn : ConnectionInfo} {t : StreamType} {w w' : World}

/-- Records of that length may be sent. -/
theorem Framed.append (h : Framed w) {rs : List Record}
    (hw : w'.io.written = w.io.written ++ Frame.join rs)
    (hrs : ∀ r ∈ rs, r.bytes.length % 8 = 0) : Framed w' := by
  obtain ⟨rs₀, hw₀, hrs₀⟩ := h
  refine ⟨rs₀ ++ rs, by rw [hw, hw₀, Frame.join_append], fun r hr => ?_⟩
  exact (List.mem_append.mp hr).elim (hrs₀ r) (hrs r)

theorem Framed.same (h : Framed w) (hw : w'.io.written = w.io.written) : Framed w' :=
  @Framed.append _ _ h [] (by rw [hw, Frame.join_nil, List.append_nil]) nofun

/-! ### The records written -/

/-- A record of a stream is padded to a multiple of eight bytes. -/
theorem StreamRecord.length_mod {id : Nat} {cs : List UInt8} {r : Record}
    (h : StreamRecord t id cs r) : r.bytes.length % 8 = 0 := by
  have := h.aligned
  rw [r.bytes_eq, List.length_append, List.length_append, Header.length_bytes]
  omega

/-- The end records need no padding. -/
theorem endRecords_length_mod {used : Bool} :
    ∀ r ∈ endRecords conn t used, r.bytes.length % 8 = 0 := by
  intro r hr
  rw [endRecords] at hr
  rcases List.mem_append.mp hr with h | h <;> split at h
  · obtain rfl := List.mem_singleton.mp h
    rw [bytes_streamEnd, Header.length_bytes]
  · cases h
  · obtain rfl := List.mem_singleton.mp h
    rw [Record.length_endRequest]
  · cases h

theorem Reply.length_mod {h : Header} {r : Record} (hr : Reply conn t h r) :
    r.bytes.length % 8 = 0 := by
  cases hr with
  | endRequest => rw [Record.length_endRequest]
  | unknownType => rw [Record.length_unknownType]
  | getValuesResult _ _ _ _ hsize => exact hsize

/-! ### The steps -/

/-- Every step of the reader keeps what is written framed. -/
theorem ReaderStep.framed {c c' : Config} (hs : ReaderStep conn c c')
    (h : Framed c.state.world) : Framed c'.state.world := by
  cases hs with
  | recv _ hread => exact h.same (Io.read_sends hread).2
  | recvNone _ hread => exact h.same (Io.read_sends hread).2
  | @reply _ _ _ r hr =>
      refine @Framed.append _ _ h [r] ?_ fun r' hr' => List.mem_singleton.mp hr' ▸ hr.length_mod
      rw [Frame.join_cons, Frame.join_nil, List.append_nil]
      rfl
  | _ => exact h.same rfl

theorem Reached.framed {c : Config} {m : Mode} {s : State} (hr : Reached conn c m s)
    (h : Framed c.state.world) : Framed s.world :=
  hr.invariant (I := fun c => Framed c.state.world) (fun hs => hs.framed) h

theorem WriterStep.framed {s s' : State} {bs : List UInt8} (hs : WriterStep conn s bs s')
    (h : Framed s.world) : Framed s'.world := by
  cases hs with
  | put => exact h
  | @flush _ _ _ r m hf =>
      refine @Framed.append _ _ h [r] ?_ fun r' hr' =>
        List.mem_singleton.mp hr' ▸ hf.record.length_mod
      rw [Frame.join_cons, Frame.join_nil, List.append_nil]
      rfl
  | finish m hf =>
      dsimp only
      split
      · exact h
      · exact h.append rfl (hf.records ▸ endRecords_length_mod)

theorem Written.framed {s s' : State} {bs : List UInt8} (hr : Written conn s bs s')
    (h : Framed s.world) : Framed s'.world :=
  hr.invariant (I := fun s => Framed s.world) (fun hs => hs.framed) h

/-- A failed write has sent nothing. -/
theorem WriteError.framed {s s' : State} (he : WriteError conn s s') (h : Framed s.world) :
    Framed s'.world := by
  cases he <;> exact h.same rfl

/-- **Every change of a connection** keeps what is written framed. -/
theorem ConnectionStep.framed {c c' : Connection} (hs : ConnectionStep c c')
    (h : Framed c.world) : Framed c'.world := by
  cases hs with
  | read ho hr => exact hr.framed h
  | out hr => exact hr.framed h
  | outError he => exact he.framed h
  | err hr => exact hr.framed h
  | errError he => exact he.framed h
  | _ => exact h

end

/-! ### Runs -/

/-- **All that is written is framed**, in every run of an accepted connection. -/
theorem written_framed {uninit : Uninit} {fuel : Nat} {w w' : World} {c : Connection}
    (hw : w.io.written = []) (haccept : accept uninit fuel w = (.ok c, w')) (ops : List Op)
    (hrun : (run fuel ops c).1 ≠ .error .abort) : Framed (run fuel ops c).2.world := by
  obtain ⟨s₀, s₁, hacc, -, -, header, body, io, -, -, hread, hread', -, -⟩ := accept_ok haccept
  have hs₀ : Framed s₀.world := by
    refine ⟨[], ?_, nofun⟩
    rw [(Io.read_sends hread').2, (Io.read_sends hread).2, hw, Frame.join_nil]
  have hc : Framed c.world := hacc.world ▸ hacc.read.atEnd.returned.reached.framed hs₀
  have hsteps := run_steps fuel ops hacc.members c rfl
  rcases e : run fuel ops c with ⟨x | _, c'⟩ <;> simp only [e] at hsteps <;> rw [e] at hrun
  · obtain ⟨c₁, op, hs, -, hx⟩ := hsteps
    have hc₁ : Framed c₁.world :=
      hs.invariant (I := fun c => Framed c.world) (fun hs => hs.framed) hc
    cases x with
    | exc e =>
        exact ConnectionSteps.invariant (I := fun c => Framed c.world) hx (fun hs => hs.framed) hc₁
    | abort => exact absurd rfl hrun
    | undef => exact hx.elim
    | spent =>
        obtain ⟨m, s, -, hr, rfl⟩ := hx
        exact hr.framed hc₁
  · exact hsteps.invariant (I := fun c => Framed c.world) (fun hs => hs.framed) hc

/-- A read, a write and a `close()`. -/
theorem written_framed_closed :
    ∃ c w', accept {} 9 (responderRequest [1, 5, 0, 1, 0, 2, 0, 0, 104, 105]) = (.ok c, w') ∧
      Framed (run 9 [.«in» (.read 2), .out (.put 33), .close] c).2.world := by
  obtain ⟨c, w', haccept, h⟩ := Prog.of_returns
    (r := accept {} 9 (responderRequest [1, 5, 0, 1, 0, 2, 0, 0, 104, 105]))
    (p := fun (c : Connection) _ => decide ((run 9 [.«in» (.read 2), .out (.put 33), .close] c).1 ≠
      .error .abort)) (by decide +kernel)
  exact ⟨c, w', haccept, written_framed rfl haccept _ (of_decide_eq_true h)⟩

end Fcgi
