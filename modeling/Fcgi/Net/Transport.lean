import Fcgi.Input.Transfers
import Fcgi.Net.SocketDescriptor

/-!
# Net — the descriptor as a connection sees it

A `socket_Descriptor` implements `read` and `write` by calls of the system, and an `Io` by what is
written down in it in advance.

**`socket_refines_io`**: whatever the system answers, a client of a `socket_Descriptor` gets what it
gets from the `Io` in which these answers are written down, and the same bytes are sent.

Both sides of the comparison are run from the same log of calls.  A call of a transfer adds one
entry to it, which says what the `Io` has to have written down (`Io.ofLog`); the client goes on with
the same result on both sides, and the proof is an induction on it.
-/

namespace Fcgi
open Lib

/-- A `socket_Descriptor`, which is not given a null pointer. -/
def Transfer.onSocket : ∀ c : Transfer, SocketDescriptor.M c.Result
  | .read len => Prog.attempt (SocketDescriptor.read false len)
  | .write buf => Prog.attempt (SocketDescriptor.write false buf)

namespace NetCall

/-- The call receives or sends. -/
def IsTransfer (fd : Int) : NetCall → Prop
  | .recv fd' _ => fd' = fd
  | .send fd' _ => fd' = fd
  | _ => False

/-- What a call has received. -/
def received : NetCall × NetAnswer → Option Recv
  | (.recv _ len, .ok _ bytes) => some (.data (bytes.take len))
  | (.recv _ _, .error _) => some .error
  | _ => none

/-- What a call has done with the bytes it was to send. -/
def done : NetCall × NetAnswer → Option Send
  | (.send _ buf, .ok n _) => some (.part (min n buf.length))
  | (.send _ _, .error _) => some .error
  | _ => none

/-- The bytes that a call has sent. -/
def sent : NetCall × NetAnswer → List UInt8
  | (.send _ buf, .ok n _) => buf.take n
  | _ => []

end NetCall

/-- The descriptor of which these calls have been made, after `written`. -/
def Io.ofLog (log : List (NetCall × NetAnswer)) (written : List UInt8) : Io where
  incoming := log.filterMap NetCall.received
  sends := log.filterMap NetCall.done
  written := written

/-- A read takes all of an entry that is not too long. -/
theorem Io.read_entry {bs : List UInt8} {len : Nat} (h : bs.length ≤ len) (rest : List Recv)
    (sends : List Send) (written : List UInt8) :
    Io.read len ⟨.data bs :: rest, sends, written⟩ = (.ok bs, ⟨rest, sends, written⟩) := by
  simp [Io.read, List.take_of_length_le h, Nat.not_lt.mpr h]

/-- One call. -/
theorem Transfer.onSocket_onIo (c : Transfer) (d : SocketDescriptor) (k : Kernel) : ∃ r e k',
    c.onSocket (d, k) = (.ok r, d, k') ∧ k'.log = k.log ++ [e] ∧
    e.1.IsTransfer d.socket_.socket_ ∧ ∀ log out,
      c.onIo (Io.ofLog (e :: log) out) = (.ok r, Io.ofLog log (out ++ NetCall.sent e)) := by
  -- A call that has sent nothing.
  have hsilent : ∀ (log : List (NetCall × NetAnswer)) (out : List UInt8) (e : NetCall × NetAnswer),
      NetCall.sent e = [] → Io.ofLog log (out ++ NetCall.sent e) = Io.ofLog log out := by
    intro log out e he
    rw [he, List.append_nil]
  obtain ⟨answers, log⟩ := k
  cases c with
  | read len =>
      rcases answers with _ | ⟨⟨v, bytes⟩ | errno, answers⟩
      · exact ⟨.error _, _, _, rfl, rfl, rfl, fun log out => by rw [hsilent _ _ _ rfl]; rfl⟩
      · refine ⟨.ok (bytes.take (min len SocketDescriptor.maxReadSize)), _, _, rfl, rfl, rfl,
          fun log out => ?_⟩
        have hle : (bytes.take (min len SocketDescriptor.maxReadSize)).length ≤ len :=
          (List.length_take_le _ _).trans (Nat.min_le_left _ _)
        rw [hsilent _ _ _ rfl]
        exact Prog.attempt_ok (m := Io.read len) (Io.read_entry hle _ _ _)
      · exact ⟨.error _, _, _, rfl, rfl, rfl, fun log out => by rw [hsilent _ _ _ rfl]; rfl⟩
  | write buf =>
      rcases answers with _ | ⟨⟨v, bytes⟩ | errno, answers⟩
      · exact ⟨.error _, _, _, rfl, rfl, rfl, fun log out => by rw [hsilent _ _ _ rfl]; rfl⟩
      · set part := buf.take SocketDescriptor.maxWriteSize with hpart
        refine ⟨.ok (min v part.length), _, _, rfl, rfl, rfl, fun log out => ?_⟩
        have hmin : min (min v part.length) buf.length = min v part.length := by
          rw [hpart, List.length_take]
          omega
        have htake : buf.take (min v part.length) = part.take v := by
          rw [hpart, List.take_take, List.length_take, List.take_eq_take_iff]
          omega
        have hrun : Io.write buf (Io.ofLog ((.send d.socket_.socket_ part, .ok v bytes) :: log)
            out) = (.ok (min v part.length), Io.ofLog log (out ++ part.take v)) := by
          rw [← hmin, ← htake]
          rfl
        exact Prog.attempt_ok (m := Io.write buf) hrun
      · exact ⟨.error _, _, _, rfl, rfl, rfl, fun log out => by rw [hsilent _ _ _ rfl]; rfl⟩

/-- **A socket is an `Io`**: the one of which the same calls are made. -/
theorem socket_refines_io {α : Type} (c : Client Transfer Transfer.Result α) (d : SocketDescriptor)
    (k : Kernel) (out : List UInt8) : ∃ a k' log,
      c.run Transfer.onSocket (d, k) = (.ok a, d, k') ∧ k'.log = k.log ++ log ∧
      (∀ e ∈ log, e.1.IsTransfer d.socket_.socket_) ∧
      c.run Transfer.onIo (Io.ofLog log out) =
        (.ok a, ⟨[], [], out ++ log.flatMap NetCall.sent⟩) := by
  induction c generalizing k out with
  | done a =>
      refine ⟨a, k, [], rfl, (List.append_nil _).symm, fun _ h => absurd h List.not_mem_nil, ?_⟩
      rw [List.flatMap_nil, List.append_nil]
      rfl
  | call i next ih =>
      obtain ⟨r, e, k₁, hcall, hlog₁, he, hcall'⟩ := i.onSocket_onIo d k
      obtain ⟨a, k', log, hrun, hlog, hall, hrun'⟩ := ih r k₁ (out ++ NetCall.sent e)
      refine ⟨a, k', e :: log, (Prog.bind_ok hcall).trans hrun, ?_,
        List.forall_mem_cons.mpr ⟨he, hall⟩, ?_⟩
      · rw [hlog, hlog₁, List.append_assoc, List.singleton_append]
      · rw [List.flatMap_cons, ← List.append_assoc]
        exact (Prog.bind_ok (hcall' log out)).trans hrun'

end Fcgi
