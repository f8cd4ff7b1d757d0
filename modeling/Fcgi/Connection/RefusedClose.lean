import Fcgi.Output.Refusal
import Fcgi.Connection.StreamCalls

/-!
# Connection — a refused `close()`

`Reachable c`: `accept()` and some calls of an application lead to `c`.  **`refused_close`**: in
such a connection a `close()` that refuses has done nothing, so a run goes on as if it had not
been called.

The streams are closed in the order `err()`, `out()`, `in()`, and each may refuse.  The first that
is open decides: if it refuses nothing has been done yet, and if it does not the input permits to
close the others as well (`Connection.Closing`), for closing an output stream does not use the
input.
-/

namespace Fcgi
open Lib

/-- The connections that `accept()` and the calls of an application lead to, whatever the
transport does. -/
inductive Reachable : Connection → Prop
  | accept {uninit : Uninit} {fuel : Nat} {w w' : World} {c : Connection} (hw : w.history = {})
      (h : accept uninit fuel w = (.ok c, w')) : Reachable c
  | call {fuel : Nat} {op : Op} {r : Except Exception Unit} {c c' : Connection} (h : Reachable c)
      (hrun : Prog.attempt (op.exec fuel) c = (.ok r, c')) : Reachable c'

/-- The invariants of the runs hold in every such connection. -/
theorem Reachable.alive {c : Connection} (h : Reachable c) : Alive c := by
  induction h with
  | accept _ h =>
      obtain ⟨_, _, hacc, -⟩ := accept_ok h
      exact hacc.alive
  | call _ hrun ih => exact (Op.attempt_steps ih.members hrun).alive ih

/-- A run leads from one to another. -/
theorem Reachable.run {c : Connection} (h : Reachable c) {fuel : Nat} {ops : List Op}
    {c' : Connection} (hrun : run fuel ops c = (.ok (), c')) : Reachable c' := by
  induction ops generalizing c with
  | nil => cases hrun; exact h
  | cons op ops ih =>
      obtain ⟨r, c₁, hop, hrun⟩ := Prog.bind_eq_ok hrun
      exact ih (h.call hop) hrun

namespace Connection

variable {c c' : Connection}

/-- Between the parts of `close()`: nothing has been done yet, or the input buffer permits to
close the output streams. -/
def Closing (c d : Connection) : Prop :=
  d = c ∨ MayClose c.role_ c.in_.streambuf_ ∧ d.role_ = c.role_ ∧ d.out_ = c.out_ ∧ d.in_ = c.in_

/-- A `close()` that refuses has changed nothing: it refuses at the first stream that is open. -/
theorem close_refused (h : Members c) :
    Triple (fun d => d = c) close (fun _ _ => True) (fun x d => x = .exc refusal → d = c) := by
  refine Triple.get fun d hd => ?_
  subst hd
  refine Triple.bind (Q := fun _ => Closing d) ?_ fun _ =>
    Triple.bind (Q := fun _ c' => c'.in_ = d.in_) ?_ fun _ => ?_
  -- `err()` comes first, and its refusal leaves everything as it is.
  · rintro c rfl
    have href := Fcgi.close_refused c.info c.in_.streambuf_ c.errState _ rfl
    rcases e : Fcgi.close c.info c.in_.streambuf_ c.errState with ⟨x | _, s⟩ <;>
      simp only [e] at href <;> rw [onErr_run (m := fun conn => Fcgi.close conn _) e]
    · exact fun hx => congrArg c.setErr (href hx).1
    · exact (href h.err.isReader).imp (fun hc => congrArg c.setErr hc.2)
        fun hmay => ⟨hmay, rfl, rfl, rfl⟩
  · -- What permits `err()` to be closed permits `out()` to be.
    intro c' hc'
    have href := Fcgi.close_refused c'.info d.in_.streambuf_ c'.outState _ rfl
    have hin : c'.in_ = d.in_ := by
      rcases hc' with rfl | ⟨-, -, -, hin⟩
      · rfl
      · exact hin
    rcases e : Fcgi.close c'.info d.in_.streambuf_ c'.outState with ⟨x | _, s⟩ <;>
      simp only [e] at href <;> rw [onOut_run (m := fun conn => Fcgi.close conn _) e]
    · intro hx
      obtain ⟨hs, -, -, hmay⟩ := href hx
      rcases hc' with rfl | ⟨hmay', hrole, -, -⟩
      · exact congrArg c'.setOut hs
      · exact absurd (hrole ▸ hmay' : MayClose c'.role_ d.in_.streambuf_) hmay
    · exact hin
  · -- The input buffer is no output stream.
    intro c' hin
    have hr : c'.inState.buf.isReader = true := by
      rw [inState, hin]
      exact h.in_.elim (fun ho => ho.reader) fun hc => hc.reader
    have href := Fcgi.close_refused c'.info d.in_.streambuf_ c'.inState _ rfl
    rcases e : Fcgi.close c'.info d.in_.streambuf_ c'.inState with ⟨x | _, s⟩ <;>
      simp only [e] at href <;> rw [onIn_run (m := fun conn => Fcgi.close conn _) e]
    · intro hx
      cases hr.symm.trans (href hx).2.1
    · trivial

end Connection

/-- **A refused `close()` changes nothing**: no member of the connection and nothing sent, and
whatever is done afterwards runs as if it had not been called. -/
theorem refused_close {c c' : Connection} (h : Reachable c) (hclose : Connection.close c =
    (.error (.exc (.fcgi "not all FastCGI stdin has been read by Filter")), c')) :
    c' = c ∧ ∀ fuel ops, run fuel (.close :: ops) c = run fuel ops c := by
  have hc : c' = c := (Connection.close_refused h.alive.members).of_error rfl hclose rfl
  subst hc
  refine ⟨rfl, fun fuel ops => ?_⟩
  have hexec : Op.exec fuel .close c' = _ := hclose
  exact run_cons_exc hexec

/-- A world in which a client sends a request to a filter, with the request id 1 and no
parameters, and then `bytes`. -/
def filterRequest (bytes : List UInt8) : World where
  io := { incoming := [.data ([1, 1, 0, 1, 0, 8, 0, 0, 0, 3, 0, 0, 0, 0, 0, 0,
    1, 4, 0, 1, 0, 0, 0, 0] ++ bytes)] }

/-- Two of four bytes of stdin have been read. -/
theorem refused_close_half : ∃ c c', Reachable c ∧ Connection.close c = (.error (.exc (.fcgi
    "not all FastCGI stdin has been read by Filter")), c') ∧
    c' = c ∧ ∀ fuel ops, run fuel (.close :: ops) c = run fuel ops c := by
  obtain ⟨c₀, w', haccept, hrun⟩ := Prog.of_returns
    (r := accept {} 9 (filterRequest [1, 5, 0, 1, 0, 4, 0, 0, 104, 105]))
    (p := fun (c₀ : Connection) _ => Prog.returns (fun _ c => decide ((Connection.close c).1 =
      .error (.exc refusal))) (run 9 [.«in» (.read 2)] c₀)) (by decide +kernel)
  obtain ⟨_, c, hread, hrefused⟩ := Prog.of_returns hrun
  have hclose : Connection.close c = (.error (.exc refusal), (Connection.close c).2) :=
    Prod.ext (of_decide_eq_true hrefused) rfl
  have hc : Reachable c := (Reachable.accept rfl haccept).run hread
  exact ⟨c, _, hc, hclose, refused_close hc hclose⟩

end Fcgi
