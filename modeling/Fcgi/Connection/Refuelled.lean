import Fcgi.Connection.BeginRequest
import Fcgi.Lib.Refuel

/-!
# Connection — `accept()` with more fuel

**`accept_refuels`**: an `accept()` that ends, with whatever fuel, ends the same with more.

The loops of the reader take fuel, one for each round, and a run that ends has not used it up.
`Refuels` (`Lib/Refuel.lean`) is closed under the constructs of a program, so there is one lemma for
each function between the loop of `underflow()` and `accept()`, along its body.
-/

namespace Fcgi
open Lib

section

variable {u v : M (Option UInt8)} (h : Refuels u v)

include h

/-! ### Reading names and values -/

theorem sbumpc_refuels : Refuels (sbumpc u) (sbumpc v) :=
  .bind_right _ fun _ => .ite (.refl _) (.bind_left _ h)

theorem xsgetn_refuels (n : Nat) : Refuels (xsgetn u n) (xsgetn v n) := by
  induction n with
  | zero => exact .refl _
  | succ n ih =>
      refine .bind (sbumpc_refuels h) fun r => ?_
      cases r with
      | none => exact .refl _
      | some c => exact .bind_left _ ih

theorem get_refuels (is : Istream) : Refuels (is.get u) (is.get v) :=
  .ite (.bind_left _ (.attempt (sbumpc_refuels h))) (.refl _)

theorem read_refuels (is : Istream) (n : Int) : Refuels (is.read u n) (is.read v n) :=
  .ite (.bind_left _ (.attempt (xsgetn_refuels h n.toNat))) (.refl _)

theorem readLength_refuels (is : Istream) :
    Refuels (NamesValues.readLength u is) (NamesValues.readLength v is) := by
  refine .bind (get_refuels h is) fun p => ?_
  rcases p with ⟨_ | c, is₁⟩
  · exact .refl _
  · exact .ite (.bind_left _ (read_refuels h is₁ 3)) (.refl _)

theorem readPair_refuels (is : Istream) (nv : NamesValues) :
    Refuels (NamesValues.readPair u is nv) (NamesValues.readPair v is nv) := by
  refine .bind (readLength_refuels h is) fun p => ?_
  rcases p with ⟨_ | nameLength, is₁⟩
  · exact .refl _
  refine .bind (readLength_refuels h is₁) fun p => ?_
  rcases p with ⟨_ | valueLength, is₂⟩
  · exact .refl _
  · exact .bind_left _ (.bind_left _ (read_refuels h is₂ _))

variable {n n' : Nat} (hn : n ≤ n')

include hn

theorem ofStream_refuels (is : Istream) (reserve : Nat) :
    Refuels (NamesValues.ofStream u n is reserve) (NamesValues.ofStream v n' is reserve) :=
  .bind_right _ fun _ => .recLoop (fun _ _ _ _ _ _ p => readPair_refuels h p.1 p.2) hn _

/-! ### The loop of `underflow()` -/

variable (conn : ConnectionInfo)

theorem dispatch_refuels (header : Header) :
    Refuels (dispatch conn n u header) (dispatch conn n' v header) := by
  have hmanagement : Refuels (processManagementRecord conn n u header)
      (processManagementRecord conn n' v header) :=
    .ite (.bind_left _ (ofStream_refuels h hn {} 3)) (.refl _)
  exact .bind_right _ fun _ => .ite (.refl _) (.ite hmanagement (.refl _))

theorem processAccumulated_refuels (header : List UInt8) :
    Refuels (processAccumulated conn n u header) (processAccumulated conn n' v header) := by
  have hprocess : ∀ hd : Header, Refuels (processHeader conn n u hd) (processHeader conn n' v hd) :=
    fun hd => .bind_right _ fun _ => .bind_right _ fun _ =>
      .bind_left _ (dispatch_refuels h hn conn hd)
  exact .bind_right _ fun _ => .bind_left _ (hprocess _)

theorem underflowRound_refuels (header : List UInt8) :
    Refuels (underflowRound conn n u header) (underflowRound conn n' v header) := by
  refine .bind_right _ fun _ => .bind_right _ fun _ => .bind_right _ fun _ =>
    .bind_right _ fun r => ?_
  rcases r with _ | ⟨_ | c⟩
  · refine .bind_right _ fun _ => .bind_right _ fun _ => .bind_right _ fun _ =>
      .ite (.refl _) (.bind_right _ fun _ => .bind_right _ fun _ => .bind_right _ fun hd => ?_)
    exact .ite (.refl _) (.bind_right _ fun _ => .bind_right _ fun _ =>
      processAccumulated_refuels h hn conn hd)
  · exact .refl _
  · exact .refl _

end

section

variable {n n' : Nat} (hn : n ≤ n')

include hn

/-- **`underflow()`** ends the same with more fuel. -/
theorem underflow_refuels (conn : ConnectionInfo) :
    Refuels (underflow conn n) (underflow conn n') := by
  have henter : ∀ {m m' : M (Option UInt8)}, Refuels m m' →
      Refuels (enterUnderflow m) (enterUnderflow m') := fun hm =>
    .bind_right _ fun _ => .bind_right _ fun _ => .ite (.refl _) (.bind_right _ fun _ => hm)
  exact henter (.recLoop (fun _ _ _ _ hk hcall hd =>
    underflowRound_refuels (henter (hcall [])) hk conn hd) hn [])

/-! ### The connection -/

theorem readParameters_refuels (conn : ConnectionInfo) :
    Refuels (readParameters conn n) (readParameters conn n') :=
  .bind_left _ (ofStream_refuels (underflow_refuels hn conn) hn {} 32)

theorem construct_istream_refuels (conn : ConnectionInfo) (uninit : Uninit) :
    Refuels (ServerIstream.construct conn uninit n) (ServerIstream.construct conn uninit n') := by
  intro w
  obtain ⟨b, -, hsettled⟩ := construct_istream_settled conn uninit w
  rw [hsettled, hsettled]
  rcases readParameters_refuels hn conn ⟨b, w⟩ with hs | hs
  · rcases e : readParameters conn n ⟨b, w⟩ with ⟨r, s⟩
    rw [e] at hs
    obtain rfl : r = .error .spent := hs
    exact .inl rfl
  · exact .inr (congrArg settled hs)

/-- **`accept()` with more fuel** does the same, unless it was spent. -/
theorem accept_refuels (uninit : Uninit) : Refuels (accept uninit n) (accept uninit n') := by
  rw [accept, accept]
  exact .bind_right _ fun p => .bind_left _ (.bind_left _ (construct_istream_refuels hn _ uninit))

end

end Fcgi
