import Fcgi.Basics.Lengths
import Fcgi.Input.Replies

/-!
# Input — the size of a get-values-result

The array `record` has room for the answer to the three variables, while a client may ask for one
as often as it likes.

**`reply_fits_iff`**: the answer fits into the array if and only if the entries of the variables
asked for, a variable counted as often as it is asked for, have at most 56 bytes.

The loop asserts before each entry that there is room for it, and an entry is stored whole; so all
entries are stored exactly if all of them together fit (`fillReply_run`), and their lengths are
those of the names and values (`length_replyContent`).
-/

namespace Fcgi
open Lib

/-- The size of the entry that answers a request for `name`. -/
def entryLength (name : List UInt8) : Nat :=
  if (variableValue name).isSome then name.length + 3 else 0

/-- The content is as long as its entries. -/
theorem length_replyContent (names : List (List UInt8)) :
    (replyContent names).length = (names.map entryLength).sum := by
  induction names with
  | nil => rfl
  | cons name names ih =>
      rw [replyContent_cons, List.length_append, ih, List.map_cons, List.sum_cons, entryLength]
      congr 1
      cases variableValue name with
      | none => rfl
      | some value => simp

/-- The answer to `vars` is built inside the array, and sent from it. -/
structure ReplyFits (conn : ConnectionInfo) (header : Header) (vars : NamesValues) (s : State) :
    Prop where
  /-- No assertion of the loop fails, and it leaves alone what is behind the array. -/
  loop : ∀ array : Mem, ∃ record p,
    fillReply header vars.pairs_ array Header.size s = (.ok (record, p), s) ∧ p ≤ replySize ∧
      ∀ i, replySize ≤ i → record i = array i
  /-- What is handed to `io->write` is not longer than the array. -/
  sent : ∃ bs : List UInt8, bs.length ≤ replySize ∧
    sendGetValuesResult conn header vars s = onIo (Io.writeAll bs) s

/-- **The answer fits into the array.** -/
theorem reply_fits_iff (conn : ConnectionInfo) (header : Header) (vars : NamesValues) (s : State) :
    ReplyFits conn header vars s ↔
      ((vars.pairs_.map NameValue.name).map entryLength).sum ≤ 56 := by
  have hlen := length_replyContent (vars.pairs_.map NameValue.name)
  have h64 : replySize = 64 := rfl
  have hrun := fun array => fillReply_run header s vars.pairs_ array 8 (by decide)
  rw [← hlen]
  constructor
  · intro h
    obtain ⟨record, p, hok, -⟩ := h.loop fun _ => 0
    by_contra hlt
    have habort := (hrun fun _ => 0).trans (if_neg (by omega))
    cases habort.symm.trans hok
  · intro h
    have hfit : 8 + (replyContent (vars.pairs_.map NameValue.name)).length ≤ replySize := by omega
    refine ⟨fun array => ⟨_, _, (hrun array).trans (if_pos hfit), hfit, fun i hi => ?_⟩, _, ?_,
      sendGetValuesResult_eq rfl hfit s⟩
    · exact Mem.store_of_ge _ _ (Nat.le_trans hfit hi)
    · -- 64 is divisible by 8: the padding fits too.
      have := Math.add_pad8 (replyContent (vars.pairs_.map NameValue.name)).length
      have := Math.pad8_lt (replyContent (vars.pairs_.map NameValue.name)).length
      rw [replyBytes, Mem.length_load]
      omega

/-- `FCGI_MAX_REQS`, asked for four times. -/
def fourRequests : List UInt8 := (List.replicate 4 (13 :: 0 :: fcgiMaxReqs)).flatten

/-- The content is decoded, and the answer does not fit. -/
theorem reply_not_fits : ∃ vars is s,
    NamesValues.ofStream (pure none) 61 {} 3 (bytesHeld fourRequests) = (.ok (vars, is), s) ∧
    sendGetValuesResult { role := .responder, requestId := 1 } ⟨1, 9, 0, 0, 0, 60, 0, 0⟩ vars s =
      (.error .abort, s) ∧
    ¬ ReplyFits { role := .responder, requestId := 1 } ⟨1, 9, 0, 0, 0, 60, 0, 0⟩ vars s := by
  have key : (match NamesValues.ofStream (pure none) 61 {} 3 (bytesHeld fourRequests) with
      | (.ok (vars, _), _) =>
          decide (((vars.pairs_.map NameValue.name).map entryLength).sum = 64)
      | _ => false) = true := by decide +kernel
  rcases hrun : NamesValues.ofStream (pure none) 61 {} 3 (bytesHeld fourRequests) with
    ⟨x | ⟨vars, is⟩, s⟩ <;> rw [hrun] at key
  · cases key
  · have hsum := of_decide_eq_true key
    refine ⟨vars, is, s, rfl, sendGetValuesResult_abort ?_ s, fun h => ?_⟩
    · rw [length_replyContent, hsum]
      decide
    · obtain ⟨record, p, hok, -⟩ := h.loop fun _ => 0
      rw [fillReply_run _ _ _ _ _ (by decide), length_replyContent, hsum] at hok
      cases hok

end Fcgi
