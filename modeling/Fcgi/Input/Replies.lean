import Fcgi.Streambuf.Reader

/-!
# Input — what the reader writes

The reader answers a header with whole records: `Reply conn t h r` says that `r` is an answer the
reader of the stream `t` may give to `h`.

* `fillReply_run`: the loop over the variables stores `replyContent` and fails its assertion
  exactly if the array is too short for it.
* `answer_run`: the record sent then is a get-values-result with this content.

The answer to a get-values record is put together in an array on the stack, whose bytes are those of
an earlier use.  The padding of the record is not stored, so its bytes are whatever the stack holds
(`replyBytes`); all other bytes are determined by the variables asked for.
-/

namespace Fcgi
open Lib

/-- The answers of a reader of the stream `t` to the header `h`. -/
inductive Reply (conn : ConnectionInfo) (t : StreamType) (h : Header) : Record → Prop
  /-- A new request, a violation, or a get-values record that ends too early. -/
  | endRequest
      (hh : h.recordType = .beginRequest ∨ h.isManagementRecord ∨
        h.requestId = conn.requestId ∧ h.recordType ≠ t.recordType) :
      Reply conn t h (Record.endRequest h.requestId 0 .cantMpxConn)
  | unknownType (hm : h.isManagementRecord) (ht : h.recordType ≠ .getValues) :
      Reply conn t h (Record.unknownType h.recordType)
  | getValuesResult {r : Record} (hm : h.isManagementRecord) (ht : h.recordType = .getValues)
      (hr : r.recordType = .getValuesResult) (hid : r.requestId = 0)
      (hsize : r.bytes.length % 8 = 0) : Reply conn t h r

/-- An end-request record is written. -/
theorem endRequest_eq (h : Header) (ps : ProtocolStatus) (s : State) :
    endRequest h ps s = onIo (Io.writeAll (Record.endRequest h.requestId 0 ps).bytes) s := by
  rw [endRequest, Prog.bind_ok (Record.endRequestRecord_run _)]

/-! ### The get-values-result -/

/-- The content of the answer to a get-values record that asks for `names`. -/
def replyContent (names : List (List UInt8)) : List UInt8 :=
  names.flatMap fun name =>
    match variableValue name with
    | none => []
    | some value => UInt8.ofNat name.length :: 1 :: (name ++ [value])

/-- The content of an answer, variable by variable. -/
theorem replyContent_cons (name : List UInt8) (names : List (List UInt8)) :
    replyContent (name :: names) = (match variableValue name with
      | none => []
      | some value => UInt8.ofNat name.length :: 1 :: (name ++ [value])) ++
        replyContent names := List.flatMap_cons

/-- The names of the variables are short. -/
theorem variableValue_length {name : List UInt8} {value : UInt8}
    (h : variableValue name = some value) : name.length ≤ 15 := by
  unfold variableValue at h
  split_ifs at h with h₁ h₂ h₃
  · subst h₁; decide
  · subst h₂; decide
  · subst h₃; decide

/-- The loop over the variables, evaluated. -/
theorem fillReply_run (header : Header) (s : State) : ∀ (pairs : List NameValue) (record : Mem)
    (p : Nat), p ≤ replySize →
    fillReply header pairs record p s =
      if p + (replyContent (pairs.map NameValue.name)).length ≤ replySize then
        (.ok (record.store p (replyContent (pairs.map NameValue.name)),
          p + (replyContent (pairs.map NameValue.name)).length), s)
      else (.error .abort, s)
  | [], record, p, hp => by
      rw [if_pos (by simpa [replyContent] using hp), fillReply, Prog.pure_run]
      rw [show replyContent (List.map NameValue.name []) = [] from rfl, List.length_nil,
        show record.store p [] = record from funext fun i => by simp [Mem.store]]
      rfl
  | pair :: pairs, record, p, hp => by
      rw [List.map_cons, replyContent_cons, fillReply]
      cases hv : variableValue pair.name with
      | none =>
          simp only [List.nil_append]
          exact fillReply_run header s pairs record p hp
      | some value =>
          have hlen := variableValue_length hv
          simp only []
          rw [if_neg (by omega), List.length_append, Mem.store_append]
          set entry := UInt8.ofNat pair.name.length :: 1 :: (pair.name ++ [value]) with he
          have hel : entry.length = pair.name.length + 3 := by
            simp only [he, List.length_cons, List.length_append, List.length_nil]
          by_cases hfit : pair.name.length + 3 ≤ replySize - p
          · rw [Prog.bind_ok (Prog.assert_true hfit _),
              fillReply_run header s pairs _ _ (by omega), hel]
            simp only [Nat.add_assoc]
          · rw [if_neg (by omega), Prog.bind_error (x := .abort)
              (by rw [Prog.assert_run, if_neg hfit])]

/-- The array that is sent, padded with the bytes that lay in its memory. -/
def replyBytes (stack : Mem) (names : List (List UInt8)) : List UInt8 :=
  ((stack.store 8 (replyContent names)).store 0 (Header.ofFields .getValuesResult 0
    (replyContent names).length (Math.pad8 (replyContent names).length)).bytes).load 0
    (8 + (replyContent names).length + Math.pad8 (replyContent names).length)

/-- It consists of the header, the content and the padding. -/
theorem replyBytes_eq (stack : Mem) (names : List (List UInt8)) :
    replyBytes stack names = (Header.ofFields .getValuesResult 0 (replyContent names).length
      (Math.pad8 (replyContent names).length)).bytes ++ (replyContent names ++
        stack.load (8 + (replyContent names).length)
          (Math.pad8 (replyContent names).length)) := by
  set c := replyContent names
  set h := Header.ofFields .getValuesResult 0 c.length (Math.pad8 c.length)
  have hh := Mem.load_store (stack.store 8 c) 0 h.bytes
  rw [Header.length_bytes] at hh
  have hc : ((stack.store 8 c).store 0 h.bytes).load 8 c.length = c := by
    rw [Mem.load_store_ge _ _ (Nat.le_refl 8), Mem.load_store]
  have hpad : ((stack.store 8 c).store 0 h.bytes).load (8 + c.length) (Math.pad8 c.length) =
      stack.load (8 + c.length) (Math.pad8 c.length) := by
    rw [Mem.load_store_ge _ _ (show 0 + h.bytes.length ≤ 8 + c.length by
      rw [Header.length_bytes]; omega), Mem.load_store_ge _ _ (Nat.le_refl _)]
  rw [replyBytes, Mem.load_add, Mem.load_add, hh, Nat.zero_add, Nat.zero_add, hc, hpad,
    List.append_assoc]

/-- An answer that fits into the array is written. -/
theorem sendGetValuesResult_eq {conn : ConnectionInfo} {header : Header} {vars : NamesValues}
    {names : List (List UInt8)} (hn : vars.pairs_.map NameValue.name = names)
    (hfit : 8 + (replyContent names).length ≤ replySize) (s : State) :
    sendGetValuesResult conn header vars s = onIo (Io.writeAll (replyBytes
      (conn.stack s.world.history.answers.length) names)) s := by
  have hrun := fillReply_run header s vars.pairs_
    (conn.stack s.world.history.answers.length) 8 (by decide)
  rw [hn, if_pos hfit] at hrun
  rw [replyBytes]
  set c := replyContent names
  have h64 : replySize = 64 := rfl
  have hp8 : Math.pad8 c.length < 8 := Math.pad8_lt _
  rw [sendGetValuesResult, Prog.bind_ok (Prog.get_run _), Header.size, Prog.bind_ok hrun]
  dsimp only
  rw [Nat.add_sub_cancel_left, Math.padding_streamsize (show c.length < 2 ^ 63 by omega),
    Prog.bind_ok (Prog.ofExcept_ok_run _ _), Math.toNat_pad8,
    Prog.bind_ok (Header.make_run (by omega) (by omega) _)]
  rfl

/-- What is sent for the variables `vars` is one record, if it fits into the array. -/
theorem sendGetValuesResult_run {conn : ConnectionInfo} {header : Header} {vars : NamesValues}
    {names : List (List UInt8)} (hn : vars.pairs_.map NameValue.name = names)
    (hfit : 8 + (replyContent names).length ≤ replySize) (s : State) :
    ∃ r : Record, r.recordType = .getValuesResult ∧ r.requestId = 0 ∧
      r.content = replyContent names ∧ r.bytes.length % 8 = 0 ∧
      sendGetValuesResult conn header vars s = onIo (Io.writeAll r.bytes) s := by
  have hbytes := replyBytes_eq (conn.stack s.world.history.answers.length) names
  have hrun : sendGetValuesResult conn header vars s = _ := sendGetValuesResult_eq hn hfit s
  set c := replyContent names
  have h64 : replySize = 64 := rfl
  have hp8 : Math.pad8 c.length < 8 := Math.pad8_lt _
  set pad := (conn.stack s.world.history.answers.length).load (8 + c.length) (Math.pad8 c.length)
    with hpad
  have hlen : pad.length = Math.pad8 c.length := Mem.length_load _ _ _
  refine ⟨Record.mk (Header.ofFields .getValuesResult 0 c.length (Math.pad8 c.length)) c pad
    (Header.protocolVersion_ofFields _) (Header.contentLength_ofFields _ (by omega)).symm
    (by rw [hlen, Header.paddingLength_ofFields _ (by omega)]), rfl, rfl, Record.content_mk _ _ _,
    ?_, ?_⟩
  · rw [Record.bytes_mk, List.length_append, List.length_append, hlen, Header.length_bytes]
    have := Math.add_pad8 c.length
    omega
  · rw [hrun, hbytes, Record.bytes_mk]

theorem sendGetValuesResult_abort {conn : ConnectionInfo} {header : Header} {vars : NamesValues}
    (hfit : ¬ 8 + (replyContent (vars.pairs_.map NameValue.name)).length ≤ replySize) (s : State) :
    sendGetValuesResult conn header vars s = (.error .abort, s) := by
  have hrun := fillReply_run header s vars.pairs_
    (conn.stack s.world.history.answers.length) 8 (by decide)
  rw [if_neg hfit] at hrun
  rw [sendGetValuesResult, Prog.bind_ok (Prog.get_run _), Header.size, Prog.bind_error hrun]

end Fcgi
