import Fcgi.Connection.Accepted

/-!
# Connection — the begin-request record

`accept()` reads the record that begins a request by itself: eight bytes of header and eight bytes
of body.  It does not look at the padding length, so the padding is what the input buffer reads
first.

**`begin_request_consumed_iff`**: the record is consumed whole if and only if it has no padding.

To be consumed whole is to leave what follows the record, and to give the parameters that the same
request without the padding gives (`ConsumedWhole`).  What is left is the padding and what follows
(`begun_bytes`), so the first holds only where there is none, and then the second holds, for
`accept()` goes on in the same way (`accept_of_begun`).
-/

namespace Fcgi
open Lib

section

variable {uninit : Uninit} {fuel : Nat} {w w' : World} {h : Header} {b : BeginRequestBody}

/-- Once the first record has been read, the connection is constructed. -/
theorem accept_of_begun (hrun : readBeginRequest w = (.ok (h, b), w')) :
    accept uninit fuel w = Connection.construct uninit fuel b.role h.requestId b.isKeepConn w' := by
  rw [accept, Prog.bind_ok hrun]

/-- The sixteen bytes that are read of the record. -/
theorem readBeginRequest_ok (hrun : readBeginRequest w = (.ok (h, b), w')) :
    ∃ header body : List UInt8, header.length = 8 ∧ body.length = 8 ∧ h = Header.ofBytes header ∧
      h.contentLength = 8 ∧ w.io.bytes = header ++ (body ++ w'.io.bytes) ∧
      w' = w.setIo w'.io := by
  obtain ⟨header, body, io, hb⟩ := readBeginRequest_begun hrun
  refine ⟨header, body, hb.header_length, hb.body_length, hb.header_eq, hb.content, ?_, hb.world⟩
  rw [Io.bytes_read hb.read_header, Io.bytes_read hb.read_body]

/-- The world in which `n` more bytes have been read. -/
def World.behind (n : Nat) (w : World) : World :=
  w.setIo { w.io with incoming := Io.skip n w.io.incoming }

@[simp] theorem World.behind_zero (w : World) : w.behind 0 = w := by
  simp only [World.behind, Io.skip_zero, World.setIo]

/-- The begin-request record at the start of `w`, which has `n` bytes of padding, is consumed
whole by `accept()`, which begins to read the parameters in the world `w'`. -/
structure ConsumedWhole (uninit : Uninit) (n : Nat) (w : World) (h : Header)
    (b : BeginRequestBody) (w' : World) : Prop where
  consumed : w'.io.bytes.length + (8 + 8 + n) = w.io.bytes.length
  /-- The same request without this padding has the same parameters. -/
  parameters : ∀ {w₂ : World} {h₂ : Header}, h₂.requestId = h.requestId →
    readBeginRequest w₂ = (.ok (h₂, b), w'.behind n) → ∀ fuel,
    (accept uninit fuel w).1.map Connection.parameters_ =
      (accept uninit fuel w₂).1.map Connection.parameters_

/-- What is left when the parameters are to be read: the padding and what follows it. -/
theorem begun_bytes {r : Record} {rest : List UInt8} (hbytes : w.io.bytes = r.bytes ++ rest)
    (hrun : readBeginRequest w = (.ok (h, b), w')) : w'.io.bytes = r.padding ++ rest := by
  obtain ⟨header, body, hlen, hlen', rfl, hc, hw, -⟩ := readBeginRequest_ok hrun
  rw [hw, r.bytes_eq, List.append_assoc, List.append_assoc] at hbytes
  obtain ⟨hheader, hrest⟩ := List.append_inj hbytes hlen
  have hcontent : r.content.length = 8 := by
    rw [Record.length_content, ← hc, hheader, Header.ofBytes_bytes]
  exact (List.append_inj hrest (hlen'.trans hcontent.symm)).2

/-- **The begin-request record is consumed whole** if and only if it has no padding. -/
theorem begin_request_consumed_iff (uninit : Uninit) {w w' : World} {r : Record}
    {rest : List UInt8} {h : Header} {b : BeginRequestBody} (hbytes : w.io.bytes = r.bytes ++ rest)
    (hrun : readBeginRequest w = (.ok (h, b), w')) :
    ConsumedWhole uninit r.padding.length w h b w' ↔ r.padding = [] := by
  have hleft := begun_bytes hbytes hrun
  obtain ⟨header, body, hlen, hlen', -, -, hw, -⟩ := readBeginRequest_ok hrun
  constructor
  · intro hwhole
    have hcount := hwhole.consumed
    rw [hw, List.length_append, List.length_append] at hcount
    exact List.eq_nil_of_length_eq_zero (by omega)
  · intro hnil
    refine ⟨?_, fun {w₂ h₂} hid hrun₂ fuel => ?_⟩
    · rw [hw, List.length_append, List.length_append, hnil, List.length_nil]
      omega
    · rw [hnil, List.length_nil, World.behind_zero] at hrun₂
      rw [accept_of_begun hrun, accept_of_begun hrun₂, hid]

end

/-- The record that begins the request 1 of a responder, not padded. -/
def responderBegin : Record :=
  Record.mk ⟨1, 1, 0, 1, 0, 8, 0, 0⟩ [0, 1, 0, 0, 0, 0, 0, 0] [] rfl rfl rfl

/-- A first record without padding is consumed whole. -/
theorem begin_request_consumed_unpadded :
    ConsumedWhole {} responderBegin.padding.length (responderRequest [])
        ⟨1, 1, 0, 1, 0, 8, 0, 0⟩ ⟨0, 1, 0⟩
        ((responderRequest []).setIo { incoming := [.data [1, 4, 0, 1, 0, 0, 0, 0]] }) ↔
      responderBegin.padding = [] :=
  @begin_request_consumed_iff {} _ _ _ [1, 4, 0, 1, 0, 0, 0, 0] _ _ rfl rfl

/-- The same request, its first record padded by one byte. -/
def paddedRequest : World where
  io := { incoming := [.data [1, 1, 0, 1, 0, 8, 1, 0, 0, 1, 0, 0, 0, 0, 0, 0, 0,
    1, 4, 0, 1, 0, 0, 0, 0]] }

/-- The padding byte is not consumed, and `accept()` throws. -/
theorem begin_request_not_consumed : ∃ h b w', readBeginRequest paddedRequest = (.ok (h, b), w') ∧
    ¬ ConsumedWhole {} 1 paddedRequest h b w' := by
  refine ⟨_, _, _, rfl, fun hwhole => ?_⟩
  exact absurd hwhole.consumed (by decide)

end Fcgi
