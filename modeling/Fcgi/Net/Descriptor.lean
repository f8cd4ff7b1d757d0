import Fcgi.Lib.Prog
import Fcgi.Base.Exceptions

/-!
# Net — the descriptor

`net::Descriptor` as the connection sees it.  What the transport will do is written down in
advance, in two scripts: one entry of `incoming` for what successive calls of `read` find, one
entry of `sends` for each call of `write`.  `read` hands out no more than what the first entry
holds, so the scripts range over every way of cutting the client's bytes into chunks.

* `Io.Clean`: no piece is empty and no call fails, so all bytes can be read.
* `Io.Final`: once a call has brought nothing, nothing more arrives.
* `Io.reach`: the bytes before the first call that brings nothing; up to there the cuts do not
  matter.
-/

namespace Fcgi
open Lib

/-- What a call of `read` finds. -/
inductive Recv where
  /-- These bytes have arrived; none means that the peer has closed. -/
  | data (bytes : List UInt8)
  /-- The system call fails. -/
  | error
  deriving DecidableEq, Repr

/-- What a call of `write` does. -/
inductive Send where
  /-- It sends this many bytes of the buffer, or the whole of a shorter one. -/
  | part (n : Nat)
  /-- It fails and sends nothing. -/
  | error
  deriving DecidableEq, Repr

/-- The descriptor.  With nothing left in `incoming` the peer has closed; with nothing left in
`sends` every write sends all its bytes. -/
structure Io where
  incoming : List Recv
  sends : List Send := []
  /-- All that has been sent. -/
  written : List UInt8 := []
  deriving DecidableEq, Repr

/-- The bytes an entry of `incoming` brings. -/
def Recv.bytes : Recv → List UInt8
  | .data bs => bs
  | .error => []

namespace Io

/-- The bytes the transport will still bring. -/
def bytes (io : Io) : List UInt8 := io.incoming.flatMap Recv.bytes

/-- `io->read(buf, len)`: the bytes put into `buf`, whose number is the value returned. -/
def read (len : Nat) : Prog Io Exception (List UInt8) := fun io =>
  match io.incoming with
  | [] => (.ok [], io)
  | .data bs :: rest =>
    (.ok (bs.take len),
      { io with incoming := if len < bs.length then .data (bs.drop len) :: rest else rest })
  | .error :: rest => (.error (.exc (.net "cannot read from socket")), { io with incoming := rest })

/-- `io->write(buf, len)`: the number of bytes sent. -/
def write (buf : List UInt8) : Prog Io Exception Nat := fun io =>
  match io.sends with
  | [] => (.ok buf.length, { io with written := io.written ++ buf })
  | .part n :: rest =>
    (.ok (min n buf.length), { io with sends := rest, written := io.written ++ buf.take n })
  | .error :: rest => (.error (.exc (.net "cannot write to socket")), { io with sends := rest })

/-- `io->write(buf, len)` and the assertion on its result that follows every call of it. -/
def writeAll (buf : List UInt8) : Prog Io Exception Unit := do
  let count ← write buf
  Prog.assert (count = buf.length)

theorem length_read {len : Nat} {io io' : Io} {bs : List UInt8}
    (h : read len io = (.ok bs, io')) : bs.length ≤ len := by
  obtain ⟨_ | ⟨⟨ds⟩ | _, rest⟩, sends, written⟩ := io
  · cases h; exact Nat.zero_le _
  · cases h; exact List.length_take_le _ _
  · cases h

/-- Reading sends nothing. -/
theorem read_sends {len : Nat} {io io' : Io} {r : Except (Fault Exception) (List UInt8)}
    (h : read len io = (r, io')) : io'.sends = io.sends ∧ io'.written = io.written := by
  obtain ⟨_ | ⟨⟨ds⟩ | _, rest⟩, sends, written⟩ := io <;> cases h <;> exact ⟨rfl, rfl⟩

/-- What a read brings is the first of the bytes to come. -/
theorem bytes_read {len : Nat} {io io' : Io} {bs : List UInt8}
    (h : read len io = (.ok bs, io')) : io.bytes = bs ++ io'.bytes := by
  obtain ⟨_ | ⟨⟨ds⟩ | _, rest⟩, sends, written⟩ := io <;> cases h
  · rfl
  · simp only [bytes, List.flatMap_cons, Recv.bytes]
    split
    · rw [List.flatMap_cons, Recv.bytes, ← List.append_assoc, List.take_append_drop]
    · rw [List.take_of_length_le (by omega)]

/-- A call of `read` that fails throws. -/
theorem read_error {len : Nat} {io io' : Io} {x : Fault Exception}
    (h : read len io = (.error x, io')) : ∃ e, x = .exc e := by
  obtain ⟨_ | ⟨⟨ds⟩ | _, rest⟩, sends, written⟩ := io <;> cases h
  exact ⟨_, rfl⟩

theorem bytes_read_error {len : Nat} {io io' : Io} {x : Fault Exception}
    (h : read len io = (.error x, io')) : io'.bytes = io.bytes := by
  obtain ⟨_ | ⟨⟨ds⟩ | _, rest⟩, sends, written⟩ := io <;> cases h
  rfl

/-- The three ways `writeAll` ends: all of `buf` is sent, nothing is, or only a part of it. -/
theorem writeAll_cases (buf : List UInt8) (io : Io) :
    (writeAll buf io = (.ok (), { io with
      sends := io.sends.tail, written := io.written ++ buf })) ∨
    (.error ∈ io.sends ∧ ∃ e, writeAll buf io = (.error (.exc e), { io with
      sends := io.sends.tail })) ∨
    (∃ n, .part n ∈ io.sends ∧ n < buf.length ∧ writeAll buf io = (.error .abort, { io with
      sends := io.sends.tail, written := io.written ++ buf.take n })) := by
  obtain ⟨incoming, sends, written⟩ := io
  rcases sends with _ | ⟨⟨n⟩ | _, rest⟩
  · left
    rw [writeAll, Prog.bind_ok (m := write buf) (a := buf.length) rfl]
    exact Prog.assert_true rfl _
  · by_cases h : buf.length ≤ n
    · left
      rw [writeAll, Prog.bind_ok (m := write buf) (a := min n buf.length) rfl,
        Prog.assert_true (by omega),
        List.take_of_length_le h, List.tail_cons]
    · refine .inr (.inr ⟨n, List.mem_cons_self, by omega, ?_⟩)
      rw [writeAll, Prog.bind_ok (m := write buf) (a := min n buf.length) rfl, Prog.assert_run,
        if_neg (by omega), List.tail_cons]
  · exact .inr (.inl ⟨List.mem_cons_self, _, rfl⟩)

theorem writeAll_run {io : Io} (h : io.sends = []) (buf : List UInt8) :
    writeAll buf io = (.ok (), { io with written := io.written ++ buf }) := by
  have hrun : write buf io = (.ok buf.length, { io with written := io.written ++ buf }) := by
    simp only [write, h]
  rw [writeAll, Prog.bind_ok hrun]
  exact Prog.assert_true rfl _

/-- The next write fails. -/
def WriteFails (io : Io) : Prop := io.sends.head? = some .error

instance (io : Io) : Decidable io.WriteFails := inferInstanceAs (Decidable (_ = _))

/-- A write that succeeds is not one that fails. -/
theorem writeAll_ok {buf : List UInt8} {io io' : Io} (h : writeAll buf io = (.ok (), io')) :
    ¬ io.WriteFails := by
  obtain ⟨incoming, _ | ⟨_ | _, rest⟩, written⟩ := io
  · exact fun hf => by cases hf
  · exact fun hf => by cases hf
  · cases h

theorem writeAll_exc {buf : List UInt8} {io io' : Io} {e : Exception}
    (h : writeAll buf io = (.error (.exc e), io')) : io.WriteFails := by
  obtain ⟨incoming, _ | ⟨n | _, rest⟩, written⟩ := io
  · rw [writeAll_run rfl] at h
    cases h
  · by_cases hn : min n buf.length = buf.length
    · simp only [writeAll, Prog.bind_run, write, Prog.assert_run, if_pos hn] at h
      cases h
    · simp only [writeAll, Prog.bind_run, write, Prog.assert_run, if_neg hn] at h
      cases h
  · rfl

/-- What a write does depends on the script of the writes only. -/
theorem writeAll_congr {io io' : Io} (h : io'.sends = io.sends) (hw : io'.written = io.written)
    (buf : List UInt8) : ∃ r ss out,
      writeAll buf io = (r, { io with sends := ss, written := out }) ∧
      writeAll buf io' = (r, { io' with sends := ss, written := out }) := by
  obtain ⟨incoming, sends, written⟩ := io
  obtain ⟨incoming', sends', written'⟩ := io'
  obtain rfl : sends' = sends := h
  obtain rfl : written' = written := hw
  have hrun : ∀ incoming, writeAll buf ⟨incoming, sends', written'⟩ =
      ((writeAll buf ⟨[], sends', written'⟩).1,
        { incoming, sends := (writeAll buf ⟨[], sends', written'⟩).2.sends,
          written := (writeAll buf ⟨[], sends', written'⟩).2.written }) := fun incoming => by
    rcases sends' with _ | ⟨⟨n⟩ | _, rest⟩
    · rw [writeAll_run rfl, writeAll_run rfl]
    · by_cases hn : min n buf.length = buf.length
      · simp only [writeAll, Prog.bind_run, write, Prog.assert_run, if_pos hn]
      · simp only [writeAll, Prog.bind_run, write, Prog.assert_run, if_neg hn]
    · rfl
  exact ⟨_, _, _, hrun incoming, hrun incoming'⟩

/-- What is left of a script when the first `n` of its bytes have been read. -/
def skip : Nat → List Recv → List Recv
  | 0, rs => rs
  | _, [] => []
  | n + 1, .error :: rs => .error :: skip (n + 1) rs
  | n + 1, .data bs :: rs =>
    if n + 1 < bs.length then .data (bs.drop (n + 1)) :: rs else skip (n + 1 - bs.length) rs

@[simp] theorem skip_zero (rs : List Recv) : skip 0 rs = rs := by
  cases rs <;> rfl

/-! ### A transport that works -/

/-- The client's bytes arrive in pieces, none of them empty, and no call fails. -/
def Clean (io : Io) : Prop := ∀ r ∈ io.incoming, r ≠ .data [] ∧ r ≠ .error

instance (io : Io) : Decidable io.Clean := by unfold Clean; infer_instance

/-- What a read brings is the first of the bytes to come; it is nothing only at their end. -/
theorem Clean.read {io : Io} (h : io.Clean) {len : Nat} (hlen : 0 < len) :
    ∃ bs io', Io.read len io = (.ok bs, io') ∧ io'.Clean ∧ io.bytes = bs ++ io'.bytes ∧
      (bs = [] → io.bytes = []) := by
  obtain ⟨_ | ⟨⟨ds⟩ | _, rest⟩, sends, written⟩ := io
  · exact ⟨[], _, rfl, h, rfl, fun _ => rfl⟩
  · have hne : ds ≠ [] := fun e => (h _ List.mem_cons_self).1 (e ▸ rfl)
    have hrest : ∀ r ∈ rest, r ≠ .data [] ∧ r ≠ .error := fun r hr =>
      h r (List.mem_cons_of_mem _ hr)
    refine ⟨ds.take len, _, rfl, ?_, ?_, fun e => absurd e ?_⟩
    · simp only [Clean]
      split
      · rename_i hlt
        refine List.forall_mem_cons.mpr ⟨⟨fun e => ?_, nofun⟩, hrest⟩
        have := List.drop_eq_nil_iff.mp (Recv.data.inj e)
        omega
      · exact hrest
    · exact bytes_read rfl
    · rw [List.take_eq_nil_iff]
      exact fun e => e.elim (by omega) hne
  · exact absurd rfl (h _ List.mem_cons_self).2

/-- A read from such a transport takes bytes from its front. -/
theorem Clean.of_read {io io' : Io} (h : io.Clean) {len : Nat} (hlen : 0 < len) {bs : List UInt8}
    (hread : Io.read len io = (.ok bs, io')) : io'.Clean ∧ io.bytes = bs ++ io'.bytes := by
  obtain ⟨bs', io'', hread', hc, hbytes, -⟩ := h.read hlen
  cases hread.symm.trans hread'
  exact ⟨hc, hbytes⟩

/-! ### A transport that may fail -/

/-- The bytes that entries of `incoming` bring before one that brings none. -/
def reachOf : List Recv → List UInt8
  | [] => []
  | r :: rs => if r.bytes = [] then [] else r.bytes ++ reachOf rs

/-- The bytes the transport will bring before a read that brings nothing. -/
def reach (io : Io) : List UInt8 := reachOf io.incoming

/-- As long as there are such bytes a read brings some of them, and then it brings nothing. -/
theorem read_reach (io : Io) {len : Nat} (hlen : 0 < len) :
    (∃ bs io', Io.read len io = (.ok bs, io') ∧ bs ≠ [] ∧ io.reach = bs ++ io'.reach) ∨
      (io.reach = [] ∧ ∃ r io', Io.read len io = (r, io') ∧
        (r = .ok [] ∨ ∃ e, r = .error (.exc e))) := by
  obtain ⟨_ | ⟨⟨ds⟩ | _, rest⟩, sends, written⟩ := io
  · exact .inr ⟨rfl, _, _, rfl, .inl rfl⟩
  · by_cases hds : ds = []
    · subst hds
      exact .inr ⟨rfl, _, _, rfl, .inl (by rw [List.take_nil])⟩
    · refine .inl ⟨ds.take len, _, rfl, ?_, ?_⟩
      · rw [ne_eq, List.take_eq_nil_iff]
        exact fun e => e.elim (by omega) hds
      · simp only [reach]
        by_cases hlt : len < ds.length
        · have hdrop : ds.drop len ≠ [] := fun e => by
            have := List.drop_eq_nil_iff.mp e
            omega
          rw [if_pos hlt, reachOf, reachOf, Recv.bytes, Recv.bytes, if_neg hds, if_neg hdrop,
            ← List.append_assoc, List.take_append_drop]
        · rw [if_neg hlt, reachOf, Recv.bytes, if_neg hds, List.take_of_length_le (by omega)]
  · exact .inr ⟨rfl, _, _, rfl, .inr ⟨_, rfl⟩⟩

theorem Clean.reach_eq {io : Io} (h : io.Clean) : io.reach = io.bytes := by
  obtain ⟨incoming, sends, written⟩ := io
  simp only [reach, bytes]
  induction incoming with
  | nil => rfl
  | cons r rs ih =>
      obtain ⟨hr, hrs⟩ := List.forall_mem_cons.mp h
      have hne : r.bytes ≠ [] := by
        cases r with
        | data ds => exact fun e => hr.1 (congrArg Recv.data e)
        | error => exact absurd rfl hr.2
      rw [reachOf, if_neg hne, ih hrs, List.flatMap_cons]

/-- Where nothing more arrives, a read changes nothing. -/
theorem read_closed {io : Io} (h : io.Clean) (hr : io.reach = []) (len : Nat) :
    Io.read len io = (.ok [], io) := by
  obtain ⟨_ | ⟨r, rs⟩, sends, written⟩ := io
  · rfl
  · have hbytes := h.reach_eq.symm.trans hr
    obtain ⟨hd, he⟩ := h r List.mem_cons_self
    cases r with
    | data ds => exact absurd (congrArg Recv.data (List.append_eq_nil_iff.mp hbytes).1) hd
    | error => exact absurd rfl he

/-- Once a read brings nothing, nothing more arrives. -/
def Final (io : Io) : Prop := io.incoming.Pairwise fun r r' => r.bytes = [] → r'.bytes = []

instance (io : Io) : Decidable io.Final := by unfold Final; infer_instance

/-- A read from such a transport leaves one. -/
theorem Final.of_read {io io' : Io} (h : io.Final) {len : Nat} (hlen : 0 < len)
    {r : Except (Fault Exception) (List UInt8)} (hread : Io.read len io = (r, io')) :
    io'.Final ∧ (∀ bs, r = .ok bs → io.bytes = bs ++ io'.bytes) ∧
      ((∀ bs, r = .ok bs → bs = []) → io'.bytes = []) := by
  obtain ⟨_ | ⟨⟨ds⟩ | _, rest⟩, sends, written⟩ := io
  · cases hread
    exact ⟨h, fun _ e => by cases e; rfl, fun _ => rfl⟩
  · obtain ⟨hds, hrest⟩ := List.pairwise_cons.mp h
    cases hread
    refine ⟨?_, fun bs e => ?_, fun hnil => ?_⟩
    · simp only [Final]
      split
      · refine List.pairwise_cons.mpr ⟨fun r' _ e => ?_, hrest⟩
        have := List.drop_eq_nil_iff.mp e
        omega
      · exact hrest
    · cases e
      exact bytes_read rfl
    · have hnil : ds = [] := (List.take_eq_nil_iff.mp (hnil _ rfl)).resolve_left (by omega)
      subst hnil
      simp only [bytes, List.length_nil, Nat.not_lt_zero, if_false]
      exact List.flatMap_eq_nil_iff.mpr fun r' hr' => hds r' hr' rfl
  · obtain ⟨hds, hrest⟩ := List.pairwise_cons.mp h
    cases hread
    exact ⟨hrest, nofun, fun _ => List.flatMap_eq_nil_iff.mpr fun r' hr' => hds r' hr' rfl⟩

end Io

end Fcgi
