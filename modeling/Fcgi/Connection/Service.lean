import Fcgi.Connection.Delivery
import Fcgi.Connection.Request

/-!
# Connection — a request served

From the bytes a client sends to the bytes it gets, for any application.

**`request_served`**: whatever the records a request is sent in, the padding in them and the pieces
their bytes arrive in, the client gets what the application makes of the request where there is
nothing but the parameters and the input in parts (`Application.model`).

What `Encoding` and `Sent` leave out is said there: padding where the code does not pass it over,
and a begin-request record that does not come as two reads of eight bytes.  Three results are put
together: `accept()` returns the connection (`Encoding.accepted`), the application does with it what
it does in the model (`Application.refined`), and the destruction sends what is pending and the end
(`destroy_completes`).  `copy` is an application to try it on: **`copy_served`**.
-/

namespace Fcgi
open Lib

/-- The whole life of a connection with an application, to which its parameters are known. -/
def Application.lifetime (uninit : Uninit) (fuel : Nat)
    (app : List (List UInt8 × List UInt8) → Application) : World.M Unit := fun w =>
  match accept uninit fuel w with
  | (.ok c, _) =>
    let serve : Connection.M Unit := do
      let _ ← (app c.parameters_.contents).exec fuel
      Connection.destroy
    ((serve c).1, (serve c).2.world)
  | (.error x, w) => (.error x, w)

namespace Trace

/-- The calls that are made. -/
def calls (tr : Trace) : List Op := tr.map Prod.fst

/-- The bytes written to `out()`. -/
def out (tr : Trace) : List UInt8 := tr.calls.flatMap Op.outBytes

/-- The bytes written to `err()`. -/
def err (tr : Trace) : List UInt8 := tr.calls.flatMap Op.errBytes

/-- The application status in the end. -/
def status (tr : Trace) : BitVec 32 := tr.calls.foldl Op.status 0

end Trace

/-- What a client gets from an application that has made the calls `tr`: the request is ended, with
its status, after all that has been written. -/
structure Answered (id : Nat) (tr : Trace) (rs : List Record) : Prop where
  ended : (conversation id).run (.open false) rs = some .ended
  out : streamContent .out rs = tr.out
  err : streamContent .err rs = tr.err
  last : rs.getLast? = some (Record.endRequest id tr.status .requestComplete)

section

variable {uninit : Uninit} {fuel : Nat} {w w' : World} {c c' : Connection} {tr : Trace}
  {f : Feed UInt8} {app : List (List UInt8 × List UInt8) → Application}

/-- A lifetime is `accept()`, the application and the destruction. -/
theorem Application.lifetime_ok (haccept : accept uninit fuel w = (.ok c, w'))
    (hexec : (app c.parameters_.contents).exec fuel c = (.ok tr, c')) :
    Application.lifetime uninit fuel app w =
      ((Connection.destroy c').1, (Connection.destroy c').2.world) := by
  simp only [Application.lifetime, haccept, Prog.bind_ok hexec]

/-- A filter that has come to its data may close the connection, as any other may. -/
theorem Provides.mayClose (h : Provides f c) (hend : c.role_ = .filter → f.parts.length ≤ 1) :
    MayClose c.role_ c.in_.streambuf_ := by
  by_cases hrole : c.role_ = .filter
  · -- What a filter reads after stdin is data.
    have hdata : ∀ t : StreamType, ReaderOk c.role_ t → c.in_.streambuf_.type_ = t →
        ¬ (c.info.role = .filter ∧ t = .«in») → c.in_.streambuf_.type_ = .data := by
      rintro t hr ht hf
      rcases h.writable.mayRead.stream with ha | hp
      · cases hrole.symm.trans ha
      · rcases hr with rfl | hr | ⟨hr, -⟩ | ⟨-, rfl | rfl⟩
        · exact absurd ht hp
        · cases hrole.symm.trans hr
        · cases hrole.symm.trans hr
        · exact absurd ⟨hrole, rfl⟩ hf
        · exact ht
    obtain ⟨⟨hin, -⟩, -, -⟩ := h.input
    generalize hps : f.parts = ps at hin
    cases hin with
    | stream hs _ hf =>
        obtain ⟨area, body, pad, rs, hidle, -⟩ := hs.idle
        exact .inr (.inl (hdata _ (hidle.type ▸ hidle.openReader.readerOk) hidle.type hf))
    | stdin =>
        have := hend hrole
        rw [hps, List.length_cons, List.length_singleton] at this
        omega
    | ended he hf => exact .inr (.inl (hdata _ (he.type ▸ he.openReader.readerOk) he.type hf))
  · exact .inl hrole

variable (uninit app) in
/-- What is sent when the connection is destroyed completes what has been sent before. -/
theorem Provides.answered (hwritten : w.io.written = []) (hsends : w.io.sends = [])
    (haccept : accept uninit fuel w = (.ok c, w'))
    (hexec : (app c.parameters_.contents).exec fuel c = (.ok tr, c')) (h : Provides f c')
    (hmay : MayClose c'.role_ c'.in_.streambuf_) (hstatus : c'.applicationStatus_ = tr.status) :
    ∃ rs, (Application.lifetime uninit fuel app w).2.io.written = Frame.join rs ∧
      Answered c.requestId_ tr rs := by
  have hrun := Application.exec_run hexec
  obtain ⟨hspeak, h0, hid⟩ := accept_speaking hwritten haccept
  have hspeak' := (run_speaks fuel h0 hid tr.calls).of_ok hspeak hrun
  have hcarried := ((run_intact fuel (I := Carried) (fun hs h => hs.carried h) tr.calls []).of_ok
    ⟨.inl (accept_intact hsends haccept), accept_carried hwritten hsends haccept⟩ hrun).2
  rw [List.nil_append] at hcarried
  obtain ⟨errs, outs, rs, c'', hclosing, hworld, hdestroy⟩ := h.writable.destroy hmay
  obtain ⟨rs', hrs', hout, herr, hsuffix⟩ := hcarried.closed h.writable hclosing hworld
  have hended : (conversation c.requestId_).run (.open false) rs' = some .ended := by
    obtain ⟨φ, hφ, rfl⟩ := (hspeak'.ended hid h.writable hclosing hworld).parse
    have hsame : c'.requestId_ = c.requestId_ := hspeak'.sound.requestId
    have hsent : c''.world.io.written = c'.world.io.written ++ Frame.join rs := by
      rw [hworld]
      rfl
    obtain ⟨rs₀, hrs₀, hplain⟩ :=
      h.accepting.append (hclosing.utters (hsame.symm ▸ hid)).plain hsent
    obtain rfl : rs₀ = rs' := Framing.join_injective (hrs₀.symm.trans hrs')
    rw [hrs', Record.parse, Framing.frames_join] at hφ
    exact (lenient_run (hsame ▸ hplain)).symm.trans hφ.run
  refine ⟨rs', by rw [Application.lifetime_ok haccept hexec, hdestroy, hrs'], hended, hout, herr,
    ?_⟩
  obtain ⟨before, rfl⟩ := hsuffix
  rw [hclosing.eq, ← List.append_assoc, List.getLast?_append, List.getLast?_cons_cons,
    List.getLast?_singleton, Option.some_or, hspeak'.sound.requestId, hstatus]

/-- How a client sends a request over a transport that does not fail.  The begin-request record is
read whole, header and body. -/
structure Sent {r : ClientRequest} (e : Encoding r) (w : World) : Prop where
  bytes : ∃ rest, w.io.bytes = e.bytes rest
  clean : w.io.Clean
  sends : w.io.sends = []
  written : w.io.written = []
  begin_ : ∃ io₁ io₂, Io.read 8 w.io = (.ok (e.begin_.bytes.take 8), io₁) ∧
    Io.read 8 io₁ = (.ok ((e.begin_.bytes.drop 8).take 8), io₂)

variable (uninit app) in
/-- With enough fuel, the application makes the calls it makes with its input in parts alone. -/
theorem Sent.runs {r : ClientRequest} {e : Encoding r} (h : Sent e w)
    (hmodel : (app r.parameters).model r.feed = some (tr, f)) :
    ∃ N c c' w', (∀ n, N ≤ n → accept uninit n w = (.ok c, w') ∧
        (app c.parameters_.contents).exec n c = (.ok tr, c')) ∧
      c.role_ = r.role ∧ c.requestId_ = r.id ∧ c.isKeepConnection_ = r.keep ∧
      c.parameters_.contents = r.parameters ∧ Provides f c' ∧ c'.role_ = r.role ∧
      c'.applicationStatus_ = tr.status := by
  obtain ⟨rest, hbytes⟩ := h.bytes
  obtain ⟨io₁, io₂, hheader, hbody⟩ := h.begin_
  obtain ⟨N, c, w', haccept, hrole, hid, hkeep, hparameters, hprovides⟩ :=
    e.accepted uninit hbytes h.clean h.sends h.written hheader hbody
  obtain ⟨c', ⟨M, hM⟩, hprovides', hrole', hstatus⟩ := Application.refined hprovides hmodel
  obtain ⟨s₀, s₁, hacc, -⟩ := accept_ok (haccept N (Nat.le_refl N))
  rw [hacc.status] at hstatus
  refine ⟨max N M, c, c', w', fun n hn => ⟨haccept n (by omega), ?_⟩, hrole, hid, hkeep,
    hparameters, hprovides', hrole'.trans hrole, hstatus⟩
  rw [hparameters]
  exact (hM n).2 (by omega)

/-- **A request is served.**  Whatever the records it is sent in and however they arrive,
`accept()` returns a connection for it, and the client gets what the application makes of it.  An
application that is a filter has to come to the end of stdin. -/
theorem request_served {r : ClientRequest} {e : Encoding r} (h : Sent e w)
    (hmodel : (app r.parameters).model r.feed = some (tr, f))
    (hread : r.role = .filter → f.parts.length ≤ 1) :
    ∃ N, ∀ n, N ≤ n →
      (∃ c w', accept uninit n w = (.ok c, w') ∧ c.role_ = r.role ∧ c.requestId_ = r.id ∧
        c.isKeepConnection_ = r.keep ∧ c.parameters_.contents = r.parameters) ∧
      ∃ rs, (Application.lifetime uninit n app w).2.io.written = Frame.join rs ∧
        Answered r.id tr rs := by
  obtain ⟨N, c, c', w', hrun, hrole, hid, hkeep, hparameters, hprovides, hrole', hstatus⟩ :=
    h.runs uninit app hmodel
  refine ⟨N, fun n hn => ⟨⟨c, w', (hrun n hn).1, hrole, hid, hkeep, hparameters⟩, ?_⟩⟩
  have hmay := hprovides.mayClose fun hf => hread (hrole'.symm.trans hf)
  rw [← hid]
  exact hprovides.answered uninit app h.written h.sends (hrun n hn).1 (hrun n hn).2 hmay hstatus

end

/-- Copies `in()` to `out()`, in at most `rounds` pieces of the size `chunk`. -/
def Application.copy (chunk : Nat) : Nat → Application
  | 0 => .done
  | rounds + 1 => .call (.«in» (.read chunk)) fun r =>
    match r with
    | .ok cs => .call (.out (.write cs)) fun _ =>
      if cs.length = chunk then copy chunk rounds else .done
    | .error _ => .done

/-- A filter is asked for "hi" and the data "x", with one parameter. -/
def greeting : ClientRequest where
  role := .filter
  id := 7
  keep := true
  parameters := [([65], [98])]
  stdin := [104, 105]
  data := [120]

/-- The records it is sent in: the parameters are in one, stdin in two of which one is padded. -/
def greetingBegin : Record :=
  Record.mk ⟨1, 1, 0, 7, 0, 8, 0, 0⟩ [0, 3, 1, 0, 0, 0, 0, 0] [] rfl rfl List.length_nil

/-- The records of its parameters. -/
def greetingParams : List Record :=
  [Record.mk ⟨1, 4, 0, 7, 0, 4, 0, 0⟩ [1, 1, 65, 98] [] rfl rfl List.length_nil]

/-- The records of its stdin, one of them padded. -/
def greetingStdin : List Record :=
  [Record.mk ⟨1, 5, 0, 7, 0, 1, 3, 0⟩ [104] [0, 0, 0] rfl rfl rfl,
    Record.mk ⟨1, 5, 0, 7, 0, 1, 0, 0⟩ [105] [] rfl rfl List.length_nil]

/-- The records of its data. -/
def greetingData : List Record :=
  [Record.mk ⟨1, 8, 0, 7, 0, 1, 0, 0⟩ [120] [] rfl rfl List.length_nil]

/-- The record that ends a stream, of the type `t`. -/
def greetingEnd (t : UInt8) : Record :=
  Record.mk ⟨1, t, 0, 7, 0, 0, 0, 0⟩ [] [] rfl List.length_nil List.length_nil

theorem greetingBegin_begins : FirstRecord.Begins greetingBegin.bytes :=
  ⟨rfl, ⟨rfl, by decide, rfl⟩, by decide, by decide⟩

theorem greeting_pairs : PairsBytes greeting.parameters [1, 1, 65, 98] :=
  @PairsBytes.cons [65] [98] [1] [1] [] [] (@LengthBytes.short 1 (by decide))
    (@LengthBytes.short 1 (by decide)) .nil

theorem greeting_small : ∀ p ∈ greeting.parameters, p.1.length + p.2.length < 2 ^ 31 := by decide

/-- The records are of the request and its parameters. -/
theorem greetingParams_carries :
    ∀ r ∈ greetingParams, r.Carries greeting.info .params inBufferSize := by decide

/-- The records are of the request and its stdin. -/
theorem greetingStdin_carries :
    ∀ r ∈ greetingStdin, r.Carries greeting.info .«in» inBufferSize := by decide

/-- The records are of the request and its data. -/
theorem greetingData_carries :
    ∀ r ∈ greetingData, r.Carries greeting.info .data inBufferSize := by decide

/-- A way of sending the request. -/
def greetingEncoding : Encoding greeting where
  begin_ := greetingBegin
  begins := greetingBegin_begins
  length := rfl
  role := rfl
  id := rfl
  keep := rfl
  pairs := [1, 1, 65, 98]
  encoded := greeting_pairs
  small := greeting_small
  params := ⟨greetingParams, greetingEnd 4, greetingParams_carries, ⟨⟨rfl, rfl⟩, rfl⟩, rfl⟩
  stdin := ⟨greetingStdin, greetingEnd 5, greetingStdin_carries, ⟨⟨rfl, rfl⟩, rfl⟩, rfl⟩
  data := ⟨greetingData, greetingEnd 8, greetingData_carries, ⟨⟨rfl, rfl⟩, rfl⟩, rfl⟩
  paramsUnpadded := fun _ => rfl
  stdinUnpadded := fun _ => rfl

/-- The first record arrives first, and then all the others but for the last two bytes. -/
def greetingSent : World where
  io := { incoming := [.data (greetingEncoding.begin_.bytes),
    .data (((greetingEncoding.bytes []).drop 16).dropLast.dropLast), .data [0, 0]] }

/-- The bytes arrive one by one after the first record. -/
theorem greeting_sent : Sent greetingEncoding greetingSent where
  bytes := ⟨[], by decide⟩
  clean := by decide
  sends := rfl
  written := rfl
  begin_ := ⟨_, _, rfl, rfl⟩

/-- The value of its parameter comes back to the client, and then stdin. -/
theorem request_served_echo :
    ∃ N, ∀ n, N ≤ n →
      (∃ c w', accept {} n greetingSent = (.ok c, w') ∧ c.role_ = .filter ∧ c.requestId_ = 7 ∧
        c.isKeepConnection_ = true ∧ c.parameters_.contents = [([65], [98])]) ∧
      ∃ rs, (Application.lifetime {} n (fun ps => .call (.out (.write (ps.flatMap Prod.snd)))
          fun _ => .copy 4 1) greetingSent).2.io.written = Frame.join rs ∧
        Answered 7 [(.out (.write [98]), .ok []), (.«in» (.read 4), .ok [104, 105]),
          (.out (.write [104, 105]), .ok [])] rs :=
  request_served greeting_sent rfl fun _ => Nat.le_refl 1

/-! ### Copying -/

/-- All of the part at hand is copied. -/
theorem Application.copy_model {chunk rounds : Nat} {cs : List UInt8} {ps : List (List UInt8)}
    {last : Option UInt8} (h : cs.length < rounds * chunk) :
    ∃ tr f, (copy chunk rounds).model ⟨cs :: ps, last, true⟩ = some (tr, f) ∧ f.parts = ps ∧
      Trace.out tr = cs ∧ Trace.err tr = [] ∧ Trace.status tr = 0 := by
  induction rounds generalizing cs last with
  | zero =>
      rw [Nat.zero_mul] at h
      cases h
  | succ rounds ih =>
      obtain ⟨⟨d, f₁⟩, hd⟩ : ∃ p, (⟨cs :: ps, last, true⟩ : Feed UInt8).take chunk = p := ⟨_, rfl⟩
      have hfst : d = cs.take chunk := (congrArg Prod.fst hd).symm.trans (Feed.take_fst _ _)
      have hfeed : (Op.«in» (.read chunk)).feed ⟨cs :: ps, last, true⟩ = some (d, f₁) :=
        congrArg some hd
      by_cases hle : chunk ≤ cs.length
      · -- A whole piece; the rest is copied after it.
        obtain ⟨hparts, hgood⟩ := @Feed.take_within _ chunk cs ps last true hle
        rw [hd] at hparts hgood
        obtain ⟨parts, last₁, good⟩ := f₁
        obtain rfl : parts = cs.drop chunk :: ps := hparts
        obtain rfl : good = true := hgood
        have hlen : d.length = chunk := by rw [hfst, List.length_take]; omega
        obtain ⟨tr, f, hmodel, hf, hout, herr, hstatus⟩ := @ih (cs.drop chunk) last₁ (by
           rw [List.length_drop, Nat.succ_mul] at *; omega)
        refine ⟨_, f, model_cons hfeed (model_cons rfl (by rwa [if_pos hlen])), hf, ?_, herr,
          hstatus⟩
        simp only [Trace.out, Trace.calls] at hout
        simp [Trace.out, Trace.calls, Op.outBytes, OutOp.bytes, hout, hfst]
      · -- The last piece.
        have hlen : d.length ≠ chunk := by rw [hfst, List.length_take]; omega
        have hall : cs.take chunk = cs := List.take_of_length_le (by omega)
        refine ⟨_, f₁, model_cons hfeed (model_cons rfl (by rw [if_neg hlen]; rfl)), ?_, ?_, rfl,
          rfl⟩
        · rw [show f₁ = _ from (congrArg Prod.snd hd).symm,
            Feed.take_beyond (Nat.lt_of_not_le hle)]
        · simp [Trace.out, Trace.calls, Op.outBytes, OutOp.bytes, hfst, hall]

/-- **Stdin comes back** to the client of an application that copies it, whatever the pieces it is
sent, received and copied in. -/
theorem copy_served {uninit : Uninit} {w : World} {r : ClientRequest} {e : Encoding r}
    (h : Sent e w) (hrole : r.role = .responder ∨ r.role = .filter) {chunk rounds : Nat}
    (hrounds : r.stdin.length < rounds * chunk) :
    ∃ N, ∀ n, N ≤ n → ∃ rs, (Application.lifetime uninit n
        (fun _ => .copy chunk rounds) w).2.io.written = Frame.join rs ∧
      (conversation r.id).run (.open false) rs = some .ended ∧
      streamContent .out rs = r.stdin ∧ streamContent .err rs = [] ∧
      rs.getLast? = some (Record.endRequest r.id 0 .requestComplete) := by
  -- A filter has its data left.
  obtain ⟨ps, hfeed, hps⟩ : ∃ ps, r.feed = ⟨r.stdin :: ps, none, true⟩ ∧ ps.length ≤ 1 := by
    rw [ClientRequest.feed]
    by_cases hr : r.role = .responder
    · exact ⟨[], if_pos hr, Nat.zero_le _⟩
    · exact ⟨[r.data], by rw [if_neg hr, if_pos (hrole.resolve_left hr)], Nat.le_refl _⟩
  obtain ⟨tr, f, hmodel, hparts, hout, herr, hstatus⟩ :=
    @Application.copy_model chunk rounds r.stdin ps none hrounds
  rw [← hfeed] at hmodel
  obtain ⟨N, c, c', w', hrun, -, hid, -, -, hprovides, hrole', hst⟩ :=
    h.runs uninit (fun _ => .copy chunk rounds) hmodel
  refine ⟨N, fun n hn => ?_⟩
  obtain ⟨rs, hw, ha⟩ := hprovides.answered uninit (fun _ => .copy chunk rounds) h.written h.sends
    (hrun n hn).1 (hrun n hn).2 (hprovides.mayClose fun _ => hparts ▸ hps) hst
  rw [hid] at ha
  exact ⟨rs, hw, ha.ended, ha.out.trans hout, ha.err.trans herr, hstatus ▸ ha.last⟩

/-- The two characters of stdin come back. -/
theorem copy_served_bytewise :
    ∃ N, ∀ n, N ≤ n → ∃ rs, (Application.lifetime {} n
        (fun _ => .copy 1 3) greetingSent).2.io.written = Frame.join rs ∧
      (conversation 7).run (.open false) rs = some .ended ∧
      streamContent .out rs = [104, 105] ∧ streamContent .err rs = [] ∧
      rs.getLast? = some (Record.endRequest 7 0 .requestComplete) :=
  copy_served greeting_sent (.inr rfl) (by decide)

end Fcgi
