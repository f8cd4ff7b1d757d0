import Fcgi.Input.Headers

/-!
# Input — the characters of a stream

`Stream conn t size next out chars s`: the reader delivers `chars`, the contents of its own
records, before it gets to the bytes `next`.

* `Stream.sbumpc_cons`: the next character is the first of `chars`.
* `Stream.header`: after the last of them comes the header `next` starts with.
* **`contents_delivered`**: the contents of the records of a stream, and then the end of the
  stream, whatever the cuts and the padding.

A stream is what is at hand, what is left of the record the reader is in, and whole records behind
it.  One more record of the stream may be taken in from the bytes that follow (`Stream.absorb`), so
that its content becomes characters to be delivered; when none is left, the reader is in the padding
of the last record (`Stream.nil`).  Reading the characters is then an induction on `chars`, and the
cuts have been dealt with where the loop makes some of them available (`InLoop.stream`).
-/

namespace Fcgi
open Lib

/-- A record of the stream `t` with content, and no more of it than the buffer holds. -/
def Record.Carries (conn : ConnectionInfo) (t : StreamType) (size : Nat) (r : Record) : Prop :=
  r.head.IsOwn conn t ∧ 0 < r.head.contentLength ∧ r.head.contentLength ≤ size

/-- The record that ends the stream `t`. -/
def Record.Ends (conn : ConnectionInfo) (t : StreamType) (r : Record) : Prop :=
  r.head.IsOwn conn t ∧ r.head.contentLength = 0

/-- The contents of records, one after the other. -/
def Record.contents (rs : List Record) : List UInt8 := rs.flatMap Record.content

/-- A record that announces content has some. -/
theorem Record.content_ne_nil {r : Record} (h : 0 < r.head.contentLength) : r.content ≠ [] :=
  List.length_pos_iff.mp (r.length_content.symm ▸ h)

/-- The record that ends a stream has no content. -/
theorem Record.Ends.content {conn : ConnectionInfo} {t : StreamType} {r : Record}
    (h : r.Ends conn t) : r.content = [] :=
  List.eq_nil_of_length_eq_zero (r.length_content.trans h.2)

/-- Of the record the reader is in, `body` is to come; then `pad`, the records `rs`, and `next`. -/
structure Stream (conn : ConnectionInfo) (t : StreamType) (size : Nat)
    (next out chars : List UInt8) (s : State) : Prop where
  idle : ∃ (area body pad : List UInt8) (rs : List Record),
    Idle conn t size body.length pad.length out area
      (body ++ (pad ++ (Frame.join rs ++ next))) s ∧
    (∀ r ∈ rs, r.Carries conn t size) ∧ chars = area ++ (body ++ Record.contents rs)

section

variable {conn : ConnectionInfo} {t : StreamType} {size u p : Nat}
  {next out chars area bs rest hd : List UInt8} {s : State}

/-- A connection that serves the request 1 of a responder. -/
def ConnectionInfo.responder : ConnectionInfo where
  role := .responder
  requestId := 1

/-- A reader of the stream `t` with an empty buffer, to which `incoming` will come. -/
def State.fresh (t : StreamType) (incoming : List Recv) : State where
  buf :=
    { type_ := t
      buffer_ := fun _ => 0
      capacity := 2048
      bufferSize_ := 2048
      getArea := some ⟨0, 0, 0⟩ }
  world := { io := { incoming } }

/-- A new buffer is between two calls, with all bytes ahead. -/
theorem State.idle_fresh (incoming : List Recv) (hr : ReaderOk conn.role t)
    (ht : (State.fresh t incoming).buf.isReader = true)
    (hc : (State.fresh t incoming).world.io.Clean) :
    Idle conn t 2048 0 0 [] [] (incoming.flatMap Recv.bytes) (State.fresh t incoming) :=
  ⟨⟨⟨ht, hr, ⟨0, 0, 0, rfl, Nat.le_refl _, Nat.le_refl _, Nat.le_refl _, Nat.le_refl _⟩, rfl,
    Nat.zero_le _, Nat.le_refl 2048, (by decide : 2048 ≤ 65528), (rfl : 2048 % 8 = 0),
    Nat.le_refl _, Nat.zero_le _, Nat.zero_le _⟩, rfl, rfl, rfl, rfl, rfl, rfl, Nat.zero_le _, hc,
    rfl⟩, Nat.le_refl _, rfl, rfl⟩

/-! ### From one position to the next -/

/-- The body of a record is its content and its padding. -/
theorem InLoop.body {r : Record}
    (h : InLoop conn t size r.head.contentLength r.head.paddingLength out (r.body ++ rest) s) :
    InLoop conn t size r.content.length r.padding.length out
      (r.content ++ (r.padding ++ rest)) s := by
  rwa [r.length_content, r.length_padding, ← List.append_assoc, ← r.body_eq]

/-- With no character at hand, the next call starts there. -/
theorem Idle.inLoop (h : Idle conn t size u p out [] bs s) :
    InLoop conn t size u p out bs s ∧ s.buf.gptr = s.buf.egptr := by
  have hlen := congrArg List.length h.area
  rw [Mem.length_load, List.length_nil] at hlen
  have := h.ordered
  have heq : s.buf.gptr = s.buf.egptr := by omega
  exact ⟨⟨h.toSteady, heq ▸ h.bytes⟩, heq⟩

theorem Idle.underflow_eq (h : Idle conn t size u p out area bs s) (n : Nat) :
    underflow conn n s = underflowLoop conn n [] s.entered := h.pause.underflow_eq h.open_ n

/-- That it is entered is noted, and nothing else. -/
theorem Idle.entered (h : Idle conn t size u p out area bs s) :
    Idle conn t size u p out area bs s.entered :=
  ⟨{ h.toSteady with }, h.ordered, h.area, h.bytes⟩

/-- The next of the characters at hand. -/
theorem Idle.takeChar_cons (h : Idle conn t size u p out area bs s)
    (hlt : s.buf.gptr < s.buf.egptr) :
    ∃ c cs s', area = c :: cs ∧ takeChar s = (.ok (some c), s') ∧
      Idle conn t size u p out cs bs s' := by
  obtain ⟨c, cs, s', harea, htake, h', hworld⟩ := h.pause.takeChar hlt
  exact ⟨c, cs, s', harea, htake, h'.idle h.toSteady h.fits (hworld ▸ h.clean)⟩

/-- With content left, the loop makes some of it available. -/
theorem InLoop.stream {body pad : List UInt8} {rs : List Record}
    (h : InLoop conn t size body.length pad.length out
      (body ++ (pad ++ (Frame.join rs ++ next))) s) (hne : body ≠ [])
    (hrs : ∀ r ∈ rs, r.Carries conn t size) (header : List UInt8) :
    ∃ c s', Prog.Runs (fun n => underflowLoop conn n header) s (.ok (some c)) s' ∧
      Stream conn t size next out (body ++ Record.contents rs) s' ∧
      s'.buf.gptr < s'.buf.egptr := by
  obtain ⟨c, k, s', hrun, -, hk, hle, -, hpause, hclean⟩ := h.spot.provide
    (List.length_pos_iff.mpr hne) (Nat.le_succ_of_le h.fits)
    (fun e => hne (List.append_eq_nil_iff.mp e).1) header
  have h' := hpause.idle h.toSteady (Nat.le_trans (Nat.sub_le _ _) h.fits) (hclean h.clean)
  rw [List.take_append_of_le_length hle, List.drop_append_of_le_length hle,
    ← List.length_drop] at h'
  refine ⟨c, s', hrun, ⟨_, _, _, _, h', hrs, ?_⟩, ?_⟩
  · rw [← List.append_assoc, List.take_append_drop]
  · have := congrArg List.length h'.area
    rw [Mem.length_load, List.length_take] at this
    omega

/-! ### Calls of the stream buffer -/

/-- The next of the characters at hand. -/
theorem Stream.takeChar_cons (h : Stream conn t size next out chars s)
    (hlt : s.buf.gptr < s.buf.egptr) :
    ∃ c cs s', chars = c :: cs ∧ takeChar s = (.ok (some c), s') ∧
      Stream conn t size next out cs s' := by
  obtain ⟨area, body, pad, rs, hidle, hrs, rfl⟩ := h.idle
  obtain ⟨c, cs, s', rfl, htake, h'⟩ := hidle.takeChar_cons hlt
  exact ⟨c, _, s', rfl, htake, ⟨_, _, _, _, h', hrs, rfl⟩⟩

/-- Where none is at hand, `underflow()` makes some available. -/
theorem Stream.underflow_cons (hid : conn.requestId ≠ 0) {c : UInt8}
    (h : Stream conn t size next out (c :: chars) s) (hge : s.buf.egptr ≤ s.buf.gptr) :
    ∃ c₀ s', Prog.Runs (underflow conn) s (.ok (some c₀)) s' ∧
      Stream conn t size next out (c :: chars) s' ∧ s'.buf.gptr < s'.buf.egptr := by
  obtain ⟨area, body, pad, rs, hidle, hrs, hchars⟩ := h.idle
  obtain rfl : area = [] := by
    rw [← hidle.area, Nat.sub_eq_zero_of_le hge, Mem.load_zero]
  have hloop : Prog.Leads (underflow conn) s (fun n => underflowLoop conn n []) s.entered :=
    .of_eq hidle.underflow_eq
  replace hidle := hidle.entered
  rw [List.nil_append] at hchars
  by_cases hne : body = []
  · subst hne
    rw [List.nil_append] at hchars
    cases rs with
    | nil => cases hchars
    | cons r rs =>
        obtain ⟨⟨ho, hpos, hsize⟩, hrs'⟩ := List.forall_mem_cons.mp hrs
        have hin := hidle.inLoop.1
        rw [List.nil_append, Frame.join_cons, Frame.bytes, List.append_assoc,
          List.append_assoc] at hin
        obtain ⟨s₁, h₁, hleads⟩ := hin.header_ahead []
          ((Nat.zero_add _).trans r.header_length) r.header_ne_nil
        obtain ⟨s₂, h₂, hleads'⟩ := h₁.own_content hid
          r.protocolVersion_head ho hpos hsize
        obtain ⟨c₀, s₃, hrun, h₃⟩ := (h₂.body (r := r)).stream (r.content_ne_nil hpos) hrs'
          r.header
        rw [List.nil_append] at hleads
        exact ⟨c₀, s₃, hloop.runs (hleads.runs (hleads'.runs hrun)), hchars ▸ h₃⟩
  · obtain ⟨c₀, s', hrun, h'⟩ := hidle.inLoop.1.stream hne hrs []
    exact ⟨c₀, s', hloop.runs hrun, hchars ▸ h'⟩

/-- The records of the stream that come next. -/
theorem Stream.absorb {r : Record} (h : Stream conn t size (r.bytes ++ next) out chars s)
    (hr : r.Carries conn t size) : Stream conn t size next out (chars ++ r.content) s := by
  obtain ⟨area, body, pad, rs, hidle, hrs, rfl⟩ := h.idle
  refine ⟨area, body, pad, rs ++ [r], ?_, ?_, ?_⟩
  · rw [Frame.join_append, Frame.join_cons, Frame.join_nil, List.append_nil, List.append_assoc]
    exact hidle
  · exact List.forall_mem_append.mpr ⟨hrs, List.forall_mem_singleton.mpr hr⟩
  · simp only [Record.contents, List.flatMap_append, List.flatMap_singleton, List.append_assoc]

/-- After the characters, the reader is in the padding of the last record. -/
theorem Stream.nil (h : Stream conn t size next out [] s) :
    ∃ pad, Idle conn t size 0 pad.length out [] (pad ++ next) s := by
  obtain ⟨area, body, pad, rs, hidle, hrs, hchars⟩ := h.idle
  obtain ⟨rfl, hchars'⟩ := List.append_eq_nil_iff.mp hchars.symm
  obtain ⟨rfl, hcontents⟩ := List.append_eq_nil_iff.mp hchars'
  obtain rfl : rs = [] := by
    cases rs with
    | nil => rfl
    | cons r rs =>
        have hr := (hrs r List.mem_cons_self).2.1
        have := congrArg List.length hcontents
        rw [Record.contents, List.flatMap_cons, List.length_append, r.length_content,
          List.length_nil] at this
        omega
  exact ⟨pad, hidle⟩

/-- Then `underflow()` gets to the header that comes next. -/
theorem Stream.header (h : Stream conn t size (hd ++ rest) out [] s) (hlen : hd.length = 8) :
    ∃ s', InLoop conn t size 0 0 out rest s' ∧
      Prog.Leads (underflow conn) s (afterHeader conn hd) s' := by
  obtain ⟨pad, hidle⟩ := h.nil
  obtain ⟨s', h', hleads⟩ := hidle.entered.inLoop.1.header_ahead []
    ((Nat.zero_add _).trans hlen) (fun e => by rw [e] at hlen; cases hlen)
  rw [List.nil_append] at hleads
  exact ⟨s', h', (Prog.Leads.of_eq hidle.underflow_eq).trans hleads⟩

/-- With no characters to come, none is at hand. -/
theorem Stream.past (h : Stream conn t size next out [] s) : s.buf.egptr ≤ s.buf.gptr := by
  obtain ⟨pad, hidle⟩ := h.nil
  exact Nat.le_of_eq hidle.inLoop.2.symm

/-- The next character. -/
theorem Stream.sbumpc_cons (hid : conn.requestId ≠ 0) {c : UInt8}
    (h : Stream conn t size next out (c :: chars) s) :
    ∃ s', Prog.Runs (fun n => sbumpc (underflow conn n)) s (.ok (some c)) s' ∧
      Stream conn t size next out chars s' := by
  by_cases hlt : s.buf.gptr < s.buf.egptr
  · obtain ⟨c', cs, s', hcs, htake, h'⟩ := h.takeChar_cons hlt
    obtain ⟨rfl, rfl⟩ := List.cons.inj hcs
    exact ⟨s', sbumpc_here hlt htake, h'⟩
  · have hge := Nat.le_of_not_lt hlt
    obtain ⟨c₀, s₁, hrun, h₁, hlt₁⟩ := h.underflow_cons hid hge
    obtain ⟨c', cs, s', hcs, htake, h'⟩ := h₁.takeChar_cons hlt₁
    obtain ⟨rfl, rfl⟩ := List.cons.inj hcs
    exact ⟨s', sbumpc_some hge hrun htake, h'⟩

/-! ### Many characters -/

section xsgetn

variable {uf : Nat → M (Option UInt8)} {s' s'' : State} {c : UInt8} {cs : List UInt8}

/-- What `xsgetn()` does with a result of `sbumpc()`. -/
def xsgetnThen (uf : M (Option UInt8)) (k : Nat) : Option UInt8 → M (List UInt8)
  | none => pure []
  | some c => xsgetn uf k >>= fun cs => pure (c :: cs)

/-- The first of several characters, and then the others. -/
theorem xsgetn_succ (uf : M (Option UInt8)) (k : Nat) :
    xsgetn uf (k + 1) = (sbumpc uf >>= fun r => xsgetnThen uf k r) := by
  rw [xsgetn]
  congr 1

/-- The stream ends before the first. -/
theorem xsgetn_none (h : Prog.Runs (fun n => sbumpc (uf n)) s (.ok none) s') (k : Nat) :
    Prog.Runs (fun n => xsgetn (uf n) (k + 1)) s (.ok []) s' := by
  simp only [xsgetn_succ]
  exact h.bind (g := fun r n => xsgetnThen (uf n) k r) (.of_eq fun _ => rfl)

/-- There is a first one, and the others are read. -/
theorem xsgetn_some {k : Nat} (h : Prog.Runs (fun n => sbumpc (uf n)) s (.ok (some c)) s')
    (h' : Prog.Runs (fun n => xsgetn (uf n) k) s' (.ok cs) s'') :
    Prog.Runs (fun n => xsgetn (uf n) (k + 1)) s (.ok (c :: cs)) s'' := by
  simp only [xsgetn_succ]
  exact h.bind (g := fun r n => xsgetnThen (uf n) k r)
    (h'.bind (g := fun cs _ => pure (c :: cs)) (.of_eq fun _ => rfl))

theorem xsgetn_stuck (h : Prog.Stuck (fun n => sbumpc (uf n)) s) (k : Nat) :
    Prog.Stuck (fun n => xsgetn (uf n) (k + 1)) s := by
  simp only [xsgetn_succ]
  exact h.bind (g := fun r n => xsgetnThen (uf n) k r)

/-- There is a first one, and the others never come. -/
theorem xsgetn_some_stuck {k : Nat} (h : Prog.Runs (fun n => sbumpc (uf n)) s (.ok (some c)) s')
    (h' : Prog.Stuck (fun n => xsgetn (uf n) k) s') :
    Prog.Stuck (fun n => xsgetn (uf n) (k + 1)) s := by
  simp only [xsgetn_succ]
  exact h.bind_stuck (g := fun r n => xsgetnThen (uf n) k r)
    (h'.bind (g := fun cs _ => pure (c :: cs)))

end xsgetn

/-- All the characters, and then what comes after them. -/
theorem Stream.xsgetn_runs (hid : conn.requestId ≠ 0) {Q : State → Prop}
    (hend : ∀ s, Stream conn t size next out [] s →
      ∃ s', Prog.Runs (fun n => sbumpc (underflow conn n)) s (.ok none) s' ∧ Q s') :
    ∀ {chars : List UInt8} {s : State}, Stream conn t size next out chars s →
      ∃ s', Prog.Runs (fun n => xsgetn (underflow conn n) (chars.length + 1)) s (.ok chars) s' ∧
        Q s'
  | [], s, h => by
      obtain ⟨s', hrun, hs'⟩ := hend s h
      exact ⟨s', xsgetn_none hrun 0, hs'⟩
  | c :: chars, s, h => by
      obtain ⟨s₁, hrun, h₁⟩ := h.sbumpc_cons hid
      obtain ⟨s', hrun', hs'⟩ := Stream.xsgetn_runs hid hend h₁
      exact ⟨s', xsgetn_some hrun hrun', hs'⟩

/-- More characters are asked for than there are, and what follows is stuck. -/
theorem Stream.xsgetn_stuck (hid : conn.requestId ≠ 0)
    (hend : ∀ s, Stream conn t size next out [] s →
      Prog.Stuck (fun n => sbumpc (underflow conn n)) s) :
    ∀ {chars : List UInt8} {s : State} {k : Nat}, Stream conn t size next out chars s →
      chars.length < k → Prog.Stuck (fun n => xsgetn (underflow conn n) k) s
  | _, _, 0, _, hk => absurd hk (Nat.not_lt_zero _)
  | [], s, k + 1, h, _ => Fcgi.xsgetn_stuck (hend s h) k
  | c :: chars, s, k + 1, h, hk => by
      obtain ⟨s₁, hrun, h₁⟩ := h.sbumpc_cons hid
      exact xsgetn_some_stuck hrun
        (Stream.xsgetn_stuck hid hend h₁ (Nat.lt_of_succ_lt_succ hk))

/-! ### The end of a stream -/

/-- A stream that has ended stays so. -/
theorem Ended.underflow_eq (h : Ended conn t size out bs s) (n : Nat) :
    underflow conn n s = (.ok none, s) :=
  (h.openReader.underflow_eq n).trans (if_pos h.ended)

/-- The stream ends where its last record does, less the padding of it. -/
theorem Stream.ends (hid : conn.requestId ≠ 0) {last : Record} (hlast : last.Ends conn t)
    (h : Stream conn t size (last.bytes ++ rest) out [] s) :
    ∃ s', Prog.Runs (underflow conn) s (.ok none) s' ∧
      if conn.role = .filter ∧ t = .«in» then
        Idle conn .data size 0 0 out [] (last.padding ++ rest) s'
      else Ended conn t size out (last.padding ++ rest) s' := by
  rw [Frame.bytes, List.append_assoc] at h
  obtain ⟨s₁, h₁, hleads⟩ := h.header last.header_length
  rw [last.body_eq, hlast.content, List.nil_append] at h₁
  obtain ⟨s', hrun, hs'⟩ := h₁.own_end hid last.protocolVersion_head hlast.1
    hlast.2
  exact ⟨s', hleads.runs hrun, hs'⟩

/-- The record that ends the stream has been read. -/
theorem Stream.sbumpc_end (hid : conn.requestId ≠ 0) {last : Record} (hlast : last.Ends conn t)
    (h : Stream conn t size (last.bytes ++ rest) out [] s) :
    ∃ s', Prog.Runs (fun n => sbumpc (underflow conn n)) s (.ok none) s' ∧
      if conn.role = .filter ∧ t = .«in» then
        Idle conn .data size 0 0 out [] (last.padding ++ rest) s'
      else Ended conn t size out (last.padding ++ rest) s' := by
  obtain ⟨s', hrun, hs'⟩ := h.ends hid hlast
  exact ⟨s', sbumpc_none h.past hrun, hs'⟩

/-- A reader at the start of a record. -/
theorem Idle.stream (h : Idle conn t size 0 0 out [] bs s) (rs : List Record)
    (hbs : bs = Frame.join rs ++ next) (hrs : ∀ r ∈ rs, r.Carries conn t size) :
    Stream conn t size next out (Record.contents rs) s :=
  ⟨[], [], [], rs, by rw [← hbs]; exact h, hrs, rfl⟩

/-- **The characters of a stream** are the contents of its records, and then it ends: however the
bytes arrive, and whatever the padding is.  But for the stdin of a filter, it stays so, and nothing
more is read. -/
theorem contents_delivered (rs : List Record) (last : Record) (hid : conn.requestId ≠ 0)
    (h : Idle conn t size 0 0 out [] (Frame.join rs ++ (last.bytes ++ rest)) s)
    (hrs : ∀ r ∈ rs, r.Carries conn t size) (hlast : last.Ends conn t) :
    ∃ s', Prog.Runs (fun n => xsgetn (underflow conn n) ((Record.contents rs).length + 1)) s
        (.ok (Record.contents rs)) s' ∧
      (¬ (conn.role = .filter ∧ t = .«in») → ∀ n, underflow conn n s' = (.ok none, s')) := by
  obtain ⟨s', hrun, hs'⟩ := (h.stream _ rfl hrs).xsgetn_runs hid
    (fun s hs => hs.sbumpc_end hid hlast)
  refine ⟨s', hrun, fun hf n => ?_⟩
  rw [if_neg hf] at hs'
  exact hs'.underflow_eq n

end

/-- Two characters and a byte of padding, cut in the header and after the first character. -/
theorem contents_delivered_cut : ∃ s',
    Prog.Runs (fun n => xsgetn (underflow .responder n) 3)
      (State.fresh .params [.data [1, 4, 0], .data [1, 0, 2, 1, 0, 104],
        .data [105, 0, 1, 4, 0, 1, 0, 0, 0, 0]]) (.ok [104, 105]) s' ∧
    (¬ (Role.responder = .filter ∧ StreamType.params = .«in») →
      ∀ n, underflow .responder n s' = (.ok none, s')) :=
  contents_delivered [Record.mk (Header.ofFields .params 1 2 1) [104, 105] [0] rfl rfl rfl]
    (Record.mk (Header.ofFields .params 1 0 0) [] [] rfl rfl rfl) (by decide)
    (State.idle_fresh [.data [1, 4, 0], .data [1, 0, 2, 1, 0, 104],
      .data [105, 0, 1, 4, 0, 1, 0, 0, 0, 0]] (.inl rfl) rfl (by decide))
    (by simp only [List.mem_singleton, forall_eq]; exact ⟨⟨rfl, rfl⟩, by decide, by decide⟩)
    ⟨⟨rfl, rfl⟩, rfl⟩

end Fcgi
