import Fcgi.Basics.Taken
import Fcgi.Input.Contents
import Fcgi.Input.Pause
import Fcgi.Input.Stable

/-!
# Input — a stream that is read to its end

Where `underflow()` says that the stream has ended, the characters taken before are the contents of
its records, down to the one that ends it: over any transport, and whatever else may happen.  This
is so unless content of an unknown management record has got into them (`Header.Leaks`).

* `Decodes conn t size u p bs chars rest`: with `u` bytes of content and `p` of padding of a record
  to come, `bs` holds `chars` and the end of the stream, and then `rest`.
* **`decodes_feeds`**: what is taken through `underflow()` is what the bytes decode to.

This is the converse of `contents_delivered`, where the client is known to send records of the
stream: here nothing is known of the client, and a run that comes to the end of the stream shows
that it has sent such.  For each kind of header it is asked what the loop can do after it, if it
returns at all (`dispatch_inv`, `Spot.afterHeader_inv`); only a record of the stream leads on.
-/

namespace Fcgi
open Lib

/-- The valid header of a management record of an unknown type with content. -/
def Header.Leaks (h : Header) : Prop :=
  h.protocolVersion = 1 ∧ h.isManagementRecord ∧ h.recordType ≠ .beginRequest ∧
    h.recordType ≠ .getValues ∧ 0 < h.contentLength

instance (h : Header) : Decidable h.Leaks := by unfold Header.Leaks; infer_instance

/-- The header of such a record has been processed. -/
def History.Mixed (history : History) : Prop := ∃ d ∈ history.dispatches, d.header.Leaks

instance (history : History) : Decidable history.Mixed := by unfold History.Mixed; infer_instance

theorem mixed_stable : Stable fun s => s.world.history.Mixed where
  buf _ _ _ h := h
  io _ _ _ h := h
  entry _ _ _ h := h
  dispatch _ _ _ := fun ⟨d, hd, hl⟩ => ⟨d, List.mem_append_left _ hd, hl⟩
  answer _ _ _ h := h
  delivery _ _ _ h := h

/-- The stream `t` from the middle of a record on. -/
structure Decodes (conn : ConnectionInfo) (t : StreamType) (size u p : Nat)
    (bs chars rest : List UInt8) : Prop where
  decode : ∃ (body pad : List UInt8) (rs : List Record) (last : List UInt8),
    bs = body ++ (pad ++ (Frame.join rs ++ (last ++ rest))) ∧ body.length = u ∧ pad.length = p ∧
      (∀ r ∈ rs, r.Carries conn t size) ∧ chars = body ++ Record.contents rs ∧
      last.length = 8 ∧ (Header.ofBytes last).protocolVersion = 1 ∧
      (Header.ofBytes last).IsOwn conn t ∧ (Header.ofBytes last).contentLength = 0

section

variable {conn : ConnectionInfo} {t : StreamType} {size u p : Nat} {o : Outer}
  {bs area rest hd chars T cs : List UInt8} {s s' : State}

/-! ### From one position to the next -/

theorem Decodes.content {k : Nat} (hk : k ≤ u) (hle : k ≤ bs.length)
    (h : Decodes conn t size (u - k) p (bs.drop k) chars rest) :
    Decodes conn t size u p bs (bs.take k ++ chars) rest := by
  obtain ⟨body, pad, rs, last, hbs, hu, hp, hrs, rfl, hlast⟩ := h.decode
  refine ⟨bs.take k ++ body, pad, rs, last, ?_, ?_, hp, hrs, (List.append_assoc _ _ _).symm,
    hlast⟩
  · rw [List.append_assoc, ← hbs, List.take_append_drop]
  · rw [List.length_append, List.length_take, hu]
    omega

/-- The next header is that of a record with content. -/
theorem Decodes.record (hlen : p + 8 ≤ bs.length) (hhd : hd = (bs.drop p).take 8)
    (hv : (Header.ofBytes hd).protocolVersion = 1) (ho : (Header.ofBytes hd).IsOwn conn t)
    (hc : 0 < (Header.ofBytes hd).contentLength) (hsize : (Header.ofBytes hd).contentLength ≤ size)
    (h : Decodes conn t size (Header.ofBytes hd).contentLength (Header.ofBytes hd).paddingLength
      (bs.drop (p + 8)) chars rest) : Decodes conn t size 0 p bs chars rest := by
  obtain ⟨body, pad, rs, last, hbs, hu, hp, hrs, rfl, hlast⟩ := h.decode
  have hd8 : hd.length = 8 := by
    rw [hhd, List.length_take, List.length_drop]
    omega
  let r : Record := Record.mk (Header.ofBytes hd) body pad hv hu hp
  have hr : r.bytes = hd ++ (body ++ pad) := by
    rw [Record.bytes_mk, Header.bytes_ofBytes hd8]
  have hhead : r.head = Header.ofBytes hd := Record.head_mk _ _ _
  refine ⟨[], bs.take p, r :: rs, last, ?_, rfl, ?_, ?_, ?_, hlast⟩
  · rw [Frame.join_cons, hr, List.nil_append]
    simp only [List.append_assoc]
    rw [← hbs, hhd, ← List.append_assoc, ← List.take_add, List.take_append_drop]
  · rw [List.length_take]
    omega
  · exact List.forall_mem_cons.mpr ⟨⟨hhead ▸ ho, hhead ▸ hc, hhead ▸ hsize⟩, hrs⟩
  · rw [List.nil_append, Record.contents, Record.contents, List.flatMap_cons, Record.content_mk]

/-- It is that of the record which ends the stream. -/
theorem Decodes.last (hlen : p + 8 ≤ bs.length) (hhd : hd = (bs.drop p).take 8)
    (hv : (Header.ofBytes hd).protocolVersion = 1) (ho : (Header.ofBytes hd).IsOwn conn t)
    (hc : (Header.ofBytes hd).contentLength = 0) :
    Decodes conn t size 0 p bs [] (bs.drop (p + 8)) := by
  refine ⟨[], bs.take p, [], hd, ?_, rfl, ?_, fun _ h => absurd h List.not_mem_nil, rfl, ?_, hv, ho,
    hc⟩
  · rw [Frame.join_nil, List.nil_append, List.nil_append, hhd, ← List.append_assoc,
      ← List.take_add, List.take_append_drop]
  · rw [List.length_take]
    omega
  · rw [hhd, List.length_take, List.length_drop]
    omega

/-- At the start of a record, it is one of the stream. -/
theorem Decodes.own (h : Decodes conn t size 0 0 bs chars rest) :
    (Header.ofBytes bs).IsOwn conn t := by
  obtain ⟨body, pad, rs, last, hbs, hu, hp, hrs, -, hlen, -, ho, -⟩ := h.decode
  obtain rfl := List.eq_nil_of_length_eq_zero hu
  obtain rfl := List.eq_nil_of_length_eq_zero hp
  rw [List.nil_append, List.nil_append] at hbs
  have header : ∀ {hd tail : List UInt8}, hd.length = 8 → bs = hd ++ tail →
      (Header.ofBytes hd).IsOwn conn t → (Header.ofBytes bs).IsOwn conn t := by
    rintro hd tail hlen rfl ho
    rwa [← Header.ofBytes_take, ← hlen, List.take_left]
  cases rs with
  | nil => exact header hlen hbs ho
  | cons r rs =>
      rw [Frame.join_cons, Frame.bytes, List.append_assoc, List.append_assoc] at hbs
      exact header r.header_length hbs (hrs r List.mem_cons_self).1

/-! ### Processing a header -/

/-- A header that has been processed was valid, and its branch returned. -/
theorem processHeader_inv {fuel : Nat} {call : M (Option UInt8)} {header : Header}
    {b : ServerStreambuf} {w : World} {r : ProcessHeaderResult}
    (h : processHeader conn fuel call header ⟨b.setg b.gptr b.gptr b.gptr, w⟩ = (.ok r, s')) :
    header.protocolVersion = 1 ∧
      dispatch conn fuel call header ⟨b.dispatched header, w⟩ = (.ok r, s') ∧
      s'.buf.InvariantOk conn.role := by
  rw [processHeader, Header.checkValidity] at h
  by_cases hv : header.protocolVersion = 1
  · rw [if_neg (not_not.mpr hv), Prog.bind_ok (Prog.pure_run _ _),
      Prog.bind_ok (modifyBuf_run _)] at h
    obtain ⟨r', s₁, hdisp, h⟩ := Prog.bind_eq_ok h
    obtain ⟨_, s₂, hassert, h⟩ := Prog.bind_eq_ok h
    rw [assertInvariantOk, Prog.bind_ok (Prog.get_run _), Prog.assert_run] at hassert
    by_cases hi : s₁.buf.InvariantOk conn.role
    · rw [if_pos hi] at hassert
      cases hassert
      cases h
      exact ⟨hv, hdisp, hi⟩
    · rw [if_neg hi] at hassert
      cases hassert
  · rw [if_pos hv] at h
    cases h

/-- A header after which `underflow()` may return is that of an own record. -/
theorem dispatch_inv {fuel : Nat} {call : M (Option UInt8)} {header : Header}
    {r : ProcessHeaderResult} (hv : header.protocolVersion = 1) (hrep : ¬ header.Repeats conn)
    (hleak : ¬ header.Leaks) (h : dispatch conn fuel call header s = (.ok r, s')) :
    header.IsOwn conn s.buf.type_ ∧ r = .contentMustBeConsumed ∧ s' = s := by
  rw [dispatch, Prog.bind_ok (Prog.get_run _)] at h
  have hb : header.recordType ≠ .beginRequest := fun e => hrep (.inl (.inl e))
  have hm : ¬ header.isManagementRecord = true := fun hm => by
    have hg : header.recordType ≠ .getValues := fun e => hrep (.inr (.inl ⟨hm, e⟩))
    exact hleak ⟨hv, hm, hb, hg, Nat.pos_of_ne_zero fun e => hrep (.inr (.inr ⟨hm, e⟩))⟩
  have hid : header.requestId = conn.requestId := by
    by_contra hid
    exact hrep (.inl (.inr ⟨hm, hid⟩))
  rw [if_neg hb, if_neg hm, if_neg (not_not.mpr hid)] at h
  by_cases ht : header.recordType = s.buf.type_.recordType
  · rw [if_pos ht] at h
    cases h
    exact ⟨⟨hid, ht⟩, rfl, rfl⟩
  · -- A violation.
    rw [if_neg ht] at h
    obtain ⟨_, _, -, h⟩ := Prog.bind_eq_ok h
    cases h

/-- **After a header** `underflow()` returns only at the end of the stream, or from its content. -/
theorem Spot.afterHeader_inv (h : Spot conn t size 0 0 false o rest s)
    (hlen : hd.length = 8) (hleak : ¬ (Header.ofBytes hd).Leaks) {n : Nat} {r : Option UInt8}
    (hrun : afterHeader conn hd n s = (.ok r, s')) :
    (Header.ofBytes hd).protocolVersion = 1 ∧ (Header.ofBytes hd).IsOwn conn t ∧
      ((Header.ofBytes hd).contentLength = 0 ∧ r = none ∨
        0 < (Header.ofBytes hd).contentLength ∧ (Header.ofBytes hd).contentLength ≤ size ∧
          ∃ s₁, Spot conn t size (Header.ofBytes hd).contentLength
              (Header.ofBytes hd).paddingLength false o rest s₁ ∧
            underflowLoop conn n hd s₁ = (.ok r, s')) := by
  -- A header that repeats is never got past, so no run that returns went through one.
  have hrep : ¬ (Header.ofBytes hd).Repeats conn := fun hrep =>
    repeats_stuck hlen hrep n r s' hrun
  obtain ⟨b, w⟩ := s
  set d : Dispatch := ⟨Header.ofBytes hd, false, b, w.io⟩
  obtain ⟨f, s₁, hround, hgo⟩ := Prog.bind_eq_ok hrun
  rw [processing_run] at hround
  obtain ⟨result, s₂, hprocess, hround⟩ := Prog.bind_eq_ok hround
  obtain ⟨hv, hdisp, hi⟩ := processHeader_inv hprocess
  obtain ⟨ho, rfl, rfl⟩ := dispatch_inv hv hrep hleak hdisp
  have hsize : (Header.ofBytes hd).contentLength ≤ size := by
    rw [← h.bufferSize]
    exact hi.2.2.1.1
  -- What is left is an own header; without content it ends the stream.
  refine ⟨hv, h.type ▸ ho, ?_⟩
  have hunread : (b.dispatched (Header.ofBytes hd)).unreadContentLength_ =
    (Header.ofBytes hd).contentLength := rfl
  by_cases hc : (Header.ofBytes hd).contentLength = 0
  · left
    rw [afterProcess_end (hunread.trans hc)] at hround
    obtain ⟨_, s₃, -, hround⟩ := Prog.bind_eq_ok hround
    rw [Prog.bind_ok (Prog.get_run _)] at hround
    have hdone : f = .done none := by
      split at hround
      · obtain ⟨_, s₄, -, hround⟩ := Prog.bind_eq_ok hround
        cases hround
        rfl
      · cases hround
        rfl
    subst hdone
    cases hgo
    exact ⟨hc, rfl⟩
  · right
    rw [afterProcess_more (hunread ▸ hc)] at hround
    cases hround
    exact ⟨Nat.pos_of_ne_zero hc, hsize, _, h.dispatched _ d, hgo⟩

/-! ### What is taken -/

/-- `cs` has been taken of what `T` decodes to, and the rest of it is ahead. -/
def Underway (conn : ConnectionInfo) (t : StreamType) (size : Nat) (T cs : List UInt8)
    (s : State) : Prop :=
  ∃ u p o area bs, Pause conn t size u p o area bs s ∧ u ≤ size ∧ o.ended = false ∧
    ∀ chars rest, Decodes conn t size u p bs chars rest →
      Decodes conn t size 0 0 T (cs ++ (area ++ chars)) rest

theorem Underway.takeChar (h : Underway conn t size T cs s) (hlt : s.buf.gptr < s.buf.egptr) :
    ∃ c s', Fcgi.takeChar s = (.ok (some c), s') ∧ Underway conn t size T (cs ++ [c]) s' := by
  obtain ⟨u, p, o, area, bs, hs, hsize, ho, hT⟩ := h
  obtain ⟨c, area', s', rfl, htake, hs', -⟩ := hs.takeChar hlt
  refine ⟨c, s', htake, u, p, o, area', bs, hs', hsize, ho, fun chars rest hd => ?_⟩
  rw [List.append_assoc]
  exact hT chars rest hd

theorem Spot.underway (h : Spot conn t size u p false o bs s) (ho : o.ended = false) (hu : 0 < u)
    (hsize : u ≤ size) (hT : ∀ chars rest, Decodes conn t size u p bs chars rest →
      Decodes conn t size 0 0 T (cs ++ chars) rest) {header : List UInt8} {n : Nat}
    {r : Option UInt8} (hrun : underflowLoop conn n header s = (.ok r, s')) :
    ∃ c, r = some c ∧ Underway conn t size T cs s' ∧ s'.buf.gptr < s'.buf.egptr := by
  by_cases hne : bs = []
  · subst hne
    obtain ⟨e, s₁, hruns, -⟩ := h.starve header
    cases (hruns.eq_of_ok hrun).1
  · obtain ⟨c, k, s₁, hruns, -, hpos, hk, hle, hpause, -⟩ :=
      h.provide hu (Nat.le_succ_of_le hsize) hne header
    obtain ⟨hr, rfl⟩ := hruns.eq_of_ok hrun
    cases hr
    refine ⟨c, rfl, ⟨_, _, _, _, _, hpause, Nat.le_trans (Nat.sub_le _ _) hsize, ho,
      fun chars rest hd => hT _ _ (hd.content hk hle)⟩, hpause.lt_egptr fun e => ?_⟩
    have := congrArg List.length e
    rw [List.length_take, List.length_nil] at this
    omega

/-- After a header of the kind in question the content has got in. -/
theorem afterHeader_mixed (hleak : (Header.ofBytes hd).Leaks) (n : Nat) :
    Triple (fun _ => True) (afterHeader conn hd n) (fun _ s => s.world.history.Mixed)
      fun _ _ => True := by
  have keeps : ∀ {α : Type} {m : M α}, Keeps (fun s => s.world.history.Mixed) m →
      Triple (fun s => s.world.history.Mixed) m (fun _ s => s.world.history.Mixed)
        fun _ _ => True := fun hm => Triple.conseq hm (fun _ => id) (fun _ _ => id)
          fun _ _ _ => trivial
  refine Triple.bind (Triple.bind (Q := fun _ s => s.world.history.Mixed) (Triple.modify fun s _ =>
    ⟨_, List.mem_append_right _ (List.mem_singleton_self _), hleak⟩) fun _ =>
      keeps (processAccumulated_stable mixed_stable (underflow_stable mixed_stable n) hd))
    fun f => ?_
  cases f with
  | again h => exact keeps (underflowLoop_stable mixed_stable n h)
  | done r => exact Triple.pure fun _ hs => hs

/-- **What `underflow()` does between two of the characters.** -/
theorem underflow_underway (n : Nat) :
    Triple (fun s => Underway conn t size T cs s ∧ s.buf.egptr ≤ s.buf.gptr) (underflow conn n)
      (fun r s => s.world.history.Mixed ∨ match r with
        | some _ => Underway conn t size T cs s ∧ s.buf.gptr < s.buf.egptr
        | none => ∃ rest, Decodes conn t size 0 0 T cs rest) fun _ _ => True := by
  rintro s ⟨⟨u, p, o, area, bs, hs, hfit, hopen, hT⟩, hge⟩
  obtain rfl := hs.area_eq_nil hge
  rcases hrun : underflow conn n s with ⟨x | r, s'⟩
  · trivial
  have hspot := (hs.spot hge).entered
  have hloop : underflowLoop conn n [] s.entered = (.ok r, s') :=
    (hs.underflow_eq hopen n).symm.trans hrun
  -- Content to be read is delivered at once.
  by_cases hu : 0 < u
  · obtain ⟨c, rfl, h⟩ := hspot.underway hopen hu hfit hT hloop
    exact .inr h
  obtain rfl : u = 0 := Nat.eq_zero_of_not_pos hu
  -- The bytes end before the next header does, so the call throws.
  by_cases hto : bs.length < p + 8
  · obtain ⟨e, s₁, hruns, -⟩ := hspot.exhausted (show [].length ≤ 8 from Nat.zero_le 8) nofun
      (.inl (by rw [toRead, List.length_nil]; omega))
    cases (hruns.eq_of_ok hloop).1
  · rw [Nat.not_lt] at hto
    have hne : bs ≠ [] := fun e => by
      rw [e] at hto
      exact absurd hto (by simp)
    obtain ⟨s₁, h₁, -, hleads⟩ := hspot.header_ahead (show [].length ≤ 8 from Nat.zero_le 8) nofun
      hne (by rw [toRead, List.length_nil]; omega)
    have htoRead : toRead 0 p [] = p + 8 := by
      rw [toRead, List.length_nil]
      omega
    have hhd : completed 0 p [] bs = (bs.drop p).take 8 := by
      rw [completed, Nat.zero_add]
      rfl
    rw [hhd] at hleads
    rw [htoRead] at h₁
    set hd := (bs.drop p).take 8 with hhd
    have hlen : hd.length = 8 := by
      rw [hhd, List.length_take, List.length_drop]
      omega
    have hleads := hleads.of_succ (f := fun n => underflowLoop conn n []) fun _ => rfl
    obtain ⟨k, hafter⟩ := hleads.of_ok hloop
    have hafter : afterHeader conn hd k s₁ = (.ok r, s') := hafter
    -- The header is of the stream, or it is one after which nothing can be said.
    by_cases hleak : (Header.ofBytes hd).Leaks
    · exact .inl ((afterHeader_mixed hleak k).of_ok trivial hafter)
    obtain ⟨hv, ho, ⟨hc, rfl⟩ | ⟨hc, hsize, s₂, h₂, hloop'⟩⟩ := h₁.afterHeader_inv hlen hleak hafter
    · -- The stream ends.
      have := hT _ _ (.last hto hhd hv ho hc)
      rw [List.nil_append, List.append_nil] at this
      exact .inr ⟨_, this⟩
    · obtain ⟨c, rfl, h⟩ := h₂.underway hopen hc hsize (fun chars rest hd => hT _ _
        (.record hto hhd hv ho hc hsize hd)) hloop'
      exact .inr h

/-- **What is taken** through `underflow()` is what the bytes decode to. -/
theorem decodes_feeds (n : Nat) :
    Feeds (fun cs s => s.world.history.Mixed ∨ Underway conn t size T cs s)
      (fun cs s => s.world.history.Mixed ∨ ∃ rest, Decodes conn t size 0 0 T cs rest)
      (underflow conn n) where
  bump cs := by
    rintro s (hmixed | h)
    · have hkeeps : Keeps _ (sbumpc (underflow conn n)) := sbumpc_stable mixed_stable.lasting .keeps
        (underflow_stable mixed_stable n)
      replace hkeeps := hkeeps s hmixed
      rcases e : sbumpc (underflow conn n) s with ⟨x | _ | c, s'⟩ <;> simp only [e] at hkeeps ⊢
      · exact .inl hkeeps
      · exact .inl hkeeps
    · rw [sbumpc, Prog.bind_ok (Prog.get_run _)]
      by_cases hlt : s.buf.gptr < s.buf.egptr
      · obtain ⟨c, s', htake, h'⟩ := h.takeChar hlt
        rw [if_pos hlt, htake]
        exact .inr h'
      · rw [if_neg hlt]
        refine Triple.bind (underflow_underway n) (fun r => ?_) s ⟨h, Nat.le_of_not_lt hlt⟩
        rcases r with _ | c
        · exact Triple.pure fun _ hs => hs
        · rintro s (hmixed | ⟨h, hlt⟩)
          · exact .inl hmixed
          · obtain ⟨c, s', htake, h'⟩ := h.takeChar hlt
            dsimp only
            rw [htake]
            exact .inr h'

end

end Fcgi
