import Fcgi.Input.Contents

/-!
# Input — records that are not of the stream

What becomes of a stream with other records between its own.  None of them is passed over: the
loop of `underflow()` keeps the header it has processed, and processes it again.

* **`foreign_transparent_iff`**: records of other requests.
* **`unknown_transparent_iff`**: unknown management records.
* **`get_values_not_confined`**: get-values records.

After the first record of another request or get-values record `underflow()` does not return
(`repeats_stuck`), so the characters behind it never come.  An unknown management record with
content does worse: its content is taken for content of the stream (`Stream.leak`), so that reading
to the end of the stream brings a character too many or never ends; `Enough` counts the characters
there are, one more if such a record is ahead, by induction on the records.
-/

namespace Fcgi
open Lib

namespace Record

/-- A record of another request, with no more content than the buffer holds. -/
def IsForeign (conn : ConnectionInfo) (size : Nat) (r : Record) : Prop :=
  r.requestId ≠ 0 ∧ r.requestId ≠ conn.requestId ∧ r.head.contentLength ≤ size

/-- A management record of an unknown type, with no more content than the buffer holds. -/
def IsUnknown (size : Nat) (r : Record) : Prop :=
  r.requestId = 0 ∧ r.recordType ≠ .getValues ∧ r.recordType ≠ .beginRequest ∧
    r.head.contentLength ≤ size

/-- The records of the connection's request. -/
def own (conn : ConnectionInfo) (rs : List Record) : List Record :=
  rs.filter fun r => r.requestId = conn.requestId

/-- The records that are not of the connection's request. -/
def inserted (conn : ConnectionInfo) (rs : List Record) : List Record :=
  rs.filter fun r => r.requestId ≠ conn.requestId

variable {conn : ConnectionInfo} {t : StreamType} {size : Nat} {r : Record} {rs : List Record}

/-- A record of the stream is of the request. -/
theorem Carries.requestId (h : r.Carries conn t size) : r.requestId = conn.requestId := h.1.1

/-- All records are the connection's own. -/
theorem own_of_carries (h : ∀ r ∈ rs, r.Carries conn t size) : own conn rs = rs :=
  List.filter_eq_self.mpr fun r hr => decide_eq_true (h r hr).requestId

theorem inserted_of_carries (h : ∀ r ∈ rs, r.Carries conn t size) : inserted conn rs = [] :=
  List.filter_eq_nil_iff.mpr fun r hr => by simp [(h r hr).requestId]

/-- The records before the first that is not of the stream. -/
theorem first_inserted {P : Record → Prop} : ∀ {rs : List Record},
    (∀ r ∈ rs, r.Carries conn t size ∨ P r) → ¬ (∀ r ∈ rs, r.Carries conn t size) →
      ∃ before r after, rs = before ++ r :: after ∧ (∀ r ∈ before, r.Carries conn t size) ∧ P r
  | [], _, h => absurd (fun _ hr => absurd hr List.not_mem_nil) h
  | r :: rs, hall, h => by
      rcases hall r List.mem_cons_self with hr | hr
      · obtain ⟨before, r', after, rfl, hb, hr'⟩ := first_inserted
          (fun r hr => hall r (List.mem_cons_of_mem _ hr))
          (fun hrs => h (List.forall_mem_cons.mpr ⟨hr, hrs⟩))
        exact ⟨r :: before, r', after, rfl, List.forall_mem_cons.mpr ⟨hr, hb⟩, hr'⟩
      · exact ⟨[], r, rs, rfl, fun _ h => absurd h List.not_mem_nil, hr⟩

/-- The contents before a record are a part of all of them. -/
theorem length_contents_own_append {before after : List Record}
    (h : ∀ r ∈ before, r.Carries conn t size) :
    (contents before).length ≤ (contents (own conn (before ++ after))).length := by
  rw [own, List.filter_append, contents, contents, List.flatMap_append, List.length_append]
  rw [show before.filter (fun r => r.requestId = conn.requestId) = before from own_of_carries h]
  omega

end Record

section

variable {conn : ConnectionInfo} {t : StreamType} {size : Nat} {next out chars rest : List UInt8}
  {s : State} {rs items : List Record} {r last : Record}

/-- The reader delivers `chars` and then the end of the stream, and sends `reply` meanwhile. -/
def Delivers (conn : ConnectionInfo) (chars reply : List UInt8) (s : State) : Prop :=
  ∃ s', Prog.Runs (fun n => xsgetn (underflow conn n) (chars.length + 1)) s (.ok chars) s' ∧
    s'.world.io.written = s.world.io.written ++ reply

/-- A stream with nothing inserted. -/
theorem delivers_contents (hid : conn.requestId ≠ 0)
    (h : Idle conn t size 0 0 out [] (Frame.join rs ++ (last.bytes ++ rest)) s)
    (hrs : ∀ r ∈ rs, r.Carries conn t size) (hlast : last.Ends conn t) :
    Delivers conn (Record.contents rs) [] s := by
  obtain ⟨s', hrun, hs'⟩ := (h.stream _ rfl hrs).xsgetn_runs hid
    (fun s hs => hs.sbumpc_end hid hlast)
  refine ⟨s', hrun, ?_⟩
  rw [List.append_nil, h.written]
  split at hs'
  · exact hs'.written
  · exact hs'.written

/-- A record after which `underflow()` does not return, behind some records of the stream. -/
theorem Idle.repeats_stuck (hid : conn.requestId ≠ 0)
    (h : Idle conn t size 0 0 out [] (Frame.join rs ++ (r.bytes ++ rest)) s)
    (hrs : ∀ r ∈ rs, r.Carries conn t size) (hr : r.head.Repeats conn) {k : Nat}
    (hk : (Record.contents rs).length < k) :
    Prog.Stuck (fun n => xsgetn (underflow conn n) k) s := by
  refine (h.stream _ rfl hrs).xsgetn_stuck hid (fun s hs => ?_) hk
  rw [Frame.bytes, List.append_assoc] at hs
  obtain ⟨s', -, hleads⟩ := hs.header r.header_length
  exact sbumpc_stuck hs.past (hleads.stuck (Fcgi.repeats_stuck r.header_length hr))

/-- A stream that is delivered is not stuck. -/
theorem Delivers.not_stuck {reply : List UInt8} (h : Delivers conn chars reply s) :
    ¬ Prog.Stuck (fun n => xsgetn (underflow conn n) (chars.length + 1)) s :=
  let ⟨_, hrun, _⟩ := h
  hrun.not_stuck

/-! ### Records of other requests -/

/-- The header of another request is processed over and over. -/
theorem Record.IsForeign.repeats (h : r.IsForeign conn size) : r.head.Repeats conn :=
  .inl (.inr ⟨fun hm => h.1 (beq_iff_eq.mp hm), h.2.1⟩)

/-- What the reader is to send for the records of other requests. -/
def rejections (rs : List Record) : List UInt8 :=
  (rs.filter fun r => r.recordType = .beginRequest).flatMap fun r =>
    (Record.endRequest r.requestId 0 .cantMpxConn).bytes

/-- **Records of other requests are not passed over**: the stream is delivered, and the new
requests among them rejected, only if there are none. -/
theorem foreign_transparent_iff (items : List Record) (last : Record) (hid : conn.requestId ≠ 0)
    (h : Idle conn t size 0 0 out [] (Frame.join items ++ (last.bytes ++ rest)) s)
    (hitems : ∀ r ∈ items, r.Carries conn t size ∨ r.IsForeign conn size)
    (hlast : last.Ends conn t) :
    Delivers conn (Record.contents (Record.own conn items))
        (rejections (Record.inserted conn items)) s ↔ Record.inserted conn items = [] := by
  constructor
  · intro hd
    by_contra hne
    obtain ⟨before, r, after, rfl, hb, hr⟩ := Record.first_inserted hitems fun hall =>
      hne (Record.inserted_of_carries hall)
    rw [Frame.join_append, Frame.join_cons, List.append_assoc, List.append_assoc] at h
    exact hd.not_stuck (h.repeats_stuck hid hb hr.repeats
      (Nat.lt_succ_of_le (Record.length_contents_own_append hb)))
  · intro hnil
    have hall : ∀ r ∈ items, r.Carries conn t size := fun r hr => (hitems r hr).resolve_right
      fun hf => absurd (List.filter_eq_nil_iff.mp hnil r hr) (not_not.mpr (decide_eq_true hf.2.1))
    rw [Record.own_of_carries hall, hnil]
    exact delivers_contents hid h hall hlast

/-- Two characters are delivered, but not with the begin-request record of another request between
them. -/
theorem foreign_transparent_between :
    Delivers .responder [104, 105] [] (State.fresh .«in»
      [.data [1, 5, 0, 1, 0, 2, 0, 0, 104], .data [105, 1, 5, 0, 1, 0, 0, 0, 0]]) ∧
    ¬ Delivers .responder [104, 105] (Record.endRequest 2 0 .cantMpxConn).bytes (State.fresh .«in»
      [.data [1, 5, 0, 1, 0, 1, 0, 0, 104, 1, 1, 0, 2, 0, 8, 0, 0, 0, 1, 0, 0, 0, 0, 0, 0],
        .data [1, 5, 0, 1, 0, 1, 0, 0, 105, 1, 5, 0, 1, 0, 0, 0, 0]]) := by
  constructor
  · exact (foreign_transparent_iff
      [Record.mk (Header.ofFields .«in» 1 2 0) [104, 105] [] rfl rfl rfl]
      (Record.mk (Header.ofFields .«in» 1 0 0) [] [] rfl rfl rfl) (by decide)
      (State.idle_fresh [.data [1, 5, 0, 1, 0, 2, 0, 0, 104], .data [105, 1, 5, 0, 1, 0, 0, 0, 0]]
        (.inr (.inr (.inl ⟨rfl, rfl⟩))) rfl (by decide))
      (List.forall_mem_singleton.mpr (.inl ⟨⟨rfl, rfl⟩, by decide, by decide⟩))
      ⟨⟨rfl, rfl⟩, rfl⟩).mpr (by decide)
  · exact (foreign_transparent_iff
      [Record.mk (Header.ofFields .«in» 1 1 0) [104] [] rfl rfl rfl,
        Record.mk (Header.ofFields .beginRequest 2 8 0) [0, 1, 0, 0, 0, 0, 0, 0] [] rfl rfl rfl,
        Record.mk (Header.ofFields .«in» 1 1 0) [105] [] rfl rfl rfl]
      (Record.mk (Header.ofFields .«in» 1 0 0) [] [] rfl rfl rfl) (by decide)
      (State.idle_fresh
        [.data [1, 5, 0, 1, 0, 1, 0, 0, 104, 1, 1, 0, 2, 0, 8, 0, 0, 0, 1, 0, 0, 0, 0, 0, 0],
          .data [1, 5, 0, 1, 0, 1, 0, 0, 105, 1, 5, 0, 1, 0, 0, 0, 0]]
        (.inr (.inr (.inl ⟨rfl, rfl⟩))) rfl (by decide))
      (List.forall_mem_cons.mpr ⟨.inl ⟨⟨rfl, rfl⟩, by decide, by decide⟩,
        List.forall_mem_cons.mpr ⟨.inr ⟨by decide, by decide, by decide⟩,
          List.forall_mem_singleton.mpr (.inl ⟨⟨rfl, rfl⟩, by decide, by decide⟩)⟩⟩)
      ⟨⟨rfl, rfl⟩, rfl⟩).not.mpr (by decide)

/-- A stdin record of the request 2 before the one of the request 1. -/
theorem foreign_not_transparent : ¬ Delivers .responder [104] []
    (State.fresh .«in» [.data [1, 5, 0, 2, 0, 1, 0, 0, 120, 1, 5, 0, 1, 0, 1, 0, 0, 104,
      1, 5, 0, 1, 0, 0, 0, 0]]) := fun hd =>
  hd.not_stuck (Idle.repeats_stuck (t := .«in») (by decide)
    (r := Record.mk (Header.ofFields .«in» 2 1 0) [120] [] rfl rfl rfl)
    (State.idle_fresh [.data [1, 5, 0, 2, 0, 1, 0, 0, 120, 1, 5, 0, 1, 0, 1, 0, 0, 104,
      1, 5, 0, 1, 0, 0, 0, 0]] (.inr (.inr (.inl ⟨rfl, rfl⟩))) rfl (by decide))
    (fun _ h => absurd h List.not_mem_nil) (.inl (.inr ⟨by decide, by decide⟩)) (Nat.succ_pos _))

/-! ### Unknown management records -/

/-- An unknown management record is a management record. -/
theorem Record.IsUnknown.management (h : r.IsUnknown size) : r.head.isManagementRecord = true :=
  beq_iff_eq.mpr h.1

/-- The content of an unknown record is taken for content of the stream. -/
theorem Stream.leak (h : Stream conn t size (r.bytes ++ next) out [] s) (hr : r.IsUnknown size) :
    Prog.Stuck (fun n => sbumpc (underflow conn n)) s ∨
      ∃ s' out' c cs, r.content = c :: cs ∧
        Prog.Runs (fun n => sbumpc (underflow conn n)) s (.ok (some c)) s' ∧
        Stream conn t size next out' cs s' := by
  have hpast := h.past
  rw [Frame.bytes, List.append_assoc] at h
  obtain ⟨s₁, h₁, hleads⟩ := h.header r.header_length
  by_cases h0 : r.head.contentLength = 0
  · exact .inl (sbumpc_stuck hpast (hleads.stuck
      (Fcgi.repeats_stuck r.header_length (.inr (.inr ⟨hr.management, h0⟩)))))
  · rcases h₁.unknown_content r.protocolVersion_head hr.management hr.2.2.1
      hr.2.1 hr.2.2.2 with hs | ⟨s₂, out', h₂, hleads'⟩
    · exact .inl (sbumpc_stuck hpast (hleads.stuck hs))
    · right
      obtain ⟨c₀, s₃, hrun, h₃, hlt⟩ := (h₂.body (r := r)).stream
        (r.content_ne_nil (Nat.pos_of_ne_zero h0)) (fun _ h => absurd h List.not_mem_nil) r.header
      obtain ⟨c, cs, s', hcs, htake, h'⟩ := h₃.takeChar_cons hlt
      exact ⟨s', out', c, cs, (List.append_nil _).symm.trans hcs,
        sbumpc_some hpast (hleads.runs (hleads'.runs hrun)) htake, h'⟩

/-- Reading `k` characters finds none missing. -/
def Full (conn : ConnectionInfo) (k : Nat) (s : State) : Prop :=
  ∀ (n : Nat) (cs : List UInt8) (s' : State),
    xsgetn (underflow conn n) k s = (.ok cs, s') → cs.length = k

/-- A character has been taken, and the others are there. -/
theorem Full.succ {k : Nat} {c : UInt8} {s' : State}
    (hrun : Prog.Runs (fun n => sbumpc (underflow conn n)) s (.ok (some c)) s')
    (h : Full conn k s') : Full conn (k + 1) s := fun n cs s'' hx => by
  rw [xsgetn_succ] at hx
  obtain ⟨r, s₂, hb, hrest⟩ := Prog.bind_eq_ok hx
  obtain ⟨e, rfl⟩ := hrun.eq_of_ok hb
  cases e
  obtain ⟨cs', s₃, hcs, hpure⟩ := Prog.bind_eq_ok hrest
  cases hpure
  exact congrArg (· + 1) (h n cs' _ hcs)

/-- The characters of the stream are there, and one more if an unknown record is ahead. -/
def Enough (conn : ConnectionInfo) (items : List Record) (chars : List UInt8) (k : Nat) : Prop :=
  k ≤ chars.length + (Record.contents (Record.own conn items)).length ∨
    Record.inserted conn items ≠ [] ∧
      k ≤ chars.length + (Record.contents (Record.own conn items)).length + 1

/-- A character less is there and asked for. -/
theorem Enough.tail {k : Nat} {c : UInt8} (h : Enough conn items (c :: chars) (k + 1)) :
    Enough conn items chars k := by
  rw [Enough, List.length_cons] at h
  exact h.imp (by omega) fun h => ⟨h.1, by omega⟩

/-- The content of a record of the request is at hand. -/
theorem Enough.own {k : Nat} (h : Enough conn (r :: items) chars k)
    (hr : r.requestId = conn.requestId) : Enough conn items (chars ++ r.content) k := by
  have ho : Record.own conn (r :: items) = r :: Record.own conn items :=
    List.filter_cons_of_pos (by simp [hr])
  have hi : Record.inserted conn (r :: items) = Record.inserted conn items :=
    List.filter_cons_of_neg (by simp [hr])
  rw [Enough, ho, hi, Record.contents, List.flatMap_cons, List.length_append,
    ← Nat.add_assoc, ← List.length_append] at h
  exact h

/-- An inserted record has brought a character more. -/
theorem Enough.inserted {k : Nat} {cs : List UInt8} (h : Enough conn (r :: items) [] (k + 1))
    (hr : r.requestId ≠ conn.requestId) :
    Enough conn items cs k := by
  have ho : Record.own conn (r :: items) = Record.own conn items :=
    List.filter_cons_of_neg (by simp [hr])
  rw [Enough, ho, List.length_nil] at h
  exact .inl (h.elim (by omega) fun h => by omega)

/-- As many characters are there as `Enough` counts. -/
theorem Stream.full (hid : conn.requestId ≠ 0) {k : Nat} :
    ∀ {items : List Record} {out chars : List UInt8} {s : State},
      Stream conn t size (Frame.join items ++ rest) out chars s →
      (∀ r ∈ items, r.Carries conn t size ∨ r.IsUnknown size) → Enough conn items chars k →
      Full conn k s := by
  induction k with
  | zero =>
      intro items out chars s _ _ _ n cs s' hrun
      cases hrun
      rfl
  | succ k ih =>
      intro items
      induction items with
      | nil =>
          intro out chars s h hitems hk
          cases chars with
          | nil => exact absurd hk (by simp [Enough, Record.own, Record.inserted, Record.contents])
          | cons c chars =>
              obtain ⟨s₁, hrun, h₁⟩ := h.sbumpc_cons hid
              exact Full.succ hrun (ih h₁ hitems hk.tail)
      | cons r items ihi =>
          intro out chars s h hitems hk
          obtain ⟨hr, hitems'⟩ := List.forall_mem_cons.mp hitems
          cases chars with
          | cons c chars =>
              obtain ⟨s₁, hrun, h₁⟩ := h.sbumpc_cons hid
              exact Full.succ hrun (ih h₁ hitems hk.tail)
          | nil =>
              rw [Frame.join_cons, List.append_assoc] at h
              rcases hr with hr | hr
              · exact ihi (h.absorb hr) hitems' (hk.own hr.requestId)
              · rcases h.leak hr with hs | ⟨s₁, out', c, cs, -, hrun, h₁⟩
                · exact fun n cs s' hx => absurd hx (Fcgi.xsgetn_stuck hs k n cs s')
                · exact Full.succ hrun (ih h₁ hitems' (hk.inserted
                    (fun e => hid (e.symm.trans hr.1))))

/-- What the reader is to send for unknown management records. -/
def unknownTypes (rs : List Record) : List UInt8 :=
  rs.flatMap fun r => (Record.unknownType r.recordType).bytes

/-- **Unknown management records are not passed over**: the stream is delivered, and each of them
answered once, only if there are none. -/
theorem unknown_transparent_iff (items : List Record) (last : Record) (hid : conn.requestId ≠ 0)
    (h : Idle conn t size 0 0 out [] (Frame.join items ++ (last.bytes ++ rest)) s)
    (hitems : ∀ r ∈ items, r.Carries conn t size ∨ r.IsUnknown size)
    (hlast : last.Ends conn t) :
    Delivers conn (Record.contents (Record.own conn items))
        (unknownTypes (Record.inserted conn items)) s ↔ Record.inserted conn items = [] := by
  constructor
  · rintro ⟨s', hrun, -⟩
    by_contra hne
    have hs := h.stream [] rfl
      (fun _ h => absurd h List.not_mem_nil)
    have hfull := hs.full hid hitems (k := (Record.contents (Record.own conn items)).length + 1)
      (.inr ⟨hne, by simp [Record.contents]⟩)
    obtain ⟨N, hN⟩ := hrun
    have := hfull N _ _ ((hN N).2 (Nat.le_refl N))
    omega
  · intro hnil
    have hall : ∀ r ∈ items, r.Carries conn t size := fun r hr => (hitems r hr).resolve_right
      fun hf => absurd (List.filter_eq_nil_iff.mp hnil r hr)
        (not_not.mpr (decide_eq_true fun e => hid (e.symm.trans hf.1)))
    rw [Record.own_of_carries hall, hnil]
    exact delivers_contents hid h hall hlast

/-- Two characters are delivered, but not with a management record of the type 12 between them. -/
theorem unknown_transparent_between :
    Delivers .responder [104, 105] [] (State.fresh .«in»
      [.data [1, 5, 0, 1, 0, 2, 0, 0, 104], .data [105, 1, 5, 0, 1, 0, 0, 0, 0]]) ∧
    ¬ Delivers .responder [104, 105] (Record.unknownType ⟨12⟩).bytes (State.fresh .«in»
      [.data [1, 5, 0, 1, 0, 1, 0, 0, 104, 1, 12, 0, 0, 0, 1, 7, 0],
        .data [120, 0, 0, 0, 0, 0, 0, 0, 1, 5, 0, 1, 0, 1, 0, 0, 105,
          1, 5, 0, 1, 0, 0, 0, 0]]) := by
  constructor
  · exact (unknown_transparent_iff
      [Record.mk (Header.ofFields .«in» 1 2 0) [104, 105] [] rfl rfl rfl]
      (Record.mk (Header.ofFields .«in» 1 0 0) [] [] rfl rfl rfl) (by decide)
      (State.idle_fresh [.data [1, 5, 0, 1, 0, 2, 0, 0, 104], .data [105, 1, 5, 0, 1, 0, 0, 0, 0]]
        (.inr (.inr (.inl ⟨rfl, rfl⟩))) rfl (by decide))
      (List.forall_mem_singleton.mpr (.inl ⟨⟨rfl, rfl⟩, by decide, by decide⟩))
      ⟨⟨rfl, rfl⟩, rfl⟩).mpr (by decide)
  · exact (unknown_transparent_iff
      [Record.mk (Header.ofFields .«in» 1 1 0) [104] [] rfl rfl rfl,
        Record.mk (Header.ofFields ⟨12⟩ 0 1 7) [120] [0, 0, 0, 0, 0, 0, 0] rfl rfl rfl,
        Record.mk (Header.ofFields .«in» 1 1 0) [105] [] rfl rfl rfl]
      (Record.mk (Header.ofFields .«in» 1 0 0) [] [] rfl rfl rfl) (by decide)
      (State.idle_fresh
        [.data [1, 5, 0, 1, 0, 1, 0, 0, 104, 1, 12, 0, 0, 0, 1, 7, 0],
          .data [120, 0, 0, 0, 0, 0, 0, 0, 1, 5, 0, 1, 0, 1, 0, 0, 105, 1, 5, 0, 1, 0, 0, 0, 0]]
        (.inr (.inr (.inl ⟨rfl, rfl⟩))) rfl (by decide))
      (List.forall_mem_cons.mpr ⟨.inl ⟨⟨rfl, rfl⟩, by decide, by decide⟩,
        List.forall_mem_cons.mpr ⟨.inr ⟨rfl, by decide, by decide, by decide⟩,
          List.forall_mem_singleton.mpr (.inl ⟨⟨rfl, rfl⟩, by decide, by decide⟩)⟩⟩)
      ⟨⟨rfl, rfl⟩, rfl⟩).not.mpr (by decide)

/-- A management record of the type 12 with a byte of content, and no other content. -/
theorem unknown_not_transparent : ¬ Delivers .responder []
    (Record.unknownType ⟨12⟩).bytes
    (State.fresh .«in» [.data [1, 12, 0, 0, 0, 1, 0, 0, 120, 1, 5, 0, 1, 0, 0, 0, 0]]) := by
  rintro ⟨s', ⟨N, hN⟩, -⟩
  have h : Idle .responder .«in» 2048 0 0 [] [] _ _ :=
    State.idle_fresh [.data [1, 12, 0, 0, 0, 1, 0, 0, 120, 1, 5, 0, 1, 0, 0, 0, 0]]
      (.inr (.inr (.inl ⟨rfl, rfl⟩))) rfl (by decide)
  have hfull := (h.stream [] (show _ = _ ++ (Frame.join [Record.mk (Header.ofFields ⟨12⟩ 0 1 0)
    [120] [] rfl rfl rfl] ++ [1, 5, 0, 1, 0, 0, 0, 0]) from rfl)
    (fun _ h => absurd h List.not_mem_nil)).full (by decide) (k := 1)
    (List.forall_mem_singleton.mpr (.inr ⟨rfl, by decide, by decide, by decide⟩))
    (.inr ⟨by decide, by decide⟩)
  exact absurd (hfull N _ _ ((hN N).2 (Nat.le_refl N))) (by decide)

/-! ### Get-values records -/

/-- **A get-values record is not confined to itself**: whatever it asks for and whichever answer
is sent, the records of the stream behind it are not delivered. -/
theorem get_values_not_confined (r : Record) (rs : List Record) (last : Record)
    (hid : conn.requestId ≠ 0)
    (h : Idle conn t size 0 0 out [] (r.bytes ++ (Frame.join rs ++ (last.bytes ++ rest))) s)
    (hr : r.requestId = 0 ∧ r.recordType = .getValues) (names : List (List UInt8)) :
    ¬ ∃ answer : Record, (answer.recordType = .getValuesResult ∧ answer.requestId = 0 ∧
      answer.content = replyContent names) ∧ Delivers conn (Record.contents rs) answer.bytes s := by
  rintro ⟨answer, -, hd⟩
  exact hd.not_stuck (Idle.repeats_stuck hid h (fun _ h => absurd h List.not_mem_nil)
    (.inr (.inl ⟨beq_iff_eq.mpr hr.1, hr.2⟩)) (Nat.succ_pos _))

end

/-- The variable `FCGI_MAX_CONNS`, and then a stream of one character. -/
theorem get_values_not_confined_max_conns :
    ¬ ∃ answer : Record, (answer.recordType = .getValuesResult ∧ answer.requestId = 0 ∧
      answer.content = replyContent [fcgiMaxConns]) ∧
      Delivers .responder [104] answer.bytes (State.fresh .«in» [.data
        ([1, 9, 0, 0, 0, 16, 0, 0, 14, 0] ++ fcgiMaxConns ++ [1, 5, 0, 1, 0, 1, 0, 0, 104,
          1, 5, 0, 1, 0, 0, 0, 0])]) :=
  get_values_not_confined (t := .«in»)
    (Record.mk (Header.ofFields .getValues 0 16 0) (14 :: 0 :: fcgiMaxConns) [] rfl rfl rfl)
    [Record.mk (Header.ofFields .«in» 1 1 0) [104] [] rfl rfl rfl]
    (Record.mk (Header.ofFields .«in» 1 0 0) [] [] rfl rfl rfl) (by decide)
    (State.idle_fresh [.data ([1, 9, 0, 0, 0, 16, 0, 0, 14, 0] ++ fcgiMaxConns ++
      [1, 5, 0, 1, 0, 1, 0, 0, 104, 1, 5, 0, 1, 0, 0, 0, 0])]
      (.inr (.inr (.inl ⟨rfl, rfl⟩))) rfl (by decide)) ⟨rfl, rfl⟩ [fcgiMaxConns]

/-- No variable, and then a stream of one character. -/
theorem get_values_stops_stream :
    ¬ ∃ answer : Record, (answer.recordType = .getValuesResult ∧ answer.requestId = 0 ∧
      answer.content = replyContent []) ∧
      Delivers .responder [104] answer.bytes (State.fresh .«in» [.data
        [1, 9, 0, 0, 0, 0, 0, 0, 1, 5, 0, 1, 0, 1, 0, 0, 104, 1, 5, 0, 1, 0, 0, 0, 0]]) := by
  rintro ⟨answer, -, hd⟩
  exact hd.not_stuck (Idle.repeats_stuck (t := .«in») (by decide)
    (r := Record.mk (Header.ofFields .getValues 0 0 0) [] [] rfl rfl rfl)
    (State.idle_fresh [.data [1, 9, 0, 0, 0, 0, 0, 0, 1, 5, 0, 1, 0, 1, 0, 0, 104,
      1, 5, 0, 1, 0, 0, 0, 0]] (.inr (.inr (.inl ⟨rfl, rfl⟩))) rfl (by decide))
    (fun _ h => absurd h List.not_mem_nil) (.inr (.inl ⟨rfl, rfl⟩)) (Nat.succ_pos _))

end Fcgi
