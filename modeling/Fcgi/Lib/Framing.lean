import Mathlib.Tactic.Linarith

/-!
# Lib — length-prefixed framing

A stream of frames, each a header of fixed length that tells the length of the body after it.
`Framing.frames` cuts a byte string into the frames it starts with and the rest, which is not a
whole frame.  Cutting a concatenation of frames gives the frames back, whatever follows
(`frames_append`), and a part of it gives the first of them (`frames_prefix`).

A frame is built with the proofs that its header has the fixed length and its body the length the
header tells, so a string of frames can be cut in one way only (`join_injective`): the header at its
front determines where the next one begins.  The recursion of `frames` is on the length of the
string, of which every frame takes at least its header.
-/

namespace Fcgi.Lib

/-- How the header of a frame is read.  `bodyLength` is `none` on what is not a header. -/
structure Framing where
  headerLength : Nat
  headerLength_pos : 0 < headerLength
  bodyLength : List UInt8 → Option Nat

/-- A frame: a header of the right length, and the body it announces. -/
structure Frame (F : Framing) where
  header : List UInt8
  body : List UInt8
  header_length : header.length = F.headerLength
  body_length : F.bodyLength header = some body.length
  deriving DecidableEq

namespace Frame

variable {F : Framing}

/-- The bytes of a frame. -/
def bytes (f : Frame F) : List UInt8 := f.header ++ f.body

/-- A frame is as long as its header and its body. -/
theorem length_bytes (f : Frame F) : f.bytes.length = F.headerLength + f.body.length := by
  rw [bytes, List.length_append, f.header_length]

theorem bytes_pos (f : Frame F) : 0 < f.bytes.length := by
  have := F.headerLength_pos
  rw [length_bytes]; omega

/-- The bytes of a list of frames. -/
def join (fs : List (Frame F)) : List UInt8 := fs.flatMap bytes

@[simp] theorem join_nil : join ([] : List (Frame F)) = [] := rfl

@[simp] theorem join_cons (f : Frame F) (fs : List (Frame F)) :
    join (f :: fs) = f.bytes ++ join fs := List.flatMap_cons

@[simp] theorem join_append (fs gs : List (Frame F)) : join (fs ++ gs) = join fs ++ join gs :=
  List.flatMap_append

end Frame

namespace Framing

variable (F : Framing)

/-- The first frame of `bs` and what follows it. -/
def cut (bs : List UInt8) : Option (Frame F × List UInt8) :=
  if hh : (bs.take F.headerLength).length = F.headerLength then
    match hn : F.bodyLength (bs.take F.headerLength) with
    | none => none
    | some n =>
      if hb : ((bs.drop F.headerLength).take n).length = n then
        some (⟨bs.take F.headerLength, (bs.drop F.headerLength).take n, hh, by rw [hn, hb]⟩,
          (bs.drop F.headerLength).drop n)
      else none
  else none

/-- At most `k` frames off the front of `bs`, and what is left. -/
def framesAux : Nat → List UInt8 → List (Frame F) × List UInt8
  | 0, bs => ([], bs)
  | k + 1, bs =>
    match cut F bs with
    | none => ([], bs)
    | some (f, rest) => (f :: (framesAux k rest).1, (framesAux k rest).2)

/-- The frames `bs` starts with, and what is left: no whole frame. -/
def frames (bs : List UInt8) : List (Frame F) × List UInt8 := framesAux F bs.length bs

variable {F}

/-- The header at the front of a frame. -/
theorem take_bytes (f : Frame F) (rest : List UInt8) :
    (f.bytes ++ rest).take F.headerLength = f.header := by
  rw [Frame.bytes, List.append_assoc, ← f.header_length, List.take_left]

/-- What is behind the header of a frame. -/
theorem drop_bytes (f : Frame F) (rest : List UInt8) :
    (f.bytes ++ rest).drop F.headerLength = f.body ++ rest := by
  rw [Frame.bytes, List.append_assoc, ← f.header_length, List.drop_left]

/-- The frame at the front is cut off. -/
theorem cut_bytes (f : Frame F) (rest : List UInt8) :
    cut F (f.bytes ++ rest) = some (f, rest) := by
  unfold cut
  split
  · split
    · rename_i hn
      rw [take_bytes, f.body_length] at hn
      cases hn
    · rename_i n hn
      rw [take_bytes, f.body_length] at hn
      obtain rfl : f.body.length = n := Option.some.inj hn
      simp only [take_bytes, drop_bytes, List.take_left', List.drop_left', dite_true]
  · rename_i h
    exact absurd (by rw [take_bytes, f.header_length]) h

/-- What is cut off was at the front. -/
theorem cut_eq_some {bs rest : List UInt8} {f : Frame F} (h : cut F bs = some (f, rest)) :
    bs = f.bytes ++ rest := by
  unfold cut at h
  split at h
  · split at h
    · cases h
    · split at h
      · cases h
        rw [Frame.bytes, List.append_assoc, List.take_append_drop, List.take_append_drop]
      · cases h
  · cases h

/-- Cutting a frame off makes the string shorter. -/
theorem cut_length {bs rest : List UInt8} {f : Frame F} (h : cut F bs = some (f, rest)) :
    rest.length < bs.length := by
  have := f.bytes_pos
  rw [cut_eq_some h, List.length_append]
  omega

/-- More rounds than bytes change nothing. -/
theorem framesAux_of_le : ∀ {k l : Nat} {bs : List UInt8}, bs.length ≤ k → bs.length ≤ l →
    framesAux F k bs = framesAux F l bs
  | 0, 0, _, _, _ => rfl
  | 0, l + 1, bs, hk, _ => by
      obtain rfl : bs = [] := List.eq_nil_of_length_eq_zero (Nat.le_zero.mp hk)
      simp only [framesAux]
      split
      · rfl
      · rename_i h; exact absurd (cut_length h) (Nat.not_lt_zero _)
  | k + 1, 0, bs, _, hl => by
      obtain rfl : bs = [] := List.eq_nil_of_length_eq_zero (Nat.le_zero.mp hl)
      simp only [framesAux]
      split
      · rfl
      · rename_i h; exact absurd (cut_length h) (Nat.not_lt_zero _)
  | k + 1, l + 1, bs, hk, hl => by
      simp only [framesAux]
      split
      · rfl
      · rename_i f rest h
        have := cut_length h
        rw [framesAux_of_le (k := k) (l := l) (by omega) (by omega)]

/-- A string that no frame can be cut off has none. -/
theorem frames_of_cut_none {bs : List UInt8} (h : cut F bs = none) : frames F bs = ([], bs) := by
  unfold frames
  cases bs.length with
  | zero => rfl
  | succ k => simp only [framesAux, h]

/-- The frame at the front is the first of the frames. -/
theorem frames_of_cut {bs rest : List UInt8} {f : Frame F} (h : cut F bs = some (f, rest)) :
    frames F bs = (f :: (frames F rest).1, (frames F rest).2) := by
  have hl := cut_length h
  obtain ⟨k, hk⟩ : ∃ k, bs.length = k + 1 := ⟨bs.length - 1, by omega⟩
  rw [frames, hk, framesAux, h]
  simp only [frames, framesAux_of_le (k := k) (l := rest.length) (by omega)
    (Nat.le_refl _)]

/-- **Cutting undoes joining**, whatever comes after the frames. -/
theorem frames_append (fs : List (Frame F)) (tail : List UInt8) :
    frames F (Frame.join fs ++ tail) = (fs ++ (frames F tail).1, (frames F tail).2) := by
  induction fs with
  | nil => simp
  | cons f fs ih =>
      rw [Frame.join_cons, List.append_assoc, frames_of_cut (cut_bytes f _), ih, List.cons_append]

theorem frames_nil : frames F [] = ([], []) := rfl

/-- A concatenation of frames is cut into these frames. -/
theorem frames_join (fs : List (Frame F)) : frames F (Frame.join fs) = (fs, []) := by
  have := frames_append fs []
  rwa [List.append_nil, frames_nil, List.append_nil] at this

/-- A concatenation of frames determines them. -/
theorem join_injective {fs fs' : List (Frame F)} (h : Frame.join fs = Frame.join fs') :
    fs = fs' := by
  have := congrArg (frames F) h
  rw [frames_join, frames_join] at this
  exact (Prod.mk.inj this).1

/-- The frames and what is left make up the string. -/
theorem join_framesAux (k : Nat) (bs : List UInt8) :
    Frame.join (framesAux F k bs).1 ++ (framesAux F k bs).2 = bs := by
  induction k generalizing bs with
  | zero => rfl
  | succ k ih =>
      rw [framesAux]
      split
      · rfl
      · next f rest h => rw [Frame.join_cons, List.append_assoc, ih, ← cut_eq_some h]

/-- More bytes give more frames. -/
theorem frames_mono {bs cs : List UInt8} (h : bs <+: cs) : (frames F bs).1 <+: (frames F cs).1 := by
  obtain ⟨tail, rfl⟩ := h
  have hbs : bs = Frame.join (frames F bs).1 ++ (frames F bs).2 := (join_framesAux _ bs).symm
  have hmore : (frames F (bs ++ tail)).1 =
      (frames F bs).1 ++ (frames F ((frames F bs).2 ++ tail)).1 := by
    conv_lhs => rw [hbs, List.append_assoc, frames_append]
  rw [hmore]
  exact List.prefix_append _ _

/-- A proper part of a frame from its start holds no whole frame. -/
theorem cut_take_none (f : Frame F) {n : Nat} (h : n < f.bytes.length) :
    cut F (f.bytes.take n) = none := by
  cases hc : cut F (f.bytes.take n) with
  | none => rfl
  | some p =>
      obtain ⟨g, rest⟩ := p
      have hg := cut_eq_some hc
      have hf : f.bytes = g.bytes ++ (rest ++ f.bytes.drop n) := by
        rw [← List.append_assoc, ← hg, List.take_append_drop]
      have h₁ := cut_bytes f []
      rw [List.append_nil, hf, cut_bytes] at h₁
      have := congrArg Prod.snd (Option.some.inj h₁)
      have hlen := congrArg List.length this
      simp only [List.length_append, List.length_drop, List.length_nil] at hlen
      omega

/-- A part of a string of frames, from its start, gives the first of the frames. -/
theorem frames_prefix (fs : List (Frame F)) (n : Nat) :
    (frames F ((Frame.join fs).take n)).1 <+: fs := by
  induction fs generalizing n with
  | nil => simp [frames_nil]
  | cons f fs ih =>
      rw [Frame.join_cons]
      by_cases h : n < f.bytes.length
      · rw [List.take_append_of_le_length (by omega), frames_of_cut_none (cut_take_none f h)]
        exact List.nil_prefix
      · rw [List.take_append, List.take_of_length_le (by omega), frames_of_cut (cut_bytes f _)]
        exact List.cons_prefix_cons.mpr ⟨rfl, ih _⟩

end Framing

end Fcgi.Lib
