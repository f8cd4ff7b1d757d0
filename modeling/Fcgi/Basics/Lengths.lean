import Fcgi.Basics.Decoding

/-!
# Basics — the lengths of a pair

The sum of the two lengths of a pair, each of them below 2³¹, is computed at the type `int`.

**`length_sums_exact_iff`**: the sum is exact at every pair the constructor of `Names_values`
comes to, if and only if no pair announced in the stream has 2³¹ bytes or more.

`Announced` says which sums the constructor comes to: those of the two lengths it has read after
any number of whole pairs.  What it has read up to there is a beginning of the stream, so a bound
on the pairs the string announces (`SumsBelow`) is one on these sums, and the other way round a pair
of too many bytes is reached if those before it are whole.
-/

namespace Fcgi
open Lib

namespace NamesValues

/-- `static_cast<unsigned>(count)`, which `read_data` passes to `new char[]`. -/
def newSize (count : Int) : Nat := (BitVec.ofInt 32 count).toNat

/-- The size passed to `new char[]` and the count passed to `stream.read()`, for a pair of the
lengths `n` and `v`, are their sum. -/
structure SumExact (n v : Nat) : Prop where
  sum : intAdd n v = n + v
  allocated : newSize (intAdd n v) = n + v
  count : 0 ≤ intAdd n v

/-- The sum is exact where `int` holds it. -/
theorem sumExact_iff {n v : Nat} : SumExact n v ↔ n + v < 2 ^ 31 := by
  constructor
  · intro h
    have hlt : intAdd n v < 2 ^ 31 := by
      have := @BitVec.toInt_lt 32 (BitVec.ofNat 32 (n + v))
      rw [intAdd]
      omega
    have := h.sum
    omega
  · intro h
    have hsum := intAdd_eq h
    refine ⟨by rw [hsum, Int.natCast_add], ?_, by rw [hsum]; exact Int.natCast_nonneg _⟩
    rw [newSize, hsum, BitVec.ofInt_natCast, BitVec.toNat_ofNat, Nat.mod_eq_of_lt (by omega)]

section

variable (u : M (Option UInt8))

/-- The constructor, which goes on with the stream `is` in the state `s`, comes to a pair of the
lengths `n` and `v`. -/
inductive Announced : Istream → State → Nat → Nat → Prop
  | here {is is₁ is₂ : Istream} {s s₁ s₂ : State} {n v : Nat}
      (hn : readLength u is s = (.ok (some n, is₁), s₁))
      (hv : readLength u is₁ s₁ = (.ok (some v, is₂), s₂)) : Announced is s n v
  | later {is is' : Istream} {s s' : State} {nv nv' : NamesValues} {n v : Nat}
      (hp : readPair u is nv s = (.ok (.again (is', nv')), s'))
      (h : Announced is' s' n v) : Announced is s n v

end

section

variable {u : M (Option UInt8)} {bs : List UInt8} {fin : Except Exception Unit}
  {s s' s₁ : State} {is is₁ : Istream} {n v : Nat}

/-- A length that is read is there. -/
theorem readLength_inv (h : Supplies u bs fin s s') (hg : is.good = true)
    (hrun : readLength u is s = (.ok (some n, is₁), s₁)) :
    ∃ nb rest, LengthBytes n nb ∧ bs = nb ++ rest ∧ is₁.good = true ∧
      Supplies u rest fin s₁ s' := by
  rcases lengthBytes_cases bs with rfl | ⟨m, nb, rest, hm, rfl⟩ | ⟨b, rest, hb, hlen, rfl⟩
  · cases (readLength_nil h hg).symm.trans hrun
  · obtain ⟨is', s'', hrun', hg', hs'⟩ := readLength_ok hm h hg
    cases hrun'.symm.trans hrun
    exact ⟨nb, rest, hm, rfl, hg', hs'⟩
  · obtain ⟨e, hrun'⟩ := readLength_short hb hlen h hg
    cases hrun'.symm.trans hrun

/-- What the constructor comes to was announced in the stream. -/
theorem Announced.lt (ha : Announced u is s n v) (h : Supplies u bs fin s s')
    (hg : is.good = true) (hsmall : SumsBelow (2 ^ 31) bs) : n + v < 2 ^ 31 := by
  induction ha generalizing bs with
  | here hn hv =>
      obtain ⟨nb, rest, hnb, rfl, hg₁, hs₁⟩ := readLength_inv h hg hn
      obtain ⟨vb, rest', hvb, rfl, -, -⟩ := readLength_inv hs₁ hg₁ hv
      exact hsmall.head hnb hvb
  | @later is is' s s₁ nv nv' n v hp _ ih =>
      by_cases hnil : bs = []
      · subst hnil
        cases (readPair_nil h hg nv).symm.trans hp
      rcases readPair_cases hnil hsmall h hg nv with
        ⟨name, value, nb, vb, rest, hnb, hvb, rfl⟩ | ⟨e, hrun⟩
      · obtain ⟨is₂, s₂, hrun, hg₂, hs₂⟩ := readPair_ok hnb hvb (hsmall.head hnb hvb) h hg nv
        cases hrun.symm.trans hp
        exact ih hs₂ hg₂ (hsmall.tail hnb hvb)
      · cases hrun.symm.trans hp

/-- **The sums are exact.**  For a stream that gives `bs` and ends, or fails, behind it. -/
theorem length_sums_exact_iff (h : Supplies u bs fin s s') (hg : is.good = true) :
    (∀ n v, Announced u is s n v → SumExact n v) ↔ SumsBelow (2 ^ 31) bs := by
  constructor
  · intro hex ps pre nb vb rest n v hps hn hv e
    -- The induction is on the pairs before this one, whose sums are exact too.
    induction hps generalizing bs s is with
    | nil =>
        subst e
        obtain ⟨is₁, s₁, hrun₁, hg₁, hs₁⟩ := readLength_ok hn h hg
        obtain ⟨is₂, s₂, hrun₂, -, -⟩ := readLength_ok hv hs₁ hg₁
        exact sumExact_iff.mp (hex n v (.here hrun₁ hrun₂))
    | @cons name value nb' vb' bs' ps hn' hv' _ ih =>
        simp only [List.append_assoc] at e
        subst e
        obtain ⟨is₁, s₁, hrun₁, hg₁, hs₁⟩ := readLength_ok hn' h hg
        obtain ⟨is₂, s₂, hrun₂, -, -⟩ := readLength_ok hv' hs₁ hg₁
        have hsum := sumExact_iff.mp (hex _ _ (.here hrun₁ hrun₂))
        obtain ⟨is₃, s₃, hrun, hg₃, hs₃⟩ := readPair_ok hn' hv' hsum h hg {}
        exact ih hs₃ hg₃ (fun n v ha => hex n v (.later hrun ha)) rfl
  · intro hsmall n v ha
    exact sumExact_iff.mpr (ha.lt h hg hsmall)

end

end NamesValues

/-- A buffer that holds `bs`. -/
def bytesHeld (bs : List UInt8) : State where
  buf := ({ type_ := .params, capacity := bs.length, buffer_ := fun i => bs.getD i 0 } :
    ServerStreambuf).setg 0 0 bs.length
  world := { io := { incoming := [] } }

/-- A buffer that holds bytes supplies them. -/
theorem bytesHeld_supplies {bs : List UInt8}
    (h : (bytesHeld bs).buf.buffer_.load 0 bs.length = bs) :
    Supplies (pure none) bs (.ok ()) (bytesHeld bs)
      ⟨(bytesHeld bs).buf.gbump bs.length, (bytesHeld bs).world⟩ := by
  have harea : (bytesHeld bs).buf.getArea = some ⟨0, 0, 0 + bs.length⟩ := by
    rw [Nat.zero_add]
    rfl
  have hs : Supplies _ _ _ ⟨_, (bytesHeld bs).world⟩ _ := supplies_area harea
  rw [h] at hs
  exact hs

/-- The pair `A`, `B`. -/
theorem length_sums_exact_short :
    (∀ n v, NamesValues.Announced (pure none) {} (bytesHeld [1, 1, 65, 66]) n v →
      NamesValues.SumExact n v) ↔ SumsBelow (2 ^ 31) [1, 1, 65, 66] :=
  NamesValues.length_sums_exact_iff (bytesHeld_supplies rfl) rfl

/-- A name of 2³¹ - 1 bytes and a value of one: at the type `int`, they have -2³¹ bytes. -/
theorem length_sum_overflows :
    NamesValues.Announced (pure none) {} (bytesHeld [255, 255, 255, 255, 1]) 2147483647 1 ∧
      NamesValues.intAdd 2147483647 1 = -2147483648 ∧ ¬ NamesValues.SumExact 2147483647 1 := by
  refine ⟨?_, by decide, fun h => absurd h.count (by decide)⟩
  have hn : LengthBytes 2147483647 [255, 255, 255, 255] := @LengthBytes.long 255 255 255 255
    (by decide)
  have hv : LengthBytes 1 [1] := @LengthBytes.short 1 (by decide)
  have hs : Supplies (pure none) ([255, 255, 255, 255] ++ [1]) _ _ _ :=
    bytesHeld_supplies (show (bytesHeld [255, 255, 255, 255, 1]).buf.buffer_.load 0 5 = _ from rfl)
  have hg : ({} : Istream).good = true := rfl
  obtain ⟨is₁, s₁, hrun₁, hg₁, hs₁⟩ := NamesValues.readLength_ok hn hs hg
  obtain ⟨is₂, s₂, hrun₂, -, -⟩ := NamesValues.readLength_ok hv hs₁ hg₁
  exact .here hrun₁ hrun₂

end Fcgi
