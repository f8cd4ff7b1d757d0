import Mathlib.Data.List.Basic
import Fcgi.Basics.Decoding

/-!
# Basics — what has been taken when names and values are there

`Feeds P N u`: `P cs` holds once the characters `cs` have been taken through the `underflow()` `u`,
and `N cs` once there are no more.  `u` may fault at any time.

**`Feeds.ofStream`**: where the constructor of `Names_values` succeeds, and no exception has been
caught, what has been taken is a string of pairs, and these are stored.
-/

namespace Fcgi
open Lib
open NamesValues (contents)

/-- `P` holds after the characters that have been taken, and `N` once there are no more. -/
structure Feeds (P N : List UInt8 → State → Prop) (u : M (Option UInt8)) : Prop where
  bump : ∀ cs, Triple (P cs) (sbumpc u) (fun r s => match r with
    | some c => P (cs ++ [c]) s
    | none => N cs s) fun _ _ => True

/-- The sum is the one that was read, if as many characters as it says are there. -/
theorem NamesValues.intAdd_eq_length {a b k : Nat} (ha : a < 2 ^ 31) (hb : b < 2 ^ 31)
    (h : (k : Int) = intAdd a b) : k = a + b := by
  rw [intAdd, BitVec.toInt_eq_toNat_cond, BitVec.toNat_ofNat, Nat.mod_eq_of_lt (by omega)] at h
  split at h <;> omega

namespace Feeds

variable {P N : List UInt8 → State → Prop} {u : M (Option UInt8)} {cs : List UInt8} {is : Istream}

/-- Several characters; what was taken is what was asked for, or less. -/
theorem xsgetn (hu : Feeds P N u) : ∀ (n : Nat) (cs : List UInt8),
    Triple (P cs) (xsgetn u n) (fun ds s => ds.length = n → P (cs ++ ds) s) fun _ _ => True
  | 0, cs => Triple.pure fun s hs _ => (List.append_nil cs).symm ▸ hs
  | n + 1, cs => by
      refine Triple.bind (hu.bump cs) fun r => ?_
      cases r with
      | none => exact Triple.pure fun _ _ => nofun
      | some c =>
          refine Triple.bind (hu.xsgetn n (cs ++ [c])) fun ds => Triple.pure fun s hs h => ?_
          rw [List.append_cons]
          exact hs (Nat.succ.inj h)

/-- `get()`: a character, or an attempt after which the stream is not good. -/
theorem get (hu : Feeds P N u) (hg : is.good = true) : Triple (P cs) (is.get u)
    (fun p s => match p.1 with
      | some c => p.2.good = true ∧ P (cs ++ [c]) s
      | none => p.2.bad = false → N cs s) fun _ _ => True := by
  rw [Istream.get, if_pos hg]
  refine Triple.bind (Triple.attempt (R := AfterGet (fun c => P (cs ++ [c])) (N cs) fun _ => True)
    ((hu.bump cs).conseq (fun _ => id) (fun r _ hs => ?_) fun x _ _ => ?_)) fun r => ?_
  · cases r <;> exact hs
  · cases x <;> trivial
  · rcases r with e | _ | c
    · exact Triple.pure fun _ _ h => by cases h
    · exact Triple.pure fun _ hs _ => hs
    · exact Triple.pure fun _ hs => ⟨hg, hs⟩

/-- `read()` of all that was asked for. -/
theorem read (hu : Feeds P N u) (hg : is.good = true) (n : Int) : Triple (P cs) (is.read u n)
    (fun p s => (p.2.gcount : Int) = n →
      p.2.good = true ∧ (p.1.length : Int) = n ∧ P (cs ++ p.1) s) fun _ _ => True := by
  rw [Istream.read, if_pos hg]
  refine Triple.bind (Triple.attempt (R := AfterRead
    (fun ds s => ds.length = n.toNat → P (cs ++ ds) s) fun _ => n.toNat ≠ 0) ?_) fun r => ?_
  · cases n.toNat with
    | zero => exact Triple.pure fun s hs _ => (List.append_nil cs).symm ▸ hs
    | succ k =>
        refine (hu.xsgetn (k + 1) cs).conseq (fun _ => id) (fun _ _ hs => hs) fun x _ _ => ?_
        cases x with
        | exc e => exact Nat.succ_ne_zero k
        | _ => trivial
  · rcases r with e | ds
    · exact Triple.pure fun s hs h => absurd (by rw [← h]; rfl) hs
    · refine Triple.ite (fun hn => Triple.pure fun s hs _ => ?_) fun hne =>
        Triple.pure fun s _ h => absurd h hne
      exact ⟨hg, hn, hs (by rw [← hn]; rfl)⟩

/-- The bytes of a length have been taken. -/
theorem readLength (hu : Feeds P N u) (hg : is.good = true) :
    Triple (P cs) (NamesValues.readLength u is) (fun p s => match p.1 with
      | some n => p.2.good = true ∧ ∃ nb, LengthBytes n nb ∧ P (cs ++ nb) s
      | none => p.2.bad = false → N cs s) fun _ _ => True := by
  refine Triple.bind (hu.get hg) fun p => ?_
  rcases p with ⟨_ | b, is₁⟩
  · exact Triple.pure fun _ hs => hs
  · refine Triple.ite (fun hb => ?_) fun hb => Triple.pure fun s hs => ?_
    · rintro s ⟨hg₁, hs⟩
      refine Triple.bind (hu.read hg₁ 3) (fun q => ?_) s hs
      refine Triple.ite (fun h3 => Triple.pure fun s hs => ?_) fun _ =>
        Triple.throw fun _ _ => trivial
      rcases q with ⟨buf, is₂⟩
      obtain ⟨hg₂, hlen, hs⟩ := hs (by rw [h3]; rfl)
      obtain ⟨b₂, b₁, b₀, rfl⟩ := List.length_eq_three.mp (by exact_mod_cast hlen)
      have hb := (and_0x80_ne_zero b).mp hb
      have hn := @LengthBytes.long b b₂ b₁ b₀ hb
      refine ⟨hg₂, [b, b₂, b₁, b₀], ?_, by rw [List.append_cons]; exact hs⟩
      simp only [Nat.shiftLeft_eq, toNat_and_0x7f hb]
      exact hn
    · exact ⟨hs.1, [b], .short (Nat.lt_of_not_le (mt (and_0x80_ne_zero b).mpr hb)), hs.2⟩

/-- The bytes of a pair have been taken. -/
theorem readData (hu : Feeds P N u) (hg : is.good = true) (n : Int) :
    Triple (P cs) (NamesValues.readData u is n) (fun p s =>
      p.2.good = true ∧ (p.1.length : Int) = n ∧ P (cs ++ p.1) s) fun _ _ => True :=
  Triple.bind (hu.read hg n) fun _ => Triple.ite (fun h => Triple.pure fun _ hs => hs h)
    fun _ => Triple.throw fun _ _ => trivial

/-- One pair. -/
theorem readPair (hu : Feeds P N u) (hg : is.good = true) (nv : NamesValues) :
    Triple (P cs) (NamesValues.readPair u is nv) (fun r s => match r with
      | .again (is', nv') => is'.good = true ∧ ∃ name value nb vb,
          LengthBytes name.length nb ∧ LengthBytes value.length vb ∧
          nv'.contents = nv.contents ++ [(name, value)] ∧
          P (cs ++ (nb ++ (vb ++ (name ++ value)))) s
      | .done (nv', is') => nv' = nv ∧ (is'.bad = false → N cs s)) fun _ _ => True := by
  refine Triple.bind (hu.readLength hg) fun p => ?_
  rcases p with ⟨_ | n, is₁⟩
  · exact Triple.pure fun _ hs => ⟨rfl, hs⟩
  rintro s ⟨hg₁, nb, hn, hs⟩
  refine Triple.bind (hu.readLength hg₁) (fun q => ?_) s hs
  rcases q with ⟨_ | v, is₂⟩
  · exact Triple.throw fun _ _ => trivial
  rintro s ⟨hg₂, vb, hv, hs⟩
  refine Triple.bind (hu.readData hg₂ _) (fun d => Triple.pure ?_) s hs
  rintro s ⟨hg₃, hlen, hs⟩
  rcases d with ⟨data, is₃⟩
  have hsum : data.length = n + v := NamesValues.intAdd_eq_length hn.lt hv.lt hlen
  have hname : (data.take n).length = n := by
    rw [List.length_take]
    omega
  have hvalue : (data.drop n).length = v := by
    rw [List.length_drop]
    omega
  refine ⟨hg₃, data.take n, data.drop n, nb, vb, by rwa [hname], by rwa [hvalue], ?_, ?_⟩
  · rw [← NamesValues.contents_add, List.take_append_drop, hname, hvalue]
  · rw [List.take_append_drop]
    simpa only [List.append_assoc] using hs

/-- **The pairs that are stored** are those that have been taken. -/
theorem ofStream (hu : Feeds P N u) (hg : is.good = true) (fuel reserve : Nat) :
    Triple (P []) (NamesValues.ofStream u fuel is reserve) (fun p s => p.2.bad = false →
      ∃ cs, N cs s ∧ PairsBytes p.1.contents cs) fun _ _ => True := by
  refine Triple.bind (Triple.assert (Q := fun _ => P []) (fun _ hs _ => hs)
    fun _ _ _ => trivial) fun _ => ?_
  -- Before each round the pairs stored are those taken so far.
  refine (Triple.recLoop (I := fun (p : Istream × NamesValues) s => p.1.good = true ∧
    ∃ cs, P cs s ∧ PairsBytes p.2.contents cs) (fun _ _ _ => trivial) (fun _ _ _ p => ?_)
    fuel (is, {})).pre fun s hs => ⟨hg, [], hs, .nil⟩
  rintro s ⟨hg, cs, hs, hps⟩
  refine (hu.readPair hg p.2).post (fun r s hr => ?_) s hs
  cases r with
  | again q =>
      obtain ⟨hg', name, value, nb, vb, hn, hv, hc, hs⟩ := hr
      exact ⟨hg', _, hs, hc ▸ hps.concat hn hv⟩
  | done q =>
      obtain ⟨hq, hs⟩ := hr
      exact fun hbad => ⟨cs, hs hbad, hq ▸ hps⟩

end Feeds

end Fcgi
