import Fcgi.Lib.Pairs
import Fcgi.Streams.Supply
import Fcgi.Basics.NamesValues

/-!
# Basics — reading names and values from a stream

**`names_values_decoded`**: the constructor of `Names_values` succeeds on the strings of pairs and
on no others, it stores the pairs that are there, and it reads all of the stream.

The characters come from any stream that supplies them (`Supplies`), in whatever pieces.  Each of
the functions has one lemma for the case that the stream has what it asks for (`*_ok`) and one for
the case that the stream ends before (`*_short`, `*_nil`); `readPair_cases` tells the two apart by
what is left of the stream, and the loop is an induction on its length.  As the lengths announced
are below 2³¹ in sum, the code's arithmetic on them is exact.
-/

namespace Fcgi
open Lib

/-! ### The bits of a length -/

/-- The top bit tells a length of four bytes. -/
theorem and_0x80_ne_zero (b : UInt8) : b &&& 0x80 ≠ 0 ↔ 128 ≤ b.toNat := by
  rcases b with ⟨b⟩
  revert b
  decide +kernel

theorem toNat_and_0x7f {b : UInt8} (h : 128 ≤ b.toNat) : (b &&& 0x7f).toNat = b.toNat - 128 := by
  have := b.toNat_lt
  rw [UInt8.toNat_and, show (0x7f : UInt8).toNat = 2 ^ 7 - 1 from rfl,
    Nat.and_two_pow_sub_one_eq_mod]
  omega

namespace NamesValues

/-- `a + b` fits in an `int`. -/
theorem intAdd_eq {a b : Nat} (h : a + b < 2 ^ 31) : intAdd a b = (a + b : Nat) := by
  rw [intAdd, BitVec.toInt_eq_toNat_of_lt, BitVec.toNat_ofNat, Nat.mod_eq_of_lt (by omega)]
  rw [BitVec.toNat_ofNat, Nat.mod_eq_of_lt (by omega)]
  omega

/-- The names and values that are stored. -/
def contents (nv : NamesValues) : List (List UInt8 × List UInt8) :=
  nv.pairs_.map fun p => (p.name, p.value)

/-- A pair that is added is the last of the contents. -/
theorem contents_add (nv : NamesValues) (name value : List UInt8) :
    (nv.add (name ++ value) name.length value.length).contents =
      nv.contents ++ [(name, value)] := by
  simp [contents, add, NameValue.name, NameValue.value]

/-! ### The functions of the constructor -/

section

variable {u : M (Option UInt8)} {b : UInt8} {bs rest : List UInt8} {fin : Except Exception Unit}
  {s s' : State} {is : Istream} {n : Nat}

/-- A length that is there is read. -/
theorem readLength_ok {nb : List UInt8} (hn : LengthBytes n nb)
    (h : Supplies u (nb ++ rest) fin s s') (hg : is.good = true) :
    ∃ is₁ s₁, readLength u is s = (.ok (some n, is₁), s₁) ∧ is₁.good = true ∧
      Supplies u rest fin s₁ s' := by
  cases hn with
  | @short b hb =>
      obtain ⟨s₁, hget, hs₁⟩ := h.get hg
      refine ⟨{ is with gcount := 1 }, s₁, ?_, hg, hs₁⟩
      rw [readLength, Prog.bind_ok hget]
      dsimp only
      rw [if_neg (by rw [and_0x80_ne_zero]; omega)]
      rfl
  | @long b₃ b₂ b₁ b₀ hb =>
      obtain ⟨s₁, hget, hs₁⟩ := h.get hg
      have hcs : Supplies u ([b₂, b₁, b₀] ++ rest) fin s₁ s' := hs₁
      have hg₁ : ({ is with gcount := 1 } : Istream).good = true := hg
      obtain ⟨s₂, hread, hs₂⟩ := hcs.read hg₁
      have hread : Istream.read u { is with gcount := 1 } 3 s₁ =
        (.ok ([b₂, b₁, b₀], { is with gcount := 3 }), s₂) := hread
      refine ⟨{ is with gcount := 3 }, s₂, ?_, hg, hs₂⟩
      rw [readLength, Prog.bind_ok hget]
      dsimp only
      rw [if_pos ((and_0x80_ne_zero b₃).mpr hb), Prog.bind_ok hread]
      dsimp only
      rw [if_pos rfl, toNat_and_0x7f hb]
      simp only [Nat.shiftLeft_eq]
      rfl

/-- The stream ends where a length is expected. -/
theorem readLength_nil (h : Supplies u [] fin s s') (hg : is.good = true) :
    readLength u is s = (.ok (none, is.stopped fin), s') := by
  rw [readLength, Prog.bind_ok (h.get_nil hg)]
  rfl

/-- It ends within a length. -/
theorem readLength_short (hb : 128 ≤ b.toNat) (hlen : rest.length < 3)
    (h : Supplies u (b :: rest) fin s s') (hg : is.good = true) :
    ∃ e, readLength u is s = (.error (.exc e), s') := by
  obtain ⟨s₁, hget, hs₁⟩ := h.get hg
  have hg₁ : ({ is with gcount := 1 } : Istream).good = true := hg
  obtain ⟨cs, is', hread, hne⟩ := hs₁.read_short hg₁ hlen
  have hread : Istream.read u { is with gcount := 1 } 3 s₁ = (.ok (cs, is'), s') := hread
  refine ⟨.fcgi "cannot read length of FastCGI parameters", ?_⟩
  rw [readLength, Prog.bind_ok hget]
  dsimp only
  rw [if_pos ((and_0x80_ne_zero b).mpr hb), Prog.bind_ok hread]
  dsimp only
  rw [if_neg hne]
  rfl

theorem readData_ok {data : List UInt8} (h : Supplies u (data ++ rest) fin s s')
    (hg : is.good = true) : ∃ is₁ s₁, readData u is data.length s = (.ok (data, is₁), s₁) ∧
      is₁.good = true ∧ Supplies u rest fin s₁ s' := by
  obtain ⟨s₁, hread, hs₁⟩ := h.read hg
  refine ⟨{ is with gcount := data.length }, s₁, ?_, hg, hs₁⟩
  rw [readData, Prog.bind_ok hread]
  dsimp only
  rw [if_pos rfl]
  rfl

/-- Where the stream ends before, an exception is thrown. -/
theorem readData_short (h : Supplies u bs fin s s') (hg : is.good = true) (hn : bs.length < n) :
    ∃ e, readData u is n s = (.error (.exc e), s') := by
  obtain ⟨cs, is', hread, hne⟩ := h.read_short hg hn
  refine ⟨.fcgi "cannot read FastCGI parameters", ?_⟩
  rw [readData, Prog.bind_ok hread]
  dsimp only
  rw [if_neg (by exact_mod_cast hne)]
  rfl

/-- One pair. -/
theorem readPair_ok {name value nb vb : List UInt8} (hn : LengthBytes name.length nb)
    (hv : LengthBytes value.length vb) (hsum : name.length + value.length < 2 ^ 31)
    (h : Supplies u (nb ++ (vb ++ (name ++ (value ++ rest)))) fin s s') (hg : is.good = true)
    (nv : NamesValues) :
    ∃ is₁ s₁, readPair u is nv s =
        (.ok (.again (is₁, nv.add (name ++ value) name.length value.length)), s₁) ∧
      is₁.good = true ∧ Supplies u rest fin s₁ s' := by
  obtain ⟨is₁, s₁, hname, hg₁, hs₁⟩ := readLength_ok hn h hg
  obtain ⟨is₂, s₂, hvalue, hg₂, hs₂⟩ := readLength_ok hv hs₁ hg₁
  rw [← List.append_assoc] at hs₂
  obtain ⟨is₃, s₃, hdata, hg₃, hs₃⟩ := readData_ok hs₂ hg₂
  refine ⟨is₃, s₃, ?_, hg₃, hs₃⟩
  rw [List.length_append] at hdata
  rw [readPair, Prog.bind_ok hname]
  dsimp only
  rw [Prog.bind_ok hvalue]
  dsimp only
  rw [intAdd_eq hsum, Prog.bind_ok hdata]
  rfl

/-- At the end of the stream the loop ends. -/
theorem readPair_nil (h : Supplies u [] fin s s') (hg : is.good = true) (nv : NamesValues) :
    readPair u is nv s = (.ok (.done (nv, is.stopped fin)), s') := by
  rw [readPair, Prog.bind_ok (readLength_nil h hg)]
  rfl

/-- The pair that comes next is whole, or the stream ends within it and the constructor
throws. -/
theorem readPair_cases (hne : bs ≠ []) (hsmall : SumsBelow (2 ^ 31) bs)
    (h : Supplies u bs fin s s') (hg : is.good = true) (nv : NamesValues) :
    (∃ name value nb vb rest, LengthBytes name.length nb ∧ LengthBytes value.length vb ∧
        bs = nb ++ (vb ++ (name ++ (value ++ rest)))) ∨
      ∃ e, readPair u is nv s = (.error (.exc e), s') := by
  -- The first length is there, or the bytes end in it; and so it is with the second.
  rcases lengthBytes_cases bs with rfl | ⟨n, nb, bs₁, hn, rfl⟩ | ⟨b, rest, hb, hlen, rfl⟩
  · exact absurd rfl hne
  · obtain ⟨is₁, s₁, hname, hg₁, hs₁⟩ := readLength_ok hn h hg
    rcases lengthBytes_cases bs₁ with rfl | ⟨v, vb, bs₂, hv, rfl⟩ | ⟨b, rest, hb, hlen, rfl⟩
    · -- Between the two lengths.
      refine .inr ⟨.fcgi "FastCGI protocol violation", ?_⟩
      rw [readPair, Prog.bind_ok hname]
      dsimp only
      rw [Prog.bind_ok (readLength_nil hs₁ hg₁)]
      rfl
    · obtain ⟨is₂, s₂, hvalue, hg₂, hs₂⟩ := readLength_ok hv hs₁ hg₁
      have hsum := hsmall.head hn hv
      by_cases hlen : n + v ≤ bs₂.length
      · left
        have hname : (bs₂.take n).length = n := by
          rw [List.length_take]
          omega
        have hvalue : ((bs₂.drop n).take v).length = v := by
          rw [List.length_take, List.length_drop]
          omega
        refine ⟨bs₂.take n, (bs₂.drop n).take v, nb, vb, (bs₂.drop n).drop v, ?_, ?_, ?_⟩
        · rwa [hname]
        · rwa [hvalue]
        · rw [List.take_append_drop, List.take_append_drop]
      · -- Inside the data.
        obtain ⟨e, hdata⟩ := readData_short hs₂ hg₂ (Nat.lt_of_not_le hlen)
        refine .inr ⟨e, ?_⟩
        rw [readPair, Prog.bind_ok hname]
        dsimp only
        rw [Prog.bind_ok hvalue]
        dsimp only
        rw [intAdd_eq hsum, Prog.bind_error hdata]
    · -- Inside the second length.
      obtain ⟨e, hvalue⟩ := readLength_short hb hlen hs₁ hg₁
      refine .inr ⟨e, ?_⟩
      rw [readPair, Prog.bind_ok hname]
      dsimp only
      rw [Prog.bind_error hvalue]
  · -- Inside the first length.
    obtain ⟨e, hname⟩ := readLength_short hb hlen h hg
    exact .inr ⟨e, Prog.bind_error hname⟩

/-! ### The loop -/

/-- A string of pairs is read to its end, and stored. -/
theorem readPairs_ok {ps : List (List UInt8 × List UInt8)} (hps : PairsBytes ps bs)
    (hsum : ∀ p ∈ ps, p.1.length + p.2.length < 2 ^ 31) (h : Supplies u bs fin s s')
    (hg : is.good = true) {fuel : Nat} (hf : bs.length < fuel) (nv : NamesValues) :
    ∃ (nv' : NamesValues) (is' : Istream), is'.good = true ∧ nv'.contents = nv.contents ++ ps ∧
      Prog.recLoop (fun _ _ (p : Istream × NamesValues) => readPair u p.1 p.2) fuel (is, nv) s =
        (.ok (nv', is'.stopped fin), s') := by
  induction hps generalizing s is fuel nv with
  | nil =>
      obtain ⟨fuel, rfl⟩ : ∃ k, fuel = k + 1 := ⟨fuel - 1, by omega⟩
      refine ⟨nv, is, hg, (List.append_nil _).symm, ?_⟩
      rw [Prog.recLoop_succ, readPair_nil h hg]
  | @cons name value nb vb bs ps hn hv _ ih =>
      have hpos := hn.length_pos
      simp only [List.length_append] at hf
      obtain ⟨fuel, rfl⟩ : ∃ k, fuel = k + 1 := ⟨fuel - 1, by omega⟩
      obtain ⟨is₁, s₁, hrun, hg₁, hs₁⟩ :=
        readPair_ok hn hv (hsum _ List.mem_cons_self) h hg nv
      obtain ⟨nv', is', hg', hc, hloop⟩ := ih (fun p hp => hsum p (List.mem_cons_of_mem _ hp)) hs₁
        hg₁ (show bs.length < fuel by omega) _
      refine ⟨nv', is', hg', ?_, ?_⟩
      · rw [hc, contents_add, List.append_assoc, List.singleton_append]
      · rw [Prog.recLoop_succ, hrun]
        exact hloop

/-- On any other string an exception is thrown. -/
theorem readPairs_throws (hno : ∀ ps, ¬ PairsBytes ps bs) (hsmall : SumsBelow (2 ^ 31) bs)
    (h : Supplies u bs fin s s') (hg : is.good = true) {fuel : Nat} (hf : bs.length < fuel)
    (nv : NamesValues) :
    ∃ e, Prog.recLoop (fun _ _ (p : Istream × NamesValues) => readPair u p.1 p.2) fuel (is, nv) s =
      (.error (.exc e), s') := by
  induction fuel generalizing bs s is nv with
  | zero => exact absurd hf (Nat.not_lt_zero _)
  | succ fuel ih =>
      have hne : bs ≠ [] := fun e => hno [] (e ▸ .nil)
      rcases readPair_cases hne hsmall h hg nv with
        ⟨name, value, nb, vb, rest, hn, hv, rfl⟩ | ⟨e, hrun⟩
      · have hpos := hn.length_pos
        simp only [List.length_append] at hf
        obtain ⟨is₁, s₁, hrun, hg₁, hs₁⟩ := readPair_ok hn hv (hsmall.head hn hv) h hg nv
        obtain ⟨e, hloop⟩ := ih (fun ps hps => hno _ (.cons hn hv hps)) (hsmall.tail hn hv) hs₁ hg₁
          (show rest.length < fuel by omega) _
        refine ⟨e, ?_⟩
        rw [Prog.recLoop_succ, hrun]
        exact hloop
      · refine ⟨e, ?_⟩
        rw [Prog.recLoop_succ, hrun]

/-- The constructor is its loop, if the reserve is small. -/
theorem ofStream_eq (hg : is.good = true) {reserve : Nat} (hr : reserve ≤ 64) (fuel : Nat) :
    ofStream u fuel is reserve s = Prog.recLoop (fun _ _ (p : Istream × NamesValues) =>
      readPair u p.1 p.2) fuel (is, {}) s := by
  have hok : ¬ is.fail = true ∧ ¬ is.bad = true ∧ reserve ≤ 64 := by
    simp only [Istream.good, Bool.and_eq_true, Bool.not_eq_true'] at hg
    simp only [hg, hr, Bool.false_eq_true, not_false_eq_true, and_self]
  rw [ofStream, Prog.bind_ok (Prog.assert_true hok _)]

end

end NamesValues

open NamesValues in
/-- **Names and values are decoded.**  From a stream that gives `bs` and ends. -/
theorem names_values_decoded {u : M (Option UInt8)} {bs : List UInt8} {s s' : State}
    (h : Supplies u bs (.ok ()) s s') {is : Istream} (hg : is.good = true) {reserve : Nat}
    (hr : reserve ≤ 64) {fuel : Nat} (hf : bs.length < fuel) :
    (SumsBelow (2 ^ 31) bs →
      ((∃ nv is' t, ofStream u fuel is reserve s = (.ok (nv, is'), t)) ↔ ∃ ps, PairsBytes ps bs) ∧
      (∀ ps, PairsBytes ps bs →
        ∃ nv is', ofStream u fuel is reserve s = (.ok (nv, is'), s') ∧ nv.contents = ps) ∧
      ((∀ ps, ¬ PairsBytes ps bs) →
        ∃ e, ofStream u fuel is reserve s = (.error (.exc e), s'))) ∧
    ∀ ps, (∀ p ∈ ps, p.1.length + p.2.length < 2 ^ 31) → bs = encodePairs ps →
      ∃ nv is', ofStream u fuel is reserve s = (.ok (nv, is'), s') ∧ nv.contents = ps := by
  have hok : ∀ ps, (∀ p ∈ ps, p.1.length + p.2.length < 2 ^ 31) → PairsBytes ps bs →
      ∃ nv is', ofStream u fuel is reserve s = (.ok (nv, is'), s') ∧ nv.contents = ps := by
    intro ps hsum hps
    obtain ⟨nv, is', -, hc, hloop⟩ := readPairs_ok hps hsum h hg hf {}
    exact ⟨nv, _, (ofStream_eq hg hr fuel).trans hloop, hc⟩
  refine ⟨fun hsmall => ?_, fun ps hsum hbs => hok ps hsum ?_⟩
  · have hthrows : (∀ ps, ¬ PairsBytes ps bs) →
        ∃ e, ofStream u fuel is reserve s = (.error (.exc e), s') := fun hno => by
      obtain ⟨e, hloop⟩ := readPairs_throws hno hsmall h hg hf {}
      exact ⟨e, (ofStream_eq hg hr fuel).trans hloop⟩
    refine ⟨⟨?_, ?_⟩, fun ps hps => hok ps (hsmall.pairs hps) hps, hthrows⟩
    · rintro ⟨nv, is', t, hrun⟩
      by_contra hno
      obtain ⟨e, hrun'⟩ := hthrows fun ps hps => hno ⟨ps, hps⟩
      cases hrun.symm.trans hrun'
    · rintro ⟨ps, hps⟩
      obtain ⟨nv, is', hrun, -⟩ := hok ps (hsmall.pairs hps) hps
      exact ⟨nv, is', s', hrun⟩
  · rw [hbs]
    refine pairsBytes_encode fun p hp => ?_
    have := hsum p hp
    omega

/-- A buffer that holds the pair `A`, `B` twice, the second time with a length of four bytes. -/
def pairsHeld : State where
  buf := ({ type_ := .params, capacity := 11, buffer_ := fun i =>
    [1, 1, 65, 66, 128, 0, 0, 1, 1, 65, 66].getD i 0 } : ServerStreambuf).setg 0 0 11
  world := { io := { incoming := [] } }

/-- The same pair twice. -/
theorem names_values_decoded_twice :
    ∃ nv is', NamesValues.ofStream (pure none) 12 {} 3 pairsHeld =
      (.ok (nv, is'), ⟨pairsHeld.buf.gbump 11, pairsHeld.world⟩) ∧
      nv.contents = [([65], [66]), ([65], [66])] := by
  have hps : PairsBytes [([65], [66]), ([65], [66])] [1, 1, 65, 66, 128, 0, 0, 1, 1, 65, 66] :=
    have short : ∀ c : UInt8, LengthBytes [c].length [1] := fun _ =>
      @LengthBytes.short 1 (by decide)
    have long : LengthBytes ([65] : List UInt8).length [128, 0, 0, 1] :=
      @LengthBytes.long 128 0 0 1 (by decide)
    have hlast : PairsBytes [([65], [66])] ([128, 0, 0, 1] ++ ([1] ++ ([65] ++ ([66] ++ [])))) :=
      .cons long (short 66) .nil
    .cons (short 65) (short 66) hlast
  have hs : Supplies (pure none) [1, 1, 65, 66, 128, 0, 0, 1, 1, 65, 66] (.ok ()) pairsHeld
      ⟨pairsHeld.buf.gbump 11, pairsHeld.world⟩ :=
    supplies_area (show pairsHeld.buf.getArea = some ⟨0, 0, 0 + 11⟩ from rfl)
  exact ((names_values_decoded hs rfl (by decide) (by decide)).1
    (hps.sumsBelow (by decide))).2.1 _ hps

end Fcgi
