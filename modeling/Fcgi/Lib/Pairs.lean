import Mathlib.Tactic.Linarith

/-!
# Lib — pairs of byte strings

A pair is written as the length of its name, the length of its value, the name and the value.
A length is one byte below 128, or four bytes of which the first has its top bit set.

* `LengthBytes n bs`: `bs` is a way of writing the length `n`.
* `PairsBytes ps bs`: `bs` is a way of writing the pairs `ps`.
* `SumsBelow m bs`: no pair announced in `bs` has `m` bytes or more (`PairsBytes.sumsBelow`).
* `PairsBytes.concat`: pairs are read one after the other.
* `encodePairs`: the pairs with each length written as shortly as possible (`pairsBytes_encode`).

A short length may also be written in four bytes, so the encoding is a relation and not a function.
It can still be read in one way only: the first byte tells how long a length is
(`LengthBytes.unique`), and the lengths tell where the strings end.
-/

namespace Fcgi.Lib

/-- `bs` is a way of writing the length `n`. -/
inductive LengthBytes : Nat → List UInt8 → Prop
  | short {b : UInt8} (h : b.toNat < 128) : LengthBytes b.toNat [b]
  | long {b₃ b₂ b₁ b₀ : UInt8} (h : 128 ≤ b₃.toNat) :
      LengthBytes ((b₃.toNat - 128) * 2 ^ 24 + b₂.toNat * 2 ^ 16 + b₁.toNat * 2 ^ 8 + b₀.toNat)
        [b₃, b₂, b₁, b₀]

/-- `bs` is a way of writing the pairs `ps`. -/
inductive PairsBytes : List (List UInt8 × List UInt8) → List UInt8 → Prop
  | nil : PairsBytes [] []
  | cons {name value nb vb bs : List UInt8} {ps : List (List UInt8 × List UInt8)}
      (hn : LengthBytes name.length nb) (hv : LengthBytes value.length vb)
      (h : PairsBytes ps bs) :
      PairsBytes ((name, value) :: ps) (nb ++ (vb ++ (name ++ (value ++ bs))))

/-- Wherever two lengths are announced after a string of pairs, their sum is below `m`. -/
def SumsBelow (m : Nat) (bs : List UInt8) : Prop :=
  ∀ ps pre nb vb rest n v, PairsBytes ps pre → LengthBytes n nb → LengthBytes v vb →
    bs = pre ++ (nb ++ (vb ++ rest)) → n + v < m

/-- The bound for the pair at the front. -/
theorem SumsBelow.head {m n v : Nat} {nb vb rest : List UInt8}
    (h : SumsBelow m (nb ++ (vb ++ rest))) (hn : LengthBytes n nb) (hv : LengthBytes v vb) :
    n + v < m := h [] [] nb vb rest n v .nil hn hv rfl

/-- The bound for the pairs behind the first. -/
theorem SumsBelow.tail {m : Nat} {name value nb vb rest : List UInt8}
    (h : SumsBelow m (nb ++ (vb ++ (name ++ (value ++ rest)))))
    (hn : LengthBytes name.length nb) (hv : LengthBytes value.length vb) : SumsBelow m rest := by
  intro ps pre nb' vb' rest' n v hps hn' hv' e
  refine h _ _ nb' vb' rest' n v (.cons hn hv hps) hn' hv' ?_
  rw [e]
  simp only [List.append_assoc]

/-- The bound for all pairs that are written. -/
theorem SumsBelow.pairs {m : Nat} {ps : List (List UInt8 × List UInt8)} {bs : List UInt8}
    (h : SumsBelow m bs) (hps : PairsBytes ps bs) : ∀ p ∈ ps, p.1.length + p.2.length < m := by
  induction hps with
  | nil => exact nofun
  | cons hn hv _ ih =>
      intro p hp
      rcases List.mem_cons.mp hp with rfl | hp
      · exact h.head hn hv
      · exact ih (h.tail hn hv) p hp

/-- What a string begins with, where a length is expected. -/
theorem lengthBytes_cases (bs : List UInt8) :
    bs = [] ∨ (∃ n nb rest, LengthBytes n nb ∧ bs = nb ++ rest) ∨
      ∃ b rest, 128 ≤ b.toNat ∧ rest.length < 3 ∧ bs = b :: rest := by
  rcases bs with _ | ⟨b, bs⟩
  · exact .inl rfl
  · by_cases hb : b.toNat < 128
    · exact .inr (.inl ⟨_, _, bs, .short hb, rfl⟩)
    · rw [Nat.not_lt] at hb
      rcases bs with _ | ⟨b₂, _ | ⟨b₁, _ | ⟨b₀, rest⟩⟩⟩
      · exact .inr (.inr ⟨b, [], hb, by decide, rfl⟩)
      · exact .inr (.inr ⟨b, [b₂], hb, by simp, rfl⟩)
      · exact .inr (.inr ⟨b, [b₂, b₁], hb, by simp, rfl⟩)
      · exact .inr (.inl ⟨_, _, rest, .long hb, rfl⟩)

/-- A length takes at least one byte. -/
theorem LengthBytes.length_pos {n : Nat} {nb : List UInt8} (h : LengthBytes n nb) :
    0 < nb.length := by
  cases h <;> simp

/-- A length that can be written has 31 bits. -/
theorem LengthBytes.lt {n : Nat} {nb : List UInt8} (h : LengthBytes n nb) : n < 2 ^ 31 := by
  cases h with
  | short h => omega
  | @long b₃ b₂ b₁ b₀ h =>
      have := b₃.toNat_lt
      have := b₂.toNat_lt
      have := b₁.toNat_lt
      have := b₀.toNat_lt
      omega

/-- A string of pairs with another one behind it. -/
theorem PairsBytes.concat {ps : List (List UInt8 × List UInt8)} {name value nb vb bs : List UInt8}
    (h : PairsBytes ps bs) (hn : LengthBytes name.length nb) (hv : LengthBytes value.length vb) :
    PairsBytes (ps ++ [(name, value)]) (bs ++ (nb ++ (vb ++ (name ++ value)))) := by
  induction h with
  | nil =>
      have := PairsBytes.cons hn hv .nil
      rwa [List.append_nil] at this
  | cons hn' hv' _ ih =>
      have := PairsBytes.cons hn' hv' ih
      simpa only [List.append_assoc, List.cons_append] using this

/-! ### There is one way of reading -/

/-- A length at the front can be read in one way only. -/
theorem LengthBytes.unique {n m : Nat} {nb mb x y : List UInt8} (hn : LengthBytes n nb)
    (hm : LengthBytes m mb) (h : nb ++ x = mb ++ y) : n = m ∧ x = y := by
  cases hn with
  | short hb =>
      cases hm with
      | short => simp only [List.cons_append, List.nil_append, List.cons.injEq] at h; simp [h]
      | long hb' =>
          simp only [List.cons_append, List.nil_append, List.cons.injEq] at h
          rw [h.1] at hb
          omega
  | long hb =>
      cases hm with
      | short hb' =>
          simp only [List.cons_append, List.nil_append, List.cons.injEq] at h
          rw [h.1] at hb
          omega
      | long => simp only [List.cons_append, List.nil_append, List.cons.injEq] at h; simp [h]

/-- All that is announced in a string of pairs is there. -/
theorem PairsBytes.sumsBelow {m : Nat} {ps : List (List UInt8 × List UInt8)} {bs : List UInt8}
    (hps : PairsBytes ps bs) (h : ∀ p ∈ ps, p.1.length + p.2.length < m) : SumsBelow m bs := by
  intro ps' pre nb vb rest n v hpre hn hv e
  induction hpre generalizing ps bs with
  | nil =>
      cases hps with
      | nil =>
          have := hn.length_pos
          have := congrArg List.length e
          simp only [List.length_nil, List.length_append] at this
          omega
      | cons hn' hv' _ =>
          obtain ⟨rfl, e'⟩ := hn.unique hn' e.symm
          obtain ⟨rfl, -⟩ := hv.unique hv' e'
          exact h _ List.mem_cons_self
  | cons hn₁ hv₁ _ ih =>
      simp only [List.append_assoc] at e
      cases hps with
      | nil =>
          have := hn₁.length_pos
          have := congrArg List.length e
          simp only [List.length_nil, List.length_append] at this
          omega
      | cons hn' hv' hps =>
          obtain ⟨hlen, e⟩ := hn'.unique hn₁ e
          obtain ⟨hlen', e⟩ := hv'.unique hv₁ e
          obtain ⟨-, e⟩ := List.append_inj e hlen
          obtain ⟨-, e⟩ := List.append_inj e hlen'
          exact ih hps (fun p hp => h p (List.mem_cons_of_mem _ hp)) e

/-! ### The shortest way -/

/-- The length `n`, in one byte if that is enough. -/
def encodeLength (n : Nat) : List UInt8 :=
  if n ≤ 127 then [UInt8.ofNat n]
  else [UInt8.ofNat (n / 2 ^ 24 + 128), UInt8.ofNat (n / 2 ^ 16), UInt8.ofNat (n / 2 ^ 8),
    UInt8.ofNat n]

/-- One pair, its lengths written as shortly as possible. -/
def encodePair (p : List UInt8 × List UInt8) : List UInt8 :=
  encodeLength p.1.length ++ (encodeLength p.2.length ++ (p.1 ++ p.2))

/-- Several pairs, one after the other. -/
def encodePairs (ps : List (List UInt8 × List UInt8)) : List UInt8 := ps.flatMap encodePair

/-- The shortest way of writing a length is one. -/
theorem lengthBytes_encode {n : Nat} (h : n < 2 ^ 31) : LengthBytes n (encodeLength n) := by
  rw [encodeLength]
  split
  · have hn : (UInt8.ofNat n).toNat = n := by
      rw [UInt8.toNat_ofNat']
      omega
    have := LengthBytes.short (b := UInt8.ofNat n) (by omega)
    rwa [hn] at this
  · have h₃ : (UInt8.ofNat (n / 2 ^ 24 + 128)).toNat = n / 2 ^ 24 + 128 := by
      rw [UInt8.toNat_ofNat']
      omega
    have := @LengthBytes.long (UInt8.ofNat (n / 2 ^ 24 + 128)) (UInt8.ofNat (n / 2 ^ 16))
      (UInt8.ofNat (n / 2 ^ 8)) (UInt8.ofNat n) (by omega)
    rw [h₃, UInt8.toNat_ofNat', UInt8.toNat_ofNat', UInt8.toNat_ofNat'] at this
    convert this using 1
    omega

/-- The shortest way of writing pairs is one. -/
theorem pairsBytes_encode {ps : List (List UInt8 × List UInt8)}
    (h : ∀ p ∈ ps, p.1.length < 2 ^ 31 ∧ p.2.length < 2 ^ 31) : PairsBytes ps (encodePairs ps) := by
  induction ps with
  | nil => exact .nil
  | cons p ps ih =>
      obtain ⟨name, value⟩ := p
      obtain ⟨hn, hv⟩ := h _ List.mem_cons_self
      have := PairsBytes.cons (lengthBytes_encode hn) (lengthBytes_encode hv)
        (ih fun p hp => h p (List.mem_cons_of_mem _ hp))
      simpa only [encodePairs, encodePair, List.flatMap_cons, List.append_assoc] using this

end Fcgi.Lib
