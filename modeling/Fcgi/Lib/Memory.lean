import Mathlib.Tactic.Linarith

/-!
# Lib — byte memory

A block of memory as a function from offsets to bytes, whatever was in it before.  `store` puts
a string of bytes at an offset, `load` reads one.

What a store puts down, a load brings back (`load_store`), and one that does not meet it reads what
was there (`load_store_lt`, `load_store_ge`); two stores in a row are one (`store_append`).  How
large the block is, and whether an access is inside it, is for the program to say.
-/

namespace Fcgi.Lib

/-- The contents of a block of memory. -/
abbrev Mem : Type := Nat → UInt8

namespace Mem

/-- Puts the bytes `bs` at the offset `off`. -/
def store (m : Mem) (off : Nat) (bs : List UInt8) : Mem := fun i =>
  if off ≤ i then (bs[i - off]?).getD (m i) else m i

/-- The bytes at the offset, as many as asked for. -/
def load (m : Mem) : Nat → Nat → List UInt8
  | _, 0 => []
  | off, n + 1 => m off :: load m (off + 1) n

/-- A load brings as many bytes as asked for. -/
@[simp] theorem length_load (m : Mem) : ∀ off n, (m.load off n).length = n
  | _, 0 => rfl
  | off, n + 1 => by simp only [load, List.length_cons, length_load m (off + 1) n]

@[simp] theorem load_zero (m : Mem) (off : Nat) : m.load off 0 = [] := rfl

theorem load_succ (m : Mem) (off n : Nat) :
    m.load off (n + 1) = m off :: m.load (off + 1) n := rfl

theorem load_add (m : Mem) : ∀ off a b, m.load off (a + b) = m.load off a ++ m.load (off + a) b
  | off, 0, b => by simp
  | off, a + 1, b => by
      rw [Nat.succ_add_eq_add_succ, Nat.add_succ, load_succ, load_succ, load_add m (off + 1) a b,
        Nat.add_assoc off 1 a, Nat.add_comm 1 a, List.cons_append]

theorem take_load (m : Mem) {off k n : Nat} (h : k ≤ n) :
    (m.load off n).take k = m.load off k := by
  obtain ⟨d, rfl⟩ := Nat.exists_eq_add_of_le h
  rw [load_add, List.take_left' (length_load m off k)]

theorem drop_load (m : Mem) {off k n : Nat} (h : k ≤ n) :
    (m.load off n).drop k = m.load (off + k) (n - k) := by
  obtain ⟨d, rfl⟩ := Nat.exists_eq_add_of_le h
  rw [load_add, List.drop_left' (length_load m off k), Nat.add_sub_cancel_left]

/-- A load depends on the bytes it reads only. -/
theorem load_congr {m m' : Mem} : ∀ {off n : Nat},
    (∀ i, off ≤ i → i < off + n → m i = m' i) → m.load off n = m'.load off n
  | _, 0, _ => rfl
  | off, n + 1, h => by
      rw [load_succ, load_succ, h off (Nat.le_refl _) (by omega),
        load_congr fun i h₁ h₂ => h i (by omega) (by omega)]

/-- A store changes nothing below it. -/
theorem store_of_lt (m : Mem) {off i : Nat} (bs : List UInt8) (h : i < off) :
    m.store off bs i = m i := by
  rw [store, if_neg (by omega)]

/-- A store changes nothing above it. -/
theorem store_of_ge (m : Mem) {off i : Nat} (bs : List UInt8) (h : off + bs.length ≤ i) :
    m.store off bs i = m i := by
  rw [store, if_pos (by omega), List.getElem?_eq_none (by omega), Option.getD_none]

/-- A byte of what has been stored. -/
theorem store_add (m : Mem) (off : Nat) (bs : List UInt8) {j : Nat} (h : j < bs.length) :
    m.store off bs (off + j) = bs[j] := by
  rw [store, if_pos (by omega), Nat.add_sub_cancel_left, List.getElem?_eq_getElem h,
    Option.getD_some]

/-- A string stored into two blocks of memory. -/
theorem store_congr {m m' : Mem} {off i : Nat} {bs : List UInt8}
    (h : m i = m' i ∨ (off ≤ i ∧ i < off + bs.length)) : m.store off bs i = m'.store off bs i := by
  rcases h with h | ⟨h₁, h₂⟩
  · rw [store, store, h]
  · obtain ⟨j, rfl⟩ := Nat.exists_eq_add_of_le h₁
    rw [store_add m off bs (by omega), store_add m' off bs (by omega)]

/-- A string just stored reads back, and so does every part of it. -/
theorem load_store (m : Mem) (off : Nat) (bs : List UInt8) :
    (m.store off bs).load off bs.length = bs := by
  refine List.ext_getElem (length_load _ _ _) fun j h₁ h₂ => ?_
  have hj : j + 1 + (bs.length - (j + 1)) = bs.length := by omega
  have : ((m.store off bs).load off bs.length)[j]? = some bs[j] := by
    rw [← hj, load_add, load_add, List.append_assoc,
      List.getElem?_append_right (by simp), length_load, Nat.sub_self]
    simp only [load, List.cons_append, List.getElem?_cons_zero]
    rw [store_add m off bs h₂]
  rwa [List.getElem?_eq_getElem h₁, Option.some.injEq] at this

theorem load_store_lt (m : Mem) {off a n : Nat} (bs : List UInt8) (h : a + n ≤ off) :
    (m.store off bs).load a n = m.load a n :=
  load_congr fun _ _ _ => store_of_lt m bs (by omega)

theorem load_store_ge (m : Mem) {off a n : Nat} (bs : List UInt8) (h : off + bs.length ≤ a) :
    (m.store off bs).load a n = m.load a n :=
  load_congr fun _ _ _ => store_of_ge m bs (by omega)

/-- A string stored right after `[a, a + n)` extends it. -/
theorem load_store_append (m : Mem) (a n : Nat) (bs : List UInt8) :
    (m.store (a + n) bs).load a (n + bs.length) = m.load a n ++ bs := by
  rw [load_add, load_store_lt m bs (Nat.le_refl _), load_store]

/-- Two strings stored one after the other are one string stored. -/
theorem store_append (m : Mem) (off : Nat) (bs cs : List UInt8) :
    m.store off (bs ++ cs) = (m.store off bs).store (off + bs.length) cs := by
  funext i
  by_cases h₁ : i < off
  · rw [store_of_lt m _ h₁, store_of_lt _ _ (by omega), store_of_lt m _ h₁]
  · by_cases h₂ : i < off + bs.length
    · rw [store_of_lt _ _ h₂, store, store, if_pos (by omega), if_pos (by omega),
        List.getElem?_append_left (by omega)]
    · rw [store, store, if_pos (by omega), if_pos (by omega), List.getElem?_append_right (by omega),
        store_of_ge m bs (by omega), Nat.sub_sub]

end Mem

end Fcgi.Lib
