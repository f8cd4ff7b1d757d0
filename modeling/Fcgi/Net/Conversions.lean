import Fcgi.Lib.Bytes
import Fcgi.Base.Host
import Fcgi.Base.Exceptions

/-!
# Net — conversions

`net::copy` and `net::conv`, with `util::endianness`, on the bytes of objects.  A pointer is
`none` when it is null, and otherwise the bytes of the object it points to; source and
destination are different objects.

`conv` returns its result by value.  The ABI decides how much of an object a function hands over
(`ObjectType.returned`): of a `long double` on x86-64 only the ten bytes that a register of the
x87 holds, so that `conv(conv(x))` need not have the bytes of `x`.
-/

namespace Fcgi
open Lib

/-! ### Objects -/

/-- The bytes of an unsigned integer object of `size` bytes with the value `v`. -/
def Host.repr (host : Host) (size v : Nat) : List UInt8 :=
  match host.byteOrder with
  | .big => bytesBE size v
  | .little => bytesLE size v

/-- The value of an unsigned integer object. -/
def Host.value (host : Host) (bytes : List UInt8) : Nat :=
  match host.byteOrder with
  | .big => valueBE bytes
  | .little => valueLE bytes

/-- The bytes of an object from the most significant on. -/
def Host.bigEndian (host : Host) (bytes : List UInt8) : List UInt8 :=
  match host.byteOrder with
  | .big => bytes
  | .little => bytes.reverse

/-- A type: the bytes of the object that `T{}` makes, and those of the object that the caller gets
when a function returns one by value. -/
structure ObjectType where
  initial : List UInt8
  size_pos : 0 < initial.length
  returned : List UInt8 → List UInt8

namespace ObjectType

/-- `sizeof(T)` -/
def size (T : ObjectType) : Nat := T.initial.length

/-- The unsigned integer type of `size` bytes. -/
def unsigned (size : Nat) (h : 0 < size) : ObjectType :=
  ⟨List.replicate size 0, by rwa [List.length_replicate], id⟩

/-- `long double` on x86-64.  It is returned in `st(0)`, which holds ten of its sixteen bytes; the
others are those of the object of the caller, here zeros. -/
def longDouble : ObjectType :=
  ⟨List.replicate 16 0, by decide, fun bytes => bytes.take 10 ++ List.replicate 6 0⟩

/-- A function that returns a value of the type hands over all its bytes. -/
def ReturnsWhole (T : ObjectType) : Prop :=
  ∀ bytes, bytes.length = T.size → T.returned bytes = bytes

@[simp] theorem size_unsigned (size : Nat) (h : 0 < size) : (unsigned size h).size = size :=
  List.length_replicate

end ObjectType

/-! ### The functions -/

/-- `util::endianness`: the first byte of the `unsigned long` one. -/
def endianness (host : Host) : Endianness :=
  if (host.repr host.ulongSize 1)[0]? = some 1 then .little else .big

/-- `for (i...) dest_ubytes[index(i)] = src_ubytes[i]`, from `i` on. -/
def copyLoop (index : Nat → Nat) : List UInt8 → Nat → List UInt8 → List UInt8
  | [], _, dest => dest
  | b :: src, i, dest => copyLoop index src (i + 1) (dest.set (index i) b)

/-- `net::copy`: what `dest` holds afterwards. -/
def copy (host : Host) :
    Option (List UInt8) → Option (List UInt8) → Except Exception (List UInt8)
  | none, _ => .error (.net "net::copy destination is nullptr")
  | some _, none => .error (.net "net::copy source is nullptr")
  | some dest, some src =>
    if ¬ src.length ≤ dest.length then
      .error (.net "net::copy destination would not fit the source")
    else
      match endianness host with
      | .big => .ok (copyLoop (fun i => dest.length - src.length + i) src 0 dest)
      | .little => .ok (copyLoop (fun i => dest.length - 1 - i) src 0 dest)

/-- `net::conv<Dest>(data, data_size)`: the bytes of the object that the caller gets. -/
def conv (host : Host) (Dest : ObjectType) (data : Option (List UInt8)) :
    Except Exception (List UInt8) := do
  let result ← copy host (some Dest.initial) data
  pure (Dest.returned result)

/-! ### The byte order -/

/-- The probe finds the order of the host. -/
theorem endianness_eq (host : Host) : endianness host = host.byteOrder := by
  have hs := host.one_lt_ulongSize
  obtain ⟨n, hn⟩ : ∃ n, host.ulongSize = 1 + (n + 1) := ⟨host.ulongSize - 2, by omega⟩
  have hb : bytesLE (1 + (n + 1)) 1 = [1] ++ List.replicate (n + 1) 0 :=
    bytesLE_add (by decide) (n + 1)
  have hlittle : (bytesLE (1 + (n + 1)) 1)[0]? = some 1 := by
    rw [hb]
    rfl
  -- The first byte is the most significant one, a zero: there are at least two.
  have hbig : (bytesBE (1 + (n + 1)) 1)[0]? = some 0 := by
    rw [bytesBE, hb, List.reverse_append, List.reverse_replicate, List.replicate_succ]
    rfl
  rw [endianness, Host.repr, hn]
  cases host.byteOrder with
  | little => exact if_pos hlittle
  | big =>
      refine if_neg fun h => ?_
      cases hbig.symm.trans h

/-! ### The loops -/

/-- Rising indices: the source lands between `front` and `back`. -/
theorem copyLoop_rising {k : Nat} {src old : List UInt8} {i : Nat} {front back : List UInt8}
    (hl : old.length = src.length) (hk : front.length = k + i) :
    copyLoop (fun i => k + i) src i (front ++ (old ++ back)) = front ++ (src ++ back) := by
  induction src generalizing i front old with
  | nil =>
      rw [List.length_eq_zero_iff.mp hl]
      rfl
  | cons b src ih =>
      obtain ⟨o, old, rfl⟩ := List.exists_cons_of_length_eq_add_one hl
      have hset : (front ++ (o :: old ++ back)).set (k + i) b =
          (front ++ [b]) ++ (old ++ back) := by
        rw [← hk, List.cons_append, set_at_length, List.append_assoc, List.singleton_append]
      have hk' : (front ++ [b]).length = k + (i + 1) := by
        rw [List.length_append, hk, List.length_singleton, Nat.add_assoc]
      rw [copyLoop, hset, ih (Nat.succ.inj hl) hk', List.append_assoc, List.singleton_append,
        List.cons_append]

/-- Falling indices: the source lands there in reverse. -/
theorem copyLoop_falling {m : Nat} {src old : List UInt8} {i : Nat} {front back : List UInt8}
    (hl : old.length = src.length) (hm : front.length + old.length + i = m) :
    copyLoop (fun i => m - 1 - i) src i (front ++ (old ++ back)) =
      front ++ (src.reverse ++ back) := by
  induction src generalizing i old back with
  | nil =>
      rw [List.length_eq_zero_iff.mp hl]
      rfl
  | cons b src ih =>
      -- The byte goes to the last of the old ones.
      obtain ⟨old, o, rfl⟩ := (List.eq_nil_or_concat old).resolve_left fun h => by
        rw [h] at hl
        cases hl
      rw [List.concat_eq_append] at hl hm ⊢
      rw [List.length_append, List.length_singleton] at hl hm
      have hset : (front ++ (old ++ [o] ++ back)).set (m - 1 - i) b =
          front ++ (old ++ (b :: back)) := by
        have hlen : m - 1 - i = (front ++ old).length := by
          rw [List.length_append]
          omega
        rw [List.append_assoc, ← List.append_assoc front, List.singleton_append, hlen,
          set_at_length, List.append_assoc]
      rw [copyLoop, hset, ih (Nat.succ.inj hl) (by omega), List.reverse_cons, List.append_assoc,
        List.singleton_append]

/-! ### What is copied -/

/-- On either host the destination ends with the source from its most significant byte on, and
the bytes before are left alone. -/
theorem copy_eq (host : Host) {dest src : List UInt8} (h : src.length ≤ dest.length) :
    copy host (some dest) (some src) =
      .ok (dest.take (dest.length - src.length) ++ host.bigEndian src) := by
  have hsplit := List.take_append_drop (dest.length - src.length) dest
  have hdrop : (dest.drop (dest.length - src.length)).length = src.length := by
    rw [List.length_drop]
    omega
  have htake : (dest.take (dest.length - src.length)).length = dest.length - src.length := by
    rw [List.length_take]
    omega
  rw [copy, if_neg (not_not.mpr h), endianness_eq, Host.bigEndian]
  cases host.byteOrder with
  | big =>
      have := @copyLoop_rising (dest.length - src.length) src _ 0 _ [] hdrop htake
      rw [List.append_nil, List.append_nil, hsplit] at this
      exact congrArg Except.ok this
  | little =>
      have := @copyLoop_falling dest.length src _ 0 (dest.take (dest.length - src.length)) []
        hdrop (by omega)
      rw [List.append_nil, List.append_nil, hsplit] at this
      exact congrArg Except.ok this

/-- The bytes of a number in network order. -/
theorem bigEndian_repr (host : Host) (size v : Nat) :
    host.bigEndian (host.repr size v) = bytesBE size v := by
  rw [Host.bigEndian, Host.repr]
  cases host.byteOrder with
  | big => rfl
  | little => rfl

/-- The order of the bytes does not change their number. -/
theorem length_bigEndian (host : Host) (bytes : List UInt8) :
    (host.bigEndian bytes).length = bytes.length := by
  rw [Host.bigEndian]
  cases host.byteOrder with
  | big => rfl
  | little => exact List.length_reverse

/-- The order that is changed twice is as it was. -/
theorem bigEndian_bigEndian (host : Host) (bytes : List UInt8) :
    host.bigEndian (host.bigEndian bytes) = bytes := by
  rw [Host.bigEndian, Host.bigEndian]
  cases host.byteOrder with
  | big => rfl
  | little => exact List.reverse_reverse bytes

/-- A wider unsigned object, the upper bytes of which are zeros. -/
theorem conv_unsigned (host : Host) {size : Nat} (hs : 0 < size) {data : List UInt8}
    (h : data.length ≤ size) : conv host (.unsigned size hs) (some data) =
      .ok (List.replicate (size - data.length) 0 ++ host.bigEndian data) := by
  have hl : (ObjectType.unsigned size hs).initial.length = size := List.length_replicate
  rw [conv, copy_eq host (by rwa [hl]), hl, ObjectType.unsigned, List.take_replicate,
    Nat.min_eq_left (Nat.sub_le _ _)]
  rfl

/-- The whole object is written when the sizes agree. -/
theorem conv_same_size (host : Host) {T : ObjectType} (hT : T.ReturnsWhole) {data : List UInt8}
    (h : data.length = T.size) : conv host T (some data) = .ok (host.bigEndian data) := by
  have hwhole : T.returned (host.bigEndian data) = host.bigEndian data :=
    hT _ (by rwa [length_bigEndian])
  rw [conv, copy_eq host (Nat.le_of_eq h), h, ObjectType.size, Nat.sub_self, List.take_zero,
    List.nil_append]
  exact congrArg Except.ok hwhole

/-- `copy` writes the end of the destination from the most significant byte on; `conv` of an
unsigned value holds its big-endian bytes; and `conv` twice gives the bytes back, if a value of the
type is returned whole. -/
theorem copy_conv_big_endian (host : Host) :
    (∀ dest src : List UInt8, src.length ≤ dest.length →
      copy host (some dest) (some src) =
        .ok (dest.take (dest.length - src.length) ++ host.bigEndian src)) ∧
    (∀ (size size' v : Nat) (hs : 0 < size'), size ≤ size' → v < 256 ^ size →
      conv host (.unsigned size' hs) (some (host.repr size v)) = .ok (bytesBE size' v)) ∧
    (∀ (T : ObjectType) (x : List UInt8), T.ReturnsWhole → x.length = T.size →
      ∃ y, conv host T (some x) = .ok y ∧ conv host T (some y) = .ok x) := by
  refine ⟨fun dest src h => copy_eq host h, ?_, ?_⟩
  · intro size size' v hs hle hv
    have hl : (host.repr size v).length = size := by
      rw [← length_bigEndian, bigEndian_repr, bytesBE, List.length_reverse, length_bytesLE]
    obtain ⟨k, rfl⟩ := Nat.exists_eq_add_of_le hle
    rw [conv_unsigned host hs (by rwa [hl]), hl, bigEndian_repr, Nat.add_sub_cancel_left,
      bytesBE, bytesBE, bytesLE_add hv, List.reverse_append, List.reverse_replicate]
  · intro T x hT hx
    refine ⟨host.bigEndian x, conv_same_size host hT hx, ?_⟩
    rw [conv_same_size host hT (by rwa [length_bigEndian]), bigEndian_bigEndian]

/-- Four bytes into two and two into four, on a little-endian host. -/
theorem copy_conv_big_endian_little :
    copy (.common .little) (some [1, 2, 3, 4]) (some [5, 6]) = .ok [1, 2, 6, 5] ∧
    conv (.common .little) (.unsigned 4 (by decide)) (some ((Host.common .little).repr 2 0x1234)) =
      .ok (bytesBE 4 0x1234) ∧
    ∃ y, conv (.common .little) (.unsigned 2 (by decide)) (some [7, 8]) = .ok y ∧
      conv (.common .little) (.unsigned 2 (by decide)) (some y) = .ok [7, 8] := by
  obtain ⟨hcopy, hconv, htwice⟩ := copy_conv_big_endian (.common .little)
  exact ⟨hcopy [1, 2, 3, 4] [5, 6] (by decide),
    hconv 2 4 0x1234 (by decide) (by decide) (by decide),
    htwice (.unsigned 2 (by decide)) _ (fun _ _ => rfl) rfl⟩

/-- A `long double`: the first `conv` puts six bytes of its significand last, where they are not
returned. -/
theorem longDouble_not_involutive :
    conv (.common .little) .longDouble
        (some [1, 2, 3, 4, 5, 6, 7, 128, 255, 63, 0, 0, 0, 0, 0, 0]) =
      .ok [0, 0, 0, 0, 0, 0, 63, 255, 128, 7, 0, 0, 0, 0, 0, 0] ∧
    conv (.common .little) .longDouble
        (some [0, 0, 0, 0, 0, 0, 63, 255, 128, 7, 0, 0, 0, 0, 0, 0]) =
      .ok [0, 0, 0, 0, 0, 0, 7, 128, 255, 63, 0, 0, 0, 0, 0, 0] ∧
    ¬ ∀ x : List UInt8, x.length = ObjectType.longDouble.size →
      ∃ y, conv (.common .little) .longDouble (some x) = .ok y ∧
        conv (.common .little) .longDouble (some y) = .ok x := by
  have hfirst : conv (.common .little) .longDouble
      (some [1, 2, 3, 4, 5, 6, 7, 128, 255, 63, 0, 0, 0, 0, 0, 0]) =
    .ok [0, 0, 0, 0, 0, 0, 63, 255, 128, 7, 0, 0, 0, 0, 0, 0] := by decide
  refine ⟨hfirst, by decide, fun h => ?_⟩
  obtain ⟨y, hy, hy'⟩ := h [1, 2, 3, 4, 5, 6, 7, 128, 255, 63, 0, 0, 0, 0, 0, 0] rfl
  cases hfirst.symm.trans hy
  exact absurd hy' (by decide)

/-! ### Reading data of the network -/

/-- Where the host stores the least significant byte first, the missing bytes are the lower
ones: the number is too great by their weight. -/
theorem value_conv (host : Host) {size : Nat} (hs : 0 < size) {data : List UInt8}
    (h : data.length ≤ size) : ∃ bytes, conv host (.unsigned size hs) (some data) = .ok bytes ∧
      host.value bytes = match host.byteOrder with
        | .big => valueBE data
        | .little => 256 ^ (size - data.length) * valueBE data := by
  refine ⟨_, conv_unsigned host hs h, ?_⟩
  rw [Host.value, Host.bigEndian]
  cases host.byteOrder with
  | big =>
      simp only [valueBE, List.reverse_append, List.reverse_replicate]
      rw [valueLE_append, valueLE_replicate_zero, Nat.mul_zero, Nat.add_zero]
  | little =>
      simp only [valueBE]
      rw [valueLE_append, valueLE_replicate_zero, List.length_replicate, Nat.zero_add]

/-- The number read is that of the big-endian data, on every host. -/
def ReadsBigEndian (size : Nat) (hs : 0 < size) (data : List UInt8) : Prop :=
  ∀ host : Host, ∃ bytes, conv host (.unsigned size hs) (some data) = .ok bytes ∧
    host.value bytes = valueBE data

/-- Every host reads the same number from data as long as the type, and from data of zeros. -/
theorem readsBigEndian_iff {size : Nat} (hs : 0 < size) {data : List UInt8}
    (h : data.length ≤ size) :
    ReadsBigEndian size hs data ↔ data.length = size ∨ valueBE data = 0 := by
  constructor
  · intro hr
    obtain ⟨bytes, hb, hv⟩ := hr (.common .little)
    obtain ⟨bytes', hb', hv'⟩ := value_conv (.common .little) hs h
    cases hb.symm.trans hb'
    rw [hv] at hv'
    replace hv' : valueBE data = 256 ^ (size - data.length) * valueBE data := hv'
    by_cases hz : valueBE data = 0
    · exact .inr hz
    · left
      have h₁ : 256 ^ (size - data.length) = 1 :=
        Nat.eq_of_mul_eq_mul_right (Nat.pos_of_ne_zero hz) (by rw [← hv', Nat.one_mul])
      have h₂ : size - data.length = 0 := by
        rcases (Nat.pow_eq_one.mp h₁) with h₂ | h₂
        · cases h₂
        · exact h₂
      omega
  · intro hc host
    obtain ⟨bytes, hb, hv⟩ := value_conv host hs h
    refine ⟨bytes, hb, ?_⟩
    rw [hv]
    cases host.byteOrder with
    | big => rfl
    | little =>
        rcases hc with hc | hc
        · simp only [hc, Nat.sub_self, pow_zero, Nat.one_mul]
        · simp only [hc, Nat.mul_zero]

/-- The two bytes of a port. -/
theorem readsBigEndian_port : ReadsBigEndian 2 (by decide) [0x12, 0x34] :=
  (readsBigEndian_iff (by decide) (by decide)).mpr (.inl rfl)

/-- A port read into four bytes: `0x1234` on one host and `0x12340000` on the other. -/
theorem port_not_readsBigEndian :
    conv (.common .little) (.unsigned 4 (by decide)) (some [0x12, 0x34]) =
      .ok [0, 0, 0x34, 0x12] ∧
    (Host.common .little).value [0, 0, 0x34, 0x12] = 0x12340000 ∧
    valueBE [0x12, 0x34] = 0x1234 ∧ ¬ ReadsBigEndian 4 (by decide) [0x12, 0x34] := by
  have hconv : conv (.common .little) (.unsigned 4 (by decide)) (some [0x12, 0x34]) =
    .ok [0, 0, 0x34, 0x12] := by decide
  refine ⟨hconv, by decide, by decide, fun h => ?_⟩
  obtain ⟨bytes, hb, hv⟩ := h (.common .little)
  cases hconv.symm.trans hb
  exact absurd hv (by decide)

end Fcgi
