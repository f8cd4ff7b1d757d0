import Mathlib.Data.List.Induction
import Fcgi.Basics.Decoding
import Fcgi.Connection.Definitions

/-!
# Connection — the parameters by name

`parameter()` looks a name up in the pairs of `Names_values`, which are added as blocks of memory
or as C strings.  `add(name, value)` allocates the block of the pair and does not fill it.

**`association_list_iff`**: the container is the list of the pairs added if and only if each block
allocated for two C strings holds them already.

What a name and an index give depends on the contents of the container alone
(`associationList_contents`), and these are, pair by pair, what was added or what lay in the block
(`addAll_contents`).  So the two lists are compared place by place.
-/

namespace Fcgi
open Lib

namespace Connection

/-- `parameter_count()`. -/
def parameterCount (c : Connection) : Nat := c.parameters_.pairCount

/-- `parameter_index(name)`. -/
def parameterIndex (c : Connection) (name : List UInt8) : Option Nat := c.parameters_.pairIndex name

/-- `parameter(name)`. -/
def parameter (name : List UInt8) : Connection.M (List UInt8) := do
  let c ← Prog.get
  match c.parameterIndex name with
  | some index => do
    let p ← c.parameters_.pair index
    pure p.value
  | none => Prog.throw (.fcgi ("cannot get FastCGI parameter ".append
      (String.ofList (name.map fun b => Char.ofNat b.toNat))))

end Connection

/-! ### Additions -/

/-- A C string, without its terminator. -/
structure CString where
  bytes : List UInt8
  noNul : 0 ∉ bytes

/-- A call of `add()`. -/
inductive Addition where
  /-- `add(data, name_size, value_size)`. -/
  | block (data : List UInt8) (nameSize valueSize : Nat) (h : nameSize + valueSize ≤ data.length)
  /-- `add(name, value)`. -/
  | strings (name value : CString)

namespace Addition

/-- `heap k` is what lies in the block allocated for the pair with the index `k`. -/
def exec (heap : Nat → Mem) (nv : NamesValues) : Addition → NamesValues
  | block data nameSize valueSize _ => nv.add data nameSize valueSize
  | strings name value => nv.addStrings (heap nv.pairCount) name.bytes value.bytes

/-- The name and the value that are added. -/
def entry : Addition → List UInt8 × List UInt8
  | block data nameSize valueSize _ => (data.take nameSize, (data.drop nameSize).take valueSize)
  | strings name value => (name.bytes, value.bytes)

/-- The block allocated for two C strings holds them already. -/
def Stored (block : Mem) : Addition → Prop
  | .block .. => True
  | strings name value =>
    block.load 0 (name.bytes.length + value.bytes.length) = name.bytes ++ value.bytes

/-- There is nothing to store in an allocated block. -/
def Filled : Addition → Prop
  | block .. => True
  | strings name value => name.bytes = [] ∧ value.bytes = []

end Addition

/-- The container after these additions. -/
def addAll (heap : Nat → Mem) (adds : List Addition) : NamesValues :=
  adds.foldl (Addition.exec heap) {}

/-- The parameters of `c` are the list `kvs`: it is counted, indexed and searched. -/
structure AssociationList (kvs : List (List UInt8 × List UInt8)) (c : Connection) : Prop where
  count : c.parameters_.pairCount = kvs.length
  pair : ∀ i name value, kvs[i]? = some (name, value) → ∃ p,
    c.parameters_.pair i c = (.ok p, c) ∧ p.name = name ∧ p.value = value
  index : ∀ name i, c.parameters_.pairIndex name = some i ↔
    (∃ value, kvs[i]? = some (name, value)) ∧ ∀ j < i, ∀ value, kvs[j]? ≠ some (name, value)
  noIndex : ∀ name, c.parameters_.pairIndex name = none ↔ ∀ kv ∈ kvs, kv.1 ≠ name
  parameter : ∀ name i value, c.parameters_.pairIndex name = some i →
    kvs[i]? = some (name, value) → Connection.parameter name c = (.ok value, c)
  throws : ∀ name, (∃ e, Connection.parameter name c = (.error (.exc e), c)) ↔
    ∀ kv ∈ kvs, kv.1 ≠ name

/-! ### The list of a container -/

section

variable {nv : NamesValues} {kvs : List (List UInt8 × List UInt8)} {c : Connection}

/-- The pair at an index within the container. -/
theorem NamesValues.pair_run {σ : Type} {i : Nat} {p : NameValue} (h : nv.pairs_[i]? = some p)
    (s : σ) : nv.pair i s = (.ok p, s) := by
  obtain ⟨hlt, -⟩ := List.getElem?_eq_some_iff.mp h
  have hlt : i < nv.pairCount := hlt
  rw [NamesValues.pair, Prog.bind_ok (Prog.assert_true hlt _), List.getD_eq_getElem?_getD, h]
  rfl

theorem NamesValues.contents_getElem? (nv : NamesValues) (i : Nat) :
    nv.contents[i]? = nv.pairs_[i]?.map fun p => (p.name, p.value) := List.getElem?_map

/-- What is at an index of the list is in the pair at this index. -/
theorem NamesValues.contents_eq_some {i : Nat} {name value : List UInt8} :
    nv.contents[i]? = some (name, value) ↔
      ∃ p, nv.pairs_[i]? = some p ∧ p.name = name ∧ p.value = value := by
  rw [nv.contents_getElem?, Option.map_eq_some_iff]
  exact exists_congr fun p => and_congr_right fun _ => Prod.mk_inj

/-- An index of the name in the list is one in the pairs. -/
theorem NamesValues.named_iff {name : List UInt8} (j : Nat) :
    (∃ value, nv.contents[j]? = some (name, value)) ↔
      ∃ h : j < nv.pairs_.length, nv.pairs_[j].name = name := by
  constructor
  · rintro ⟨value, h⟩
    obtain ⟨p, hp, hn, -⟩ := contents_eq_some.mp h
    obtain ⟨hlt, rfl⟩ := List.getElem?_eq_some_iff.mp hp
    exact ⟨hlt, hn⟩
  · rintro ⟨hlt, rfl⟩
    exact ⟨nv.pairs_[j].value, contents_eq_some.mpr
      ⟨_, List.getElem?_eq_getElem hlt, rfl, rfl⟩⟩

/-- A name has no index if no pair bears it. -/
theorem NamesValues.pairIndex_eq_none {name : List UInt8} :
    nv.pairIndex name = none ↔ ∀ kv ∈ nv.contents, kv.1 ≠ name := by
  simp [NamesValues.pairIndex, NamesValues.contents]

/-- The index is the first one of the name. -/
theorem NamesValues.pairIndex_eq_some {name : List UInt8} {i : Nat} :
    nv.pairIndex name = some i ↔ (∃ value, nv.contents[i]? = some (name, value)) ∧
      ∀ j < i, ∀ value, nv.contents[j]? ≠ some (name, value) := by
  rw [NamesValues.pairIndex, List.findIdx?_eq_some_iff_getElem, named_iff]
  constructor
  · rintro ⟨hlt, hi, hj⟩
    refine ⟨⟨hlt, beq_iff_eq.mp hi⟩, fun j hji value hv => hj j hji ?_⟩
    obtain ⟨_, e⟩ := (named_iff j).mp ⟨value, hv⟩
    exact beq_iff_eq.mpr e
  · rintro ⟨⟨hlt, hi⟩, hj⟩
    refine ⟨hlt, beq_iff_eq.mpr hi, fun j hji e => ?_⟩
    obtain ⟨value, hv⟩ := (named_iff j).mpr ⟨Nat.lt_trans hji hlt, beq_iff_eq.mp e⟩
    exact hj j hji value hv

/-- `parameter()` of a name that is there. -/
theorem Connection.parameter_found {name value : List UInt8} {i : Nat}
    (hi : c.parameters_.pairIndex name = some i)
    (hv : c.parameters_.contents[i]? = some (name, value)) :
    Connection.parameter name c = (.ok value, c) := by
  obtain ⟨p, hp, -, rfl⟩ := NamesValues.contents_eq_some.mp hv
  rw [Connection.parameter, Prog.bind_ok (Prog.get_run _)]
  simp only [Connection.parameterIndex, hi]
  rw [Prog.bind_ok (NamesValues.pair_run hp c)]
  rfl

/-- `parameter()` of a name that is not. -/
theorem Connection.parameter_missing {name : List UInt8}
    (hi : c.parameters_.pairIndex name = none) :
    Connection.parameter name c = (.error (.exc (.fcgi
      ("cannot get FastCGI parameter ".append
        (String.ofList (name.map fun b => Char.ofNat b.toNat))))), c) := by
  rw [Connection.parameter, Prog.bind_ok (Prog.get_run _)]
  simp only [Connection.parameterIndex, hi]
  rfl

/-- `parameter()` throws if and only if the name has no index. -/
theorem Connection.parameter_throws_iff (name : List UInt8) :
    (∃ e, Connection.parameter name c = (.error (.exc e), c)) ↔
      c.parameters_.pairIndex name = none := by
  refine ⟨?_, fun hi => ⟨_, parameter_missing hi⟩⟩
  rintro ⟨e, he⟩
  cases hi : c.parameters_.pairIndex name with
  | none => rfl
  | some i =>
      obtain ⟨value, hv⟩ := (NamesValues.pairIndex_eq_some.mp hi).1
      cases he.symm.trans (parameter_found hi hv)

/-- A container is the list of the names and values in it. -/
theorem associationList_contents (c : Connection) :
    AssociationList c.parameters_.contents c where
  count := (List.length_map _).symm
  pair i name value h := by
    obtain ⟨p, hp, hn, hv⟩ := NamesValues.contents_eq_some.mp h
    exact ⟨p, NamesValues.pair_run hp c, hn, hv⟩
  index _ _ := NamesValues.pairIndex_eq_some
  noIndex _ := NamesValues.pairIndex_eq_none
  parameter _ _ _ := Connection.parameter_found
  throws name := (Connection.parameter_throws_iff name).trans NamesValues.pairIndex_eq_none

/-- It is no other list. -/
theorem AssociationList.eq (h : AssociationList kvs c) : c.parameters_.contents = kvs := by
  have hlen : c.parameters_.contents.length = kvs.length := (List.length_map _).trans h.count
  refine List.ext_getElem hlen fun i h₁ h₂ => ?_
  obtain ⟨p, hrun, hn, hv⟩ := h.pair i _ _ (List.getElem?_eq_getElem h₂)
  have hlt : i < c.parameters_.pairs_.length := by
    rw [NamesValues.contents, List.length_map] at h₁
    exact h₁
  cases (NamesValues.pair_run (List.getElem?_eq_getElem hlt) c).symm.trans hrun
  exact (List.getElem_map _).trans (Prod.ext hn hv)

end

/-! ### The list of the pairs added -/

/-- What is in the pair that is added. -/
def Addition.held (block : Mem) : Addition → List UInt8 × List UInt8
  | .block data nameSize valueSize _ => (data.take nameSize, (data.drop nameSize).take valueSize)
  | .strings name value => (block.load 0 name.bytes.length,
      block.load name.bytes.length value.bytes.length)

/-- A pair is what was added if and only if its block holds that. -/
theorem Addition.held_eq_entry_iff (block : Mem) (a : Addition) :
    a.held block = a.entry ↔ a.Stored block := by
  cases a with
  | block data nameSize valueSize h => exact ⟨fun _ => trivial, fun _ => rfl⟩
  | strings name value =>
      rw [held, entry, Stored, Prod.mk.injEq, Mem.load_add, Nat.zero_add]
      exact ⟨fun h => by rw [h.1, h.2], fun h => List.append_inj h (Mem.length_load _ _ _)⟩

/-- In every block of memory only empty strings are stored already. -/
theorem Addition.stored_iff (a : Addition) : (∀ block, a.Stored block) ↔ a.Filled := by
  cases a with
  | block data nameSize valueSize h => exact ⟨fun _ => trivial, fun _ _ => trivial⟩
  | strings name value =>
      constructor
      · intro h
        have h₀ := h fun _ => 0
        rw [Stored] at h₀
        rcases e : name.bytes.length + value.bytes.length with _ | n
        · exact ⟨List.eq_nil_of_length_eq_zero (Nat.eq_zero_of_add_eq_zero_right e),
            List.eq_nil_of_length_eq_zero (Nat.eq_zero_of_add_eq_zero_left e)⟩
        · -- A block of zeros would hold the terminator.
          rw [e, Mem.load_succ] at h₀
          have hmem : (0 : UInt8) ∈ name.bytes ++ value.bytes := h₀ ▸ List.mem_cons_self
          rcases List.mem_append.mp hmem with hm | hm
          · exact absurd hm name.noNul
          · exact absurd hm value.noNul
      · rintro ⟨hn, hv⟩ block
        rw [Stored, hn, hv]
        rfl

/-- An addition comes after the pairs that are there. -/
theorem exec_contents (heap : Nat → Mem) (nv : NamesValues) (a : Addition) :
    (a.exec heap nv).contents = nv.contents ++ [a.held (heap nv.pairCount)] := by
  cases a with
  | block data nameSize valueSize h =>
      simp only [Addition.exec, NamesValues.add, NamesValues.contents, List.map_append,
        List.map_cons, List.map_nil, Addition.held, NameValue.name, NameValue.value]
  | strings name value =>
      set d := (heap nv.pairCount).load 0 (name.bytes.length + value.bytes.length) with hd
      have hname : d.take name.bytes.length = (heap nv.pairCount).load 0 name.bytes.length :=
        Mem.take_load _ (Nat.le_add_right _ _)
      have hvalue : (d.drop name.bytes.length).take value.bytes.length =
          (heap nv.pairCount).load name.bytes.length value.bytes.length := by
        rw [hd, Mem.drop_load _ (Nat.le_add_right _ _), Nat.add_sub_cancel_left, Nat.zero_add]
        exact Mem.take_load _ (Nat.le_refl _)
      simp only [Addition.exec, NamesValues.addStrings, ← hd, NamesValues.add,
        NamesValues.contents, List.map_append, List.map_cons, List.map_nil, NameValue.name,
        NameValue.value, hname, hvalue, Addition.held]

/-- The contents after these additions. -/
theorem addAll_contents (heap : Nat → Mem) (adds : List Addition) :
    (addAll heap adds).contents = adds.mapIdx fun i a => a.held (heap i) := by
  induction adds using List.reverseRecOn with
  | nil => rfl
  | append_singleton adds a ih =>
      have hcount : (addAll heap adds).pairCount = adds.length := by
        have := congrArg List.length ih
        rwa [NamesValues.contents, List.length_map, List.length_mapIdx] at this
      rw [addAll, List.foldl_append]
      change (a.exec heap (addAll heap adds)).contents = _
      rw [exec_contents, hcount, ih, List.mapIdx_concat]

/-- **`Names_values` is the list of the pairs added**, if and only if the blocks allocated for C
strings hold them already; whatever they hold, if and only if these strings are empty. -/
theorem association_list_iff (c : Connection) (adds : List Addition) :
    (∀ heap : Nat → Mem,
      AssociationList (adds.map Addition.entry) { c with parameters_ := addAll heap adds } ↔
        ∀ (i : Nat) (a : Addition), adds[i]? = some a → a.Stored (heap i)) ∧
    ((∀ heap : Nat → Mem,
      AssociationList (adds.map Addition.entry) { c with parameters_ := addAll heap adds }) ↔
        ∀ a ∈ adds, a.Filled) := by
  have hstored : ∀ heap : Nat → Mem,
      AssociationList (adds.map Addition.entry) { c with parameters_ := addAll heap adds } ↔
        ∀ (i : Nat) (a : Addition), adds[i]? = some a → a.Stored (heap i) := by
    intro heap
    have hcontents := addAll_contents heap adds
    constructor
    · intro h i a ha
      have e := congrArg (·[i]?) (hcontents.symm.trans h.eq)
      simp only [List.getElem?_mapIdx, List.getElem?_map, ha, Option.map_some] at e
      exact (a.held_eq_entry_iff _).mp (Option.some.inj e)
    · intro h
      have e : (addAll heap adds).contents = adds.map Addition.entry := by
        rw [hcontents]
        refine List.ext_getElem? fun i => ?_
        rw [List.getElem?_mapIdx, List.getElem?_map]
        cases ha : adds[i]? with
        | none => rfl
        | some a => exact congrArg some ((a.held_eq_entry_iff _).mpr (h i a ha))
      exact e ▸ associationList_contents { c with parameters_ := addAll heap adds }
  refine ⟨hstored, ?_, ?_⟩
  · intro h a ha
    obtain ⟨i, hi⟩ := List.mem_iff_getElem?.mp ha
    exact a.stored_iff.mp fun block => (hstored fun _ => block).mp (h _) i a hi
  · intro h heap
    exact (hstored heap).mpr fun i a ha =>
      a.stored_iff.mpr (h a (List.mem_of_getElem? ha)) (heap i)

/-- `add("A", "B")`, with zeros in the block: the name of the pair is not `A`. -/
theorem strings_not_stored : ∃ (c : Connection) (heap : Nat → Mem) (adds : List Addition),
    ¬ AssociationList (adds.map Addition.entry) { c with parameters_ := addAll heap adds } := by
  let buf (t : StreamType) : ServerStreambuf := ⟨t, false, false, false, false, fun _ => 0, 0, 0,
    0, 0, 0, none, none⟩
  let c : Connection := ⟨.responder, 1, false, 0, fun _ _ => 0, {}, ⟨{}, buf .«in»⟩,
    ⟨false, buf .out⟩, ⟨false, buf .err⟩, ⟨⟨[], [], []⟩, {}⟩⟩
  refine ⟨c, fun _ _ => 0, [.strings ⟨[65], by decide⟩ ⟨[66], by decide⟩], fun h => ?_⟩
  obtain ⟨p, hrun, hn, -⟩ := h.pair 0 [65] [66] rfl
  cases hrun
  exact absurd hn (by decide)

end Fcgi
