import Mathlib.Tactic.Linarith

/-!
# Net — hostnames

`is_hostname_valid` reads a string once, with the length of the current label, and agrees with
the grammar of hostnames: labels separated by dots, the last dot being optional.  `std::isalnum`
of the locale is a parameter.

**`isHostnameValid_iff`**: the two agree on every string.  `InLabel` is the invariant of the loop:
what has been read since the last dot is the beginning of a label.  At a dot the label is whole, and
what follows is a string of labels again (`labelled_dot`), so the loop is an induction on the rest
of the string with the part that has been read in front of it.
-/

namespace Fcgi

section Definitions

variable (isalnum : UInt8 → Bool)

/-- `is_hostname_char()`. -/
def isHostnameChar (ch : UInt8) : Bool :=
  isalnum ch || ch == '_'.toUInt8 || ch == '-'.toUInt8

/-- The loop over the rest of the string, with the length of the label it is in. -/
def isHostnameValidLoop : List UInt8 → Nat → Bool
  | [], _ => true
  | c :: rest, labelLength =>
    if c == '.'.toUInt8 then
      if labelLength == 0 then false else isHostnameValidLoop rest 0
    else if isHostnameChar isalnum c then
      if labelLength + 1 > 63 then false else isHostnameValidLoop rest (labelLength + 1)
    else false

/-- `is_hostname_valid()`. -/
def isHostnameValid (hostname : List UInt8) : Bool :=
  if hostname.isEmpty || hostname.length > 253 then false
  else isHostnameValidLoop isalnum hostname 0

/-- A label: one to sixty-three characters. -/
structure Label (label : List UInt8) : Prop where
  pos : 1 ≤ label.length
  le : label.length ≤ 63
  chars : ∀ ch ∈ label, isalnum ch = true ∨ ch = '_'.toUInt8 ∨ ch = '-'.toUInt8

/-- The string without one dot at its end. -/
def withoutRootDot (hostname : List UInt8) : List UInt8 :=
  if hostname.getLast? = some '.'.toUInt8 then hostname.dropLast else hostname

/-- The strings whose parts between the dots are labels. -/
def Labelled (hostname : List UInt8) : Prop :=
  ∀ label ∈ (withoutRootDot hostname).splitOn '.'.toUInt8, Label isalnum label

end Definitions

variable {isalnum : UInt8 → Bool}

theorem isHostnameChar_iff {ch : UInt8} : isHostnameChar isalnum ch = true ↔
    isalnum ch = true ∨ ch = '_'.toUInt8 ∨ ch = '-'.toUInt8 := by
  simp only [isHostnameChar, Bool.or_eq_true, beq_iff_eq, or_assoc]

/-- A part without dots stays in front. -/
theorem withoutRootDot_append {part : List UInt8} (h : '.'.toUInt8 ∉ part) (rest : List UInt8) :
    withoutRootDot (part ++ rest) = part ++ withoutRootDot rest := by
  cases rest with
  | nil =>
      have hl : part.getLast? ≠ some '.'.toUInt8 := fun hl => h (List.mem_of_getLast? hl)
      simp [withoutRootDot, hl]
  | cons c rest =>
      have hl : (part ++ c :: rest).getLast? = (c :: rest).getLast? := by
        rw [List.getLast?_append, List.getLast?_cons, Option.some_or]
      rw [withoutRootDot, withoutRootDot, hl,
        List.dropLast_append_of_ne_nil (List.cons_ne_nil c rest)]
      split <;> rfl

/-- A dot that is not the last character stays. -/
theorem withoutRootDot_dot {rest : List UInt8} (h : rest ≠ []) :
    withoutRootDot ('.'.toUInt8 :: rest) = '.'.toUInt8 :: withoutRootDot rest := by
  obtain ⟨c, rest, rfl⟩ := List.exists_cons_of_ne_nil h
  rw [withoutRootDot, withoutRootDot, List.getLast?_cons_cons]
  split <;> rfl

/-- A part without dots begins the first label. -/
theorem splitOn_append {part : List UInt8} (h : '.'.toUInt8 ∉ part) (rest : List UInt8) :
    (part ++ rest).splitOn '.'.toUInt8 =
      (rest.splitOn '.'.toUInt8).modifyHead (part ++ ·) := by
  obtain ⟨label, labels, hr⟩ := List.exists_cons_of_ne_nil
    (List.splitOn_ne_nil '.'.toUInt8 rest)
  rw [hr, List.modifyHead_cons]
  induction part with
  | nil => exact hr
  | cons c part ih =>
      have hc : (c == '.'.toUInt8) = false := beq_eq_false_iff_ne.mpr fun hc =>
        h (hc ▸ List.mem_cons_self)
      rw [List.cons_append, List.splitOn_cons_eq_if_modifyHead, hc,
        ih fun hm => h (List.mem_cons_of_mem c hm)]
      rfl

/-- What a labelled string says of a part without dots that it begins with. -/
theorem Labelled.part {part rest : List UInt8} (h : Labelled isalnum (part ++ rest))
    (hd : '.'.toUInt8 ∉ part) :
    part.length ≤ 63 ∧ ∀ ch ∈ part, isHostnameChar isalnum ch = true := by
  rw [Labelled, withoutRootDot_append hd, splitOn_append hd] at h
  obtain ⟨label, labels, hr⟩ := List.exists_cons_of_ne_nil
    (List.splitOn_ne_nil '.'.toUInt8 (withoutRootDot rest))
  rw [hr, List.modifyHead_cons] at h
  have hl := h _ List.mem_cons_self
  have hle := hl.le
  rw [List.length_append] at hle
  exact ⟨by omega, fun ch hch =>
    isHostnameChar_iff.mpr (hl.chars ch (List.mem_append_left label hch))⟩

/-- A dot ends a label. -/
theorem labelled_dot {part rest : List UInt8} (hd : '.'.toUInt8 ∉ part) (hr : rest ≠ []) :
    Labelled isalnum (part ++ '.'.toUInt8 :: rest) ↔
      Label isalnum part ∧ Labelled isalnum rest := by
  rw [Labelled, withoutRootDot_append hd, withoutRootDot_dot hr,
    List.splitOn_append_cons_self_of_not_mem hd, List.forall_mem_cons, Labelled]

/-- One label, with or without the dot at the end. -/
theorem labelled_of_not_mem {part : List UInt8} (hd : '.'.toUInt8 ∉ part) :
    (Labelled isalnum part ↔ Label isalnum part) ∧
    (Labelled isalnum (part ++ ['.'.toUInt8]) ↔ Label isalnum part) := by
  have h₁ : withoutRootDot part = part := by
    have h := withoutRootDot_append hd []
    rwa [show withoutRootDot [] = [] from rfl, List.append_nil] at h
  have h₂ : withoutRootDot (part ++ ['.'.toUInt8]) = part := by
    have h := withoutRootDot_append hd ['.'.toUInt8]
    rwa [show withoutRootDot ['.'.toUInt8] = [] from rfl, List.append_nil] at h
  rw [Labelled, Labelled, h₁, h₂, List.splitOn_eq_singleton hd, List.forall_mem_singleton]
  exact ⟨Iff.rfl, Iff.rfl⟩

/-- What stands before the first dot is a label. -/
theorem Labelled.label {part rest : List UInt8}
    (h : Labelled isalnum (part ++ '.'.toUInt8 :: rest)) (hd : '.'.toUInt8 ∉ part) :
    Label isalnum part := by
  by_cases hr : rest = []
  · subst hr
    exact (labelled_of_not_mem hd).2.mp h
  · exact ((labelled_dot hd hr).mp h).1

/-- A label that grows by another character. -/
theorem not_mem_concat {part : List UInt8} {c d : UInt8} (h : d ∉ part) (hc : c ≠ d) :
    d ∉ part ++ [c] := by
  intro hm
  rcases List.mem_append.mp hm with hm | hm
  · exact h hm
  · exact hc (List.mem_singleton.mp hm).symm

/-- The characters of the label the loop is in. -/
structure InLabel (isalnum : UInt8 → Bool) (part : List UInt8) : Prop where
  le : part.length ≤ 63
  not_mem : '.'.toUInt8 ∉ part
  chars : ∀ ch ∈ part, isHostnameChar isalnum ch = true

theorem InLabel.nil : InLabel isalnum [] :=
  ⟨Nat.zero_le _, List.not_mem_nil, fun _ h => absurd h List.not_mem_nil⟩

/-- One more character of the label. -/
theorem InLabel.concat {part : List UInt8} {c : UInt8} (h : InLabel isalnum part)
    (hle : part.length + 1 ≤ 63) (hd : c ≠ '.'.toUInt8) (hc : isHostnameChar isalnum c = true) :
    InLabel isalnum (part ++ [c]) where
  le := by rwa [List.length_append]
  not_mem := not_mem_concat h.not_mem hd
  chars ch hch := by
    rcases List.mem_append.mp hch with hch | hch
    · exact h.chars ch hch
    · rwa [List.mem_singleton.mp hch]

/-- A part of a label that is not empty is a label. -/
theorem InLabel.label {part : List UInt8} (h : InLabel isalnum part) (hne : part ≠ []) :
    Label isalnum part :=
  ⟨List.length_pos_iff.mpr hne, h.le, fun ch hch => isHostnameChar_iff.mp (h.chars ch hch)⟩

/-- The loop in a label `part` accepts the rest when the whole is labelled. -/
theorem isHostnameValidLoop_iff {part rest : List UInt8} (h : InLabel isalnum part)
    (hne : part ++ rest ≠ []) :
    isHostnameValidLoop isalnum rest part.length = true ↔ Labelled isalnum (part ++ rest) := by
  induction rest generalizing part with
  | nil =>
      rw [List.append_nil] at hne ⊢
      simp only [isHostnameValidLoop, true_iff]
      exact (labelled_of_not_mem h.not_mem).1.mpr (h.label hne)
  | cons c rest ih =>
      rw [isHostnameValidLoop]
      by_cases hc : c = '.'.toUInt8
      · subst hc
        rw [if_pos (beq_self_eq_true _)]
        -- The label ends here: it must not be empty, and the rest begins a new one.
        by_cases hp : part = []
        · subst hp
          rw [if_pos (by rfl)]
          refine iff_of_false Bool.false_ne_true fun hl => ?_
          exact absurd (hl.label List.not_mem_nil).pos (by decide)
        · have hl : (part.length == 0) = false := beq_eq_false_iff_ne.mpr
            (Nat.ne_of_gt (List.length_pos_iff.mpr hp))
          rw [hl, if_neg (by decide)]
          by_cases hr : rest = []
          · subst hr
            simp only [isHostnameValidLoop, true_iff]
            exact (labelled_of_not_mem h.not_mem).2.mpr (h.label hp)
          · rw [labelled_dot h.not_mem hr]
            simp only [h.label hp, true_and]
            exact ih InLabel.nil hr
      · rw [if_neg (by simpa using hc)]
        have hcons : part ++ c :: rest = (part ++ [c]) ++ rest := by
          rw [List.append_assoc, List.singleton_append]
        have hd := not_mem_concat h.not_mem hc
        rw [hcons]
        by_cases hch : isHostnameChar isalnum c = true
        · rw [if_pos hch]
          by_cases hle : part.length + 1 > 63
          · rw [if_pos hle]
            refine iff_of_false Bool.false_ne_true fun hl => ?_
            have hlen := (hl.part hd).1
            rw [List.length_append, List.length_singleton] at hlen
            omega
          · rw [if_neg hle]
            have hi := ih (h.concat (by omega) hc hch) (by simp)
            rwa [List.length_append, List.length_singleton] at hi
        · rw [if_neg hch]
          refine iff_of_false Bool.false_ne_true fun hl => hch ?_
          exact (hl.part hd).2 c (List.mem_append_right part List.mem_cons_self)

/-- The scanner accepts the strings of 1 to 253 characters that consist of labels. -/
theorem isHostnameValid_iff (isalnum : UInt8 → Bool) (hostname : List UInt8) :
    isHostnameValid isalnum hostname = true ↔
      1 ≤ hostname.length ∧ hostname.length ≤ 253 ∧ Labelled isalnum hostname := by
  rw [isHostnameValid]
  cases hostname with
  | nil => simp
  | cons c rest =>
      have hne : [] ++ (c :: rest) ≠ [] := List.cons_ne_nil c rest
      have hnil : InLabel isalnum [] := .nil
      have hloop := isHostnameValidLoop_iff hnil hne
      rw [List.nil_append, List.length_nil] at hloop
      by_cases hle : (c :: rest).length > 253
      · rw [if_pos (by simpa using hle)]
        refine iff_of_false Bool.false_ne_true fun h => ?_
        omega
      · rw [if_neg (by simpa using hle), hloop]
        have hpos : 1 ≤ (c :: rest).length := Nat.succ_pos _
        have hle' : (c :: rest).length ≤ 253 := by omega
        simp only [hpos, hle', true_and]

end Fcgi
