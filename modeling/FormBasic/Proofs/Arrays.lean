import FormBasic.Library.Function
import Mathlib.Algebra.Group.Int.Defs
import Mathlib.Data.List.Forall2

/-!
# Nested arrays

An element of an array of arrays is found by a list of indices, one for each array on the way.
Reading along such a list and replacing the element at its end are two recursions on the list, and
what one of them finds after the other is the law of an array in each dimension at once.

An array with bounds has the same number of elements in all arrays of one depth. It is such a *grid*
as it is built, and from the bounds follows what can be read: the index lists within the bounds, and
no others of that length. Where a row of a grid is put into another one, this is no grid unless the
bounds of the rows agree.

## Main definitions

* `Value.readAlong` — reading along a list of indices
* `Value.HasElement` — the list leads to an element
* `Value.Replaced` — an array with an element replaced
* `Value.IsGrid`, `Within` — arrays with bounds, and the indices within the bounds
* `Value.Resized` — what is expected of an array that has been resized

## Main results

* `exists_withElement_iff` — an element is replaced if there is one
* `Value.Replaced.readAlong_self`, `Value.Replaced.readAlong_of_parts`,
  `Value.Replaced.length_eq` — what is read after that
* `isGrid_newArray` — a new array is a grid
* `Value.HasBounds.exists_readAlong`, `Value.HasBounds.readAlong_outside`,
  `Value.HasBounds.upperBound_eq` — what is read from a grid
* `Value.HasBounds.resized` — a grid with new bounds is as expected
* `Value.resized_overlay_iff` — when an array is that has taken over the rows of another one
-/

namespace FormBasic

/-! ### One index -/

/-- An array has no element at an index. -/
def Cause.outOfBounds (i : Int) : Cause :=
  .custom ("Array index " ++ Decimal.intText i ++ " out of bounds")

section
variable {tag : Nat} {elements : List Value} {v e : Value} {i : Int}

/-- An index within an array is the position of an element. -/
theorem exists_getElem?_iff :
    (0 ≤ i ∧ i < elements.length) ↔ ∃ (n : Nat) (e : Value), i = n ∧ elements[n]? = some e := by
  constructor
  · rintro ⟨hpos, hlt⟩
    obtain ⟨n, rfl⟩ := Int.eq_ofNat_of_zero_le hpos
    exact ⟨n, _, rfl, List.getElem?_eq_getElem (Int.ofNat_lt.1 hlt)⟩
  · rintro ⟨n, e, rfl, he⟩
    exact ⟨Int.natCast_nonneg n, Int.ofNat_lt.2 (List.getElem?_eq_some_iff.1 he).1⟩

theorem indexOf_of_getElem? {n : Nat} (h : elements[n]? = some e) :
    indexOf (.array tag elements) n = .ok e.orNothing := by
  rw [indexOf, if_neg (Int.not_lt.2 (Int.natCast_nonneg n)), Int.toNat_natCast, h]

theorem getElem?_of_outside (h : ¬(0 ≤ i ∧ i < elements.length)) (hpos : ¬i < 0) :
    elements[i.toNat]? = none :=
  List.getElem?_eq_none (by omega)

theorem indexOf_of_outside (h : ¬(0 ≤ i ∧ i < elements.length)) :
    indexOf (.array tag elements) i = .error (.outOfBounds i) := by
  rw [indexOf]
  split
  · rfl
  · next hpos =>
    rw [getElem?_of_outside h hpos]
    rfl

/-- Other elements stay as they are. -/
theorem indexOf_set_of_ne {tag' n : Nat} (h : i ≠ n) :
    indexOf (.array tag' (elements.set n v)) i = indexOf (.array tag elements) i := by
  rw [indexOf, indexOf]
  split
  · rfl
  · next hneg =>
    rw [List.getElem?_set_ne (by omega)]

theorem orNothing_of_isProper (h : e.isProper = true) : e.orNothing = e := by
  cases e <;> first | rfl | cases h

end

/-! ### Lists of indices -/

namespace Value

/-- Read along a list of indices, one array after the other. -/
def readAlong (v : Value) : List Int → Fallible Value
  | [] => .ok v
  | i :: is => do readAlong (← indexOf v i) is

/-- A list of indices leads to an element: on the way there is an array for each index, and the
index is within it. -/
def HasElement (v : Value) (is : List Int) : Prop :=
  ∀ (before : List Int) (i : Int) (rest : List Int), is = before ++ i :: rest →
    ∃ tag elements, v.readAlong before = .ok (.array tag elements) ∧ 0 ≤ i ∧ i < elements.length

/-- Two lists of indices part: they differ at a position that both have. -/
def Parts (is js : List Int) : Prop :=
  ∃ (n : Nat) (i j : Int), is[n]? = some i ∧ js[n]? = some j ∧ i ≠ j

variable {v w e : Value} {i : Int} {is js : List Int}

theorem readAlong_cons_of_ok (h : indexOf v i = .ok w) :
    v.readAlong (i :: is) = w.readAlong is := by
  rw [readAlong, h]
  rfl

theorem readAlong_cons_of_error {c : Cause} (h : indexOf v i = .error c) :
    v.readAlong (i :: is) = .error c := by
  rw [readAlong, h]
  rfl

theorem readAlong_array_cons {tag n : Nat} {elements : List Value} (h : elements[n]? = some e) :
    (Value.array tag elements).readAlong (n :: is) = e.orNothing.readAlong is :=
  readAlong_cons_of_ok (indexOf_of_getElem? h)

/-- It makes no difference to the arrays on the way that an omitted argument is read as
`Nothing`. -/
theorem readAlong_orNothing_eq_array {tag : Nat} {elements : List Value} :
    e.orNothing.readAlong is = .ok (.array tag elements) ↔
      e.readAlong is = .ok (.array tag elements) := by
  cases e with
  | absent =>
    cases is with
    | nil => constructor <;> rintro ⟨⟩
    | cons i is => constructor <;> rintro ⟨⟩
  | _ => rfl

theorem hasElement_nil (v : Value) : v.HasElement [] := by
  intro before i rest h
  cases before <;> cases h

theorem hasElement_cons : v.HasElement (i :: is) ↔
    ∃ (tag : Nat) (elements : List Value) (n : Nat) (e : Value), v = .array tag elements ∧ i = n ∧
      elements[n]? = some e ∧ e.HasElement is := by
  constructor
  · intro h
    obtain ⟨tag, elements, hread, hin⟩ := h [] i is rfl
    cases hread
    obtain ⟨n, e, rfl, he⟩ := exists_getElem?_iff.1 hin
    refine ⟨tag, elements, n, e, rfl, rfl, he, fun before j rest hrest => ?_⟩
    obtain ⟨tag', elements', hread, hin'⟩ := h (n :: before) j rest (congrArg _ hrest)
    rw [readAlong_array_cons he] at hread
    exact ⟨tag', elements', readAlong_orNothing_eq_array.1 hread, hin'⟩
  · rintro ⟨tag, elements, n, e, rfl, rfl, he, h⟩ before j rest hrest
    cases before with
    | nil =>
      cases hrest
      exact ⟨tag, elements, rfl, exists_getElem?_iff.2 ⟨n, e, rfl, he⟩⟩
    | cons i before =>
      cases hrest
      obtain ⟨tag', elements', hread, hin⟩ := h before j rest rfl
      refine ⟨tag', elements', ?_, hin⟩
      exact (readAlong_array_cons he).trans (readAlong_orNothing_eq_array.2 hread)

theorem parts_cons {j : Int} : Parts (i :: is) (j :: js) ↔ i ≠ j ∨ Parts is js := by
  constructor
  · rintro ⟨n, a, b, ha, hb, hne⟩
    cases n with
    | zero =>
      cases ha
      cases hb
      exact .inl hne
    | succ n => exact .inr ⟨n, a, b, ha, hb, hne⟩
  · rintro (hne | ⟨n, a, b, ha, hb, hne⟩)
    · exact ⟨0, i, j, rfl, rfl, hne⟩
    · exact ⟨n + 1, a, b, ha, hb, hne⟩

end Value

/-! ### Replacing an element -/

/-- An array with the element at a list of indices replaced, one array after the other. The arrays
on the way are new ones, so that their tags are not those of the old ones. -/
inductive Value.Replaced (v : Value) : Value → List Int → Value → Prop
  | here {old : Value} : Replaced v old [] v
  | there {tag tag' i : Nat} {is : List Int} {elements : List Value} {old new : Value}
    (hold : elements[i]? = some old) (hnew : Replaced v old is new) :
    Replaced v (.array tag elements) (i :: is) (.array tag' (elements.set i new))

section
variable {a v w : Value} {i : Int} {is : List Int} {tags tags' : Nat}

/-- What it means that an element is replaced below an index. -/
theorem run_withElement_cons :
    (withElement a (i :: is) v).run tags = .ok (w, tags') ↔
      ∃ (tag : Nat) (elements : List Value) (n : Nat) (old new : Value) (tags₁ : Nat),
        a = .array tag elements ∧ i = n ∧ elements[n]? = some old ∧
        (withElement old is v).run tags = .ok (new, tags₁) ∧
        w = .array tags₁ (elements.set n new) ∧ tags' = tags₁ + 1 := by
  constructor
  · intro h
    cases a with
    | array tag elements =>
      rw [withElement] at h
      split at h
      · cases h
      · next hi =>
        obtain ⟨n, rfl⟩ := Int.eq_ofNat_of_zero_le (Int.not_lt.1 hi)
        rw [Int.toNat_natCast] at h
        split at h
        · cases h
        · next old hold =>
          simp only [StateT.run_bind] at h
          cases hnew : (withElement old is v).run tags with
          | error c =>
            rw [hnew] at h
            cases h
          | ok found =>
            rw [hnew] at h
            cases h
            exact ⟨tag, elements, n, old, _, _, rfl, rfl, hold, hnew, rfl, rfl⟩
    | _ => cases h
  · rintro ⟨tag, elements, n, old, new, tags₁, rfl, rfl, hold, hnew, rfl, rfl⟩
    rw [withElement, if_neg (Int.not_lt.2 (Int.natCast_nonneg n)), Int.toNat_natCast, hold]
    simp only [StateT.run_bind, hnew]
    rfl

theorem run_withElement_of_outside {tag : Nat} {elements : List Value}
    (h : ¬(0 ≤ i ∧ i < elements.length)) :
    (withElement (.array tag elements) (i :: is) v).run tags = .error (.outOfBounds i) := by
  rw [withElement]
  split
  · rfl
  · next hpos =>
    rw [getElem?_of_outside h hpos]
    rfl

/-- An element is replaced if there is one. -/
theorem exists_withElement_iff :
    (∃ w tags', (withElement a is v).run tags = .ok (w, tags')) ↔ a.HasElement is := by
  induction is generalizing a with
  | nil => exact ⟨fun _ => a.hasElement_nil, fun _ => ⟨v, tags, rfl⟩⟩
  | cons i is ih =>
    rw [Value.hasElement_cons]
    constructor
    · rintro ⟨w, tags', h⟩
      obtain ⟨tag, elements, n, old, new, tags₁, ha, hi, hold, hnew, -, -⟩ :=
        run_withElement_cons.1 h
      exact ⟨tag, elements, n, old, ha, hi, hold, ih.1 ⟨new, tags₁, hnew⟩⟩
    · rintro ⟨tag, elements, n, old, ha, hi, hold, hrest⟩
      obtain ⟨new, tags₁, hnew⟩ := ih.2 hrest
      exact ⟨_, _, run_withElement_cons.2
        ⟨tag, elements, n, old, new, tags₁, ha, hi, hold, hnew, rfl, rfl⟩⟩

theorem Value.replaced_of_withElement (h : (withElement a is v).run tags = .ok (w, tags')) :
    Replaced v a is w := by
  induction is generalizing a w tags' with
  | nil =>
    cases h
    exact .here
  | cons i is ih =>
    obtain ⟨tag, elements, n, old, new, tags₁, rfl, rfl, hold, hnew, rfl, -⟩ :=
      run_withElement_cons.1 h
    exact .there hold (ih hnew)

end

namespace Value.Replaced

variable {a v w : Value} {is js : List Int}

theorem isProper (h : Replaced v a is w) (hv : v.isProper = true) : w.isProper = true := by
  cases h with
  | here => exact hv
  | there => rfl

/-- The element that has been put in is read along the list. -/
theorem readAlong_self (h : Replaced v a is w) (hv : v.isProper = true) :
    w.readAlong is = .ok v := by
  induction h with
  | here => rfl
  | there hold hnew ih =>
    have hlt := (List.getElem?_eq_some_iff.1 hold).1
    rw [readAlong_array_cons (List.getElem?_set_self hlt), orNothing_of_isProper (hnew.isProper hv)]
    exact ih

/-- Along every list that parts from it, the same is read as before. -/
theorem readAlong_of_parts (h : Replaced v a is w) (hparts : Parts is js) :
    w.readAlong js = a.readAlong js := by
  induction h generalizing js with
  | here =>
    obtain ⟨n, i, j, hi, -, -⟩ := hparts
    cases hi
  | @there tag tag' n is elements old new hold hnew ih =>
    cases js with
    | nil =>
      obtain ⟨n, i, j, -, hj, -⟩ := hparts
      cases hj
    | cons j js =>
      by_cases hj : j = n
      · subst hj
        have hlt := (List.getElem?_eq_some_iff.1 hold).1
        have hrest := (parts_cons.1 hparts).resolve_left fun hne => hne rfl
        rw [readAlong_array_cons (List.getElem?_set_self hlt), readAlong_array_cons hold]
        -- the lists part further on, so that both elements are arrays
        cases hnew with
        | here =>
          obtain ⟨n, i, j, hi, -, -⟩ := hrest
          cases hi
        | there => exact ih hrest
      · rw [readAlong, readAlong, indexOf_set_of_ne hj]

/-- The arrays on the way have as many elements as before. -/
theorem length_eq (h : Replaced v a is w) {before rest : List Int} {i : Int}
    (hsplit : is = before ++ i :: rest) :
    ∃ tag tag' elements elements', a.readAlong before = .ok (.array tag elements) ∧
      w.readAlong before = .ok (.array tag' elements') ∧ elements'.length = elements.length := by
  induction h generalizing before with
  | here => cases before <;> cases hsplit
  | @there tag tag' n is elements old new hold hnew ih =>
    cases before with
    | nil => exact ⟨_, _, _, _, rfl, rfl, List.length_set⟩
    | cons j before =>
      cases hsplit
      obtain ⟨t, t', es, es', hread, hread', hlength⟩ := ih rfl
      have hlt := (List.getElem?_eq_some_iff.1 hold).1
      refine ⟨t, t', es, es', ?_, ?_, hlength⟩
      · exact (readAlong_array_cons hold).trans (readAlong_orNothing_eq_array.2 hread)
      · exact (readAlong_array_cons (List.getElem?_set_self hlt)).trans
          (readAlong_orNothing_eq_array.2 hread')

end Value.Replaced

/-! ### Grids -/

/-- A list of indices is within a list of bounds, one for one. -/
def Within (bounds is : List Int) : Prop := List.Forall₂ (fun b i => 0 ≤ i ∧ i ≤ b) bounds is

theorem within_self {bs : List Int} (h : ∀ b ∈ bs, 0 ≤ b) : Within bs bs :=
  List.forall₂_same.2 fun b hb => ⟨h b hb, Int.le_refl b⟩

theorem Within.bounds_nonneg {bs is : List Int} (h : Within bs is) : ∀ b ∈ bs, 0 ≤ b := by
  induction h with
  | nil => exact fun b hb => absurd hb List.not_mem_nil
  | cons hi _ ih => exact List.forall_mem_cons.2 ⟨Int.le_trans hi.1 hi.2, ih⟩

theorem Within.antisymm {bs cs : List Int} (h : Within bs cs) (h' : Within cs bs) : bs = cs := by
  induction h with
  | nil => rfl
  | cons hb _ ih =>
    cases h' with
    | cons hc hrest => rw [Int.le_antisymm hc.2 hb.2, ih hrest]

namespace Value

/-- An array with an upper bound for each dimension, and what its elements are like. -/
def IsGrid (P : Value → Prop) : (bounds : List Int) → Value → Prop
  | [], v => P v
  | b :: bs, v => ∃ tag elements, v = .array tag elements ∧ (elements.length : Int) = b + 1 ∧
      ∀ e ∈ elements, IsGrid P bs e

/-- An array with an upper bound for each dimension. -/
def HasBounds (v : Value) (bounds : List Int) : Prop := IsGrid (fun _ => True) bounds v

end Value

namespace Value.IsGrid

variable {P Q : Value → Prop} {bs is : List Int} {v : Value}

theorem mono (h : IsGrid P bs v) (hPQ : ∀ w, P w → Q w) : IsGrid Q bs v := by
  induction bs generalizing v with
  | nil => exact hPQ v h
  | cons b bs ih =>
    obtain ⟨tag, elements, rfl, hlength, helements⟩ := h
    exact ⟨tag, elements, rfl, hlength, fun e he => ih (helements e he)⟩

theorem hasBounds (h : IsGrid P bs v) : v.HasBounds bs := h.mono fun _ _ => trivial

theorem orNothing (hP : ∀ w, P w → P w.orNothing) (h : IsGrid P bs v) :
    IsGrid P bs v.orNothing := by
  cases bs with
  | nil => exact hP v h
  | cons b bs =>
    obtain ⟨tag, elements, rfl, hrest⟩ := h
    exact ⟨tag, elements, rfl, hrest⟩

/-- What is read from a grid within its bounds is an element. -/
theorem exists_readAlong (hP : ∀ w, P w → P w.orNothing) (h : IsGrid P bs v)
    (his : Within bs is) : ∃ w, P w ∧ v.readAlong is = .ok w := by
  induction his generalizing v with
  | nil => exact ⟨v, h, rfl⟩
  | @cons b i bs is hi _ ih =>
    obtain ⟨tag, elements, rfl, hlength, helements⟩ := h
    have hin : 0 ≤ i ∧ i < elements.length := ⟨hi.1, by omega⟩
    obtain ⟨n, e, rfl, he⟩ := exists_getElem?_iff.1 hin
    rw [readAlong_array_cons he]
    exact ih ((helements e (List.mem_of_getElem? he)).orNothing hP)

end Value.IsGrid

section
variable {bs is : List Int} {v : Value}

theorem Value.HasBounds.orNothing (h : v.HasBounds bs) : v.orNothing.HasBounds bs :=
  IsGrid.orNothing (fun _ _ => trivial) h

theorem Value.HasBounds.exists_readAlong (h : v.HasBounds bs) (his : Within bs is) :
    ∃ w, v.readAlong is = .ok w := by
  obtain ⟨w, -, hw⟩ := IsGrid.exists_readAlong (fun _ _ => trivial) h his
  exact ⟨w, hw⟩

/-- Nothing is read from it along other lists of that length. -/
theorem Value.HasBounds.readAlong_outside (h : v.HasBounds bs) (hlength : is.length = bs.length)
    (his : ¬Within bs is) : ∃ c, v.readAlong is = .error c := by
  induction bs generalizing v is with
  | nil =>
    cases is with
    | nil => exact absurd List.Forall₂.nil his
    | cons i is => cases hlength
  | cons b bs ih =>
    cases is with
    | nil => cases hlength
    | cons i is =>
      obtain ⟨tag, elements, rfl, hsize, helements⟩ := h
      by_cases hi : 0 ≤ i ∧ i < elements.length
      · obtain ⟨n, e, rfl, he⟩ := exists_getElem?_iff.1 hi
        rw [readAlong_array_cons he]
        refine ih (HasBounds.orNothing (helements e (List.mem_of_getElem? he)))
          (Nat.succ.inj hlength) fun hrest => his (.cons ⟨hi.1, by omega⟩ hrest)
      · exact ⟨_, readAlong_cons_of_error (indexOf_of_outside hi)⟩

theorem Value.HasBounds.upperBound_eq {name : String} {d : Nat} {b : Int} (h : v.HasBounds bs)
    (hbounds : ∀ b ∈ bs, 0 ≤ b) (hd : bs[d]? = some b) : upperBound name d v = .ok b := by
  induction d generalizing bs v with
  | zero =>
    cases bs with
    | nil => cases hd
    | cons b bs =>
      cases hd
      obtain ⟨tag, elements, rfl, hlength, -⟩ := h
      rw [upperBound, hlength, Int.add_sub_cancel]
  | succ d ih =>
    cases bs with
    | nil => cases hd
    | cons b' bs =>
      obtain ⟨tag, elements, rfl, hlength, helements⟩ := h
      cases elements with
      | nil =>
        have := hbounds b' List.mem_cons_self
        rw [List.length_nil] at hlength
        omega
      | cons e elements =>
        exact ih (helements e List.mem_cons_self)
          (fun b hb => hbounds b (List.mem_cons_of_mem _ hb)) hd

end

/-! ### New arrays -/

/-- What each of so many runs gives. -/
theorem run_mapM_replicate {P : Value → Prop} {x : Tagged Value}
    (hx : ∀ tags, P (x.run tags).1) (n tags : Nat) :
    (((List.replicate n ()).mapM fun _ => x).run tags).1.length = n ∧
      ∀ e ∈ (((List.replicate n ()).mapM fun _ => x).run tags).1, P e := by
  induction n generalizing tags with
  | zero => exact ⟨rfl, fun e he => absurd he List.not_mem_nil⟩
  | succ n ih =>
    obtain ⟨hlength, hall⟩ := ih (x.run tags).2
    rw [List.replicate_succ, List.mapM_cons]
    refine ⟨congrArg (· + 1) hlength, fun e he => ?_⟩
    rcases List.mem_cons.1 he with rfl | he
    · exact hx tags
    · exact hall e he

/-- A new array is a grid of what it starts with. -/
theorem isGrid_newArray (start : Value) {bs : List Int} (hbounds : ∀ b ∈ bs, 0 ≤ b) (tags : Nat) :
    Value.IsGrid (· = start) bs ((newArray start bs).run tags).1 := by
  induction bs generalizing tags with
  | nil => rfl
  | cons b bs ih =>
    obtain ⟨hlength, helements⟩ := run_mapM_replicate
      (fun tags => ih (fun b hb => hbounds b (List.mem_cons_of_mem _ hb)) tags) (boundSize b) tags
    refine ⟨_, _, rfl, (congrArg Int.ofNat hlength).trans ?_, helements⟩
    have hb := hbounds b List.mem_cons_self
    exact Int.toNat_of_nonneg (by omega)

/-! ### Resized arrays -/

theorem length_overlay (new old : List Value) : (overlay new old).length = new.length := by
  induction new generalizing old with
  | nil => cases old <;> rfl
  | cons n new ih =>
    cases old with
    | nil => rfl
    | cons o old => exact congrArg (· + 1) (ih old)

/-- The old elements come first. -/
theorem getElem?_overlay {new : List Value} {i : Nat} (hi : i < new.length) (old : List Value) :
    (overlay new old)[i]? = old[i]?.or new[i]? := by
  induction new generalizing old i with
  | nil => cases hi
  | cons n new ih =>
    cases old with
    | nil => rfl
    | cons o old =>
      cases i with
      | zero => rfl
      | succ i => exact ih (Nat.lt_of_succ_lt_succ hi) old

/-- What is expected of an array that has been resized to new bounds with its elements preserved: it
has the bounds, what was there and still is within the bounds has been kept, and all that is within
the bounds and nothing else can be read. -/
structure Value.Resized (old new : Value) (oldBounds bounds : List Int) : Prop where
  upper : ∀ (d : Int32) (b : Int), 1 ≤ d.toInt → bounds[(d.toInt - 1).toNat]? = some b →
    ∃ n : Int32, Library.uBound [new, .integer d] = .ok (.integer n) ∧ n.toInt = b
  kept : ∀ is, Within oldBounds is → Within bounds is → new.readAlong is = old.readAlong is
  readable : ∀ is, Within bounds is → ∃ v, new.readAlong is = .ok v
  outside : ∀ is, is.length = bounds.length → ¬Within bounds is →
    ∃ c, new.readAlong is = .error c

section
variable {b c : Int} {bs cs : List Int} {tag tag' : Nat} {old new : List Value} {row : Value}

theorem uBound_of_array {elements : List Value} (d : Int32) :
    Library.uBound [.array tag elements, .integer d] =
      Library.ofInt <$> upperBound "UBound" (d.toInt - 1).toNat (.array tag elements) := rfl

/-- The upper bound of a dimension, as a program is told it. -/
theorem Value.HasBounds.exists_uBound {elements : List Value}
    (h : (Value.array tag elements).HasBounds bs) (hpos : ∀ b ∈ bs, 0 ≤ b)
    (hfits : ∀ b ∈ bs, b < 2 ^ 31) {d : Int32} (hb : bs[(d.toInt - 1).toNat]? = some b) :
    ∃ n : Int32, Library.uBound [.array tag elements, .integer d] = .ok (.integer n) ∧
      n.toInt = b := by
  have hmem := List.mem_of_getElem? hb
  refine ⟨Int32.ofInt b, ?_, Int32.toInt_ofInt_of_le ?_ (hfits b hmem)⟩
  · rw [uBound_of_array, h.upperBound_eq hpos hb]
    rfl
  · have := hpos b hmem
    omega

/-- A grid with the new bounds that has kept the old elements is as expected. -/
theorem Value.HasBounds.resized {v : Value} (h : (Value.array tag' new).HasBounds bs)
    (hpos : ∀ b ∈ bs, 0 ≤ b) (hfits : ∀ b ∈ bs, b < 2 ^ 31)
    (hkept : ∀ is, Within cs is → Within bs is →
      (Value.array tag' new).readAlong is = v.readAlong is) :
    v.Resized (.array tag' new) cs bs where
  upper _ _ _ hb := h.exists_uBound hpos hfits hb
  kept := hkept
  readable _ his := h.exists_readAlong his
  outside _ hlength his := h.readAlong_outside hlength his

/-- A result that is there under a condition, and an error without it. -/
theorem exists_ok_iff {α : Type} {x : Fallible α} {condition : Prop}
    (hok : condition → ∃ a, x = .ok a) (herror : ¬condition → ∃ e, x = .error e) :
    (∃ a, x = .ok a) ↔ condition := by
  refine ⟨fun ⟨a, ha⟩ => Classical.byContradiction fun hnot => ?_, hok⟩
  obtain ⟨e, he⟩ := herror hnot
  cases ha.symm.trans he

/-- If an array is as expected, its first row has the new bounds. -/
theorem Value.Resized.bounds_eq {v : Value} (h : v.Resized (.array tag new) (c :: cs) (b :: bs))
    (hpos : ∀ d ∈ b :: bs, 0 ≤ d) (hlength : cs.length = bs.length) (hrow : new[0]? = some row)
    (hbounds : row.HasBounds cs) : cs = bs := by
  have hread : ∀ is, (Value.array tag new).readAlong (0 :: is) = row.orNothing.readAlong is :=
    fun is => Value.readAlong_array_cons (n := 0) hrow
  have hwithin : ∀ is, is.length = bs.length → (Within cs is ↔ Within bs is) := by
    intro is his
    have hcons : Within (b :: bs) (0 :: is) ↔ Within bs is := by
      refine List.forall₂_cons.trans (and_iff_right ⟨Int.le_refl 0, hpos b List.mem_cons_self⟩)
    have hgrid := hbounds.orNothing
    have hlong : (0 :: is).length = _ := congrArg (· + 1) his
    rw [← hcons, ← exists_ok_iff (h.readable (0 :: is)) (h.outside (0 :: is) hlong), hread,
      exists_ok_iff hgrid.exists_readAlong (hgrid.readAlong_outside (his.trans hlength.symm))]
  have hin : Within cs bs :=
    (hwithin bs rfl).2 (within_self fun d hd => hpos d (List.mem_cons_of_mem _ hd))
  exact hin.antisymm ((hwithin cs hlength).1 (within_self hin.bounds_nonneg))

theorem mem_overlay (h : row ∈ overlay new old) : row ∈ new ∨ row ∈ old := by
  obtain ⟨i, hi⟩ := List.mem_iff_getElem?.1 h
  have hlt := (List.getElem?_eq_some_iff.1 hi).1
  rw [length_overlay] at hlt
  rw [getElem?_overlay hlt] at hi
  rcases Option.or_eq_some_iff.1 hi with hi | ⟨-, hi⟩
  · exact .inr (List.mem_of_getElem? hi)
  · exact .inl (List.mem_of_getElem? hi)

/-- What is within both bounds has been kept: the first index is that of a row of both arrays. -/
theorem readAlong_overlay {is : List Int} (hsize : (new.length : Int) = b + 1)
    (hcount : (old.length : Int) = c + 1) (his : Within (c :: cs) is)
    (his' : Within (b :: bs) is) :
    (Value.array tag' (overlay new old)).readAlong is = (Value.array tag old).readAlong is := by
  cases his with
  | @cons _ i _ _ hi _ =>
    cases his' with
    | cons hi' _ =>
      have hin : 0 ≤ i ∧ i < old.length := ⟨hi.1, by omega⟩
      obtain ⟨n, row, rfl, hrow⟩ := exists_getElem?_iff.1 hin
      rw [Value.readAlong_array_cons hrow, Value.readAlong_array_cons]
      rw [getElem?_overlay (by omega), hrow, Option.some_or]

/-- An array that takes over the rows of another one is as expected if the other one has none, or if
its rows have the new bounds already. -/
theorem Value.resized_overlay_iff (hsize : (new.length : Int) = b + 1)
    (hnew : ∀ row ∈ new, row.HasBounds bs) (hold : (Value.array tag old).HasBounds (c :: cs))
    (hlength : cs.length = bs.length) (hpos : ∀ d ∈ b :: bs, 0 ≤ d)
    (hfits : ∀ d ∈ b :: bs, d < 2 ^ 31) :
    Value.Resized (.array tag old) (.array tag' (overlay new old)) (c :: cs) (b :: bs) ↔
      c < 0 ∨ cs = bs := by
  obtain ⟨_, _, ⟨⟩, hcount, hrows⟩ := hold
  constructor
  · intro h
    by_cases hc : c < 0
    · exact .inl hc
    · right
      have hb := hpos b List.mem_cons_self
      obtain ⟨row, hrow⟩ : ∃ row, old[0]? = some row :=
        ⟨_, List.getElem?_eq_getElem (by omega)⟩
      refine h.bounds_eq hpos hlength ?_ (hrows row (List.mem_of_getElem? hrow))
      rw [getElem?_overlay (by omega), hrow, Option.some_or]
  · intro h
    have hall : ∀ row ∈ overlay new old, row.HasBounds bs := by
      intro row hrow
      rcases mem_overlay hrow with hrow | hrow
      · exact hnew row hrow
      · rcases h with hc | rfl
        · have := List.length_pos_of_mem hrow
          omega
        · exact hrows row hrow
    have hgrid : (Value.array tag' (overlay new old)).HasBounds (b :: bs) :=
      ⟨_, _, rfl, by rw [length_overlay, hsize], hall⟩
    exact hgrid.resized hpos hfits fun is his his' => readAlong_overlay hsize hcount his his'

end

end FormBasic
