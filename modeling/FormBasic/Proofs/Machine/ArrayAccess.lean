import FormBasic.Proofs.Arithmetic
import FormBasic.Proofs.Library
import FormBasic.Proofs.Machine.Assignment

/-!
# Arrays of a running program

An element of an array variable is read and replaced at an index that the program computes. The
index is converted to an `Integer` before it is compared with the length, and the conversion keeps
the low half of a `Long`: an index that no array has can be taken for one that the array does have.
With the index that is used, an access does what it should, in a pure evaluation and in a run.

Bounds are converted in the same way. A declared array agrees with its bounds in all its dimensions,
but these are the bounds after the conversion, and so are the indices by which its elements are
read.

Replacing an element and resizing an array end in an assignment of the new array, so that what is
shown of nested arrays as values (`Value.Replaced`, `Value.Resized`) is shown of what the variable
stands for afterwards. An assignment to a variable cannot fail (`Runner.exists_assignBound`), which
is why these statements say that the run ends, and not only what is so if it does.

## Main definitions

* `WholeNumber.index` — the index by which a whole number finds an element
* `Runner.ReadsAs` — what a program reads from an array with bounds

## Main results

* `Runner.access_at_whole` — an access with a whole number as the index
* `Interp.element_replaced` — replacing an element of a nested array
* `Runner.reDim_preserve` — resizing a variable and keeping its elements
* `Runner.dim_array` — declaring an array
-/

namespace FormBasic

open Interp

/-! ### Indices -/

/-- The index by which a whole number finds an element: its low half. -/
def WholeNumber.index (n : WholeNumber) : Int := n.toInt.bmod (2 ^ 32)

namespace WholeNumber

theorem asInteger_value (n : WholeNumber) :
    ∃ word, n.value.asInteger = .ok word ∧ word.toInt = n.index := by
  cases n with
  | integer word =>
    have hbounds := Operation.toInt_integer_bounds word
    exact ⟨word, rfl, (Int.bmod_eq_of_le (by omega) (by omega)).symm⟩
  | long word => exact ⟨word.toInt32, rfl, Int64.toInt_toInt32 word⟩

/-- It is the number itself if the number is one of an `Integer`. -/
theorem index_eq_iff (n : WholeNumber) :
    n.index = n.toInt ↔ -2 ^ 31 ≤ n.toInt ∧ n.toInt < 2 ^ 31 := by
  constructor
  · intro h
    have hlow := Int.le_bmod (x := n.toInt) (m := 2 ^ 32) (by decide)
    have hhigh := Int.bmod_lt (x := n.toInt) (m := 2 ^ 32) (by decide)
    rw [index] at h
    omega
  · rintro ⟨hlow, hhigh⟩
    exact Int.bmod_eq_of_le (by omega) (by omega)

end WholeNumber

namespace Runner

variable {run : Runner} {s s₁ : State} {name : String} {e : Expr} {es : List Expr} {tag : Nat}
  {elements : List Value} {n : WholeNumber}

/-- A name that stands for an array is indexed. -/
theorem callNamed_of_array (hdata : s.data? name = some (.array tag elements)) :
    run.callNamed name es s = run.index (.array tag elements) es s := by
  rw [callNamed, get_bind_apply, hdata]

/-- A whole number as the only index. -/
theorem index_whole (hindex : run.eval e s = .ok n.value s₁) (v : Value) :
    run.index v [e] s = lift (indexOf v n.index) s₁ := by
  obtain ⟨word, hword, hn⟩ := n.asInteger_value
  rw [index, bind_of_ok _ hindex, hword, ← hn]
  show (lift (indexOf v word.toInt) >>= fun w => pure w) s₁ = _
  rw [bind_pure]

theorem bounds_whole (hindex : run.eval e s = .ok n.value s₁) :
    run.bounds [e] s = .ok [n.index] s₁ := by
  obtain ⟨word, hword, hn⟩ := n.asInteger_value
  rw [bounds, bind_of_ok _ hindex, hword, ← hn]
  rfl

/-- Both ways to write an access to an element do the same. -/
theorem eval_access {fuel : Nat} (hdata : s.data? name = some (.array tag elements)) :
    ∀ access ∈ [Expr.element name es, .call name es], (withFuel (fuel + 1)).eval access s =
      (withFuel fuel).index (.array tag elements) es s := by
  intro access haccess
  rcases List.mem_cons.1 haccess with rfl | haccess
  · exact callNamed_of_array hdata
  · cases List.mem_singleton.1 haccess
    exact callNamed_of_array hdata

theorem eval_access_whole {fuel : Nat} (hdata : s.data? name = some (.array tag elements))
    (hindex : (withFuel fuel).eval e s = .ok n.value s₁) :
    ∀ access ∈ [Expr.element name [e], .call name [e]],
      (withFuel (fuel + 1)).eval access s = lift (indexOf (.array tag elements) n.index) s₁ :=
  fun access haccess => (eval_access hdata access haccess).trans (index_whole hindex _)

theorem assignElement_whole {fuel : Nat} (hdata : s.data? name = some (.array tag elements))
    (hindex : (withFuel fuel).eval e s = .ok n.value s₁) (v : Value) :
    (withFuel fuel).assignElement name [e] v s =
      (withTags (withElement (.array tag elements) [n.index] v) >>=
        (withFuel fuel).assignBound name) s₁ := by
  rw [assignElement, get_bind_apply, hdata]
  exact bind_of_ok _ (bounds_whole hindex)

/-- An index within the array. -/
theorem exists_assignElement_whole {fuel i : Nat} {old : Value}
    (hdata : s.data? name = some (.array tag elements))
    (hindex : (withFuel fuel).eval e s = .ok n.value s₁) (hi : n.index = i)
    (hold : elements[i]? = some old) (hname : s₁.IsVariable name) (v : Value) :
    ∃ t, (withFuel fuel).assignElement name [e] v s = .ok () t ∧
      t.data? name = some (.array s₁.heap.tags (elements.set i v)) := by
  cases fuel with
  | zero => cases hindex
  | succ fuel =>
    have hnew : (withElement (.array tag elements) [n.index] v).run s₁.heap.tags =
        .ok (.array s₁.heap.tags (elements.set i v), s₁.heap.tags + 1) :=
      run_withElement_cons.2
        ⟨tag, elements, i, old, v, s₁.heap.tags, rfl, hi, hold, rfl, rfl, rfl⟩
    obtain ⟨t, ht, -, hdata'⟩ := exists_assignBound
      (hname.withTags (s₁.heap.tags + 1)) (.array s₁.heap.tags (elements.set i v))
    refine ⟨t, ?_, hdata'⟩
    rw [assignElement_whole hdata hindex, bind_of_ok _ (withTags_of_ok hnew)]
    exact ht fuel

/-- An index outside the array. -/
theorem assignElement_whole_of_outside {fuel : Nat}
    (hdata : s.data? name = some (.array tag elements))
    (hindex : (withFuel fuel).eval e s = .ok n.value s₁)
    (hi : ¬(0 ≤ n.index ∧ n.index < elements.length)) (v : Value) :
    (withFuel fuel).assignElement name [e] v s =
      .error (.failure (.runtime (.outOfBounds n.index) [])) s₁ := by
  rw [assignElement_whole hdata hindex]
  exact bind_of_error _ (withTags_of_error (run_withElement_of_outside hi))

end Runner

theorem Surroundings.eval_element_whole {env : Surroundings} {name : String} {e : Expr} {tag : Nat}
    {elements : List Value} {n : WholeNumber} {tags tags₁ : Nat}
    (hdata : env.scopes.get name = .ok (.array tag elements))
    (hindex : (env.eval e).run tags = .ok (n.value, tags₁)) :
    (env.eval (.element name [e])).run tags =
      (fun w => (w, tags₁)) <$> indexOf (.array tag elements) n.index := by
  obtain ⟨word, hword, hn⟩ := n.asInteger_value
  rw [eval, hdata, ← hn]
  show ((env.eval e).run tags >>= fun r => (do
    indexOf (.array tag elements) (← r.1.asInteger).toInt : PureEval Value).run r.2) = _
  rw [hindex]
  show (do indexOf (.array tag elements) (← n.value.asInteger).toInt : PureEval Value).run tags₁ = _
  rw [hword]
  show (indexOf (.array tag elements) word.toInt : PureEval Value).run tags₁ = _
  cases indexOf (.array tag elements) word.toInt <;> rfl

namespace Runner

/-- An access to an element of an array, with a whole number as the index. The low half of the
number is the index that is used, which is the number itself if it is one of an `Integer`. Within
the array the element at that index is read, or replaced if the name can be assigned to; outside the
access fails, and nothing has changed since the index was evaluated. -/
theorem access_at_whole (n : WholeNumber) :
    (n.index = n.toInt ↔ -2 ^ 31 ≤ n.toInt ∧ n.toInt < 2 ^ 31) ∧
    (∀ (env : Surroundings) (name : String) (e : Expr) (tag : Nat) (elements : List Value)
      (tags tags₁ : Nat),
      env.scopes.get name = .ok (.array tag elements) →
      (env.eval e).run tags = .ok (n.value, tags₁) →
      (∀ (i : Nat) (old : Value), n.index = i → elements[i]? = some old →
        (env.eval (.element name [e])).run tags = .ok (old.orNothing, tags₁)) ∧
      (¬(0 ≤ n.index ∧ n.index < elements.length) →
        (env.eval (.element name [e])).run tags = .error (.outOfBounds n.index))) ∧
    (∀ (fuel : Nat) (s s₁ : State) (name : String) (e : Expr) (tag : Nat) (elements : List Value),
      s.data? name = some (.array tag elements) →
      (withFuel fuel).eval e s = .ok n.value s₁ →
      (∀ (i : Nat) (old : Value), n.index = i → elements[i]? = some old →
        (∀ access ∈ [Expr.element name [e], .call name [e]],
          (withFuel (fuel + 1)).eval access s = .ok old.orNothing s₁) ∧
        (s₁.IsVariable name → ∀ v, ∃ t, (withFuel fuel).assignElement name [e] v s = .ok () t ∧
          t.data? name = some (.array s₁.heap.tags (elements.set i v)))) ∧
      (¬(0 ≤ n.index ∧ n.index < elements.length) →
        (∀ access ∈ [Expr.element name [e], .call name [e]],
          (withFuel (fuel + 1)).eval access s =
            .error (.failure (.runtime (.outOfBounds n.index) [])) s₁) ∧
        ∀ v, (withFuel fuel).assignElement name [e] v s =
          .error (.failure (.runtime (.outOfBounds n.index) [])) s₁)) := by
  refine ⟨n.index_eq_iff, ?_, ?_⟩
  · intro env name e tag elements tags tags₁ hdata hindex
    rw [Surroundings.eval_element_whole hdata hindex]
    refine ⟨fun i old hi hold => ?_, fun hout => ?_⟩
    · rw [hi, indexOf_of_getElem? hold]
      rfl
    · rw [indexOf_of_outside hout]
      rfl
  · intro fuel s s₁ name e tag elements hdata hindex
    refine ⟨fun i old hi hold => ⟨fun access haccess => ?_, fun hname v => ?_⟩,
      fun hout => ⟨fun access haccess => ?_, fun v => ?_⟩⟩
    · rw [eval_access_whole hdata hindex access haccess, hi, indexOf_of_getElem? hold]
      rfl
    · exact exists_assignElement_whole hdata hindex hi hold hname v
    · rw [eval_access_whole hdata hindex access haccess, indexOf_of_outside hout]
      rfl
    · exact assignElement_whole_of_outside hdata hindex hout v

/-- A number that has one as its low half is the index of the second of two elements, and there is
no third one. -/
theorem access_at_whole_pair :
    (withFuel 2).eval (.element "X" [.long (2 ^ 32 + 1)]) pairState =
      .ok (.boolean false) pairState ∧
    (∃ t, (withFuel 1).assignElement "X" [.long (2 ^ 32 + 1)] (.text "b") pairState = .ok () t ∧
      t.data? "X" = some (.array 0 [.boolean true, .text "b"])) ∧
    (withFuel 1).assignElement "X" [.long 2] (.text "b") pairState =
      .error (.failure (.runtime (.outOfBounds 2) [])) pairState ∧
    (Surroundings.eval ⟨pairState.scopes, pairState.heap⟩
      (.element "X" [.long (2 ^ 32 + 1)])).run 0 = .ok (.boolean false, 0) := by
  obtain ⟨-, hpure, hrun⟩ := access_at_whole (.long (2 ^ 32 + 1))
  obtain ⟨hread, hassign⟩ := (hrun 1 pairState pairState "X" (.long (2 ^ 32 + 1)) 0 _ rfl rfl).1 1
    (.boolean false) (by decide) rfl
  obtain ⟨-, -, hrun'⟩ := access_at_whole (.long 2)
  obtain ⟨-, hfails⟩ := (hrun' 1 pairState pairState "X" (.long 2) 0 _ rfl rfl).2 (by decide)
  have hvariable : pairState.IsVariable "X" :=
    ⟨.inr rfl, .globalKey "x", ⟨_, false⟩, rfl, rfl, rfl⟩
  exact ⟨hread _ List.mem_cons_self, hassign hvariable _, hfails _,
    (hpure ⟨pairState.scopes, pairState.heap⟩ "X" (.long (2 ^ 32 + 1)) 0 _ 0 0 rfl rfl).1 1 _
      (by decide) rfl⟩

end Runner

/-! ### Elements of nested arrays -/

/-- An element is replaced if the indices lead to one. It is then read along them, all lists of
indices that part from them read as before, the arrays on the way have as many elements as they had,
and the state has given out tags and is as it was otherwise. If there is no such element, the state
has not changed at all. -/
theorem Interp.element_replaced (s : State) (a v : Value) (is : List Int)
    (hv : v.isProper = true) :
    ((∃ w t, withTags (withElement a is v) s = .ok w t) ↔ a.HasElement is) ∧
    (∀ w t, withTags (withElement a is v) s = .ok w t →
      w.readAlong is = .ok v ∧ (∀ js, Value.Parts is js → w.readAlong js = a.readAlong js) ∧
      (∀ before i rest, is = before ++ i :: rest →
        ∃ tag tag' elements elements', a.readAlong before = .ok (.array tag elements) ∧
          w.readAlong before = .ok (.array tag' elements') ∧
          elements'.length = elements.length) ∧
      ∃ tags, t = { s with heap := { s.heap with tags } }) ∧
    (¬a.HasElement is →
      ∃ c, withTags (withElement a is v) s = .error (.failure (.runtime c [])) s) := by
  refine ⟨⟨?_, fun h => ?_⟩, fun w t h => ?_, fun h => ?_⟩
  · rintro ⟨w, t, h⟩
    obtain ⟨tags, hrun, -⟩ := run_of_withTags h
    exact exists_withElement_iff.1 ⟨w, tags, hrun⟩
  · obtain ⟨w, tags, hrun⟩ := exists_withElement_iff.2 h
    exact ⟨w, _, withTags_of_ok hrun⟩
  · obtain ⟨tags, hrun, ht⟩ := run_of_withTags h
    have hreplaced := Value.replaced_of_withElement hrun
    exact ⟨hreplaced.readAlong_self hv, fun js hjs => hreplaced.readAlong_of_parts hjs,
      fun before i rest hsplit => hreplaced.length_eq hsplit, tags, ht⟩
  · cases hrun : (withElement a is v).run s.heap.tags with
    | error c => exact ⟨c, withTags_of_error hrun⟩
    | ok found => exact absurd (exists_withElement_iff.1 ⟨found.1, found.2, hrun⟩) h

/-- The only element of the second of two arrays is replaced, and that of the first one is kept. -/
theorem Interp.element_replaced_nested :
    ∃ w t, withTags (withElement (.array 2 [.array 0 [.integer 1], .array 1 [.integer 2]]) [1, 0]
        (.text "b")) Runner.pairState = .ok w t ∧
      w.readAlong [1, 0] = .ok (.text "b") ∧ w.readAlong [0, 0] = .ok (.integer 1) := by
  obtain ⟨-, hok, -⟩ := Interp.element_replaced Runner.pairState
    (.array 2 [.array 0 [.integer 1], .array 1 [.integer 2]]) (.text "b") [1, 0] rfl
  obtain ⟨hself, hothers, -⟩ := hok _ _ rfl
  exact ⟨_, _, rfl, hself, hothers [0, 0] ⟨0, 1, 0, rfl, rfl, by decide⟩⟩

/-! ### Resizing -/

theorem Interp.build_of_run {s : State} {x : Tagged Value} {v : Value} {tags : Nat}
    (h : x.run s.heap.tags = (v, tags)) :
    build x s = .ok v { s with heap := { s.heap with tags } } := by
  show EStateM.Result.ok (x.run s.heap.tags).1
    { s with heap := { s.heap with tags := (x.run s.heap.tags).2 } } = _
  rw [h]

namespace Runner

variable {run : Runner} {s s₁ t : State} {name : String} {es : List Expr} {bs : List Int}

/-- Bounds are numbers of an `Integer`. -/
theorem bounds_lt (h : run.bounds es s = .ok bs t) : ∀ b ∈ bs, b < 2 ^ 31 := by
  induction es generalizing s bs with
  | nil =>
    cases h
    exact fun b hb => absurd hb List.not_mem_nil
  | cons e es ih =>
    obtain ⟨v, s₁, -, h⟩ := exists_of_bind_ok h
    obtain ⟨n, s₂, -, h⟩ := exists_of_bind_ok h
    obtain ⟨rest, s₃, hrest, h⟩ := exists_of_bind_ok h
    cases h
    exact List.forall_mem_cons.2 ⟨(Operation.toInt_integer_bounds n).2, ih hrest⟩

theorem ne_zero_of_bounds {fuel : Nat} {b : Int}
    (h : (withFuel fuel).bounds es s = .ok (b :: bs) t) : fuel ≠ 0 := by
  rintro rfl
  cases es <;> cases h

/-- A variable that is resized with its elements preserved is given a new array that has taken over
the rows of the old one. -/
theorem exists_reDim_preserve {fuel : Nat} {b : Int} {tag tag' tags : Nat}
    {old new : List Value} (hbounds : (withFuel fuel).bounds es s = .ok (b :: bs) s₁)
    (hdata : s₁.data? name = some (.array tag old)) (hname : s₁.IsVariable name)
    (hnew : (newArray .nothing (b :: bs)).run s₁.heap.tags = (.array tag' new, tags)) :
    ∃ t, (withFuel fuel).reDim name true es s = .ok () t ∧
      t.data? name = some (.array tag' (overlay new old)) := by
  obtain ⟨fuel, rfl⟩ := Nat.exists_eq_succ_of_ne_zero (ne_zero_of_bounds hbounds)
  obtain ⟨t, ht, -, hdata'⟩ := exists_assignBound (hname.withTags tags)
    (.array tag' (overlay new old))
  refine ⟨t, ?_, hdata'⟩
  have hpreserved : preserved { s₁ with heap := { s₁.heap with tags } } name (.array tag' new) =
      .array tag' (overlay new old) := by
    have hdata : State.data? { s₁ with heap := { s₁.heap with tags } } name =
        some (.array tag old) := hdata
    unfold preserved
    rw [hdata]
  rw [reDim, bind_of_ok _ hbounds]
  refine (bind_of_ok _ (build_of_run hnew)).trans ?_
  rw [get_bind_apply, if_pos rfl, hpreserved]
  exact assignOr_of_ok _ (ht fuel)

/-- A variable is resized with its elements preserved. In the first dimension this is as expected:
the array has as many rows as the new bound says, the old ones first and then rows of `Nothing`. But
the old rows are what they were, so that all is as expected if and only if there is none or the
bounds of the other dimensions do not change. -/
theorem reDim_preserve (fuel : Nat) (s s₁ : State) (name : String) (es : List Expr) (b c : Int)
    (bs cs : List Int) (tag : Nat) (old : List Value)
    (hbounds : (withFuel fuel).bounds es s = .ok (b :: bs) s₁) (hpos : ∀ d ∈ b :: bs, 0 ≤ d)
    (hdata : s₁.data? name = some (.array tag old))
    (hold : (Value.array tag old).HasBounds (c :: cs)) (hlength : cs.length = bs.length)
    (hname : s₁.IsVariable name) :
    ∃ t tag' rows, (withFuel fuel).reDim name true es s = .ok () t ∧
      t.data? name = some (.array tag' rows) ∧ (rows.length : Int) = b + 1 ∧
      (∀ i : Nat, i < rows.length → i < old.length → rows[i]? = old[i]?) ∧
      (∀ (i : Nat) (row : Value), rows[i]? = some row → old.length ≤ i →
        row.IsGrid (· = .nothing) bs) ∧
      (Value.Resized (.array tag old) (.array tag' rows) (c :: cs) (b :: bs) ↔
        c < 0 ∨ cs = bs) := by
  obtain ⟨tag', new, hnew, hsize, hrows⟩ := isGrid_newArray .nothing hpos s₁.heap.tags
  obtain ⟨t, ht, hdata'⟩ := exists_reDim_preserve hbounds hdata hname (Prod.ext hnew rfl)
  refine ⟨t, tag', overlay new old, ht, hdata', ?_, fun i hi hlt => ?_, fun i row hi hle => ?_, ?_⟩
  · rw [length_overlay, hsize]
  · rw [length_overlay] at hi
    rw [getElem?_overlay hi, List.getElem?_eq_getElem hlt, Option.some_or]
  · have hlt := (List.getElem?_eq_some_iff.1 hi).1
    rw [length_overlay] at hlt
    rw [getElem?_overlay hlt, List.getElem?_eq_none hle, Option.none_or] at hi
    exact hrows row (List.mem_of_getElem? hi)
  · exact Value.resized_overlay_iff hsize (fun row hrow => (hrows row hrow).hasBounds) hold hlength
      hpos (bounds_lt hbounds)

/-- Two rows of two elements. -/
def squareRows : List Value :=
  [.array 0 [.integer 1, .integer 2], .array 1 [.integer 3, .integer 4]]

/-- The rows under a global name. -/
def squareState : State :=
  { scopes := { globals := Table.insert ∅ "x" ⟨.array 2 squareRows, false⟩ } }

/-- The rows do not get longer. -/
theorem reDim_preserve_square :
    ∃ t tag' rows, (withFuel 1).reDim "X" true [.integer 1, .integer 2] squareState = .ok () t ∧
      t.data? "X" = some (.array tag' rows) ∧ rows[1]? = some (.array 1 [.integer 3, .integer 4]) ∧
      ¬Value.Resized (.array 2 squareRows) (.array tag' rows) [1, 1] [1, 2] := by
  have hold : (Value.array 2 squareRows).HasBounds [1, 1] := by
    refine ⟨_, _, rfl, rfl, fun row hrow => ?_⟩
    rcases List.mem_pair.1 hrow with rfl | rfl
    · exact ⟨_, _, rfl, rfl, fun _ _ => trivial⟩
    · exact ⟨_, _, rfl, rfl, fun _ _ => trivial⟩
  have hvariable : squareState.IsVariable "X" :=
    ⟨.inr rfl, .globalKey "x", ⟨_, false⟩, rfl, rfl, rfl⟩
  obtain ⟨t, tag', rows, ht, hdata, hsize, hrows, -, hresized⟩ := reDim_preserve 1 squareState
    squareState "X" [.integer 1, .integer 2] 1 1 [2] [1] 2 squareRows rfl (by decide) rfl hold rfl
    hvariable
  refine ⟨t, tag', rows, ht, hdata, hrows 1 (by omega) (by decide), fun h => ?_⟩
  exact absurd (hresized.1 h) (by decide)

end Runner

/-! ### Declaring -/

/-- In a local scope, or without a current object, a declared name stands for its value. -/
theorem State.data?_define {s : State} (h : s.scopes.locals ≠ [] ∨ s.context.self = none)
    (name : String) (v : Value) :
    State.data? { s with scopes := s.scopes.define name v } name = some v := by
  rw [data?, Scopes.lookup?_define]
  split
  · rfl
  · next hglobal =>
    have hself := h.resolve_left fun hlocals => hglobal (Scopes.hasLocal_define hlocals name v)
    rw [hself]
    rfl

namespace Runner

variable {run : Runner} {s s₁ u u' : State} {name : String} {es : List Expr} {bs is : List Int}

/-- Indices that are whole numbers. -/
theorem bounds_of_evalAll {ns : List WholeNumber}
    (h : run.evalAll es s = .ok (ns.map WholeNumber.value) s₁) :
    run.bounds es s = .ok (ns.map WholeNumber.index) s₁ := by
  induction es generalizing s ns with
  | nil =>
    cases ns with
    | nil =>
      cases h
      rfl
    | cons n ns => cases h
  | cons e es ih =>
    obtain ⟨v, t, he, h⟩ := exists_of_bind_ok h
    obtain ⟨vs, t', hes, h⟩ := exists_of_bind_ok h
    cases ns with
    | nil => cases h
    | cons n ns =>
      cases h
      obtain ⟨word, hword, hn⟩ := n.asInteger_value
      rw [bounds, bind_of_ok _ he, hword]
      refine (bind_of_ok _ (ih hes)).trans ?_
      rw [hn]
      rfl

/-- Indices are evaluated as bounds are, so that an access finds what is read along their numbers.
Where nothing is read it fails, and the expressions after the first index without an element are not
evaluated. -/
theorem index_of_bounds (h : run.bounds es u = .ok is u') (v : Value) :
    match v.readAlong is with
    | .ok w => run.index v es u = .ok w u'
    | .error c => ∃ t, run.index v es u = .error (.failure (.runtime c [])) t := by
  induction es generalizing u is v with
  | nil =>
    cases h
    rfl
  | cons e es ih =>
    obtain ⟨x, t, he, h⟩ := exists_of_bind_ok h
    obtain ⟨n, t', hn, h⟩ := exists_of_bind_ok h
    obtain ⟨rest, t'', hrest, h⟩ := exists_of_bind_ok h
    cases h
    rw [index, bind_of_ok _ he, bind_of_ok _ hn]
    cases hi : indexOf v n.toInt with
    | error c =>
      rw [Value.readAlong_cons_of_error hi]
      exact ⟨t', rfl⟩
    | ok w =>
      rw [Value.readAlong_cons_of_ok hi]
      exact ih hrest w

theorem exec_dim_array {fuel tags : Nat} {typeName : String} (initializer : Option Expr) {a : Value}
    (hbounds : (withFuel fuel).bounds es s = .ok bs s₁) (hne : bs ≠ [])
    (hnew : (newArray (defaultOf typeName) bs).run s₁.heap.tags = (a, tags)) :
    (withFuel (fuel + 1)).exec (.dim name typeName es initializer) s =
      .ok .normal { s₁ with heap := { s₁.heap with tags }, scopes := s₁.scopes.define name a } := by
  have hempty : es.isEmpty = false := by
    cases es with
    | nil =>
      cases hbounds
      exact absurd rfl hne
    | cons e es => rfl
  have hvalue : (withFuel fuel).initialValue typeName es initializer s =
      .ok a { s₁ with heap := { s₁.heap with tags } } := by
    rw [initialValue.eq_def, hempty, if_neg Bool.false_ne_true, bind_of_ok _ hbounds]
    exact build_of_run hnew
  show (done do define name (← (withFuel fuel).initialValue typeName es initializer)) s = _
  rw [done, bind_assoc, bind_of_ok _ hvalue]
  rfl

/-- What a program reads from an array with the given bounds whose elements are all the same. -/
structure ReadsAs (a : Value) (bounds : List Int) (start : Value) : Prop where
  upper : ∀ (d : Int32) (b : Int), 1 ≤ d.toInt → bounds[(d.toInt - 1).toNat]? = some b →
    ∃ n : Int32, Library.uBound [a, .integer d] = .ok (.integer n) ∧ n.toInt = b
  within : ∀ (fuel : Nat) (u u' : State) (name : String) (es : List Expr) (is : List Int),
    u.data? name = some a → (withFuel fuel).bounds es u = .ok is u' → Within bounds is →
    ∀ access ∈ [Expr.element name es, .call name es],
      (withFuel (fuel + 1)).eval access u = .ok start u'
  outside : ∀ (fuel : Nat) (u u' : State) (name : String) (es : List Expr) (is : List Int),
    u.data? name = some a → (withFuel fuel).bounds es u = .ok is u' →
    is.length = bounds.length → ¬Within bounds is →
    ∀ access ∈ [Expr.element name es, .call name es],
      ∃ c t, (withFuel (fuel + 1)).eval access u = .error (.failure (.runtime c [])) t

theorem readsAs_of_isGrid {tag : Nat} {elements : List Value} {start : Value}
    (hgrid : Value.IsGrid (· = start) bs (.array tag elements)) (hstart : start.isProper = true)
    (hpos : ∀ b ∈ bs, 0 ≤ b) (hfits : ∀ b ∈ bs, b < 2 ^ 31) :
    ReadsAs (.array tag elements) bs start where
  upper _ _ _ hb := hgrid.hasBounds.exists_uBound hpos hfits hb
  within fuel u u' name es is hdata hbounds his access haccess := by
    obtain ⟨_, rfl, hread⟩ := hgrid.exists_readAlong
      (fun w hw => by rw [hw, orNothing_of_isProper hstart]) his
    have hindex := index_of_bounds hbounds (.array tag elements)
    rw [hread] at hindex
    exact (eval_access hdata access haccess).trans hindex
  outside fuel u u' name es is hdata hbounds hlength his access haccess := by
    obtain ⟨c, hread⟩ := hgrid.hasBounds.readAlong_outside hlength his
    have hindex := index_of_bounds hbounds (.array tag elements)
    rw [hread] at hindex
    rw [eval_access hdata access haccess]
    exact ⟨c, hindex⟩

/-- A declaration with bounds that are not negative makes the name stand for an array that has the
bounds in all its dimensions and whose elements are all what the type starts with: they are read
along the indices within the bounds, and an access with any other index fails. The numbers of bounds
and indices are those of an `Integer`: of a whole number the low half, which is the number itself
only if it is one of an `Integer`. -/
theorem dim_array (fuel : Nat) (s s₁ : State) (name typeName : String) (es : List Expr)
    (initializer : Option Expr) (bs : List Int)
    (hbounds : (withFuel fuel).bounds es s = .ok bs s₁) (hne : bs ≠ []) (hpos : ∀ b ∈ bs, 0 ≤ b) :
    (∃ a tags t, t = { s₁ with heap := { s₁.heap with tags }, scopes := s₁.scopes.define name a } ∧
      (withFuel (fuel + 1)).exec (.dim name typeName es initializer) s = .ok .normal t ∧
      (s₁.scopes.locals ≠ [] ∨ s₁.context.self = none → t.data? name = some a) ∧
      ReadsAs a bs (defaultOf typeName)) ∧
    (∀ (run : Runner) (u u' : State) (es : List Expr) (ns : List WholeNumber),
      run.evalAll es u = .ok (ns.map WholeNumber.value) u' →
      run.bounds es u = .ok (ns.map WholeNumber.index) u') ∧
    ∀ n : WholeNumber, n.index = n.toInt ↔ -2 ^ 31 ≤ n.toInt ∧ n.toInt < 2 ^ 31 := by
  refine ⟨?_, fun _ _ _ _ _ => bounds_of_evalAll, WholeNumber.index_eq_iff⟩
  have hgrid := isGrid_newArray (defaultOf typeName) hpos s₁.heap.tags
  obtain ⟨a, tags, hnew⟩ : ∃ a tags,
      (newArray (defaultOf typeName) bs).run s₁.heap.tags = (a, tags) := ⟨_, _, rfl⟩
  rw [hnew] at hgrid
  refine ⟨a, tags, _, rfl, exec_dim_array initializer hbounds hne hnew,
    fun hplace => State.data?_define hplace name a, ?_⟩
  obtain ⟨b, bs, rfl⟩ := List.exists_cons_of_ne_nil hne
  obtain ⟨tag, elements, rfl, -⟩ := id hgrid
  exact readsAs_of_isGrid hgrid (isProper_defaultOf typeName) hpos (bounds_lt hbounds)

/-- Two rows of three numbers. A number with a low half within the bounds is read as an index. -/
theorem dim_array_matrix :
    ∃ a t, (withFuel 2).exec (.dim "A" "Integer" [.integer 1, .integer 2] none) {} =
        .ok .normal t ∧ t.data? "A" = some a ∧
      (∃ n : Int32, Library.uBound [a, .integer 2] = .ok (.integer n) ∧ n.toInt = 2) ∧
      (withFuel 2).eval (.element "A" [.integer 1, .integer 2]) t = .ok (.integer 0) t ∧
      (withFuel 2).eval (.element "A" [.integer 0, .long (2 ^ 32 + 1)]) t = .ok (.integer 0) t ∧
      ∃ c u, (withFuel 2).eval (.element "A" [.integer 0, .integer 3]) t =
        .error (.failure (.runtime c [])) u := by
  obtain ⟨⟨a, tags, t, -, hexec, hdata, hreads⟩, hwhole, -⟩ := dim_array 1 {} {} "A" "Integer"
    [.integer 1, .integer 2] none [1, 2] rfl (by decide) (by decide)
  have hdata := hdata (.inr rfl)
  have hlong : (withFuel 1).bounds [.integer 0, .long (2 ^ 32 + 1)] t = .ok [0, 1] t :=
    hwhole _ _ _ _ [.integer 0, .long (2 ^ 32 + 1)] rfl
  have hout : ¬Within [1, 2] [0, 3] := fun h =>
    absurd (List.forall₂_cons.1 (List.forall₂_cons.1 h).2).1 (by decide)
  exact ⟨a, t, hexec, hdata, hreads.upper 2 2 (by decide) rfl,
    hreads.within 1 t t "A" _ [1, 2] hdata rfl (within_self (by decide)) _ List.mem_cons_self,
    hreads.within 1 t t "A" _ [0, 1] hdata hlong (.cons (by decide) (.cons (by decide) .nil)) _
      List.mem_cons_self,
    hreads.outside 1 t t "A" _ [0, 3] hdata rfl rfl hout _ List.mem_cons_self⟩

end Runner

end FormBasic
