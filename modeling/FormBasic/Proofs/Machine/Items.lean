import FormBasic.Machine.Run
import FormBasic.Proofs.Heap
import FormBasic.Proofs.Machine.Ends
import Mathlib.Data.Finset.Card
import Mathlib.Data.Finset.Range
import Mathlib.Logic.Relation

/-!
# The elements of a collection

A `For Each` first asks its collection for all elements. An instance hands the question on to what
its `items` field holds, and since this may be an instance again, the question may come back to an
instance that has handed it on already. Fields can be assigned freely, so a program can build such a
circle with two statements, and then no answer is ever found.

This is the only case without an answer. Instances that hand the question on have fields, so there
are no more of them than there are instances in the heap; a chain of more must meet one instance
twice, and from there on it goes around.

## Main definitions

* `Value.ownElements` — the elements of a value that asks nobody else
* `Heap.Lists` — the elements of a value, or the error that it has none
* `Heap.Circles` — the `items` fields lead in a circle

## Main results

* `Heap.exists_itemsFrom_iff`, `Heap.itemsFrom_of_lists` — when there is an answer, and which one
* `Runner.items_end_unless_circular` — what a `For Each` does in both cases
-/

namespace FormBasic

open Relation (ReflTransGen TransGen)

/-- The elements of a value that asks nobody else: those of an array, and the characters of a text.
The others have none. -/
def Value.ownElements : Value → Fallible (List Value)
  | .array _ elements => .ok (elements.map Value.orNothing)
  | .text s => .ok (s.toList.map fun c => .text (String.ofList [c]))
  | v => .error (.typeMismatch "Array" v.typeName)

/-- Values have a list of elements or are of the wrong type. -/
theorem Value.ownElements_cases (v : Value) :
    (∃ vs, v.ownElements = .ok vs) ∨ ∃ got, v.ownElements = .error (.typeMismatch "Array" got) := by
  cases v with
  | array tag elements => exact .inl ⟨_, rfl⟩
  | text s => exact .inl ⟨_, rfl⟩
  | _ => exact .inr ⟨_, rfl⟩

namespace Heap

/-- A value that does not hand the question for its elements on. -/
def AnswersItself (h : Heap) (v : Value) : Prop := ∀ r, v = .object r → h.get? r "items" = none

/-- The elements of a value, or the error that it has none: an instance with `items` has those of
the value in this field. -/
inductive Lists (h : Heap) : Value → Fallible (List Value) → Prop
  | own {v : Value} (hown : h.AnswersItself v) : Lists h v v.ownElements
  | items {r : ObjectRef} {v : Value} {found : Fallible (List Value)}
    (hitems : h.get? r "items" = some v) (hv : Lists h v found) : Lists h (.object r) found

/-- The `items` of an instance are another one, or the same. -/
def Delegates (h : Heap) (r r' : ObjectRef) : Prop := h.get? r "items" = some (.object r')

/-- A value is an instance from which the `items` fields lead into a circle. -/
def Circles (h : Heap) (v : Value) : Prop :=
  ∃ r r', v = .object r ∧ ReflTransGen h.Delegates r r' ∧ TransGen h.Delegates r' r'

variable {h : Heap} {r r' : ObjectRef} {v : Value} {found : Fallible (List Value)} {fuel : Nat}

/-! ### One step of the question -/

theorem answersItself_or (h : Heap) (v : Value) :
    h.AnswersItself v ∨ ∃ r w, v = .object r ∧ h.get? r "items" = some w := by
  cases v with
  | object r =>
    cases hitems : h.get? r "items" with
    | none => exact .inl fun _ hr => by cases hr; exact hitems
    | some w => exact .inr ⟨r, w, rfl, hitems⟩
  | _ => exact .inl fun _ hr => by cases hr

theorem itemsStep_of_answersItself (hown : h.AnswersItself v)
    (items : Value → Option (Fallible (List Value))) :
    h.itemsStep items v = some v.ownElements := by
  cases v with
  | object r =>
    rw [itemsStep, hown r rfl]
    rfl
  | _ => rfl

theorem itemsFrom_of_answersItself (hown : h.AnswersItself v) (fuel : Nat) :
    h.itemsFrom fuel v = some v.ownElements := by
  cases fuel <;> exact itemsStep_of_answersItself hown _

theorem itemsFrom_zero_of_items (hitems : h.get? r "items" = some v) :
    h.itemsFrom 0 (.object r) = none := by
  rw [itemsFrom, itemsStep, hitems]

theorem itemsFrom_succ_of_items (hitems : h.get? r "items" = some v) :
    h.itemsFrom (fuel + 1) (.object r) = h.itemsFrom fuel v := by
  rw [itemsFrom, itemsStep, hitems]

/-! ### Circles -/

/-- What hands the question on to where a circle is reached reaches it as well. -/
theorem Circles.of_delegates (hr : h.Delegates r r') (hcircle : h.Circles (.object r')) :
    h.Circles (.object r) := by
  obtain ⟨_, r'', ⟨⟩, hreach, haround⟩ := hcircle
  exact ⟨r, r'', rfl, .head hr hreach, haround⟩

/-- Where a circle is reached, the question is handed on and a circle is still reached. -/
theorem Circles.exists_delegates (hcircle : h.Circles v) :
    ∃ r r', v = .object r ∧ h.Delegates r r' ∧ h.Circles (.object r') := by
  obtain ⟨r, r'', rfl, hreach, haround⟩ := hcircle
  rcases ReflTransGen.cases_head hreach with rfl | ⟨r', hr, hreach⟩
  · obtain ⟨r', hr, hback⟩ := TransGen.head'_iff.1 haround
    exact ⟨r, r', rfl, hr, r', r, rfl, hback, haround⟩
  · exact ⟨r, r', rfl, hr, r', r'', rfl, hreach, haround⟩

/-- No fuel is enough to come to the end of a circle. -/
theorem itemsFrom_of_circles (hcircle : h.Circles v) (fuel : Nat) : h.itemsFrom fuel v = none := by
  induction fuel generalizing v with
  | zero =>
    obtain ⟨r, r', rfl, hr, -⟩ := hcircle.exists_delegates
    exact itemsFrom_zero_of_items hr
  | succ fuel ih =>
    obtain ⟨r, r', rfl, hr, hcircle'⟩ := hcircle.exists_delegates
    rw [itemsFrom_succ_of_items hr]
    exact ih hcircle'

theorem index_lt_of_items (hitems : h.get? r "items" = some v) : r.index < h.instances.size := by
  refine Nat.lt_of_not_le fun hle => ?_
  have hfields : h.fields r = ∅ := by
    rw [fields, Array.getD_eq_getD_getElem?, Array.getElem?_eq_none hle, Option.getD_none]
  rw [get?, hfields] at hitems
  cases hitems

/-- Without a circle, the fuel is enough if there is as much as instances that may still come to
hand the question on. Each of them does so once: if one came again, it would hand on to the same
instance again. -/
theorem isSome_itemsFrom (candidates : Finset Nat) (hfuel : candidates.card ≤ fuel)
    (hcandidates : ∀ r r' w, v = .object r → ReflTransGen h.Delegates r r' →
      h.get? r' "items" = some w → r'.index ∈ candidates)
    (hfree : ¬h.Circles v) : (h.itemsFrom fuel v).isSome = true := by
  induction fuel generalizing v candidates with
  | zero =>
    rcases h.answersItself_or v with hown | ⟨r, w, rfl, hitems⟩
    · rw [itemsFrom_of_answersItself hown, Option.isSome_some]
    · have hmem := hcandidates r r w rfl .refl hitems
      rw [Finset.card_eq_zero.1 (Nat.le_zero.1 hfuel)] at hmem
      cases hmem
  | succ fuel ih =>
    rcases h.answersItself_or v with hown | ⟨r, w, rfl, hitems⟩
    · rw [itemsFrom_of_answersItself hown, Option.isSome_some]
    · have hmem := hcandidates r r w rfl .refl hitems
      rw [itemsFrom_succ_of_items hitems]
      refine ih (candidates.erase r.index) ?_ ?_ fun hcircle => ?_
      · rw [Finset.card_erase_of_mem hmem]
        omega
      · rintro r' r'' w' rfl hreach hw
        refine Finset.mem_erase.2
          ⟨fun hsame => hfree ?_, hcandidates r r'' w' rfl (.head hitems hreach) hw⟩
        have hback : h.Delegates r'' r' := by rw [Delegates, get?, fields, hsame]; exact hitems
        exact ⟨r, r', rfl, .single hitems, TransGen.tail' hreach hback⟩
      · obtain ⟨r', -, rfl, -, -⟩ := hcircle.exists_delegates
        exact hfree (hcircle.of_delegates hitems)

/-- Without a circle, there is an answer as soon as there is as much fuel as there are instances. -/
theorem exists_itemsFrom (hfree : ¬h.Circles v) (hfuel : h.instances.size ≤ fuel) :
    ∃ found, h.itemsFrom fuel v = some found := by
  refine Option.isSome_iff_exists.1 <|
    isSome_itemsFrom (Finset.range h.instances.size) ?_ ?_ hfree
  · rwa [Finset.card_range]
  · exact fun _ _ _ _ _ hw => Finset.mem_range.2 (index_lt_of_items hw)

/-! ### Answers -/

theorem lists_of_itemsFrom (hfound : h.itemsFrom fuel v = some found) : h.Lists v found := by
  induction fuel generalizing v with
  | zero =>
    rcases h.answersItself_or v with hown | ⟨r, w, rfl, hitems⟩
    · rw [itemsFrom_of_answersItself hown] at hfound
      cases hfound
      exact .own hown
    · rw [itemsFrom_zero_of_items hitems] at hfound
      cases hfound
  | succ fuel ih =>
    rcases h.answersItself_or v with hown | ⟨r, w, rfl, hitems⟩
    · rw [itemsFrom_of_answersItself hown] at hfound
      cases hfound
      exact .own hown
    · rw [itemsFrom_succ_of_items hitems] at hfound
      exact .items hitems (ih hfound)

/-- There is at most one answer. -/
theorem Lists.unique (hv : h.Lists v found) {found' : Fallible (List Value)}
    (hv' : h.Lists v found') : found = found' := by
  induction hv with
  | own hown =>
    cases hv' with
    | own => rfl
    | items hitems => cases (hown _ rfl).symm.trans hitems
  | items hitems _ ih =>
    cases hv' with
    | own hown => cases (hown _ rfl).symm.trans hitems
    | items hitems' hv' => cases hitems.symm.trans hitems'; exact ih hv'

/-- What has an answer does not reach a circle. -/
theorem Lists.not_circles (hv : h.Lists v found) : ¬h.Circles v := by
  induction hv with
  | own hown =>
    intro hcircle
    obtain ⟨r, r', rfl, hr, -⟩ := hcircle.exists_delegates
    cases (hown r rfl).symm.trans hr
  | items hitems _ ih =>
    intro hcircle
    obtain ⟨r, r', ⟨⟩, hr, hcircle'⟩ := hcircle.exists_delegates
    cases hitems.symm.trans hr
    exact ih hcircle'

/-- An answer is a list or says that a value is of the wrong type. -/
theorem Lists.cases (hv : h.Lists v found) :
    (∃ vs, found = .ok vs) ∨ ∃ got, found = .error (.typeMismatch "Array" got) := by
  induction hv with
  | own => exact Value.ownElements_cases _
  | items _ _ ih => exact ih

theorem itemsFrom_of_lists (hv : h.Lists v found) (hfuel : h.instances.size ≤ fuel) :
    h.itemsFrom fuel v = some found := by
  obtain ⟨found', hfound⟩ := exists_itemsFrom hv.not_circles hfuel
  rw [hfound, hv.unique (lists_of_itemsFrom hfound)]

/-- There is an answer unless the `items` lead in a circle. -/
theorem exists_itemsFrom_iff : (∃ fuel found, h.itemsFrom fuel v = some found) ↔ ¬h.Circles v := by
  refine ⟨fun ⟨_, _, hfound⟩ => (lists_of_itemsFrom hfound).not_circles, fun hfree => ?_⟩
  exact ⟨h.instances.size, exists_itemsFrom hfree le_rfl⟩

end Heap

namespace Runner

open Interp

variable {run : Runner} {name : String} {collection : Expr} {body : List Stmt} {s s₀ : State}
  {v : Value} {found : Fallible (List Value)}

theorem forEach_of_none (heval : run.eval collection s₀ = .ok v s)
    (hnone : s.heap.itemsFrom run.fuel v = none) :
    run.forEach name collection body s₀ = .error .outOfFuel s := by
  rw [forEach, bind_of_ok _ heval, get_bind_apply, hnone]
  rfl

theorem forEach_of_some (heval : run.eval collection s₀ = .ok v s)
    (hfound : s.heap.itemsFrom run.fuel v = some found) :
    run.forEach name collection body s₀ = (lift found >>= run.eachRounds name body) s := by
  rw [forEach, bind_of_ok _ heval, get_bind_apply, hfound]
  rfl

/-- If the `items` of a value lead in a circle, the question for its elements is asked in vain with
any fuel, and a `For Each` over it has no end. Else it is answered as soon as there is as much fuel
as there are instances, and then a `For Each` visits the elements that it is given, or fails because
a value is of the wrong type. -/
theorem items_end_unless_circular (s : State) (v : Value) :
    (s.heap.Circles v ∧ (∀ n, s.heap.itemsFrom n v = none) ∧
      ∀ fuel name collection body s₀, (withFuel fuel).eval collection s₀ = .ok v s →
        (withFuel (fuel + 1)).exec (.forEach name collection body) s₀ = .error .outOfFuel s) ∨
    (¬s.heap.Circles v ∧ ∃ found, s.heap.Lists v found ∧
      ((∃ vs, found = .ok vs) ∨ ∃ got, found = .error (.typeMismatch "Array" got)) ∧
      ∀ fuel, s.heap.instances.size ≤ fuel → s.heap.itemsFrom fuel v = some found ∧
        ∀ name collection body s₀, (withFuel fuel).eval collection s₀ = .ok v s →
          (withFuel (fuel + 1)).exec (.forEach name collection body) s₀ =
            (lift found >>= (withFuel fuel).eachRounds name body) s) := by
  by_cases hcircle : s.heap.Circles v
  · have hnone := Heap.itemsFrom_of_circles hcircle
    exact .inl ⟨hcircle, hnone, fun fuel _ _ _ _ heval => forEach_of_none heval (hnone fuel)⟩
  · obtain ⟨_, found, hfound⟩ := Heap.exists_itemsFrom_iff.2 hcircle
    have hlists := Heap.lists_of_itemsFrom hfound
    refine .inr ⟨hcircle, found, hlists, hlists.cases, fun fuel hfuel => ?_⟩
    have hfound := Heap.itemsFrom_of_lists hlists hfuel
    exact ⟨hfound, fun _ _ _ _ heval => forEach_of_some heval hfound⟩

/-- Two statements after which the `items` of an instance are the instance. -/
def circleBuilder : List Stmt :=
  [.assign "o" (.new "thing" [] []), .memberAssign (.variable "o") "items" (.variable "o")]

/-- A program can build a circle, and a `For Each` over it comes to no end with any fuel. -/
theorem items_end_unless_circular_self :
    ∃ s, (withFuel 9).block circleBuilder {} = .ok .normal s ∧
      ∀ fuel, (withFuel (fuel + 2)).exec (.forEach "x" (.variable "o") []) s =
        .error .outOfFuel s := by
  let s := ((withFuel 9).block circleBuilder).after {}
  refine ⟨s, rfl, fun fuel => ?_⟩
  have heval : (withFuel (fuel + 1)).eval (.variable "o") s = .ok (.object ⟨0, "thing"⟩) s := rfl
  have hcircle : s.heap.Circles (.object ⟨0, "thing"⟩) :=
    ⟨⟨0, "thing"⟩, ⟨0, "thing"⟩, rfl, .refl, .single rfl⟩
  rcases items_end_unless_circular s (.object ⟨0, "thing"⟩) with ⟨-, -, hexec⟩ | ⟨hfree, -⟩
  · exact hexec (fuel + 1) "x" (.variable "o") [] s heval
  · exact absurd hcircle hfree

end Runner

end FormBasic
