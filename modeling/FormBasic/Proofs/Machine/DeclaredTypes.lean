import FormBasic.Machine.Run
import FormBasic.Proofs.Coercion
import FormBasic.Proofs.Machine.WriteBack

/-!
# Declared types in a run

Declarations, parameters and results convert to their type by one conversion. For the result of a
function or of a reading accessor it is the last thing that a call does, however the body came to
its end, so that a call that succeeds gives a value of the declared variant whatever the body does.

## Main definitions

* `State.resultValue` — what a function gives, before it is converted
* `State.LeavesBuiltIn` — a name that means a built-in procedure

## Main results

* `Runner.exists_of_invoke` — the result of a call is a conversion of what its body ends with
* `Runner.declared_result` — the variant of the result
* `Runner.long_through_text` — the text of a word, wherever it is converted to `Long`
-/

namespace FormBasic

/-- What a function gives, before it is converted: the value that is returned, else what its name is
bound to. -/
def State.resultValue (s : State) (c : Callable) (signal : Signal) : Value :=
  let bound := (s.scopes.lookup? c.name).getD .nothing
  match signal with
  | .returned v => if v.isProper then v else bound
  | _ => bound

namespace Runner

open Interp

variable {c : Callable} {self : Option ObjectRef} {classContext : String}

/-! ### Results of functions -/

theorem resultOf_of_isFunction (hc : c.isFunction = true) (signal : Signal) (s : State) :
    resultOf c signal s = lift ((s.resultValue c signal).coerceTo c.returnType) s := by
  cases signal with
  | returned v =>
    cases hv : v.isProper with
    | true =>
      simp only [resultOf, State.resultValue, hv, hc, if_true, pure_bind]
      rfl
    | false =>
      simp only [resultOf, State.resultValue, hv, hc, Bool.false_eq_true, if_false, if_true]
      rfl
  | _ =>
    simp only [resultOf, State.resultValue, hc, if_true]
    rfl

theorem eq_ok_of_lift {α : Type} {x : Fallible α} {a : α} {s t : State}
    (h : lift x s = .ok a t) : x = .ok a := by
  cases x with
  | error c => cases h
  | ok b =>
    cases h
    rfl

/-- A call that succeeds has run the body of the function to some end, and gives the conversion of
what it ended with. -/
theorem exists_of_invoke {fuel : Nat} {args finals : List Value} {result : Value} {s t : State}
    (hc : c.isFunction = true)
    (h : (withFuel (fuel + 1)).invoke c self classContext args s = .ok (result, finals) t) :
    ∃ s₀ signal u, (withFuel fuel).block c.body s₀ = .ok signal u ∧
      (u.resultValue c signal).coerceTo c.returnType = .ok result := by
  obtain ⟨u, hbody, -⟩ := exists_of_inCall_ok
    (fun s => ((related_retention fuel).runBody c args s).context) h
  obtain ⟨_, _, -, hbody⟩ := exists_of_bind_ok hbody
  dsimp only at hbody
  rw [hc, if_pos rfl] at hbody
  obtain ⟨_, s₀, -, hbody⟩ := exists_of_bind_ok hbody
  obtain ⟨signal, u, hblock, hbody⟩ := exists_of_bind_ok hbody
  obtain ⟨v, u', hresult, hbody⟩ := exists_of_bind_ok hbody
  refine ⟨s₀, signal, u, hblock, ?_⟩
  rw [resultOf_of_isFunction hc] at hresult
  cases hbody
  exact eq_ok_of_lift hresult

/-- The result of a call, as it is handed to whoever made the call. -/
theorem holds_of_invoke {fuel : Nat} {args finals : List Value} {result : Value} {s t : State}
    (hkind : TypeKind.ofName c.returnType ≠ .other) (hc : c.isFunction = true)
    (h : (withFuel fuel).invoke c self classContext args s = .ok (result, finals) t) :
    (TypeKind.ofName c.returnType).Holds result := by
  cases fuel with
  | zero => cases h
  | succ fuel =>
    obtain ⟨_, _, _, -, hresult⟩ := exists_of_invoke hc h
    exact TypeKind.holds_of_coerce hkind hresult

theorem holds_of_callWith {fuel : Nat} {es : List Expr} {result : Value} {s t : State}
    (hkind : TypeKind.ofName c.returnType ≠ .other) (hc : c.isFunction = true)
    (h : (withFuel fuel).callWith c self classContext es s = .ok result t) :
    (TypeKind.ofName c.returnType).Holds result := by
  obtain ⟨args, s₁, -, h⟩ := exists_of_bind_ok h
  obtain ⟨⟨v, finals⟩, s₂, hinvoke, h⟩ := exists_of_bind_ok h
  obtain ⟨_, s₃, -, h⟩ := exists_of_bind_ok h
  cases h
  exact holds_of_invoke hkind hc hinvoke

/-- A conversion to a known type that succeeds gives a value of the variant that the type starts
with, which a further conversion to the type does not change; and whichever way the body of a
function or a reading accessor ends, a call of it that succeeds gives such a value. -/
theorem declared_result {name : String} (hname : Text.lower name ∈ TypeKind.names) :
    (∀ v w, Value.coerceTo name v = .ok w →
      w.typeName = (defaultOf name).typeName ∧ Value.coerceTo name w = .ok w) ∧
    ∀ fuel c self classContext s result t, c.isFunction = true → c.returnType = name →
      ((∃ args finals, (withFuel fuel).invoke c self classContext args s =
          .ok (result, finals) t) ∨
        ∃ es, (withFuel fuel).callWith c self classContext es s = .ok result t) →
      result.typeName = (defaultOf name).typeName ∧ Value.coerceTo name result = .ok result := by
  have hkind := TypeKind.ofName_ne_other hname
  refine ⟨fun v w h => ?_, fun fuel c self classContext s result t hc hreturn h => ?_⟩
  · have hholds := TypeKind.holds_of_coerce hkind h
    exact ⟨hholds, TypeKind.coerce_of_holds hkind hholds⟩
  · subst hreturn
    have hholds : (TypeKind.ofName c.returnType).Holds result := by
      rcases h with ⟨args, finals, h⟩ | ⟨es, h⟩
      · exact holds_of_invoke hkind hc h
      · exact holds_of_callWith hkind hc h
    exact ⟨hholds, TypeKind.coerce_of_holds hkind hholds⟩

/-- A function that is declared as a text and returns a boolean. -/
def answering : Callable :=
  ⟨"answer", [], [.returnValue (some (.boolean true))], true, "STRING", ""⟩

theorem declared_result_answering :
    ∃ t, (withFuel 3).callWith answering none "" [] {} = .ok (.text "True") t ∧
      Value.coerceTo "STRING" (.text "True") = .ok (.text "True") := by
  have hrun : (withFuel 3).callWith answering none "" [] {} = .ok (.text "True") {} := rfl
  refine ⟨{}, hrun, ?_⟩
  exact ((declared_result (by decide)).2 3 answering none "" {} _ _ rfl rfl (.inr ⟨[], hrun⟩)).2

/-! ### The text of a word -/

end Runner

/-- A name with an argument list means a built-in procedure: nothing else stands under it. -/
structure State.LeavesBuiltIn (s : State) (name : String) : Prop where
  data : s.data? name = none
  own : ∀ (run : Runner) (es : List Expr), run.callOwn? s name es = none
  procedure : s.procedure? name = none

namespace Runner

open Interp

variable {run : Runner} {s : State}

theorem callNamed_of_leavesBuiltIn {name : String} {b : Builtin} (h : s.LeavesBuiltIn name)
    (hb : builtin? (Text.lower name) = some b) (es : List Expr) :
    run.callNamed name es s = run.callBuiltin b es s := by
  rw [callNamed, get_bind_apply, h.data]
  simp only [h.own, h.procedure, hb, Option.getD_none]

/-- A function of the library that is called with one argument. -/
theorem eval_call_library {fuel : Nat} {name : String} {e : Expr} {f : Library.Function} {v : Value}
    (h : s.LeavesBuiltIn name) (hf : Library.function? (Text.lower name) = some f)
    (he : e.isOmitted = false) (hv : (withFuel fuel).eval e s = .ok v s) :
    (withFuel (fuel + 1)).eval (.call name [e]) s = lift (f [v]) s := by
  have hb : builtin? (Text.lower name) = some fun args => lift (f args) := by
    rw [builtin?, hf]
  have hargument : (withFuel fuel).argument e s = .ok v s := by
    rw [argument, he]
    exact hv
  have hargs : (withFuel fuel).arguments [e] s = .ok [v] s := by
    rw [arguments, bind_of_ok _ hargument]
    rfl
  show (withFuel fuel).callNamed name [e] s = _
  rw [callNamed_of_leavesBuiltIn h hb, callBuiltin, bind_of_ok _ hargs]

/-- The decimal text of a word, wherever it is converted to `Long`: it is read exactly and then
taken through a double, so that it comes back if and only if a double stands for it. -/
theorem long_through_text (n : Int64) {name clng cstr : String} (hname : Text.lower name = "long")
    (hclng : Text.lower clng = "clng") (hcstr : Text.lower cstr = "cstr") :
    (∀ fuel s, s.LeavesBuiltIn clng → s.LeavesBuiltIn cstr →
      (withFuel (fuel + 3)).eval (.call clng [.call cstr [.long n]]) s =
        lift (Value.throughDouble n) s) ∧
    (∀ (run : Runner) e s s', run.eval e s = .ok (.text (Value.long n).toText) s' →
      run.initialValue name [] (some e) s = lift (Value.throughDouble n) s') ∧
    (∀ (run : Runner) p s, p.typeName = name →
      run.parameterValue p (.text (Value.long n).toText) s = lift (Value.throughDouble n) s) ∧
    (∀ c s signal, c.isFunction = true → c.returnType = name →
      s.resultValue c signal = .text (Value.long n).toText →
      resultOf c signal s = lift (Value.throughDouble n) s) ∧
    (Value.throughDouble n = .ok (.long n) ↔
      2 ^ (Nat.log2 n.toInt.natAbs - 52) ∣ n.toInt.natAbs) := by
  have hcoerce : (Value.text (Value.long n).toText).coerceTo name = Value.throughDouble n := by
    have hkind : TypeKind.ofName name = .long := by
      rw [TypeKind.ofName, hname]
      rfl
    rw [Value.coerceTo, hkind, Value.coerce_text_long]
  refine ⟨fun fuel s hlong htext => ?_, fun run e s s' he => ?_, fun run p s hp => ?_,
    fun c s signal hc hreturn hvalue => ?_, Value.throughDouble_eq_self_iff n⟩
  · have hinner : (withFuel (fuel + 2)).eval (.call cstr [.long n]) s =
        lift (Library.convert "String" [.long n]) s :=
      eval_call_library htext (by rw [hcstr]; rfl) rfl rfl
    rw [Library.convert_string_long] at hinner
    rw [eval_call_library hlong (f := Library.convert "Long") (by rw [hclng]; rfl) rfl hinner,
      Library.convert_long_text]
  · show (run.eval e >>= fun v => lift (v.coerceTo name)) s = _
    rw [bind_of_ok _ he, hcoerce]
  · simp only [parameterValue, Value.isProper, if_true, pure_bind, hp, hcoerce]
    rfl
  · rw [resultOf_of_isFunction hc, hvalue, hreturn, hcoerce]

/-- Where nothing is declared, every name is left to the built-in procedures. -/
theorem leavesBuiltIn_empty (name : String) : State.LeavesBuiltIn {} name where
  data := rfl
  own _ _ := rfl
  procedure := by
    have hkeys : State.procedureKeys {} = [] := by
      rw [State.procedureKeys, Table.sortedNames, Table.sorted]
      exact congrArg (List.map _) (List.mergeSort_nil)
    rw [State.procedure?, State.procedureInModule?, hkeys]
    rfl

/-- The first whole number that no double stands for. -/
def unrounded : Int64 := 9007199254740993

/-- It becomes its neighbour. -/
theorem long_through_text_unrounded :
    (withFuel 3).eval (.call "CLng" [.call "CStr" [.long unrounded]]) {} =
      .ok (.long 9007199254740992) {} := by
  exact ((@long_through_text unrounded "Long" "CLng" "CStr" (by decide) (by decide) (by decide)).1
    0 {} (leavesBuiltIn_empty "CLng") (leavesBuiltIn_empty "CStr")).trans rfl

end Runner

end FormBasic
