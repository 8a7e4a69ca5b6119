import FormBasic.Proofs.Arithmetic
import FormBasic.Proofs.Scope
import FormBasic.Proofs.Machine.Session

/-!
# Enumerations

The members of an enumeration become constants in their order. A member with an initializer is given
the whole number that its value is; a member without one counts on from the member before, and the
first one from zero. The counter is a word of 64 bits, and nothing looks at its end: a member that
follows the greatest `Long` is given the least one, where an addition of the language would fail.

## Main definitions

* `Runner.Binds`, `Runner.Enumerates` — what one member is given, and what all of them are

## Main results

* `Runner.declareMembers_eq_ok_iff` — a declaration that ends well gives every member a number
* `Runner.outcome_declareMembers_eq_error_iff` — it fails as the first of its initializers does
* `Runner.members_count_on` — which number a member is given
-/

namespace FormBasic

open Interp

/-! ### Values of members -/

/-- A number is given as an integer if it is one, and as a long otherwise. -/
theorem enumValue_of_fits {n : Int64} (h : -2 ^ 31 ≤ n.toInt ∧ n.toInt < 2 ^ 31) :
    ∃ k : Int32, enumValue n = .integer k ∧ k.toInt = n.toInt := by
  refine ⟨n.toInt32, ?_, ?_⟩
  · have hmin := Operation.minInteger_eq
    have hmax := Operation.maxInteger_eq
    rw [enumValue, if_neg]
    simp only [Bool.or_eq_true, decide_eq_true_eq]
    omega
  · rw [Int64.toInt_toInt32, Int.bmod_eq_of_le (by omega) (by omega)]

theorem enumValue_of_not_fits {n : Int64} (h : ¬ (-2 ^ 31 ≤ n.toInt ∧ n.toInt < 2 ^ 31)) :
    enumValue n = .long n := by
  have hmin := Operation.minInteger_eq
  have hmax := Operation.maxInteger_eq
  rw [enumValue, if_pos]
  simp only [Bool.or_eq_true, decide_eq_true_eq]
  omega

/-- The counter goes on by one as long as there is a greater `Long`. -/
theorem toInt_succ {p : Int64} (h : p.toInt < 2 ^ 63 - 1) : (p + 1).toInt = p.toInt + 1 := by
  have hp := p.le_toInt
  have hone : (1 : Int64).toInt = 1 := rfl
  rw [Int64.toInt_add, hone, Int.bmod_eq_of_le (by omega) (by omega)]

/-- Behind the greatest `Long` it starts again from the least one. -/
theorem toInt_succ_greatest {p : Int64} (h : p.toInt = 2 ^ 63 - 1) :
    (p + 1).toInt = -2 ^ 63 := by
  have hone : (1 : Int64).toInt = 1 := rfl
  rw [Int64.toInt_add, hone, h]
  decide

/-! ### Bindings of members -/

/-- Bind a member of an enumeration. -/
def State.bindMember (s : State) (enumName : String) (m : EnumMember) (n : Int64) : State :=
  { s with scopes := s.scopes.defineConst (memberKey enumName m.name) (enumValue n) }

theorem State.binding?_bindMember (s : State) (enumName : String) (m : EnumMember) (n : Int64)
    (key : String) :
    (s.bindMember enumName m n).scopes.binding? key =
      if Text.lower (memberKey enumName m.name) = Text.lower key then some ⟨enumValue n, true⟩
      else s.scopes.binding? key :=
  Scopes.binding?_updateCurrent _ _ _ _

namespace Runner

variable {run : Runner} {enumName : String} {m : EnumMember} {ms : List EnumMember} {next n : Int64}
  {ns : List Int64} {s t u : State}

/-- The number that an initializer gives. -/
def memberNumber (run : Runner) (e : Expr) : Interp Int64 := do
  Interp.lift (← run.eval e).asLong

/-- One member is bound, with the number that its initializer gives or else with the next one. -/
inductive Binds (run : Runner) (enumName : String) (m : EnumMember) (next : Int64) (s : State) :
    Int64 → State → Prop where
  | given {e : Expr} {n : Int64} {u : State} (hvalue : m.value = some e)
    (hnumber : run.memberNumber e s = .ok n u) :
    Binds run enumName m next s n (u.bindMember enumName m n)
  | next (hvalue : m.value = none) : Binds run enumName m next s next (s.bindMember enumName m next)

/-- The members of a list are bound one after the other, each next number being one more than the
number of the member before. -/
inductive Enumerates (run : Runner) (enumName : String) :
    (next : Int64) → List EnumMember → State → List Int64 → State → Prop where
  | nil {next : Int64} {s : State} : Enumerates run enumName next [] s [] s
  | cons {next n : Int64} {m : EnumMember} {ms : List EnumMember} {ns : List Int64}
    {s u t : State} (hm : run.Binds enumName m next s n u)
    (hms : Enumerates run enumName (n + 1) ms u ns t) :
    Enumerates run enumName next (m :: ms) s (n :: ns) t

/-! ### Declaring members -/

theorem declareMembers_given {e : Expr} (h : m.value = some e) :
    run.declareMembers enumName next (m :: ms) s =
      (do let n ← run.memberNumber e
          updateScopes (·.defineConst (memberKey enumName m.name) (enumValue n))
          run.declareMembers enumName (n + 1) ms) s := by
  rw [declareMembers, h, memberNumber, bind_assoc]

theorem declareMembers_next (h : m.value = none) :
    run.declareMembers enumName next (m :: ms) s =
      run.declareMembers enumName (next + 1) ms (s.bindMember enumName m next) := by
  rw [declareMembers, h]
  rfl

theorem declareMembers_of_binds (h : run.Binds enumName m next s n u) :
    run.declareMembers enumName next (m :: ms) s =
      run.declareMembers enumName (n + 1) ms u := by
  cases h with
  | given hvalue hnumber => exact (declareMembers_given hvalue).trans (bind_of_ok _ hnumber)
  | next hvalue => exact declareMembers_next hvalue

/-- A member is bound unless its initializer fails. -/
theorem binds_or_fails (run : Runner) (enumName : String) (m : EnumMember) (next : Int64)
    (s : State) :
    (∃ n u, run.Binds enumName m next s n u) ∨
      ∃ x e u, m.value = some x ∧ run.memberNumber x s = .error e u := by
  cases hvalue : m.value with
  | none => exact .inl ⟨next, _, .next hvalue⟩
  | some x =>
    cases hnumber : run.memberNumber x s with
    | ok n u => exact .inl ⟨n, _, .given hvalue hnumber⟩
    | error e u => exact .inr ⟨x, e, u, rfl, hnumber⟩

theorem declareMembers_of_fails {x : Expr} {e : Halt} (hvalue : m.value = some x)
    (h : run.memberNumber x s = .error e u) :
    run.declareMembers enumName next (m :: ms) s = .error e u :=
  (declareMembers_given hvalue).trans (bind_of_error _ h)

/-- A declaration that ends well gives every member a number. -/
theorem declareMembers_eq_ok_iff :
    run.declareMembers enumName next ms s = .ok () t ↔
      ∃ ns, run.Enumerates enumName next ms s ns t := by
  induction ms generalizing next s with
  | nil =>
    constructor
    · rintro ⟨⟩
      exact ⟨[], .nil⟩
    · rintro ⟨ns, ⟨⟩⟩
      rfl
  | cons m ms ih =>
    constructor
    · intro h
      obtain ⟨n, u, hm⟩ | ⟨x, e, u, hvalue, hfails⟩ := binds_or_fails run enumName m next s
      · rw [declareMembers_of_binds hm] at h
        obtain ⟨ns, hms⟩ := ih.1 h
        exact ⟨n :: ns, .cons hm hms⟩
      · rw [declareMembers_of_fails hvalue hfails] at h
        cases h
    · rintro ⟨ns, h⟩
      cases h with
      | cons hm hms => exact (declareMembers_of_binds hm).trans (ih.2 ⟨_, hms⟩)

/-- The number that follows a list of numbers. -/
def numberAfter (next : Int64) (ns : List Int64) : Int64 := (ns.getLast?.map (· + 1)).getD next

theorem numberAfter_cons (next n : Int64) (ns : List Int64) :
    numberAfter next (n :: ns) = numberAfter (n + 1) ns := by
  rw [numberAfter, numberAfter, List.getLast?_cons]
  cases ns.getLast? <;> rfl

/-- After the members in front the declaration goes on with the number that follows theirs. -/
theorem declareMembers_append (h : run.Enumerates enumName next ms s ns u)
    (rest : List EnumMember) :
    run.declareMembers enumName next (ms ++ rest) s =
      run.declareMembers enumName (numberAfter next ns) rest u := by
  induction h with
  | nil => rfl
  | cons hm _ ih => rw [numberAfter_cons, ← ih, List.cons_append, declareMembers_of_binds hm]

/-- A declaration fails as the first of its initializers does. -/
theorem outcome_declareMembers_eq_error_iff {e : Halt} :
    (run.declareMembers enumName next ms).outcome s = .error e ↔
      ∃ before m after ns u x, ms = before ++ m :: after ∧
        run.Enumerates enumName next before s ns u ∧ m.value = some x ∧
        (run.memberNumber x).outcome u = .error e := by
  constructor
  · intro h
    induction ms generalizing next s with
    | nil => cases h
    | cons m ms ih =>
      obtain ⟨n, u, hm⟩ | ⟨x, e', u, hvalue, hfails⟩ := binds_or_fails run enumName m next s
      · rw [outcome, declareMembers_of_binds hm] at h
        obtain ⟨before, m', after, ns, v, x, rfl, hbefore, hvalue, hx⟩ := ih h
        exact ⟨m :: before, m', after, n :: ns, v, x, rfl, .cons hm hbefore, hvalue, hx⟩
      · rw [outcome_of_error (declareMembers_of_fails hvalue hfails)] at h
        cases h
        exact ⟨[], m, ms, [], s, x, rfl, .nil, hvalue, outcome_of_error hfails⟩
  · rintro ⟨before, m, after, ns, u, x, rfl, hbefore, hvalue, hx⟩
    exact outcome_of_error ((declareMembers_append hbefore _).trans
      (declareMembers_of_fails hvalue (outcome_eq_error.1 hx)))

/-! ### One member among others -/

namespace Enumerates

/-- A member among others is bound after those in front of it and before those behind it. -/
theorem split {before after : List EnumMember}
    (h : run.Enumerates enumName next (before ++ m :: after) s ns t) :
    ∃ ns₁ n ns₂ u v, ns = ns₁ ++ n :: ns₂ ∧ ns₁.length = before.length ∧
      run.Enumerates enumName next before s ns₁ u ∧
      run.Binds enumName m (numberAfter next ns₁) u n v ∧
      run.Enumerates enumName (n + 1) after v ns₂ t := by
  induction before generalizing next s ns with
  | nil =>
    cases h with
    | cons hm hms => exact ⟨[], _, _, s, _, rfl, rfl, .nil, hm, hms⟩
  | cons m' before ih =>
    cases h with
    | cons hm' hms =>
      obtain ⟨ns₁, n, ns₂, u, v, rfl, hlength, hbefore, hm, hafter⟩ := ih hms
      refine ⟨_ :: ns₁, n, ns₂, u, v, rfl, congrArg (· + 1) hlength, .cons hm' hbefore, ?_, hafter⟩
      rwa [numberAfter_cons]

theorem append {ms' : List EnumMember} {ns' : List Int64}
    (h : run.Enumerates enumName next ms s ns u)
    (h' : run.Enumerates enumName (numberAfter next ns) ms' u ns' t) :
    run.Enumerates enumName next (ms ++ ms') s (ns ++ ns') t := by
  induction h with
  | nil => exact h'
  | cons hm _ ih =>
    rw [numberAfter_cons] at h'
    exact .cons hm (ih h')

/-- What is bound stays so while no member of the same key is bound and no initializer changes
it. -/
theorem binding? {key : String} (h : run.Enumerates enumName next ms s ns t)
    (hkeys : ∀ m ∈ ms, Text.lower (memberKey enumName m.name) ≠ Text.lower key)
    (hvalues : ∀ m ∈ ms, ∀ x, m.value = some x → ∀ u n v, run.memberNumber x u = .ok n v →
      v.scopes.binding? key = u.scopes.binding? key) :
    t.scopes.binding? key = s.scopes.binding? key := by
  induction h with
  | nil => rfl
  | @cons next n m ms ns s u t hm _ ih =>
    have hu : u.scopes.binding? key = s.scopes.binding? key := by
      cases hm with
      | given hvalue hnumber =>
        rw [State.binding?_bindMember, if_neg (hkeys m List.mem_cons_self)]
        exact hvalues m List.mem_cons_self _ hvalue _ _ _ hnumber
      | next => rw [State.binding?_bindMember, if_neg (hkeys m List.mem_cons_self)]
    rw [← hu]
    exact ih (fun m hm => hkeys m (List.mem_cons_of_mem _ hm))
      fun m hm => hvalues m (List.mem_cons_of_mem _ hm)

end Enumerates

theorem Binds.binding? (h : run.Binds enumName m next s n t) :
    t.scopes.binding? (memberKey enumName m.name) = some ⟨enumValue n, true⟩ := by
  cases h <;> rw [State.binding?_bindMember, if_pos rfl]

/-- Which number a member of an enumeration is given. A declaration ends well exactly if every
member is bound in its turn, and otherwise it fails as the first initializer does that has no whole
number for a value. A member is bound as a constant in the state that the members in front of it
leave behind: with an initializer it is given the number of this, and without one it is given zero
if it is the first member, one more than the member before if this is not the greatest `Long`, and
the least `Long` if it is. The constant is an integer if the number is one and else a long, and it
is still there at the end unless a later member has the same key or a later initializer changes
it. -/
theorem members_count_on (fuel : Nat) (moduleName enumName : String) (ms : List EnumMember)
    (s : State) :
    (∀ t, (withFuel fuel).declare moduleName (.enum enumName ms) s = .ok () t ↔
      ∃ ns, (withFuel fuel).Enumerates enumName 0 ms s ns t) ∧
    (∀ e, ((withFuel fuel).declare moduleName (.enum enumName ms)).outcome s = .error e ↔
      ∃ before m after ns u x, ms = before ++ m :: after ∧
        (withFuel fuel).Enumerates enumName 0 before s ns u ∧ m.value = some x ∧
        ((withFuel fuel).memberNumber x).outcome u = .error e) ∧
    ∀ ns t before m after, ms = before ++ m :: after →
      (withFuel fuel).Enumerates enumName 0 ms s ns t →
      ∃ ns₁ n ns₂ u v, ns = ns₁ ++ n :: ns₂ ∧ ns₁.length = before.length ∧
        (withFuel fuel).Enumerates enumName 0 before s ns₁ u ∧
        (withFuel fuel).Enumerates enumName 0 (before ++ [m]) s (ns₁ ++ [n]) v ∧
        (∀ x, m.value = some x → ∃ w, (withFuel fuel).memberNumber x u = .ok n w) ∧
        (m.value = none → before = [] ∧ n = 0 ∨ ∃ p, ns₁.getLast? = some p ∧
          (p.toInt < 2 ^ 63 - 1 → n.toInt = p.toInt + 1) ∧
          (p.toInt = 2 ^ 63 - 1 → n.toInt = -2 ^ 63)) ∧
        (-2 ^ 31 ≤ n.toInt ∧ n.toInt < 2 ^ 31 →
          ∃ k : Int32, enumValue n = .integer k ∧ k.toInt = n.toInt) ∧
        (¬ (-2 ^ 31 ≤ n.toInt ∧ n.toInt < 2 ^ 31) → enumValue n = .long n) ∧
        v.scopes.binding? (memberKey enumName m.name) = some ⟨enumValue n, true⟩ ∧
        ((∀ m' ∈ after,
            Text.lower (memberKey enumName m'.name) ≠ Text.lower (memberKey enumName m.name)) →
          (∀ m' ∈ after, ∀ x, m'.value = some x → ∀ w k w',
            (withFuel fuel).memberNumber x w = .ok k w' →
              w'.scopes.binding? (memberKey enumName m.name) =
                w.scopes.binding? (memberKey enumName m.name)) →
          t.scopes.binding? (memberKey enumName m.name) = some ⟨enumValue n, true⟩) := by
  refine ⟨fun t => declareMembers_eq_ok_iff, fun e => outcome_declareMembers_eq_error_iff, ?_⟩
  rintro ns t before m after rfl h
  obtain ⟨ns₁, n, ns₂, u, v, hns, hlength, hbefore, hm, hafter⟩ := h.split
  refine ⟨ns₁, n, ns₂, u, v, hns, hlength, hbefore, hbefore.append (.cons hm .nil),
    fun x hvalue => ?_, fun hnone => ?_, enumValue_of_fits, enumValue_of_not_fits, hm.binding?,
    fun hkeys hvalues => ?_⟩
  · cases hm with
    | given hvalue' hnumber =>
      cases hvalue'.symm.trans hvalue
      exact ⟨_, hnumber⟩
    | next hnone => cases hnone.symm.trans hvalue
  · cases hm with
    | given hvalue _ => cases hnone.symm.trans hvalue
    | next _ =>
      cases hlast : ns₁.getLast? with
      | none =>
        rw [List.getLast?_eq_none_iff.1 hlast] at hlength ⊢
        exact .inl ⟨List.length_eq_zero_iff.1 hlength.symm, rfl⟩
      | some p =>
        have hnumber : numberAfter 0 ns₁ = p + 1 := by rw [numberAfter, hlast]; rfl
        rw [hnumber]
        exact .inr ⟨p, rfl, toInt_succ, toInt_succ_greatest⟩
  · rw [hafter.binding? hkeys hvalues, hm.binding?]

/-- An enumeration whose second member follows the greatest `Long`. -/
def bigNumbers : List EnumMember :=
  [⟨"Most", some (.long 9223372036854775807)⟩, ⟨"Beyond", none⟩]

/-- Its second member is given the least `Long`. -/
theorem members_count_on_bigNumbers :
    ∃ t, (withFuel 1).declare "" (.enum "Big" bigNumbers) {} = .ok () t ∧
      t.scopes.binding? "big.beyond" = some ⟨.long (-9223372036854775808), true⟩ := by
  obtain ⟨hok, -, hmember⟩ := members_count_on 1 "" "Big" bigNumbers {}
  have hrun : (withFuel 1).Enumerates "Big" 0 bigNumbers {} _ _ :=
    .cons (.given rfl rfl) (.cons (.next rfl) .nil)
  obtain ⟨ns₁, n, ns₂, u, v, hns, hlength, -, -, -, hnext, -, hlong, -, hend⟩ :=
    hmember _ _ [_] _ [] rfl hrun
  obtain ⟨p, rfl⟩ := List.length_eq_one_iff.1 hlength
  cases hns
  obtain ⟨hempty, -⟩ | ⟨_, ⟨⟩, -, hleast⟩ := hnext rfl
  · cases hempty
  · have hn := hleast (by decide)
    have hkey : memberKey "Big" "Beyond" = "big.beyond" := by decide
    have hbound := hend nofun nofun
    rw [hlong (by omega), hkey] at hbound
    exact ⟨_, (hok _).2 ⟨_, hrun⟩, hbound⟩

end Runner

end FormBasic
