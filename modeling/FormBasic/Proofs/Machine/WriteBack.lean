import FormBasic.Proofs.Machine.Assignment
import FormBasic.Proofs.Machine.CallerBindings

/-!
# What a call hands back to its caller

After a call, the final values of its by-reference parameters are assigned to the variables that
were passed, one position after the other. A variable that is passed twice keeps what is assigned
last, and whether two names are the same variable is a matter of their places.

Each assignment is made in a state which nothing is known about: the body of the call may have done
anything to the variables of its caller, and an argument may be the name of a property, whose
accessor may do so too. What carries the argument is that the names which stood for data before the
call still do (`State.Retains`). So a variable that is handed back is written to, and later
assignments to data leave it alone unless they go to its place. An accessor need not leave it alone:
that it does has to be supposed.

## Main definitions

* `Runner.HandsBack` — what is handed back at a position
* `Runner.Spares` — when a later position leaves a variable alone

## Main results

* `Runner.writeBack_take_succ` — the write-back, position by position
* `Runner.data?_writeBack` — what a variable stands for from its position on
* `Runner.by_reference_final_reads_back` — what it evaluates to after the call
-/

namespace FormBasic

open Interp

section
variable {α : Type} {s t u : State} {c : Callable} {self : Option ObjectRef}
  {classContext : String}

/-! ### The body of a call -/

/-- The state in which the body of a call starts. -/
def Callable.entered (c : Callable) (self : Option ObjectRef) (classContext : String)
    (s : State) : State :=
  { s with context := c.enter self classContext s.context, scopes := s.scopes.push }

/-- The state that is left of the one in which the body of a call ended. -/
def State.leaving (s u : State) : State := { u with context := s.context, scopes := u.scopes.pop }

/-- What the parameters of a callable are bound to. -/
def Callable.finals (c : Callable) (u : State) : List Value :=
  c.parameters.map fun p => (u.scopes.lookup? p.name).getD .absent

/-- A call that succeeds gives the context back that it found, since its body does. -/
theorem Interp.exists_of_inCall_ok {x : Interp α} {a : α}
    (hcontext : ∀ s : State, (x.after s).context = s.context)
    (h : inCall c self classContext x s = .ok a t) :
    ∃ u, x (c.entered self classContext s) = .ok a u ∧ t = s.leaving u := by
  rw [inCall_apply] at h
  split at h
  · cases h
  · obtain ⟨u', hscope, rfl⟩ := exists_of_inContext_ok h
    unfold inScope onFailure at hscope
    have hafter := hcontext (c.entered self classContext s)
    cases hx : x (c.entered self classContext s) with
    | ok b u =>
      rw [after_of_ok hx] at hafter
      rw [Callable.entered] at hx
      dsimp only [Callable.detour] at hscope
      rw [hx] at hscope
      cases hscope
      refine ⟨u, rfl, ?_⟩
      rw [hafter, State.leaving]
      rfl
    | error e u =>
      rw [Callable.entered] at hx
      dsimp only [Callable.detour] at hscope
      rw [hx] at hscope
      cases e <;> cases hscope

namespace Runner

variable {run : Runner}

theorem finals_of_runBody {args finals : List Value} {result : Value}
    (h : run.runBody c args s = .ok (result, finals) u) : finals = c.finals u := by
  have hrest : ∀ s : State, ((run.block c.body >>= fun signal => resultOf c signal >>= fun result =>
      get >>= fun s => pure (result, c.finals s)) : Interp _) s = .ok (result, finals) u →
      finals = c.finals u := by
    intro s h
    obtain ⟨_, _, -, h⟩ := exists_of_bind_ok h
    obtain ⟨_, _, -, h⟩ := exists_of_bind_ok h
    cases h
    rfl
  obtain ⟨_, _, -, h⟩ := exists_of_bind_ok h
  dsimp only at h
  split at h
  · obtain ⟨_, _, -, h⟩ := exists_of_bind_ok h
    exact hrest _ h
  · exact hrest _ h

/-! ### Position by position -/

/-- At a position of a call, a variable was passed by reference to a parameter that ends with a
proper value. -/
structure HandsBack (c : Callable) (es : List Expr) (u : State) (i : Nat) (name : String)
    (v : Value) : Prop where
  passed : ∃ p e, c.parameters[i]? = some p ∧ es[i]? = some e ∧ byRefName? p e = some name ∧
    u.scopes.lookup? p.name = some v
  proper : v.isProper = true

/-- The write-back of one position. -/
def writeBackAt (run : Runner) (ps : List Parameter) (vs : List Value) (es : List Expr) (i : Nat) :
    Interp Unit :=
  match ps[i]?, vs[i]?, es[i]? with
  | some p, some v, some e => run.writeBackTo p v e
  | _, _, _ => return

theorem writeBack_nil_values (run : Runner) (ps : List Parameter) (es : List Expr) :
    run.writeBack ps [] es = pure () := by
  cases ps <;> rfl

theorem writeBack_nil_arguments (run : Runner) (ps : List Parameter) (vs : List Value) :
    run.writeBack ps vs [] = pure () := by
  cases ps <;> cases vs <;> rfl

/-- The write-back goes on with one position after the other. -/
theorem writeBack_take_succ (run : Runner) (ps : List Parameter) (vs : List Value)
    (es : List Expr) (i : Nat) :
    run.writeBack (ps.take (i + 1)) vs es =
      (run.writeBack (ps.take i) vs es >>= fun _ => run.writeBackAt ps vs es i) := by
  induction ps generalizing vs es i with
  | nil => simp [writeBack, writeBackAt]
  | cons p ps ih =>
    cases vs with
    | nil => simp [writeBack_nil_values, writeBackAt]
    | cons v vs =>
      cases es with
      | nil => simp [writeBack_nil_arguments, writeBackAt]
      | cons e es =>
        cases i with
        | zero => simp [writeBack, writeBackAt]
        | succ i =>
          rw [List.take_succ_cons, List.take_succ_cons, writeBack, writeBack, ih, bind_assoc]
          rfl

theorem writeBackTo_eq (p : Parameter) (v : Value) (e : Expr) :
    run.writeBackTo p v e =
      match (byRefName? p e).filter fun _ => v.isProper with
      | some name => run.assignOr name v (return ())
      | none => return := by
  unfold writeBackTo byRefName?
  cases e with
  | «variable» name =>
    dsimp only
    cases p.byRef <;> cases p.paramArray <;> cases v.isProper <;> rfl
  | _ => rfl

variable {es : List Expr} {i : Nat} {name : String} {v : Value}

/-- A position at which a variable is handed back is an assignment to it. -/
theorem writeBackAt_of_handsBack (h : HandsBack c es u i name v) :
    run.writeBackAt c.parameters (c.finals u) es i = run.assignOr name v (return ()) := by
  obtain ⟨p, e, hp, he, hname, hv⟩ := h.passed
  have hfinal : (c.finals u)[i]? = some v := by
    rw [Callable.finals, List.getElem?_map, hp, Option.map_some, hv, Option.getD_some]
  rw [writeBackAt, hp, hfinal, he]
  dsimp only
  rw [writeBackTo_eq, hname, Option.filter_some, if_pos h.proper]

/-- Nothing happens at the other positions. -/
theorem writeBackAt_cases (run : Runner) (c : Callable) (es : List Expr) (u : State) (i : Nat) :
    run.writeBackAt c.parameters (c.finals u) es i = pure () ∨
      ∃ name v, HandsBack c es u i name v := by
  unfold writeBackAt
  split
  · next p v e hp hv he =>
    rw [writeBackTo_eq]
    split
    · next name hfilter =>
      obtain ⟨hname, hproper⟩ := Option.filter_eq_some_iff.1 hfilter
      rw [Callable.finals, List.getElem?_map, hp, Option.map_some, Option.some_inj] at hv
      cases hlookup : u.scopes.lookup? p.name with
      | none =>
        rw [hlookup] at hv
        cases hv
        cases hproper
      | some w =>
        rw [hlookup] at hv
        cases hv
        exact .inr ⟨name, _, ⟨p, e, hp, he, hname, hlookup⟩, hproper⟩
    · exact .inl rfl
  · exact .inl rfl

/-! ### What comes after a position -/

/-- A name that something is handed back to leaves another one alone: an accessor has to do so, and
anything else is kept in another place. -/
def Spares (run : Runner) (name other : String) (w : Value) (s : State) : Prop :=
  if (s.target other).isProperty then
    ∀ t, run.assignOr other w (return ()) s = .ok () t → t.data? name = s.data? name
  else s.place? other ≠ s.place? name

theorem data?_of_spares {fuel : Nat} {other : String} {w : Value}
    (hspares : (withFuel (fuel + 1)).Spares name other w s)
    (h : (withFuel (fuel + 1)).assignOr other w (return ()) s = .ok () t) :
    t.data? name = s.data? name := by
  unfold Spares at hspares
  split at hspares
  · exact hspares t h
  · next hproperty =>
    have hproperty := Bool.eq_false_iff.2 hproperty
    cases hplace : s.place? other with
    | none =>
      rw [assignOr_of_nothing hproperty hplace] at h
      cases h
      rfl
    | some p =>
      have hwrites := writes_assignOr (State.unhidden_of_target hproperty) hplace h
      refine hwrites.data?_of_ne (State.isSome_kept?_of_place? hplace) fun hname => ?_
      exact hspares (hplace.trans hname.symm)

/-- The write-back retains what the call has left. -/
theorem retains_writeBack {fuel : Nat} {ps : List Parameter} {vs : List Value}
    (h : (withFuel fuel).writeBack ps vs es s = .ok () t) : s.Retains t :=
  .of_ok ((related_retention fuel).on.writeBack ps vs fun _ _ => retentionRelation_forgives) h

/-- From its position on, a variable that is handed back stands for the final value, unless it is
not spared by a later position. -/
theorem data?_writeBack {fuel : Nat} (hpass : HandsBack c es u i name v) (hname : s.Unhidden name)
    (hplace : (s.place? name).isSome = true)
    (hspared : ∀ j other w t, i < j → HandsBack c es u j other w →
      (withFuel (fuel + 1)).writeBack (c.parameters.take j) (c.finals u) es s = .ok () t →
      (withFuel (fuel + 1)).Spares name other w t)
    {k : Nat} (hk : i < k)
    (h : (withFuel (fuel + 1)).writeBack (c.parameters.take k) (c.finals u) es s = .ok () t) :
    t.data? name = some v := by
  -- the induction is on how far the write-back has come, starting behind the position itself
  induction hk generalizing t with
  | refl =>
    rw [writeBack_take_succ, writeBackAt_of_handsBack hpass] at h
    obtain ⟨⟨⟩, r, hbefore, hassign⟩ := exists_of_bind_ok h
    have hretains := retains_writeBack hbefore
    obtain ⟨p, hp⟩ := Option.isSome_iff_exists.1 (hretains.isSome_place? hplace)
    have hwrites := writes_assignOr (hretains.unhidden hname) hp hassign
    exact hwrites.data?_self (hwrites.place?_self hp)
  | @step k hk ih =>
    rw [writeBack_take_succ] at h
    obtain ⟨⟨⟩, r, hbefore, hat⟩ := exists_of_bind_ok h
    rcases writeBackAt_cases (withFuel (fuel + 1)) c es u k with hnothing | ⟨other, w, hother⟩
    · rw [hnothing] at hat
      cases hat
      exact ih hbefore
    · rw [writeBackAt_of_handsBack hother] at hat
      exact (data?_of_spares (hspared k other w r hk hother hbefore) hat).trans (ih hbefore)

/-! ### Calls -/

theorem writeBack_cons_of_ok {run : Runner} {p : Parameter} {e : Expr} {r : State}
    (h : run.writeBackTo p v e s = .ok () r) (ps : List Parameter) (vs : List Value)
    (es : List Expr) : run.writeBack (p :: ps) (v :: vs) (e :: es) s = run.writeBack ps vs es r :=
  bind_of_ok _ h

theorem callWith_of_ok {args finals : List Value} {result : Value} {s₁ s₂ : State}
    (hargs : run.arguments es s = .ok args s₁)
    (hinvoke : run.invoke c self classContext args s₁ = .ok (result, finals) s₂)
    (hback : run.writeBack c.parameters finals es s₂ = .ok () t) :
    run.callWith c self classContext es s = .ok result t := by
  rw [callWith, bind_of_ok _ hargs, invokeOn, bind_of_ok _ hinvoke]
  exact bind_of_ok _ hback

/-- After a call, a variable that was passed by reference evaluates to the final value of its
parameter, unless it is not spared by a later position. -/
theorem by_reference_final_reads_back (fuel : Nat) {result : Value}
    (h : (withFuel (fuel + 1)).callWith c self classContext es s = .ok result t) :
    ∃ args s₁ u, (withFuel (fuel + 1)).arguments es s = .ok args s₁ ∧
      (withFuel fuel).runBody c args (c.entered self classContext s₁) =
        .ok (result, c.finals u) u ∧
      ∀ i name v, HandsBack c es u i name v → s.Unhidden name → (s.data? name).isSome = true →
        (∀ j other w t, i < j → HandsBack c es u j other w →
          (withFuel (fuel + 1)).writeBack (c.parameters.take j) (c.finals u) es (s₁.leaving u) =
            .ok () t →
          (withFuel (fuel + 1)).Spares name other w t) →
        ∀ n, (withFuel (n + 1)).eval (.variable name) t = .ok v t := by
  obtain ⟨args, s₁, hargs, h⟩ := exists_of_bind_ok h
  obtain ⟨⟨_, finals⟩, s₂, hinvoke, h⟩ := exists_of_bind_ok h
  obtain ⟨⟨⟩, _, hback, h⟩ := exists_of_bind_ok h
  cases h
  obtain ⟨u, hbody, rfl⟩ := exists_of_inCall_ok
    (fun s => ((related_retention fuel).runBody c args s).context) hinvoke
  have hfinals := finals_of_runBody hbody
  subst hfinals
  refine ⟨args, s₁, u, hargs, hbody, fun i name v hpass hname hdata hspared n => ?_⟩
  have hcall : s.Retains (s₁.leaving u) :=
    (State.Retains.of_ok ((related_retention _).on.arguments fun _ _ => trivial) hargs).trans
      (.call (.of_ok ((related_retention fuel).runBody c args) hbody))
  have hplace := hcall.isSome_place? ((State.isSome_data? s name).symm.trans hdata)
  have hi : i < c.parameters.length := by
    obtain ⟨p, -, hp, -⟩ := hpass.passed
    exact (List.getElem?_eq_some_iff.1 hp).1
  have hread := data?_writeBack hpass (hcall.unhidden hname) hplace hspared hi
    (by rw [List.take_length]; exact hback)
  exact readName_of_data? ((hcall.trans (retains_writeBack hback)).unhidden hname) hread

/-- A callable that assigns to both of its by-reference parameters. -/
def assigningBoth : Callable :=
  ⟨"both", [{ name := "a", byRef := true }, { name := "b", byRef := true }],
    [.assign "a" (.text "first"), .assign "b" (.text "second")], false, "", ""⟩

/-- The state at the end of its body, called from outside procedures. -/
def bothAssigned (s : State) : State :=
  { s with
    context := assigningBoth.enter none "" s.context
    scopes := { s.scopes with locals := [⟨
      [("a", ⟨.text "first", false⟩), ("b", ⟨.text "second", false⟩)]⟩] } }

theorem handsBack_bothAssigned (s : State) (name other : String) :
    HandsBack assigningBoth [.variable name, .variable other] (bothAssigned s) 0 name
      (.text "first") :=
  ⟨⟨{ name := "a", byRef := true }, .variable name, rfl, rfl, rfl, rfl⟩, rfl⟩

/-- A state with global variables. -/
def withGlobals (entries : List (String × Binding)) : State :=
  { scopes := { globals := ⟨entries⟩ } }

/-- Two variables are handed back, and the second one spares the first. -/
theorem by_reference_final_reads_back_both :
    ∃ s t, (withFuel 4).callWith assigningBoth none "" [.variable "x", .variable "y"] s =
        .ok .nothing t ∧
      ∀ n, (withFuel (n + 1)).eval (.variable "x") t = .ok (.text "first") t := by
  let s := withGlobals [("x", ⟨.nothing, false⟩), ("y", ⟨.nothing, false⟩)]
  let r := withGlobals [("x", ⟨.text "first", false⟩), ("y", ⟨.nothing, false⟩)]
  let t := withGlobals [("x", ⟨.text "first", false⟩), ("y", ⟨.text "second", false⟩)]
  have hargs : (withFuel 4).arguments [.variable "x", .variable "y"] s =
      .ok [.nothing, .nothing] s := rfl
  have hinvoke : (withFuel 4).invoke assigningBoth none "" [.nothing, .nothing] s =
      .ok (.nothing, [.text "first", .text "second"]) s := rfl
  have hx : (withFuel 4).writeBackTo { name := "a", byRef := true } (.text "first") (.variable "x")
      s = .ok () r := rfl
  have hy : (withFuel 4).writeBackTo { name := "b", byRef := true } (.text "second") (.variable "y")
      r = .ok () t := rfl
  have hrun := callWith_of_ok hargs hinvoke
    ((writeBack_cons_of_ok hx _ _ _).trans (writeBack_cons_of_ok hy _ _ _))
  obtain ⟨args, s₁, u, hargs', hbody', hread⟩ := by_reference_final_reads_back 3 hrun
  cases hargs.symm.trans hargs'
  have hbody : (withFuel 3).runBody assigningBoth [.nothing, .nothing]
      (assigningBoth.entered none "" s) =
      .ok (.nothing, [.text "first", .text "second"]) (bothAssigned s) := rfl
  obtain ⟨-, rfl⟩ := EStateM.Result.ok.inj (hbody.symm.trans hbody')
  refine ⟨s, t, hrun, hread 0 "x" _ (handsBack_bothAssigned s "x" "y") (.inr rfl) rfl ?_⟩
  rintro j other w r' hj ⟨⟨p, e, hp, he, hname, -⟩, -⟩ hbefore
  obtain _ | _ | j := j
  · cases hj
  · cases hp
    cases he
    cases hname
    cases ((writeBack_cons_of_ok hx _ _ _).trans rfl).symm.trans hbefore
    show Option.some (Place.globalKey "y") ≠ some (.globalKey "x")
    decide
  · cases hp

/-- A property whose accessor assigns to a global variable. -/
def overwriting : Table PropertyDecl :=
  ⟨[("p", {
    name := "P", typeName := "", parameters := [], getter := some [], setterParam := none,
    setter := some [.assign "x" (.text "third")], readOnly := false })]⟩

/-- Its accessor has the last word about the variable, though the variable is passed only once. -/
theorem accessor_overwrites_final :
    ¬ ∀ (fuel : Nat) (c : Callable) (self : Option ObjectRef) (classContext : String)
      (es : List Expr) (s s₁ u t : State) (result : Value) (args : List Value),
      (withFuel (fuel + 1)).callWith c self classContext es s = .ok result t →
      (withFuel (fuel + 1)).arguments es s = .ok args s₁ →
      (withFuel fuel).runBody c args (c.entered self classContext s₁) =
        .ok (result, c.finals u) u →
      ∀ i name v, HandsBack c es u i name v →
        (∀ k ≤ i, ∀ p, c.parameters[k]? = some p → p.paramArray = false) →
        s.Unhidden name → (∃ p b, s.place? name = some p ∧ s.kept? p = some b ∧ b.isConst = false) →
        (∀ j other w, j ≠ i → HandsBack c es u j other w → s.place? other ≠ s.place? name) →
        ∀ n, (withFuel (n + 1)).eval (.variable name) t = .ok v t := by
  intro h
  let s : State := { withGlobals [("x", ⟨.nothing, false⟩)] with properties := overwriting }
  let r : State := { withGlobals [("x", ⟨.text "first", false⟩)] with properties := overwriting }
  let t : State := { withGlobals [("x", ⟨.text "third", false⟩)] with properties := overwriting }
  have hargs : (withFuel 4).arguments [.variable "x", .variable "P"] s =
      .ok [.nothing, .nothing] s := rfl
  have hinvoke : (withFuel 4).invoke assigningBoth none "" [.nothing, .nothing] s =
      .ok (.nothing, [.text "first", .text "second"]) s := rfl
  have hx : (withFuel 4).writeBackTo { name := "a", byRef := true } (.text "first") (.variable "x")
      s = .ok () r := rfl
  have hP : (withFuel 4).writeBackTo { name := "b", byRef := true } (.text "second") (.variable "P")
      r = .ok () t := rfl
  have hrun := callWith_of_ok hargs hinvoke
    ((writeBack_cons_of_ok hx _ _ _).trans (writeBack_cons_of_ok hP _ _ _))
  have hplace : ∃ p b, s.place? "x" = some p ∧ s.kept? p = some b ∧ b.isConst = false :=
    ⟨.globalKey "x", _, rfl, rfl, rfl⟩
  have hread := h 3 assigningBoth none "" _ s s (bothAssigned s) t .nothing _ hrun hargs rfl 0 "x"
    (.text "first") (handsBack_bothAssigned s "x" "P") ?_ (.inr rfl) hplace ?_ 0
  · have hthird : (withFuel 1).eval (.variable "x") t = .ok (.text "third") t := rfl
    have hvalue := (EStateM.Result.ok.inj (hthird.symm.trans hread)).1
    exact absurd (Value.text.inj hvalue) (by decide)
  · rintro k hk p hp
    cases Nat.le_zero.1 hk
    cases hp
    rfl
  · rintro j other w hj ⟨⟨p, e, hp, he, hname, -⟩, -⟩
    obtain _ | _ | j := j
    · exact absurd rfl hj
    · cases hp
      cases he
      cases hname
      show (Option.none : Option Place) ≠ some (.globalKey "x")
      exact nofun
    · cases hp

end Runner

end

end FormBasic
