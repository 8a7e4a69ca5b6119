import FormBasic.Proofs.Heap
import FormBasic.Proofs.Machine.Quiet
import FormBasic.Proofs.Scope

/-!
# Members that are written and read

A member `owner.member` of a variable has two places: the field of the object that the variable
stands for, and the binding under the flattened key. Writing chooses by what the variable stands
for; reading looks at the flattened key first. The two go together as long as nothing stands in
front of what was written: a flattened binding in front of the field, or a local binding in front of
the flattened one. A variable that stands for a text is an alias: its members are bound under the
key that the text and the member make up.

## Main results

* `Runner.readMember_of_flattened`, `Runner.readMember_of_field` — what reading finds
* `Runner.assignField_apply` — what writing a field does
* `Runner.ReadsBack` — when a member reads back as it was written
-/

namespace FormBasic

open Interp

/-- The place of a member: a field of an object, or the flattened key that a name and the member
make up. -/
inductive MemberPlace where
  | field (r : ObjectRef)
  | flattened (name : String)

/-- The place to which a member of a variable is written, by what the variable stands for. -/
def MemberPlace.ofOwner (owner : String) : Option Value → MemberPlace
  | some (.object r) => .field r
  | some (.text name) => .flattened name
  | _ => .flattened owner

namespace Runner

variable {run : Runner} {s s' : State} {owner member : String} {v : Value}

/-! ### Reading -/

/-- A flattened binding is what reading finds first. -/
theorem readMember_of_flattened (h : s.scopes.lookup? (memberKey owner member) = some v) :
    run.readMember (.variable owner) member s = .ok v s := by
  show ((run.qualifiedMember? s owner member).getD _) s = _
  rw [qualifiedMember?, h]
  rfl

theorem readObjectMember_of_field {r : ObjectRef} (hproperty : s.propertyOf? r member = none)
    (hfield : s.heap.get? r member = some v) :
    run.readObjectMember r member s = .ok v s := by
  rw [readObjectMember, get_bind_apply, hproperty]
  dsimp only
  rw [hfield]
  rfl

/-- Without one, reading finds the field of the object that the variable stands for. -/
theorem readMember_of_field {r : ObjectRef}
    (hkey : s.scopes.lookup? (memberKey owner member) = none)
    (hdata : s.data? owner = some (.object r)) (hproperty : s.propertyOf? r member = none)
    (hfield : s.heap.get? r member = some v) :
    run.readMember (.variable owner) member s = .ok v s := by
  have hspecial : run.qualifiedMember? s owner member = none := by
    simp only [qualifiedMember?, hkey, hdata, Option.isSome_some, if_true]
  have howner : run.owner (.variable owner) s = .ok (.object r) s := by
    rw [Runner.owner, get_bind_apply, hdata]
    rfl
  show ((run.qualifiedMember? s owner member).getD _) s = _
  rw [hspecial]
  exact (bind_of_ok _ howner).trans (readObjectMember_of_field hproperty hfield)

/-! ### Writing -/

/-- A field that is neither a property nor governed by data binding is written, and nothing else but
the queue of effects changes. -/
theorem assignField_apply (run : Runner) {r : ObjectRef} (v : Value)
    (hproperty : s.propertyOf? r member = none)
    (hsource : Text.lower member ≠ "datasource") (hposition : Text.lower member ≠ "position") :
    ∃ effects, run.assignField r member v s =
      .ok () { s with heap := s.heap.set r member v, effects } := by
  have hbinding : assignBindingMember r member v s = .ok false s := by
    unfold assignBindingMember
    rw [if_neg (by simpa using hsource), if_neg (by simp [hposition])]
    rfl
  have hset : setField r member v s = .ok () { s with heap := s.heap.set r member v } := rfl
  rw [assignField, get_bind_apply, hproperty]
  dsimp only
  rw [bind_of_ok _ hbinding, if_neg Bool.false_ne_true, bind_of_ok _ hset, get_bind_apply]
  cases (s.heap.set r member v).nameOf? r <;> exact ⟨_, rfl⟩

/-- Writing a field leaves alone what a variable stands for, unless it stands for the current object
and the field has its name. -/
theorem data?_of_set {r : ObjectRef} (effects : Array Effect)
    (hself : ∀ self, s.context.self = some self → self.index = r.index →
      Text.lower owner ≠ Text.lower member) :
    State.data? { s with heap := s.heap.set r member v, effects } owner = s.data? owner := by
  have hfield : (s.context.self.bind fun self => (s.heap.set r member v).get? self owner) =
      s.context.self.bind fun self => s.heap.get? self owner := by
    cases hs : s.context.self with
    | none => rfl
    | some self =>
      rw [Option.bind_some, Option.bind_some, Heap.get?_set, if_neg]
      rintro ⟨hindex, hname⟩
      exact hself self hs hindex.symm hname.symm
  simp only [State.data?, hfield]
  rfl

/-! ### Reading back -/

/-- A member that was written to a place is read as the value that was written: from a field, if the
variable stands for the object, and unless there is a flattened binding, whose value is read then;
from a flattened key, if it is that of the variable, and unless a local scope binds it. -/
def ReadsBack (owner member : String) (v : Value) (s : State) : MemberPlace → Prop
  | .field r => s.data? owner = some (.object r) → ∀ fuel,
    (withFuel (fuel + 1)).eval (.member (.variable owner) member) s =
      .ok ((s.scopes.lookup? (memberKey owner member)).getD v) s
  | .flattened name => memberKey name member = memberKey owner member →
    s.scopes.hasLocal (memberKey owner member) = false → ∀ fuel,
    (withFuel (fuel + 1)).eval (.member (.variable owner) member) s = .ok v s

theorem readsBack_field {r : ObjectRef} (hproperty : s.propertyOf? r member = none)
    (hfield : s.heap.get? r member = some v) : ReadsBack owner member v s (.field r) := by
  intro hdata fuel
  show (withFuel fuel).readMember (.variable owner) member s = _
  cases hkey : s.scopes.lookup? (memberKey owner member) with
  | some w => exact readMember_of_flattened hkey
  | none => exact readMember_of_field hkey hdata hproperty hfield

theorem readsBack_flattened {name : String} (s : State) (effects : Array Effect) :
    ReadsBack owner member v
      { s with scopes := s.scopes.defineMember name member v, effects } (.flattened name) := by
  intro hname hlocal fuel
  have hlookup : (s.scopes.defineMember name member v).lookup? (memberKey owner member) =
      some v := by
    rw [Scopes.defineMember, hname]
    exact Scopes.lookup?_defineGlobal v hlocal
  show (withFuel fuel).readMember (.variable owner) member _ = _
  exact readMember_of_flattened hlookup

/-- What an assignment to a member of a variable does, when the variable names no built-in
facility. -/
theorem exists_of_assignMember (howner : isIntrinsicOwner owner = false)
    (h : run.assignMember (.variable owner) member v s = .ok () s') :
    ∃ found s₂, found? (run.owner (.variable owner)) s = .ok found s₂ ∧
      found.elim (assignFlattened owner member v) (run.assignMemberOf owner · member v) s₂ =
        .ok () s' := by
  have hintrinsic : intrinsicOwner? s (.variable owner) = none := by
    simp only [intrinsicOwner?, howner, Bool.and_false, Bool.false_eq_true, if_false]
  rw [assignMember, get_bind_apply, hintrinsic] at h
  obtain ⟨found, s₂, hfound, hwrite⟩ := exists_of_bind_ok h
  refine ⟨found, s₂, hfound, ?_⟩
  cases found <;> exact hwrite

/-- A member that the program assigns, or that the host sets, reads back from where it was put. If
the variable stood for an object it still does, unless this is the current object and the member has
the name of the variable. -/
theorem member_reads_back (fuel : Nat) (owner member : String)
    (howner : isIntrinsicOwner owner = false) (hsource : Text.lower member ≠ "datasource")
    (hposition : Text.lower member ≠ "position") :
    (∀ e s signal s',
      (withFuel (fuel + 1)).exec (.memberAssign (.variable owner) member e) s = .ok signal s' →
      ∃ v s₁ found s₂, (withFuel fuel).eval e s = .ok v s₁ ∧
        found? ((withFuel fuel).owner (.variable owner)) s₁ = .ok found s₂ ∧
        ((∀ r, found = some (.object r) → s₂.propertyOf? r member = none) →
          ReadsBack owner member v s' (.ofOwner owner found) ∧
          ∀ r, found = some (.object r) → s₂.data? owner = some (.object r) →
            (∀ self, s₂.context.self = some self → self.index = r.index →
              Text.lower owner ≠ Text.lower member) →
            s'.data? owner = some (.object r))) ∧
    (∀ (v : Value) (s : State),
      (∀ r, s.resolvePath owner = some r → s.propertyOf? r member = none) →
      ReadsBack owner member v (s.setProperty owner member v)
        (.ofOwner owner ((s.resolvePath owner).map .object))) := by
  refine ⟨fun e s signal s' hexec => ?_, fun v s hproperty => ?_⟩
  · obtain ⟨_, _, hrun, hend⟩ := exists_of_bind_ok hexec
    obtain ⟨v, s₁, hv, hassign⟩ := exists_of_bind_ok hrun
    cases hend
    obtain ⟨found, s₂, hfound, hwrite⟩ := exists_of_assignMember howner hassign
    refine ⟨v, s₁, found, s₂, hv, hfound, fun hproperty => ?_⟩
    have hflattened : ∀ name, assignFlattened name member v s₂ = .ok () s' →
        ReadsBack owner member v s' (.flattened name) := by
      intro name hname
      cases hname
      exact readsBack_flattened s₂ _
    cases found with
    | none => exact ⟨hflattened owner hwrite, nofun⟩
    | some o =>
      cases o with
      | object r =>
        obtain ⟨effects, hfield⟩ := assignField_apply (withFuel fuel) v
          (hproperty r rfl) hsource hposition
        cases hfield.symm.trans hwrite
        refine ⟨readsBack_field (hproperty r rfl) ?_, ?_⟩
        · simp [Heap.get?_set]
        · rintro _ ⟨⟩ hdata hself
          rw [data?_of_set effects hself]
          exact hdata
      | text name => exact ⟨hflattened name hwrite, nofun⟩
      | _ => exact ⟨hflattened owner hwrite, nofun⟩
  · unfold State.setProperty
    cases hr : s.resolvePath owner with
    | some r =>
      refine readsBack_field (hproperty r hr) ?_
      simp [Heap.get?_set]
    | none => exact readsBack_flattened s s.effects

/-- A state in which `o` is an object, with further global bindings. -/
def withObject (bindings : List (String × Binding)) : State where
  scopes := { globals := .ofList (("o", ⟨.object ⟨0, "c"⟩, false⟩) :: bindings) }
  heap := { instances := #[∅] }

theorem member_reads_back_of_object :
    (∃ s', (withFuel 2).exec (.memberAssign (.variable "o") "m" (.boolean true)) (withObject []) =
        .ok .normal s' ∧
      (withFuel 2).eval (.member (.variable "o") "m") s' = .ok (.boolean true) s') ∧
    (withFuel 2).eval (.member (.variable "o") "m")
        ((withObject []).setProperty "o" "m" (.boolean true)) =
      .ok (.boolean true) ((withObject []).setProperty "o" "m" (.boolean true)) := by
  obtain ⟨hprogram, hhost⟩ :=
    member_reads_back 1 "o" "m" (by decide) (by decide) (by decide)
  refine ⟨⟨_, rfl, ?_⟩, ?_⟩
  · obtain ⟨v, s₁, found, s₂, hv, hfound, hback⟩ :=
      hprogram (.boolean true) (withObject []) .normal _ rfl
    cases hv
    cases hfound
    exact (hback fun _ _ => rfl).1 rfl 1
  · exact hhost (.boolean true) (withObject []) (fun _ _ => rfl) rfl 1

/-- A flattened binding from the time when `o` was no object hides the field that is written. -/
theorem stale_key_hides_field :
    ¬ ∀ (fuel : Nat) (owner member : String) (e : Expr) (s s₁ s' : State) (v : Value)
      (signal : Signal), isIntrinsicOwner owner = false → Text.lower member ≠ "datasource" →
      Text.lower member ≠ "position" → (∀ r, s.propertyOf? r member = none) →
      (withFuel fuel).eval e s = .ok v s₁ →
      (withFuel (fuel + 1)).exec (.memberAssign (.variable owner) member e) s = .ok signal s' →
      (withFuel (fuel + 1)).eval (.member (.variable owner) member) s' = .ok v s' := by
  intro h
  exact nomatch h 1 "o" "m" (.boolean true) (withObject [("o.m", ⟨.nothing, false⟩)]) _ _
    (.boolean true) .normal (by decide) (by decide) (by decide) (fun _ => rfl) rfl rfl

end Runner

end FormBasic
