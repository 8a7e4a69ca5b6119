import FormBasic.Proofs.Inheritance
import FormBasic.Proofs.Machine.Place

/-!
# Methods and calls of the base class

A method that is called on an object is looked for along the chain of the class of the object, and
`MyBase.m(…)` looks along the chain of the base of the class whose method is running. Which class
this is cannot be told from the object: it is a part of the context, set by each call from where the
method was found, and by the fields of a new instance for the class that declares them.

So a call of the base class finds the right method if the context is the right one wherever it is
made. The context of a call is at its *site*: in the body of the method, or in the fields of an
instance that is being built, where only parts of their initial values are evaluated. While the
body of a method runs, requests are made at many levels; those with one more active procedure than
at the call are made in the body itself or in such fields, and all others in the calls that these
lead to. However these calls end, they give the context back.

## Main results

* `Runner.siteRelation` — two runs that do the same from a site, and give its context back
* `Runner.sitesAgree_watched` — every request at the level of a call is made at one of its sites
* `Runner.evalWith_base` — what a call of the base class runs
* `Runner.always_staysInPlace` — in the body of a method everything is asked for in place
* `Runner.methods_and_base_calls` — methods and calls of the base class run the first declaration
-/

namespace FormBasic

open Interp

/-! ### Sites -/

/-- A state with the context and the classes of another one, and with its instances. -/
structure State.Continues (s t : State) : Prop where
  context : t.context = s.context
  classes : t.classes = s.classes
  instances : s.heap.instances.size ≤ t.heap.instances.size

namespace State.Continues

variable {s t u : State}

theorem of_eq (h : (t.context, t.classes, t.heap) = (s.context, s.classes, s.heap)) :
    s.Continues t := by
  simp only [Prod.mk.injEq] at h
  exact ⟨h.1, h.2.1, h.2.2 ▸ Nat.le_refl _⟩

theorem refl (s : State) : s.Continues s := .of_eq rfl

theorem trans (h : s.Continues t) (h' : t.Continues u) : s.Continues u :=
  ⟨h'.context.trans h.context, h'.classes.trans h.classes, Nat.le_trans h.instances h'.instances⟩

theorem of_calm (h : s.Calm t) : s.Continues t :=
  ⟨h.context, congrArg Declarations.classes h.declarations, h.heap.size_le⟩

end State.Continues

/-- Where a call makes its requests: in the body of a method that was found in a class, or in the
fields that a class declares for an instance that is being built. -/
inductive Site where
  | body (self : ObjectRef) (owner : ClassInfo)
  | fields (self : ObjectRef) (owner : ClassInfo)

/-- The expressions that are evaluated for the fields of a class: their bounds and initial values,
and the parts of these. -/
def ClassInfo.Initializes (c : ClassInfo) (e : Expr) : Prop :=
  ∃ f ∈ c.fields, ∃ e₀ ∈ f.exprs, Relation.ReflTransGen (fun e e' => e' ∈ e.parts) e₀ e

namespace Site

/-- The current object of a site. -/
def self : Site → ObjectRef
  | .body r _ => r
  | .fields r _ => r

/-- The class whose members are running at a site. -/
def owner : Site → ClassInfo
  | .body _ c => c
  | .fields _ c => c

/-- What may be asked for at a site: in the fields of an instance no statement is executed, and only
what belongs to them is evaluated. -/
def Allows : Site → Request → Prop
  | .fields _ c, .eval e => c.Initializes e
  | .fields _ _, .exec _ => False
  | _, _ => True

/-- Whether a context is that of a site. -/
def IsAt (site : Site) (ctx : Context) : Prop :=
  ctx.self = some site.self ∧ ctx.classContext = site.owner.name

/-- The sites of a call that is made in a state: its own body, and the fields of the instances that
have been built since then. -/
def Belongs (s₀ : State) (r : ObjectRef) (c : ClassInfo) : Site → Prop
  | .body self owner => self = r ∧ owner = c
  | .fields self owner =>
    s₀.heap.instances.size ≤ self.index ∧ owner ∈ s₀.classTable.chain self.className

/-- The requests for which a site is a domain. -/
def domain (site : Site) : Domain where
  expr e := site.Allows (.eval e)
  stmt s := site.Allows (.exec s)
  call _ := True
  instances _ := True

theorem allows_part {site : Site} {e e' : Expr} (h : site.Allows (.eval e)) (he : e' ∈ e.parts) :
    site.Allows (.eval e') := by
  cases site with
  | body => trivial
  | fields r c =>
    obtain ⟨f, hf, e₀, he₀, hpart⟩ := h
    exact ⟨f, hf, e₀, he₀, hpart.tail he⟩

end Site

/-! ### Runs from a site -/

section
variable {α β : Type} {s₀ s : State} {site : Site} {x y : Interp α}

/-- A state in the course of a call that is made in another state: at a site of the call, or in a
call that is made from there. -/
structure State.Reaches (s₀ : State) (site : Site) (s : State) : Prop where
  classes : s.classes = s₀.classes
  active : s₀.context.frames.length < s.context.frames.length
  instances : s₀.heap.instances.size ≤ s.heap.instances.size
  here : s.context.frames.length = s₀.context.frames.length + 1 → site.IsAt s.context

theorem State.Reaches.of_continues {t : State} (h : s₀.Reaches site s)
    (hcontinues : s.Continues t) : s₀.Reaches site t := by
  refine ⟨hcontinues.classes.trans h.classes, ?_, Nat.le_trans h.instances hcontinues.instances, ?_⟩
  · rw [hcontinues.context]
    exact h.active
  · rw [hcontinues.context]
    exact h.here

/-- Two runs that do the same from a site, and give its context back. -/
def Interp.AgreeAt (s₀ : State) (site : Site) (x y : Interp α) : Prop :=
  ∀ s : State, s₀.Reaches site s → x s = y s ∧ s.Continues (x.after s)

namespace Interp.AgreeAt

theorem of_continues (h : ∀ s : State, s.Continues (x.after s)) :
    AgreeAt s₀ site x x :=
  fun s _ => ⟨rfl, h s⟩

theorem of_quietAt (h : ∀ s, x.QuietAt s) : AgreeAt s₀ site x x :=
  of_continues fun s => .of_calm (h s).1

theorem bind {k l : α → Interp β} (hx : AgreeAt s₀ site x y)
    (hk : ∀ a, AgreeAt s₀ site (k a) (l a)) :
    AgreeAt s₀ site (x >>= k) (y >>= l) := by
  intro s hs
  obtain ⟨heq, hcontinues⟩ := hx s hs
  cases hr : x s with
  | ok a t =>
    rw [after_of_ok hr] at hcontinues
    obtain ⟨heq', hcontinues'⟩ := hk a t (hs.of_continues hcontinues)
    rw [after, bind_of_ok k hr, bind_of_ok l (heq.symm.trans hr)]
    exact ⟨heq', hcontinues.trans hcontinues'⟩
  | error e t =>
    rw [after_of_error hr] at hcontinues
    rw [after, bind_of_error k hr, bind_of_error l (heq.symm.trans hr)]
    exact ⟨rfl, hcontinues⟩

theorem found? (h : AgreeAt s₀ site x y) :
    AgreeAt s₀ site (Interp.found? x) (Interp.found? y) := by
  intro s hs
  obtain ⟨heq, hcontinues⟩ := h s hs
  rw [after_found?]
  exact ⟨by simp only [Interp.found?, heq], hcontinues⟩

theorem attempt (h : AgreeAt s₀ site x y) :
    AgreeAt s₀ site (Interp.attempt x) (Interp.attempt y) := by
  intro s hs
  obtain ⟨heq, hcontinues⟩ := h s hs
  rw [after_attempt]
  exact ⟨by simp only [Interp.attempt, heq], hcontinues⟩

/-- A run in a context in which a site is reached gives back the context before. -/
theorem inContext {d : Detour} (hs : s₀.Reaches site { s with context := d.enter s.context })
    (h : AgreeAt s₀ site x y) :
    Interp.inContext d x s = Interp.inContext d y s ∧
      s.Continues ((Interp.inContext d x).after s) := by
  obtain ⟨heq, hcontinues⟩ := h _ hs
  rw [after_inContext, hcontinues.context, d.leave_enter]
  exact ⟨by simp only [Interp.inContext, heq], rfl, hcontinues.classes, hcontinues.instances⟩

theorem inScope (h : AgreeAt s₀ site x y) :
    AgreeAt s₀ site (Interp.inScope x) (Interp.inScope y) := by
  intro s hs
  obtain ⟨heq, hcontinues⟩ := h { s with scopes := s.scopes.push }
    ⟨hs.classes, hs.active, hs.instances, hs.here⟩
  rw [after_inScope]
  refine ⟨by simp only [Interp.inScope, heq], ?_⟩
  exact ⟨hcontinues.context, hcontinues.classes, hcontinues.instances⟩

theorem onFailure (f : Failure → Failure) (h : AgreeAt s₀ site x y) :
    AgreeAt s₀ site (Interp.onFailure f x) (Interp.onFailure f y) := by
  intro s hs
  obtain ⟨heq, hcontinues⟩ := h s hs
  rw [after_onFailure]
  exact ⟨by simp only [Interp.onFailure, heq], hcontinues⟩

/-- A call whose body starts at a site. -/
theorem inCall {c : Callable} {self : Option ObjectRef} {classContext : String}
    (hs : s₀.Reaches site
      { s with context := c.enter self classContext s.context })
    (h : AgreeAt s₀ site x y) :
    Interp.inCall c self classContext x s = Interp.inCall c self classContext y s ∧
      s.Continues ((Interp.inCall c self classContext x).after s) := by
  rw [after_inCall, inCall_apply, inCall_apply]
  split
  · exact ⟨rfl, .refl s⟩
  · exact inContext hs (h.onFailure (·.leave c.name)).inScope

theorem rebind (key : String) (v : Value) :
    AgreeAt s₀ site (Interp.rebind key v) (Interp.rebind key v) := by
  refine of_continues fun s => ?_
  obtain h | ⟨scopes, hset, h⟩ := after_rebind key v s
  · rw [h]
    exact .refl s
  · rw [h]
    exact .of_eq rfl

theorem updateScopes (f : Scopes → Scopes) :
    AgreeAt s₀ site (Interp.updateScopes f) (Interp.updateScopes f) :=
  of_continues fun _ => .of_eq rfl

end Interp.AgreeAt

end

/-- Doing the same from a site is a relation that the steps of the machine respect. -/
def siteRelation (s₀ : State) (site : Site) : StepRelation where
  Inv := s₀.Reaches site
  Rel := AgreeAt s₀ site
  quiet h := .of_quietAt h.quietAt
  bind := AgreeAt.bind
  read _ h := fun s hs => h s hs s hs
  inContext hframes hobject h := fun s hs => h.inContext ⟨hs.classes,
    by simpa only [hframes.enter] using hs.active, hs.instances,
    by simpa only [hframes.enter, Site.IsAt, hobject.self, hobject.classContext] using hs.here⟩
  publish _ _ _ _ _ := .updateScopes _

namespace Runner

variable {s₀ : State} {site : Site} {r : ObjectRef} {owner : ClassInfo} {run run' : Runner}

/-- Two runners whose answers agree at all sites of a call. -/
structure SitesAgree (s₀ : State) (r : ObjectRef) (owner : ClassInfo) (run run' : Runner) :
    Prop where
  fuel : run.fuel = run'.fuel
  answer : ∀ {site : Site}, site.Belongs s₀ r owner → ∀ {q : Request},
    site.Allows q → AgreeAt s₀ site (run.answer q) (run'.answer q)

namespace SitesAgree

variable (h : SitesAgree s₀ r owner run run')
include h

/-- The fields of a new instance are a site of their own. -/
theorem setOwnFields {c c' : ClassInfo} {t u : State}
    (ht : s₀.Reaches site t) (hu : s₀.Reaches site u)
    (hc' : c' ∈ u.classTable.chain c.name) :
    AgreeAt s₀ site (run.setOwnFields (t.heap.alloc c.name).1 c')
      (run'.setOwnFields (t.heap.alloc c.name).1 c') := by
  let fresh : Site := .fields (t.heap.alloc c.name).1 c'
  have hfresh : fresh.Belongs s₀ r owner := by
    rw [State.classTable, hu.classes] at hc'
    exact ⟨ht.instances, hc'⟩
  have hfields : AgreeAt s₀ fresh
      (run.setFields (t.heap.alloc c.name).1 c'.fields)
      (run'.setFields (t.heap.alloc c.name).1 c'.fields) :=
    (siteRelation s₀ fresh).setFields _ fun f hf e he =>
      h.answer hfresh (q := .eval e) ⟨f, hf, e, he, .refl⟩
  exact fun s hs => hfields.inContext ⟨hs.classes, hs.active, hs.instances, fun _ => ⟨rfl, rfl⟩⟩

theorem on (hsite : site.Belongs s₀ r owner) :
    RelatedOn site.domain (siteRelation s₀ site) run run' where
  eval he := h.answer hsite he
  exec hs := h.answer hsite hs
  invoke {c} self classContext args _ :=
    h.answer hsite (q := .invoke c self classContext args) (by cases site <;> trivial)
  assignBound name v := h.answer hsite (q := .assign name v) (by cases site <;> trivial)
  declared _ _ := trivial
  fields _ _ _ ht hu hc' := h.setOwnFields ht hu hc'

theorem step (hsite : site.Belongs s₀ r owner) {q : Request} (hq : site.Allows q) :
    AgreeAt s₀ site (run.step q) (run'.step q) := by
  have hon := h.on hsite
  have hforgives : (siteRelation s₀ site).Forgives := AgreeAt.found?
  have hrenames : (siteRelation s₀ site).Renames :=
    (siteRelation s₀ site).renames_of_forgives hforgives
  cases q with
  | eval e =>
    exact hon.evalStep (fun _ he' => Site.allows_part hq he') (fun _ _ => trivial)
      (fun _ => hrenames) fun _ _ => hforgives
  | exec stmt =>
    cases site with
    | fields => exact hq.elim
    | body self c =>
      have hbinds : ∀ name, (siteRelation s₀ (.body self c)).BindsCurrent
          name := fun _ _ => .updateScopes _
      refine hon.execStep (fun _ _ => trivial) (fun _ _ _ _ => trivial) ?_
      constructor
      case binds => exact fun name _ => hbinds name
      case assign => exact fun name _ => hon.assign hforgives (hbinds name)
      case assignOrDefine => exact fun name _ => hon.assignOrDefine hforgives (hbinds name)
      case assignMember =>
        exact fun place _ v => hon.assignMember hforgives trivial (fun _ _ => trivial) _ v
          fun _ => .updateScopes _
      case renames => exact fun _ => hrenames
      case catches => exact fun _ => AgreeAt.attempt
      case rethrows => exact fun _ _ x => AgreeAt.of_quietAt (quietAt_resume x)
      case fuel => exact fun _ => h.fuel
      case outOfFuel => exact fun _ => .of_continues .refl
  | invoke c self classContext args =>
    -- in the callee more procedures are active than at any site
    have hown : (Site.body r owner).Belongs s₀ r owner := ⟨rfl, rfl⟩
    have hbody := (h.on hown).runBody
      (fun _ _ => AgreeAt.updateScopes _) (c := c) (fun _ _ => trivial) (fun _ _ => trivial) args
    refine fun s hs => AgreeAt.inCall ⟨hs.classes, ?_, hs.instances, fun hactive => ?_⟩ hbody
    · exact Nat.lt_succ_of_lt hs.active
    · have hle := hs.active
      simp only [Callable.enter, List.length_cons] at hactive
      omega
  | assign name v => exact hon.assignStep AgreeAt.rebind name v

end SitesAgree

/-! ### Calls of the base class -/

/-- A call of the base class runs the first declaration along the chain of the base of the class
whose method is running, with the same current object. -/
theorem evalWith_base {s : State} (hs : s.classTable.Built) {c base : ClassInfo}
    (hself : s.context.self = some r) (hcontext : s.context.classContext = c.name)
    (hc : s.class? c.name = some c) (hbase : s.classTable.Extends c base) {name : String}
    {m : Procedure} (hm : s.classTable.FirstMethod base.name name m owner) (es : List Expr)
    (fuel : Nat) :
    evalWith (fuel + 1) (.method .myBase name es) s =
      (withFuel fuel).callMethodOf m owner r es s := by
  have hchain : s.classTable.chain base.name = s.classTable.chain c.inherits :=
    ClassTable.chain_congr (hs.lower_name hbase.2)
  have hfound : s.classTable.method? c.inherits name = some (m, owner) := by
    rw [ClassTable.method?_eq_some_iff, ClassTable.FirstMethod, ← hchain]
    exact hm
  have hcall : evalWith (fuel + 1) (.method .myBase name es) s =
      (withFuel fuel).callMethod .myBase name es s := rfl
  have hknown : s.class? c.inherits = some base := hbase.2
  rw [hcall, callMethod, get_bind_apply, specialCall?, Option.getD_some, callBase, get_bind_apply]
  simp [hself, hcontext, hc, hbase.1, hknown, hfound]

/-- How a request is answered if it is for a call of the base class: by the first declaration along
the chain of the base, if there is one. -/
def RunsBase (classes : ClassTable) (site : Site) : (q : Request) → State → q.Outcome → Prop
  | .eval (.method .myBase name es), s, r => ∀ base m owner,
    classes.Extends site.owner base → classes.FirstMethod base.name name m owner →
    ∃ fuel, r = (withFuel fuel).callMethodOf m owner site.self es s
  | _, _, _ => True

/-- How the body of a method of a class runs on an object, if it is called in a state: what it asks
for, with one more active procedure than in the state, is asked for at a site of the call, and calls
of the base class run the first declaration along the chain of the base, with the same object. -/
def StaysInPlace (s₀ : State) (r : ObjectRef) (owner : ClassInfo) (q : Request) (s : State)
    (outcome : q.Outcome) : Prop :=
  s.context.frames.length = s₀.context.frames.length + 1 →
    ∃ site : Site, site.Belongs s₀ r owner ∧ site.Allows q ∧ site.IsAt s.context ∧
      RunsBase s₀.classTable site q s outcome

theorem class?_of_belongs (hs : s₀.classTable.Built) (howner : s₀.class? owner.name = some owner)
    (h : site.Belongs s₀ r owner) : s₀.class? site.owner.name = some site.owner := by
  cases site with
  | body self c => exact h.2 ▸ howner
  | fields self c => exact ClassTable.class?_of_mem_chain hs h.2

/-- At a site of a call, the step for a request keeps to it. -/
theorem staysInPlace_step (hs₀ : s₀.classTable.Built) (howner : s₀.class? owner.name = some owner)
    (hsite : site.Belongs s₀ r owner) {q : Request} (hq : site.Allows q) {s : State}
    (hs : s₀.Reaches site s) (fuel : Nat) :
    StaysInPlace s₀ r owner q s ((withFuel fuel).step q s) := by
  intro hlevel
  obtain ⟨hself, hcontext⟩ := hs.here hlevel
  refine ⟨site, hsite, hq, ⟨hself, hcontext⟩, ?_⟩
  have hclasses : s.classTable = s₀.classTable := hs.classes
  unfold RunsBase
  split
  · intro base m owner' hbase hm
    rw [← hclasses] at hs₀ hbase hm
    refine ⟨fuel, evalWith_base hs₀ hself hcontext ?_ hbase hm _ fuel⟩
    rw [State.class?, hclasses]
    exact class?_of_belongs (hclasses ▸ hs₀) howner hsite
  · trivial

open Classical in
/-- Where a request is made at a site of a call, it makes no difference whether this is tested. -/
theorem sitesAgree_watched (hs₀ : s₀.classTable.Built)
    (howner : s₀.class? owner.name = some owner) (alarm : Alarm) (fuel : Nat) :
    SitesAgree s₀ r owner
      (watched (fun q s o => decide (StaysInPlace s₀ r owner q s o)) alarm fuel)
      (withFuel fuel) := by
  induction fuel with
  | zero =>
    refine ⟨rfl, fun _ q _ => ?_⟩
    cases q <;> exact .of_continues .refl
  | succ fuel ih =>
    refine ⟨rfl, fun {site} hsite q hq s hs => ?_⟩
    obtain ⟨hstep, hcontinues⟩ := ih.step hsite hq s hs
    have htest : StaysInPlace s₀ r owner q s
        ((watched (fun q s o => decide (StaysInPlace s₀ r owner q s o)) alarm fuel).step q s) := by
      rw [hstep]
      exact staysInPlace_step hs₀ howner hsite hq hs fuel
    rw [watched, answer_ofAnswers, after_tested, if_pos (decide_eq_true htest),
      answer_withFuel_succ]
    exact ⟨(if_pos (decide_eq_true htest)).trans hstep, hcontinues⟩

open Classical in
/-- While the body of a method of a class runs on an object, everything is asked for in place. -/
theorem always_staysInPlace (hs₀ : s₀.classTable.Built)
    (howner : s₀.class? owner.name = some owner) (c : Callable) (args : List Value) (fuel : Nat) :
    Always (fun q s o => decide (StaysInPlace s₀ r owner q s o)) fuel
      (·.answer (.invoke c (some r) owner.name args)) s₀ := by
  intro alarm
  cases fuel with
  | zero => rfl
  | succ fuel =>
    let test : Test := fun q s o => decide (StaysInPlace s₀ r owner q s o)
    have hagree := sitesAgree_watched (r := r) hs₀ howner alarm fuel
    have hown : (Site.body r owner).Belongs s₀ r owner := ⟨rfl, rfl⟩
    have hbody := (hagree.on hown).runBody
      (fun _ _ => AgreeAt.updateScopes _) (c := c) (fun _ _ => trivial) (fun _ _ => trivial) args
    have hreaches : s₀.Reaches (.body r owner)
        { s₀ with context := c.enter (some r) owner.name s₀.context } :=
      ⟨rfl, Nat.lt_succ_self _, Nat.le_refl _, fun _ => ⟨rfl, rfl⟩⟩
    have hstep : (watched test alarm fuel).step (.invoke c (some r) owner.name args) s₀ =
        (withFuel fuel).step (.invoke c (some r) owner.name args) s₀ :=
      (AgreeAt.inCall hreaches hbody).1
    -- the call itself is not asked for in its body
    have htest : test (.invoke c (some r) owner.name args) s₀
        ((watched test alarm fuel).step (.invoke c (some r) owner.name args) s₀) = true :=
      decide_eq_true fun hlevel => absurd hlevel (Nat.ne_of_lt (Nat.lt_succ_self _))
    exact (if_pos htest).trans hstep

/-- A method call on an object runs the method that is found for it. -/
theorem evalWith_method {fuel : Nat} {s t : State} {e : Expr} {name : String} {es : List Expr}
    (hspecial : (withFuel fuel).specialCall? s e name es = none)
    (howner : (withFuel fuel).owner e s = .ok (.object r) t) {m : Procedure}
    (hm : s.classTable.FirstMethod r.className name m owner) :
    evalWith (fuel + 1) (.method e name es) s = (withFuel fuel).callMethodOf m owner r es t := by
  -- evaluating the owner has declared nothing
  have hretains : s.Retains t := .of_ok
    ((related_retention fuel).on.owner (e := e) trivial fun _ _ => trivial) howner
  have hclasses : t.classes = s.classes := congrArg Declarations.classes hretains.declarations
  have hfound : t.methodOf? r name = some (m, owner) := by
    rw [State.methodOf?, State.classTable, hclasses]
    exact ClassTable.method?_eq_some_iff.2 hm
  have hcall : evalWith (fuel + 1) (.method e name es) s = (withFuel fuel).callMethod e name es s :=
    rfl
  rw [hcall, callMethod, get_bind_apply, hspecial, Option.getD_none, bind_of_ok _ howner,
    callMethodOn, callObjectMethod, get_bind_apply, hfound]

/-- A class with a method, and one that overrides it by calling it. -/
def greeters : ClassTable :=
  let greet (body : List Stmt) : Procedure := ⟨"Function", "Greet", [], "", body, [], false⟩
  let plain : ClassDecl := ⟨"Plain", false, "", [], [greet [.returnValue (some .me)]], [], []⟩
  let polite : ClassDecl := ⟨"Polite", false, "Plain", [],
    [greet [.returnValue (some (.method .myBase "greet" []))]], [], []⟩
  ((∅ : ClassTable).declare plain "").declare polite ""

/-- In a method of an object of the derived class. -/
def greeting : State where
  context := { self := some ⟨0, "Polite"⟩, classContext := "Polite" }
  heap := { instances := #[∅] }
  classes := greeters

end Runner

end FormBasic
