import FormBasic.Proofs.Machine.Execution
import FormBasic.Proofs.Machine.Nesting

/-!
# Programs without loops end

A run ends if it needs no more fuel than some number, and then more fuel makes no difference. Both
are shown at once, of two runs with so much fuel and with more: they are the same and do not run out
of fuel, as long as the fuel covers how deep their requests can be nested.

What has to be covered is read off the program. A call needs fuel for its body, with one procedure
fewer that may still be entered; at `maxFrames` a call fails at once. A statement or an expression
needs fuel for its size, for the calls it makes, and for the field initializers of the classes that
it leads to: these may have any size up to that of the largest one, but the classes they lead to in
turn have a lower rank. No frame is entered for a field initializer, so this is all that bounds
them. A class whose field initializer builds an instance of the same class has no rank, and building
it never ends.

## Main results

* `endRelation` — two runs that are the same and do not run out of fuel
* `Runner.alike_withFuel` — where the fuel covers a request, more of it makes no difference
* `Runner.endless_of_neverBuilt` — a class whose instances contain one another cannot be built
* `Runner.loop_free_runs_end` — programs without loops end if their classes are layered
-/

namespace FormBasic

open Interp

/-! ### Runs that end and are the same -/

/-- How many procedures may still be entered. -/
def State.headroom (s : State) : Nat := maxFrames - s.context.frames.length

/-- A state in which the same is declared as in another one, and in which so many procedures may
still be entered. -/
structure State.RunsLike (s₀ : State) (n : Nat) (s : State) : Prop where
  declarations : s.declarations = s₀.declarations
  headroom : s.headroom = n

/-- A state in which the same is declared as in another one, and which has its context. -/
structure State.Resumes (s s' : State) : Prop where
  declarations : s'.declarations = s.declarations
  context : s'.context = s.context

namespace State.Resumes

variable {s₀ s t u : State} {n : Nat}

theorem refl (s : State) : s.Resumes s := ⟨rfl, rfl⟩

theorem trans (h : s.Resumes t) (h' : t.Resumes u) : s.Resumes u :=
  ⟨h'.declarations.trans h.declarations, h'.context.trans h.context⟩

theorem runsLike (h : s.Resumes t) (hs : s₀.RunsLike n s) : s₀.RunsLike n t := by
  refine ⟨h.declarations.trans hs.declarations, ?_⟩
  rw [State.headroom, h.context]
  exact hs.headroom

end State.Resumes

section
variable {α β : Type} {s₀ : State} {n : Nat} {x y : Interp α}

/-- Two runs are the same and do not run out of fuel, and afterwards the same is declared and the
context is the one before. -/
def Interp.EndAlike (s₀ : State) (n : Nat) (x y : Interp α) : Prop :=
  ∀ s, s₀.RunsLike n s → x s = y s ∧ x.Ends s ∧ s.Resumes (x.after s)

namespace Interp.EndAlike

theorem of_ok {a : State → α} {f : State → State} (hx : ∀ s, x s = .ok (a s) (f s))
    (h : ∀ s : State, s.Resumes (f s)) : EndAlike s₀ n x x := by
  intro s _
  refine ⟨rfl, ends_of_ok (hx s), ?_⟩
  rw [after_of_ok (hx s)]
  exact h s

theorem of_quietAt (h : ∀ s, x.QuietAt s) : EndAlike s₀ n x x := by
  intro s _
  obtain ⟨hcalm, hends, -⟩ := h s
  exact ⟨rfl, hends, hcalm.declarations, hcalm.context⟩

theorem of_quiet (h : x.Quiet) : EndAlike s₀ n x x := .of_quietAt h.quietAt

theorem updateScopes (f : Scopes → Scopes) :
    EndAlike s₀ n (Interp.updateScopes f) (Interp.updateScopes f) :=
  of_ok (fun _ => rfl) fun _ => ⟨rfl, rfl⟩

theorem bind {k l : α → Interp β} (hx : EndAlike s₀ n x y) (hk : ∀ a, EndAlike s₀ n (k a) (l a)) :
    EndAlike s₀ n (x >>= k) (y >>= l) := by
  intro s hs
  obtain ⟨heq, hends, hs'⟩ := hx s hs
  cases hr : x s with
  | ok a s' =>
    rw [after_of_ok hr] at hs'
    obtain ⟨heq', hends', hs''⟩ := hk a s' (hs'.runsLike hs)
    refine ⟨?_, ?_, ?_⟩
    · rw [bind_of_ok k hr, bind_of_ok l (heq.symm.trans hr), heq']
    · exact ends_bind hends fun b t ht => by
        rw [hr] at ht
        cases ht
        exact hends'
    · rw [after, bind_of_ok k hr]
      exact hs'.trans hs''
  | error e s' =>
    rw [after_of_error hr] at hs'
    refine ⟨?_, ?_, ?_⟩
    · rw [bind_of_error k hr, bind_of_error l (heq.symm.trans hr)]
    · exact ends_bind hends fun b t ht => by
        rw [hr] at ht
        cases ht
    · rw [after, bind_of_error k hr]
      exact hs'

theorem rebind (key : String) (v : Value) :
    EndAlike s₀ n (Interp.rebind key v) (Interp.rebind key v) := by
  refine bind (of_quietAt quietAt_get) fun s => bind (of_quiet (quiet_lift _)) fun scopes => ?_
  exact updateScopes fun _ => scopes

theorem found? (h : EndAlike s₀ n x y) :
    EndAlike s₀ n (Interp.found? x) (Interp.found? y) := by
  intro s hs
  obtain ⟨heq, hends, hs'⟩ := h s hs
  rw [after_found?]
  exact ⟨by simp only [Interp.found?, heq], ends_found? hends, hs'⟩

theorem attempt (h : EndAlike s₀ n x y) :
    EndAlike s₀ n (Interp.attempt x) (Interp.attempt y) := by
  intro s hs
  obtain ⟨heq, hends, hs'⟩ := h s hs
  rw [after_attempt]
  exact ⟨by simp only [Interp.attempt, heq], ends_attempt hends, hs'⟩

theorem onFailure (f : Failure → Failure) (h : EndAlike s₀ n x y) :
    EndAlike s₀ n (Interp.onFailure f x) (Interp.onFailure f y) := by
  intro s hs
  obtain ⟨heq, hends, hs'⟩ := h s hs
  rw [after_onFailure]
  exact ⟨by simp only [Interp.onFailure, heq], ends_onFailure hends, hs'⟩

theorem inScope (h : EndAlike s₀ n x y) : EndAlike s₀ n (Interp.inScope x) (Interp.inScope y) := by
  intro s hs
  obtain ⟨heq, hends, hs'⟩ := h { s with scopes := s.scopes.push } ⟨hs.declarations, hs.headroom⟩
  rw [after_inScope]
  exact ⟨by simp only [Interp.inScope, heq], ends_inScope hends, hs'.declarations, hs'.context⟩

/-- A run in a context in which another number of procedures may be entered. -/
theorem inContext {m : Nat} {d : Detour} {s : State}
    (henter : s₀.RunsLike m { s with context := d.enter s.context }) (h : EndAlike s₀ m x y) :
    Interp.inContext d x s = Interp.inContext d y s ∧ (Interp.inContext d x).Ends s ∧
      s.Resumes ((Interp.inContext d x).after s) := by
  obtain ⟨heq, hends, hs'⟩ := h { s with context := d.enter s.context } henter
  rw [after_inContext, hs'.context, d.leave_enter]
  exact ⟨by simp only [Interp.inContext, heq], ends_inContext hends, hs'.declarations, rfl⟩

theorem entering {d : Detour} (hframes : d.KeepsFrames) (h : EndAlike s₀ n x y) :
    EndAlike s₀ n (Interp.inContext d x) (Interp.inContext d y) := by
  intro s hs
  refine inContext ⟨hs.declarations, ?_⟩ h
  show maxFrames - (d.enter s.context).frames.length = n
  rw [hframes.enter]
  exact hs.headroom

/-- Where no procedure may be entered any more, a call fails at once. -/
theorem inCall_of_full (c : Callable) (self : Option ObjectRef) (classContext : String) :
    EndAlike s₀ 0 (Interp.inCall c self classContext x) (Interp.inCall c self classContext y) := by
  intro s hs
  have hfull : maxFrames ≤ s.context.frames.length := Nat.le_of_sub_eq_zero hs.headroom
  have hx : ∀ z : Interp α, Interp.inCall c self classContext z s =
      .error (.failure (.runtime (.custom ("Call stack overflow in " ++ c.name)) [])) s := by
    intro z
    rw [inCall_apply, if_pos hfull]
    rfl
  refine ⟨(hx x).trans (hx y).symm, ends_of_failure (hx x), ?_⟩
  rw [after_of_error (hx x)]
  exact .refl s

/-- A call is alike if its body is, with one procedure fewer to be entered. -/
theorem inCall (c : Callable) (self : Option ObjectRef) (classContext : String)
    (h : EndAlike s₀ n x y) :
    EndAlike s₀ (n + 1) (Interp.inCall c self classContext x)
      (Interp.inCall c self classContext y) := by
  intro s hs
  have hheadroom : maxFrames - s.context.frames.length = n + 1 := hs.headroom
  have hroom : ¬ maxFrames ≤ s.context.frames.length := by omega
  have henter : s₀.RunsLike n { s with context := c.enter self classContext s.context } := by
    refine ⟨hs.declarations, ?_⟩
    show maxFrames - (s.context.frames.length + 1) = n
    omega
  have hrun : ∀ z : Interp α, Interp.inCall c self classContext z s =
      Interp.inContext (c.detour self classContext)
        (Interp.inScope (Interp.onFailure (·.leave c.name) z)) s := by
    intro z
    rw [inCall_apply, if_neg hroom]
  obtain ⟨heq, hends, hs'⟩ := inContext (d := c.detour self classContext) henter
    (h.onFailure (·.leave c.name)).inScope
  refine ⟨(hrun x).trans (heq.trans (hrun y).symm), fun s'' hfuel => ?_, ?_⟩
  · exact hends s'' ((hrun x).symm.trans hfuel)
  · rw [after_congr (hrun x)]
    exact hs'

end Interp.EndAlike

end

/-- Ending alike is a relation that the steps of the machine respect. -/
def endRelation (s₀ : State) (n : Nat) : StepRelation where
  Inv := s₀.RunsLike n
  Rel := EndAlike s₀ n
  quiet := EndAlike.of_quiet
  bind := EndAlike.bind
  read _ h := fun s hs => h s hs s hs
  inContext hframes _ h := h.entering hframes
  publish _ _ _ _ _ := EndAlike.updateScopes _

/-! ### How much fuel is needed -/

/-- Bounds for a program: the largest size of what is declared, and the number of ranks. -/
structure Limits where
  size : Nat
  ranks : Nat

namespace Limits

/-- What field initializers of classes of so many ranks need at most, beside their calls. -/
def layers (b : Limits) (r : Nat) : Nat := r * (b.size + 1)

/-- What a call needs while so many procedures may be entered. -/
def call (b : Limits) : Nat → Nat
  | 0 => 1
  | n + 1 => b.size + b.layers b.ranks + b.call n + 1 + 1

/-- What a statement or an expression of a size needs that only builds instances of classes below a
rank, while so many procedures may be entered. -/
def part (b : Limits) (n r size : Nat) : Nat := size + b.layers r + b.call n + 1

theorem layers_lt (b : Limits) {r r' : Nat} (h : r' < r) :
    b.size + b.layers r' < b.layers r := by
  have hle : (r' + 1) * (b.size + 1) ≤ r * (b.size + 1) := Nat.mul_le_mul_right _ h
  rw [Nat.succ_mul] at hle
  simp only [layers]
  omega

theorem one_le_call (b : Limits) (n : Nat) : 1 ≤ b.call n := by
  cases n with
  | zero => exact Nat.le_refl 1
  | succ n => exact Nat.succ_le_succ (Nat.zero_le _)

theorem call_lt_part (b : Limits) (n r size : Nat) : b.call n < b.part n r size := by
  simp only [part]
  omega

theorem part_le_part (b : Limits) {n r size size' : Nat} (h : size ≤ size') :
    b.part n r size ≤ b.part n r size' := by
  simp only [part]
  omega

/-- What a step asks of its parts needs less fuel than the step. -/
theorem part_le_of_lt {b : Limits} {n r size size' fuel : Nat}
    (hcovered : b.part n r size' ≤ fuel + 1) (h : size < size') : b.part n r size ≤ fuel := by
  simp only [part] at hcovered ⊢
  omega

/-- A step has fuel for a call, if it is a step of something of any size. -/
theorem call_lt_of_covered {b : Limits} {n r size fuel : Nat} (hsize : 1 ≤ size)
    (hcovered : b.part n r size ≤ fuel + 1) : b.call n < fuel := by
  simp only [part] at hcovered
  omega

end Limits

/-- A program without loops whose classes have ranks, with bounds for what is declared. -/
structure State.Tame (s₀ : State) (rank : String → Nat) (b : Limits) : Prop where
  layered : s₀.LayeredBy rank
  loopFree : s₀.LoopFree
  fits : s₀.Fits rank b.size b.ranks

theorem State.exists_tame {s : State} (hloopFree : s.LoopFree) (hlayered : s.Layered) :
    ∃ rank b, s.Tame rank b := by
  obtain ⟨rank, hrank⟩ := hlayered
  obtain ⟨size, ranks, hfits⟩ := s.exists_fits rank
  exact ⟨rank, ⟨size, ranks⟩, hrank, hloopFree, hfits⟩

namespace Runner

section
variable {s₀ : State} {rank : String → Nat} {b : Limits} {fuel n : Nat}

/-- The requests for which so much fuel is enough while so many procedures may be entered. -/
def coveredBy (s₀ : State) (rank : String → Nat) (b : Limits) (fuel n : Nat) : Domain where
  expr e := ∃ r, s₀.BuildsBelow rank r e ∧ b.part n r (sizeOf e) ≤ fuel
  stmt t := t.LoopFree ∧ b.part n b.ranks (sizeOf t) ≤ fuel
  call := s₀.Declares
  instances name := (s₀.class? name).isSome = true →
    b.part n (rank (Text.lower name)) b.size ≤ fuel

/-- Two runners whose answers are alike to all requests for which so much fuel is enough. -/
structure Alike (s₀ : State) (rank : String → Nat) (b : Limits) (fuel : Nat) (run run' : Runner) :
    Prop where
  eval : ∀ {n e}, (coveredBy s₀ rank b fuel n).expr e → EndAlike s₀ n (run.eval e) (run'.eval e)
  exec : ∀ {n t}, (coveredBy s₀ rank b fuel n).stmt t → EndAlike s₀ n (run.exec t) (run'.exec t)
  invoke : ∀ {n c} self classContext args, s₀.Declares c → b.call n ≤ fuel →
    EndAlike s₀ n (run.invoke c self classContext args) (run'.invoke c self classContext args)
  assignBound : ∀ {n} name v, b.call n < fuel →
    EndAlike s₀ n (run.assignBound name v) (run'.assignBound name v)

/-- Where a part is covered, instances of the classes of a lower rank are covered in a step of
it. -/
theorem instances_of_rank {r : Nat} {name : String} {size : Nat} (hsize : 1 ≤ size)
    (hcovered : b.part n r size ≤ fuel + 1)
    (hrank : (s₀.class? name).isSome = true → rank (Text.lower name) < r) :
    (coveredBy s₀ rank b fuel n).instances name := by
  intro hsome
  have hlayers := b.layers_lt (hrank hsome)
  simp only [Limits.part] at hcovered ⊢
  omega

namespace Alike

variable {run run' : Runner} (h : Alike s₀ rank b fuel run run') (hs₀ : s₀.Tame rank b)
include h hs₀

/-- Where there is fuel left for a call, the answers to all requests that are covered are alike. -/
theorem on (hfuel : b.call n < fuel) :
    RelatedOn (coveredBy s₀ rank b fuel n) (endRelation s₀ n) run run' where
  eval := h.eval
  exec := h.exec
  invoke self classContext args hc := h.invoke self classContext args hc (by omega)
  assignBound name v := h.assignBound name v hfuel
  declared hs hc := State.declares_of_declarations hs.declarations hc
  fields := by
    intro s t u className c c' hname hs hc _ hu hc'
    rw [State.class?_of_declarations hs.declarations] at hc
    rw [State.classTable_of_declarations hu.declarations] at hc'
    refine EndAlike.entering (Detour.keepsFrames_setting _ _)
      ((endRelation s₀ n).setFields _ fun f hf e he => ?_)
    have hinit : s₀.Initializes className e := ⟨c, hc, c', hc', f, hf, he⟩
    have hsome : (s₀.class? className).isSome = true := Option.isSome_iff_exists.2 ⟨c, hc⟩
    have hcovered := hname hsome
    have hsize := hs₀.fits.initializer className e hinit
    refine h.eval ⟨rank (Text.lower className), hs₀.layered className e hinit, ?_⟩
    exact Nat.le_trans (b.part_le_part hsize) hcovered

theorem evalStep {e : Expr} (he : (coveredBy s₀ rank b (fuel + 1) n).expr e) :
    EndAlike s₀ n (run.evalStep e) (run'.evalStep e) := by
  obtain ⟨r, hbelow, hcovered⟩ := he
  have hsize := e.one_le_sizeOf
  refine (h.on hs₀ (Limits.call_lt_of_covered hsize hcovered)).evalStep ?_ ?_ ?_ ?_
  · intro e' he'
    refine ⟨r, fun name hname => hbelow name (.part he' hname), ?_⟩
    exact Limits.part_le_of_lt hcovered (Expr.sizeOf_lt_of_mem_parts he')
  · intro name hname
    exact instances_of_rank hsize hcovered (hbelow name (.own hname))
  · exact fun _ => (endRelation s₀ n).renames_of_forgives EndAlike.found?
  · exact fun _ _ => EndAlike.found?

theorem execStep {t : Stmt} (ht : (coveredBy s₀ rank b (fuel + 1) n).stmt t) :
    EndAlike s₀ n (run.execStep t) (run'.execStep t) := by
  obtain ⟨hloopFree, hcovered⟩ := ht
  have hsize := t.one_le_sizeOf
  have hon := h.on hs₀ (Limits.call_lt_of_covered hsize hcovered)
  have hbelow : ∀ e : Expr, s₀.BuildsBelow rank b.ranks e := fun _ name _ => hs₀.fits.rank name
  have hexprs : ∀ e ∈ t.exprs, (coveredBy s₀ rank b fuel n).expr e := by
    intro e he
    refine ⟨b.ranks, hbelow e, ?_⟩
    exact Limits.part_le_of_lt hcovered (Stmt.sizeOf_lt_of_mem_exprs he)
  have hblocks : ∀ block ∈ t.blocks, ∀ t' ∈ block, (coveredBy s₀ rank b fuel n).stmt t' := by
    intro block hblock t' ht'
    refine ⟨hloopFree.of_mem_blocks hblock ht', ?_⟩
    refine Limits.part_le_of_lt hcovered (Nat.lt_trans (List.sizeOf_lt_of_mem ht') ?_)
    exact Stmt.sizeOf_lt_of_mem_blocks hblock
  have hbinds : ∀ name, (endRelation s₀ n).BindsCurrent name := fun _ _ => EndAlike.updateScopes _
  have hforgives : (endRelation s₀ n).Forgives := EndAlike.found?
  have hnoLoop : ¬ t.isLoop = true := by
    rw [hloopFree.isLoop_eq_false]
    exact Bool.false_ne_true
  refine hon.execStep hexprs hblocks ?_
  constructor
  case binds => exact fun name _ => hbinds name
  case assign => exact fun name _ => hon.assign hforgives (hbinds name)
  case assignOrDefine => exact fun name _ => hon.assignOrDefine hforgives (hbinds name)
  case assignMember =>
    intro place hplace v
    refine hon.assignMember hforgives (hexprs _ (Stmt.owner_mem_exprs hplace)) ?_ _ _ ?_
    · exact fun name _ => instances_of_rank hsize hcovered (hs₀.fits.rank name)
    · exact fun _ => EndAlike.updateScopes _
  case renames => exact fun _ => (endRelation s₀ n).renames_of_forgives hforgives
  case catches => exact fun _ => EndAlike.attempt
  case rethrows => exact fun _ _ x => EndAlike.of_quietAt (quietAt_resume x)
  case fuel => exact fun hloop => absurd hloop hnoLoop
  case outOfFuel => exact fun hloop => absurd hloop hnoLoop

theorem invokeStep {c : Callable} (self : Option ObjectRef) (classContext : String)
    (args : List Value) (hc : s₀.Declares c) (hcovered : b.call n ≤ fuel + 1) :
    EndAlike s₀ n (run.invokeStep c self classContext args)
      (run'.invokeStep c self classContext args) := by
  cases n with
  | zero => exact EndAlike.inCall_of_full c self classContext
  | succ n =>
    refine EndAlike.inCall c self classContext ?_
    have hfits := hs₀.fits.callable c hc
    have hpart : b.part n b.ranks b.size ≤ fuel := Nat.le_of_succ_le_succ hcovered
    have hfuel : b.call n < fuel := Nat.lt_of_lt_of_le (b.call_lt_part _ _ _) hpart
    refine (h.on hs₀ hfuel).runBody (fun _ _ => EndAlike.updateScopes _) ?_ ?_ args
    · intro e he
      refine ⟨b.ranks, fun name _ => hs₀.fits.rank name, ?_⟩
      exact Nat.le_trans (b.part_le_part (hfits.parameters e he)) hpart
    · intro t ht
      refine ⟨hs₀.loopFree c hc t ht, ?_⟩
      exact Nat.le_trans (b.part_le_part (hfits.body t ht)) hpart

omit hs₀ in
/-- A step of an assignment asks for a call at most, so it needs no fuel for another assignment. -/
theorem assignStep (name : String) (v : Value) (hcovered : b.call n ≤ fuel) :
    EndAlike s₀ n (run.assignStep name v) (run'.assignStep name v) := by
  have hon : RelatedOn ⟨fun _ => False, fun _ => False, s₀.Declares, fun _ => False⟩
      (endRelation s₀ n) { run with assignBound := fun _ _ => pure () }
      { run' with assignBound := fun _ _ => pure () } := by
    constructor
    case eval => exact fun he => he.elim
    case exec => exact fun ht => ht.elim
    case invoke =>
      exact fun self classContext args hc => h.invoke self classContext args hc hcovered
    case assignBound => exact fun _ _ => .of_quiet (quiet_pure _)
    case declared => exact fun hs hc => State.declares_of_declarations hs.declarations hc
    case fields => exact fun hname => hname.elim
  exact hon.assignStep (fun _ _ => EndAlike.rebind _ _) name v

end Alike

/-- Where the fuel covers a request, more fuel makes no difference, and the request ends. -/
theorem alike_withFuel (hs₀ : s₀.Tame rank b) {fuel fuel' : Nat} (hle : fuel ≤ fuel') :
    Alike s₀ rank b fuel (withFuel fuel) (withFuel fuel') := by
  induction fuel generalizing fuel' with
  | zero =>
    -- without fuel nothing is covered
    have hcall := b.one_le_call
    constructor
    case eval =>
      rintro n e ⟨r, -, hcovered⟩
      exact absurd hcovered (Nat.not_succ_le_zero _)
    case exec =>
      rintro n t ⟨-, hcovered⟩
      exact absurd hcovered (Nat.not_succ_le_zero _)
    case invoke =>
      intro n c self classContext args _ hcovered
      exact absurd (Nat.le_trans (hcall n) hcovered) (Nat.not_succ_le_zero _)
    case assignBound =>
      intro n name v hcovered
      exact absurd hcovered (Nat.not_succ_le_zero _)
  | succ fuel ih =>
    obtain ⟨fuel', rfl⟩ : ∃ m, fuel' = m + 1 := ⟨fuel' - 1, by omega⟩
    have h := ih (Nat.le_of_succ_le_succ hle)
    constructor
    case eval => exact h.evalStep hs₀
    case exec => exact h.execStep hs₀
    case invoke => exact fun self classContext args => h.invokeStep hs₀ self classContext args
    case assignBound =>
      intro n name v hcovered
      exact h.assignStep name v (Nat.le_of_succ_le_succ hcovered)

/-! ### Requests that end -/

/-- A request ends: with so much fuel it gives a value or a failure, and more fuel makes no
difference. -/
def Terminates {α : Type} (x : Runner → Interp α) (s : State) : Prop :=
  ∃ needed, (x (withFuel needed)).Ends s ∧
    ∀ fuel, needed ≤ fuel → x (withFuel fuel) s = x (withFuel needed) s

/-- What asks for covered requests only ends. -/
theorem terminates_of_covered {α : Type} {x : Runner → Interp α} {s : State} (needed : Nat)
    (hs : s.Tame rank b) (hneeded : b.call s.headroom < needed)
    (hx : ∀ run run',
      RelatedOn (coveredBy s rank b needed s.headroom)
        (endRelation s s.headroom) run run' →
      EndAlike s s.headroom (x run) (x run')) :
    Terminates x s := by
  have hrun : ∀ fuel, needed ≤ fuel → x (withFuel needed) s = x (withFuel fuel) s ∧
      (x (withFuel needed)).Ends s := by
    intro fuel hle
    have hon := (alike_withFuel hs hle).on hs hneeded
    obtain ⟨heq, hends, -⟩ := hx _ _ hon s ⟨rfl, rfl⟩
    exact ⟨heq, hends⟩
  refine ⟨needed, (hrun needed (Nat.le_refl _)).2, fun fuel hle => ?_⟩
  exact (hrun fuel hle).1.symm

end

end Runner

/-! ### Classes that build themselves -/

namespace Interp

/-- A run runs out of fuel. -/
def Exhausts {α : Type} (x : Interp α) (s : State) : Prop := ∃ s', x s = .error .outOfFuel s'

variable {α β : Type} {x : Interp α} {s : State}

theorem Exhausts.bind (h : x.Exhausts s) (k : α → Interp β) : (x >>= k).Exhausts s := by
  obtain ⟨s', hx⟩ := h
  exact ⟨s', bind_of_error k hx⟩

theorem Exhausts.inContext {d : Detour} (h : x.Exhausts { s with context := d.enter s.context }) :
    (Interp.inContext d x).Exhausts s := by
  obtain ⟨s', hx⟩ := h
  exact ⟨{ s' with context := d.leave s.context s'.context }, by simp only [Interp.inContext, hx]⟩

theorem exhausts_of_ok {s' : State} {a : α} {k : α → Interp β} (hx : x s = .ok a s')
    (hk : (k a).Exhausts s') : (x >>= k).Exhausts s := by
  obtain ⟨s'', hrun⟩ := hk
  exact ⟨s'', (bind_of_ok k hx).trans hrun⟩

end Interp

/-- Building an instance of a class begins with building one of another class: the first field of
the most basic class is set to a new instance of that one. -/
def State.BeginsWith (s : State) (name next : String) : Prop :=
  ∃ c base rest f fs, s.class? name = some c ∧
    (s.classTable.chain c.name).reverse = base :: rest ∧ base.fields = f :: fs ∧ f.bounds = [] ∧
    ∃ fields, f.initializer = some (.new next [] fields)

/-- Building an instance of a class leads from class to class and never comes to an end. -/
def State.NeverBuilt (s : State) (name : String) : Prop :=
  ∃ visited : String → Prop, visited name ∧
    ∀ a, visited a → ∃ b, visited b ∧ s.BeginsWith a b

namespace Runner

/-- A request that does not end: it uses up any fuel. -/
def Endless {α : Type} (x : Runner → Interp α) (s : State) : Prop :=
  ∀ fuel, (x (withFuel fuel)).Exhausts s

/-- Where building a class begins with building another one, it uses up the fuel if that does. -/
theorem exhausts_of_beginsWith {run : Runner} {s t : State} {name next : String}
    (hnext : ∀ fields u, u.declarations = s.declarations →
      (run.eval (.new next [] fields)).Exhausts u)
    (h : s.BeginsWith name next) (ht : t.declarations = s.declarations)
    (fields : List (String × Expr)) : (run.evalStep (.new name [] fields)).Exhausts t := by
  obtain ⟨c, base, rest, f, fs, hc, hchain, hfields, hbounds, fields', hinit⟩ := h
  have hvalue : ∀ u, u.declarations = s.declarations →
      (run.initialValue f.typeName f.bounds f.initializer).Exhausts u := by
    intro u hu
    rw [hbounds, hinit]
    exact (hnext fields' u hu).bind _
  have hset : ∀ r u, u.declarations = s.declarations →
      (run.setFields r base.fields).Exhausts u := by
    intro r u hu
    rw [hfields]
    exact (hvalue u hu).bind _
  have hall : ∀ r u, u.declarations = s.declarations →
      (run.setAllFields r (u.classTable.chain c.name).reverse).Exhausts u := by
    intro r u hu
    rw [State.classTable_of_declarations hu, hchain]
    exact Exhausts.bind (Exhausts.inContext (hset r _ hu)) _
  have hdeclared : (run.declaredInstance c []).Exhausts t := by
    refine exhausts_of_ok rfl (exhausts_of_ok rfl ?_)
    refine Exhausts.bind (hall _ _ ?_) _
    exact ht
  have hinstance : (run.instantiate name [] fields).Exhausts t := by
    refine exhausts_of_ok rfl ?_
    rw [State.class?_of_declarations ht, hc]
    exact hdeclared.bind _
  refine exhausts_of_ok rfl ?_
  exact hinstance.bind _

/-- A class whose instances lead to one another without end cannot be built. -/
theorem endless_of_neverBuilt {s : State} {name : String} (h : s.NeverBuilt name)
    (fields : List (String × Expr)) : Endless (·.eval (.new name [] fields)) s := by
  obtain ⟨visited, hname, hnext⟩ := h
  intro fuel
  have hrun : ∀ a, visited a → ∀ fields t, t.declarations = s.declarations →
      ((withFuel fuel).eval (.new a [] fields)).Exhausts t := by
    induction fuel with
    | zero => exact fun _ _ _ t _ => ⟨t, rfl⟩
    | succ fuel ih =>
      intro a ha fields t ht
      obtain ⟨b, hb, hbegins⟩ := hnext a ha
      exact exhausts_of_beginsWith (ih b hb) hbegins ht fields
  exact hrun name hname fields s rfl

/-! ### The main result -/

/-- From every state in which the declared procedures have no loops and the classes are layered, all
that a host asks for ends: evaluations, statements without loops, and calls of procedures, however
they recurse. Classes that are not layered are not safe: where building instances leads from class
to class without end, no frame is ever entered that would be refused, and evaluating `New` uses up
any fuel. -/
theorem loop_free_runs_end (s : State) :
    (s.LoopFree → s.Layered →
      (∀ e, Terminates (·.eval e) s) ∧
      (∀ t : Stmt, t.LoopFree → Terminates (·.exec t) s) ∧
      (∀ statements, (∀ t ∈ statements, Stmt.LoopFree t) → Terminates (·.runTop statements) s) ∧
      ∀ name args, Terminates (·.callProcedure name args) s) ∧
    ∀ name, s.NeverBuilt name → ∀ fields, Endless (·.eval (.new name [] fields)) s := by
  refine ⟨?_, fun name h fields => endless_of_neverBuilt h fields⟩
  intro hloopFree hlayered
  obtain ⟨rank, b, hs⟩ := State.exists_tame hloopFree hlayered
  refine ⟨fun e => ?_, fun t ht => ?_, fun statements hstatements => ?_, fun name args => ?_⟩
  · refine terminates_of_covered (b.part s.headroom b.ranks (sizeOf e)) hs ?_ fun run run' h => ?_
    · exact b.call_lt_part _ _ _
    · exact h.eval ⟨b.ranks, fun name _ => hs.fits.rank name, Nat.le_refl _⟩
  · refine terminates_of_covered (b.part s.headroom b.ranks (sizeOf t)) hs ?_ fun run run' h => ?_
    · exact b.call_lt_part _ _ _
    · exact h.exec ⟨ht, Nat.le_refl _⟩
  · refine terminates_of_covered (b.part s.headroom b.ranks (sizeOf statements)) hs ?_
      fun run run' h => h.runTop fun t ht => ⟨hstatements t ht, ?_⟩
    · exact b.call_lt_part _ _ _
    · exact b.part_le_part (Nat.le_of_lt (List.sizeOf_lt_of_mem ht))
  · exact terminates_of_covered _ hs (Nat.le_refl _) fun run run' h => h.callProcedure name args

/-- A class with some fields. -/
def classWith (name : String) (fields : List VariableDecl) : ClassInfo where
  name := name
  inherits := ""
  fields := fields
  methods := []
  properties := []
  events := []
  moduleName := ""
  isPartial := false

/-- A class with a field for a new instance of another one. -/
def pair : ClassInfo := classWith "pair" [⟨"first", "leaf", [], some (.new "leaf" [] [])⟩]

/-- A procedure that calls itself. -/
def selfCaller : ProcedureEntry :=
  ⟨⟨"Sub", "f", [], "", [.call (.call "f" [])], [], false⟩, ""⟩

/-- A program in which a procedure calls itself and a class contains another one. -/
def nested : State where
  procedures := .ofList [("f", selfCaller)]
  classes := .ofList [("leaf", classWith "leaf" []), ("pair", pair)]

/-- A class with a field for a new instance of the same class. -/
def circular : State where
  classes := .ofList [("node", classWith "node" [⟨"next", "node", [], some (.new "node" [] [])⟩])]

/-- The procedure that calls itself and the class that contains another one end; the class that
contains itself does not. -/
theorem loop_free_runs_end_nested :
    Terminates (·.exec (.call (.call "f" []))) nested ∧
    Terminates (·.eval (.new "pair" [] [])) nested ∧
    Endless (·.eval (.new "node" [] [])) circular := by
  have hcall : (Stmt.call (.call "f" [])).LoopFree := .intro rfl nofun
  have hprocedures : ∀ key p, nested.procedures.find? key = some p → p = selfCaller := by
    intro key p h
    change (if "f" == key then some selfCaller else none) = some p at h
    split at h
    · exact (Option.some.inj h).symm
    · cases h
  have hclasses : ∀ key c, Table.find? nested.classes key = some c →
      c = classWith "leaf" [] ∨ key = "pair" ∧ c = pair := by
    intro key c h
    change (if "leaf" == key then some (classWith "leaf" []) else
      if "pair" == key then some pair else none) = some c at h
    split at h
    · exact .inl (Option.some.inj h).symm
    · split at h
      · next hkey => exact .inr ⟨(eq_of_beq hkey).symm, (Option.some.inj h).symm⟩
      · cases h
  have hloopFree : nested.LoopFree := by
    intro c hc
    cases hc with
    | procedure h =>
      rw [hprocedures _ _ h]
      exact fun t ht => List.mem_singleton.1 ht ▸ hcall
    | moduleGetter h => cases h
    | moduleSetter h => cases h
    | method h hm => obtain rfl | ⟨-, rfl⟩ := hclasses _ _ h <;> cases hm
    | getter h hp => obtain rfl | ⟨-, rfl⟩ := hclasses _ _ h <;> cases hp
    | setter h hp => obtain rfl | ⟨-, rfl⟩ := hclasses _ _ h <;> cases hp
  have hlayered : nested.Layered := by
    refine ⟨fun key => if key = "pair" then 1 else 0, ?_⟩
    rintro className e ⟨c, hc, c', hc', f, hf, he⟩ name hname -
    obtain rfl | ⟨hkey, rfl⟩ := hclasses _ _ hc
    · obtain rfl : c' = classWith "leaf" [] := List.mem_singleton.1 hc'
      cases hf
    · obtain rfl : c' = pair := List.mem_singleton.1 hc'
      obtain rfl := List.mem_singleton.1 hf
      obtain rfl := List.mem_singleton.1 he
      cases hname with
      | own hname =>
        obtain rfl := List.mem_singleton.1 hname
        rw [hkey]
        decide
      | part hpart => cases hpart
  have hnever : circular.NeverBuilt "node" := by
    refine ⟨(· = "node"), rfl, ?_⟩
    rintro _ rfl
    exact ⟨"node", rfl, _, _, _, _, _, rfl, rfl, rfl, rfl, _, rfl⟩
  obtain ⟨heval, hexec, -, -⟩ := (loop_free_runs_end nested).1 hloopFree hlayered
  exact ⟨hexec _ hcall, heval _, (loop_free_runs_end circular).2 "node" hnever []⟩

end Runner

end FormBasic
