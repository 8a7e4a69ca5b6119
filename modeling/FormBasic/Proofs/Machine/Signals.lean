import FormBasic.Proofs.Machine.Nesting

/-!
# The jumps that escape from a statement

`Exit`, `Continue` and `Return` leave the block in which they stand, and with it all statements up
to the one that takes the jump. Which statement this is can be read off the text. So can the jumps
that no part of a statement takes, which are said to *escape* from it.

The machine has no jumps, only signals: a statement ends with one, and whoever has run the statement
looks at it. That the two come to the same is a contract for every construct. A construct that
loses a signal, or makes one up, repeats or leaves out statements without a failure. The contract
says that a statement ends normally or with a jump that escapes from it, whatever the state and
whatever is called on the way: the body of a procedure has jumps of its own, but they are not part
of the statement that calls the procedure, and so the statements after the call are executed.

## Main definitions

* `Stmt.takes` — the jumps that a statement takes from its blocks
* `Stmt.escapes` — the jumps that escape from a statement
* `Runner.Honest` — statements end normally or with jumps that escape from them

## Main results

* `Runner.Honest.execStep` — one step keeps the contract
* `Runner.signal_escapes` — so all runs do
-/

namespace FormBasic

/-! ### Jumps -/

/-- A jump out of the block in which it stands. -/
inductive Jump where
  | exit (kind : BlockKind)
  | next (kind : BlockKind)
  | leave
deriving Repr, DecidableEq

/-- Whether a jump leads to the end or the next round of a construct of a kind. -/
def Jump.isFor (kind : BlockKind) : Jump → Bool
  | .exit k => k == kind
  | .next k => k == kind
  | .leave => false

/-- The jump that a signal stands for. -/
def Signal.jump? : Signal → Option Jump
  | .normal => none
  | .exit kind => some (.exit kind)
  | .next kind => some (.next kind)
  | .returned _ => some .leave

namespace Stmt

/-- The jump that a statement is. -/
def jump? : Stmt → Option Jump
  | .exitBlock kind => some (.exit kind)
  | .continueLoop kind => some (.next kind)
  | .returnValue _ => some .leave
  | _ => none

/-- Whether a statement takes a jump from its blocks. -/
def takes : Stmt → Jump → Bool
  | .forTo _ _ _ _ _, j => j.isFor .forLoop
  | .forEach _ _ _, j => j.isFor .forLoop
  | .whileLoop _ _, j => j.isFor .whileLoop
  | .doLoop _ _ _, j => j.isFor .doLoop
  | .select _ _ _, j => j == .exit .select
  | .tryCatch _ _ _, j => j == .exit .tryBlock
  | _, _ => false

/-- The jumps that escape from a statement: the one that it is, and those that escape from the
statements in its blocks and that it does not take. -/
def escapes (s : Stmt) : List Jump :=
  s.jump?.toList ++ (s.blocks.attach.flatMap fun ⟨b, _⟩ =>
    b.attach.flatMap fun ⟨t, _⟩ => t.escapes).filter (!s.takes ·)
termination_by sizeOf s
decreasing_by exact Nat.lt_trans (List.sizeOf_lt_of_mem ‹_›) (sizeOf_lt_of_mem_blocks ‹_›)

theorem mem_escapes {s : Stmt} {j : Jump} :
    j ∈ s.escapes ↔ s.jump? = some j ∨
      (∃ b ∈ s.blocks, j ∈ b.flatMap escapes) ∧ s.takes j = false := by
  rw [escapes]
  simp

/-- Nothing escapes from a statement without blocks that is no jump, such as a call. -/
theorem escapes_eq_nil {s : Stmt} (hjump : s.jump? = none) (hblocks : s.blocks = []) :
    s.escapes = [] := by
  refine List.eq_nil_iff_forall_not_mem.2 fun j hj => ?_
  rw [mem_escapes, hjump, hblocks] at hj
  rcases hj with hj | ⟨⟨b, hb, -⟩, -⟩
  · cases hj
  · cases hb

example : (whileLoop (.variable "busy") [select (.variable "n")
    [⟨[], [exitBlock .select, continueLoop .whileLoop]⟩] (some [exitBlock .sub])]).escapes =
    [.exit .sub] := by
  cbv

end Stmt

/-! ### Results -/

namespace Interp

variable {α β : Type} {P Q : α → Prop} {R : β → Prop} {x : Interp α}

/-- A run ends with a result of some kind, if it ends with a result at all. -/
def EndsWith (P : α → Prop) (x : Interp α) : Prop := ∀ s a s', x s = .ok a s' → P a

namespace EndsWith

theorem mono (h : x.EndsWith P) (hPQ : ∀ a, P a → Q a) : x.EndsWith Q :=
  fun s a s' hx => hPQ a (h s a s' hx)

theorem anything (x : Interp α) : x.EndsWith fun _ => True := fun _ _ _ _ => trivial

theorem pure {a : α} (ha : P a) : (Pure.pure a : Interp α).EndsWith P := by
  intro s b s' h
  cases h
  exact ha

theorem throw (e : Halt) : (MonadExcept.throw e : Interp α).EndsWith P :=
  fun _ _ _ h => nomatch h

theorem bind {k : α → Interp β} (hx : x.EndsWith P) (hk : ∀ a, P a → (k a).EndsWith R) :
    (x >>= k).EndsWith R := by
  intro s b s' h
  change EStateM.bind x k s = _ at h
  unfold EStateM.bind at h
  split at h
  next a s₁ ha => exact hk a (hx s a s₁ ha) s₁ b s' h
  next => cases h

/-- What a run ends with may be up to its last part alone. -/
theorem last {k : α → Interp β} (hk : ∀ a, (k a).EndsWith R) : (x >>= k).EndsWith R :=
  bind (anything x) fun a _ => hk a

theorem ite {c : Prop} [Decidable c] {y : Interp α} (hx : x.EndsWith P) (hy : y.EndsWith P) :
    (if c then x else y).EndsWith P := by
  split
  · exact hx
  · exact hy

theorem inContext {d : Detour} (hx : x.EndsWith P) : (Interp.inContext d x).EndsWith P := by
  intro s a s' h
  unfold Interp.inContext at h
  split at h
  next ha =>
    cases h
    exact hx _ _ _ ha
  next => cases h

/-- An attempt ends with a result of the run, or with a failure. -/
theorem attempt (hx : x.EndsWith P) :
    (Interp.attempt x).EndsWith fun outcome => ∀ a, outcome = .ok a → P a := by
  intro s outcome s' h a ha
  subst ha
  unfold Interp.attempt at h
  split at h
  next b s₁ hb =>
    cases h
    exact hx _ _ _ hb
  all_goals cases h

theorem resume {outcome : Except Failure α} (h : ∀ a, outcome = .ok a → P a) :
    (Interp.resume outcome).EndsWith P := by
  cases outcome with
  | ok a => exact pure (h a rfl)
  | error f => exact throw _

end EndsWith

end Interp

/-! ### Signals -/

/-- The jump that a signal stands for is one of some jumps. -/
def Signal.Among (js : Jump → Prop) (signal : Signal) : Prop := ∀ j, signal.jump? = some j → js j

namespace Signal.Among

variable {js ks : Jump → Prop} {signal : Signal}

theorem normal : Signal.normal.Among js := fun _ h => nomatch h

theorem mono (h : signal.Among js) (hjs : ∀ j, js j → ks j) : signal.Among ks :=
  fun j hj => hjs j (h j hj)

/-- A construct that takes `Exit` of a kind takes this jump alone. -/
theorem leave {kind : BlockKind} (h : signal.Among js) :
    (signal.leave kind).Among fun j => js j ∧ j ≠ .exit kind := by
  intro j hj
  cases signal with
  | exit k =>
    simp only [Signal.leave] at hj
    split at hj
    · cases hj
    next hk =>
      refine ⟨h j hj, ?_⟩
      rintro rfl
      cases hj
      exact hk (beq_self_eq_true _)
  | normal => cases hj
  | next k =>
    refine ⟨h j hj, ?_⟩
    rintro rfl
    cases hj
  | returned v =>
    refine ⟨h j hj, ?_⟩
    rintro rfl
    cases hj

end Signal.Among

/-- A statement or a block ends normally or with one of some jumps. -/
abbrev Interp.JumpsBy (js : Jump → Prop) (x : Interp Signal) : Prop :=
  x.EndsWith (Signal.Among js)

theorem Interp.JumpsBy.mono {js ks : Jump → Prop} {x : Interp Signal} (h : x.JumpsBy js)
    (hjs : ∀ j, js j → ks j) : x.JumpsBy ks :=
  EndsWith.mono h fun _ hsignal => hsignal.mono hjs

namespace Runner

variable {run : Runner}

/-- Statements end normally or with jumps that escape from them. -/
def Honest (run : Runner) : Prop := ∀ t : Stmt, (run.exec t).JumpsBy (· ∈ t.escapes)

section
variable {js : Jump → Prop}

theorem jumpsBy_done {α : Type} (x : Interp α) : (done x).JumpsBy js :=
  .last fun _ => .pure .normal

/-- A thrown exception is no signal. -/
theorem jumpsBy_throwValue (run : Runner) (value : Option Expr) :
    (run.throwValue value).JumpsBy js := by
  cases value with
  | none =>
    refine .last fun s => ?_
    cases s.context.exceptions with
    | nil => exact .throw _
    | cons r rs => exact .throw _
  | some e =>
    refine .last fun v => ?_
    cases v with
    | text message => exact .last fun _ => .throw _
    | _ => exact .throw _

end

/-- The block that a value chooses is one of those that are written. -/
theorem endsWith_caseBlock (run : Runner) (test : Value) (otherwise : List Stmt)
    (cases : List CaseClause) :
    (run.caseBlock test otherwise cases).EndsWith (· ∈ otherwise :: cases.map (·.body)) := by
  induction cases with
  | nil => exact .pure List.mem_cons_self
  | cons c cs ih =>
    refine .last fun meets => .ite (.pure ?_) (ih.mono fun b hb => ?_)
    · exact List.mem_cons_of_mem _ List.mem_cons_self
    · rcases List.mem_cons.1 hb with rfl | hb
      · exact List.mem_cons_self
      · exact List.mem_cons_of_mem _ (List.mem_cons_of_mem _ hb)

namespace Honest

variable (h : run.Honest)
include h

/-! ### Blocks -/

theorem block (b : List Stmt) : (run.block b).JumpsBy (· ∈ b.flatMap Stmt.escapes) := by
  induction b with
  | nil => exact .pure .normal
  | cons t b ih =>
    refine .bind (h t) fun signal hsignal => ?_
    rw [List.flatMap_cons]
    cases signal with
    | normal => exact ih.mono fun _ => List.mem_append_right _
    | _ => exact .pure (hsignal.mono fun _ => List.mem_append_left _)

theorem elseBranches {js : Jump → Prop} {otherwise : List Stmt}
    (ho : ∀ j ∈ otherwise.flatMap Stmt.escapes, js j) {bs : List ElseIf}
    (hbs : ∀ b ∈ bs, ∀ j ∈ b.body.flatMap Stmt.escapes, js j) :
    (run.elseBranches otherwise bs).JumpsBy js := by
  induction bs with
  | nil => exact (h.block otherwise).mono ho
  | cons b bs ih =>
    refine .last fun holds => .ite ?_ ?_
    · exact (h.block b.body).mono (hbs b List.mem_cons_self)
    · exact ih fun c hc => hbs c (List.mem_cons_of_mem _ hc)

/-! ### Loops -/

/-- A round of a loop of a kind takes the jumps to its end and to the next round. -/
theorem round (kind : BlockKind) (body : List Stmt) :
    (run.round kind body).EndsWith fun ended => ∀ signal, ended = some signal →
      signal.Among fun j => j ∈ body.flatMap Stmt.escapes ∧ j.isFor kind = false := by
  refine .bind (h.block body) fun signal hsignal => ?_
  cases signal with
  | normal => exact .pure fun _ hended => nomatch hended
  | exit k =>
    refine .pure fun _ hended => ?_
    cases hended
    split
    · exact .normal
    next hk =>
      refine fun j hj => ⟨hsignal j hj, ?_⟩
      cases hj
      simpa [Jump.isFor] using hk
  | next k =>
    refine .pure fun _ hended => ?_
    split at hended
    · cases hended
    next hk =>
      cases hended
      refine fun j hj => ⟨hsignal j hj, ?_⟩
      cases hj
      simpa [Jump.isFor] using hk
  | returned v =>
    refine .pure fun _ hended => ?_
    cases hended
    refine fun j hj => ⟨hsignal j hj, ?_⟩
    cases hj
    rfl

section
variable (body : List Stmt)

theorem forRounds (name : String) (stop step : Value) (stepNumber : Float) (fuel : Nat) :
    (run.forRounds name stop step stepNumber body fuel).JumpsBy fun j =>
      j ∈ body.flatMap Stmt.escapes ∧ j.isFor .forLoop = false := by
  induction fuel with
  | zero => exact .throw _
  | succ fuel ih =>
    refine .last fun current => .last fun order => .ite (.pure .normal) ?_
    refine .bind (h.round .forLoop body) fun ended hended => ?_
    cases ended with
    | some signal => exact .pure (hended signal rfl)
    | none => exact .last fun _ => .last fun _ => .last fun _ => ih

theorem forTo (name : String) (start stop : Expr) (step : Option Expr) :
    (run.forTo name start stop step body).JumpsBy fun j =>
      j ∈ body.flatMap Stmt.escapes ∧ j.isFor .forLoop = false := by
  refine .last fun start => .last fun stop => ?_
  have hrounds (step : Value) : Interp.JumpsBy (fun j =>
      j ∈ body.flatMap Stmt.escapes ∧ j.isFor .forLoop = false) (do
        let stepNumber ← Interp.lift step.asDouble
        run.assignOrDefine name start
        run.forRounds name stop step stepNumber body run.fuel) :=
    .last fun _ => .last fun _ => h.forRounds body name stop step _ _
  cases step with
  | none => exact .last hrounds
  | some e => exact .last hrounds

theorem eachRounds (name : String) (vs : List Value) :
    (run.eachRounds name body vs).JumpsBy fun j =>
      j ∈ body.flatMap Stmt.escapes ∧ j.isFor .forLoop = false := by
  induction vs with
  | nil => exact .pure .normal
  | cons v vs ih =>
    refine .last fun _ => .bind (h.round .forLoop body) fun ended hended => ?_
    cases ended with
    | some signal => exact .pure (hended signal rfl)
    | none => exact ih

theorem forEach (name : String) (collection : Expr) :
    (run.forEach name collection body).JumpsBy fun j =>
      j ∈ body.flatMap Stmt.escapes ∧ j.isFor .forLoop = false := by
  refine .last fun v => .last fun s => ?_
  cases s.heap.itemsFrom run.fuel v with
  | none => exact .throw _
  | some items => exact .last fun items => h.eachRounds body name items

theorem whileRounds (condition : Expr) (fuel : Nat) :
    (run.whileRounds condition body fuel).JumpsBy fun j =>
      j ∈ body.flatMap Stmt.escapes ∧ j.isFor .whileLoop = false := by
  induction fuel with
  | zero => exact .throw _
  | succ fuel ih =>
    refine .last fun _ => .ite ?_ (.pure .normal)
    refine .bind (h.round .whileLoop body) fun ended hended => ?_
    cases ended with
    | some signal => exact .pure (hended signal rfl)
    | none => exact ih

theorem doRounds (pre post : Option LoopCondition) (fuel : Nat) :
    (run.doRounds pre post body fuel).JumpsBy fun j =>
      j ∈ body.flatMap Stmt.escapes ∧ j.isFor .doLoop = false := by
  induction fuel with
  | zero => exact .throw _
  | succ fuel ih =>
    refine .last fun _ => .ite ?_ (.pure .normal)
    refine .bind (h.round .doLoop body) fun ended hended => ?_
    cases ended with
    | some signal => exact .pure (hended signal rfl)
    | none => exact .last fun _ => .ite ih (.pure .normal)

end

/-! ### Exceptions -/

theorem runCatch {js : Jump → Prop} (f : Failure) (r : ObjectRef) {cs : List CatchClause}
    (hcs : ∀ c ∈ cs, ∀ j ∈ c.body.flatMap Stmt.escapes, js j) :
    (run.runCatch f r cs).JumpsBy js := by
  induction cs with
  | nil => exact .throw _
  | cons c cs ih =>
    refine .last fun catches => .ite ?_ (ih fun c hc => hcs c (List.mem_cons_of_mem _ hc))
    exact .inContext ((h.block c.body).mono (hcs c List.mem_cons_self))

theorem guarded {js : Jump → Prop} {body : List Stmt}
    (hbody : ∀ j ∈ body.flatMap Stmt.escapes, js j) {cs : List CatchClause}
    (hcs : ∀ c ∈ cs, ∀ j ∈ c.body.flatMap Stmt.escapes, js j) :
    (run.guarded body cs).JumpsBy js := by
  refine .bind (.attempt (h.block body)) fun outcome houtcome => ?_
  split
  next signal => exact .pure ((houtcome signal rfl).mono hbody)
  next => exact .throw _
  next f _ => exact .last fun r => h.runCatch f r hcs

/-- The `Finally` block has the last word, and the statement takes `Exit Try` from all its
blocks. -/
theorem tryCatch {js : Jump → Prop} {body : List Stmt}
    (hbody : ∀ j ∈ body.flatMap Stmt.escapes, js j) {cs : List CatchClause}
    (hcs : ∀ c ∈ cs, ∀ j ∈ c.body.flatMap Stmt.escapes, js j) {cleanup : Option (List Stmt)}
    (hcleanup : ∀ j ∈ (cleanup.getD []).flatMap Stmt.escapes, js j) :
    (run.tryCatch body cs cleanup).JumpsBy fun j => js j ∧ j ≠ .exit .tryBlock := by
  refine .bind (.attempt (h.guarded hbody hcs)) fun outcome houtcome => ?_
  refine .bind (h.block _) fun final hfinal => ?_
  refine .bind (.resume houtcome) fun signal hsignal => ?_
  have hleft : (final.leave .tryBlock).Among fun j => js j ∧ j ≠ .exit .tryBlock :=
    (hfinal.mono hcleanup).leave
  split
  next => exact .pure hsignal.leave
  next => exact .pure hleft

/-! ### The step -/

/-- One step of execution keeps the contract. -/
theorem execStep (t : Stmt) : (run.execStep t).JumpsBy (· ∈ t.escapes) := by
  -- what leaves the blocks of the statement and is not taken escapes from it
  have hleft (j : Jump) (b : List Stmt) (hb : b ∈ t.blocks) (hj : j ∈ b.flatMap Stmt.escapes)
      (htakes : t.takes j = false) : j ∈ t.escapes :=
    Stmt.mem_escapes.2 (.inr ⟨⟨b, hb, hj⟩, htakes⟩)
  have hown (j : Jump) (hj : t.jump? = some j) : j ∈ t.escapes := Stmt.mem_escapes.2 (.inl hj)
  cases t with
  | ifThen condition whenTrue elseIfs whenFalse =>
    refine .last fun holds => .ite ?_ ?_
    · exact (h.block whenTrue).mono fun j hj => hleft j _ List.mem_cons_self hj rfl
    · refine h.elseBranches (fun j hj => ?_) fun b hb j hj => ?_
      · exact hleft j _ (List.mem_cons_of_mem _ List.mem_cons_self) hj rfl
      · refine hleft j _ ?_ hj rfl
        exact List.mem_cons_of_mem _ (List.mem_cons_of_mem _ (List.mem_map_of_mem hb))
  | forTo name start stop step body =>
    exact (h.forTo body name start stop step).mono fun j hj =>
      hleft j body List.mem_cons_self hj.1 hj.2
  | forEach name collection body =>
    exact (h.forEach body name collection).mono fun j hj =>
      hleft j body List.mem_cons_self hj.1 hj.2
  | whileLoop condition body =>
    exact (h.whileRounds body condition _).mono fun j hj =>
      hleft j body List.mem_cons_self hj.1 hj.2
  | doLoop pre post body =>
    exact (h.doRounds body pre post _).mono fun j hj =>
      hleft j body List.mem_cons_self hj.1 hj.2
  | select test cases otherwise =>
    refine .last fun v => .bind (endsWith_caseBlock run v _ cases) fun b hb => ?_
    refine .bind (h.block b) fun signal hsignal => .pure (hsignal.leave.mono fun j hj => ?_)
    exact hleft j b hb hj.1 (beq_false_of_ne hj.2)
  | withBlock e body =>
    exact .last fun v => .inContext ((h.block body).mono fun j hj =>
      hleft j body List.mem_cons_self hj rfl)
  | tryCatch body cs cleanup =>
    have hblocks : ∀ b ∈ (Stmt.tryCatch body cs cleanup).blocks, ∀ j ∈ b.flatMap Stmt.escapes,
        ∃ b ∈ (Stmt.tryCatch body cs cleanup).blocks, j ∈ b.flatMap Stmt.escapes :=
      fun b hb j hj => ⟨b, hb, hj⟩
    refine (h.tryCatch (hblocks body List.mem_cons_self) (fun c hc => hblocks c.body ?_)
      (hblocks _ (List.mem_cons_of_mem _ List.mem_cons_self))).mono ?_
    · exact List.mem_cons_of_mem _ (List.mem_cons_of_mem _ (List.mem_map_of_mem hc))
    · rintro j ⟨⟨b, hb, hj⟩, hne⟩
      exact hleft j b hb hj (beq_false_of_ne hne)
  | exitBlock kind => exact .pure hown
  | continueLoop kind => exact .pure hown
  | returnValue value =>
    cases value with
    | none => exact .pure hown
    | some e => exact .last fun v => .pure hown
  | throwValue value => exact jumpsBy_throwValue run value
  | _ => exact jumpsBy_done _

end Honest

/-! ### Runs -/

/-- Runs with limited fuel keep the contract, whatever they are given to run. -/
theorem honest_withFuel (fuel : Nat) : (withFuel fuel).Honest := by
  induction fuel with
  | zero => exact fun t => .throw _
  | succ fuel ih => exact ih.execStep

theorem jumpsBy_iff {js : Jump → Prop} {x : Interp Signal} :
    x.JumpsBy js ↔ ∀ s signal s', x s = .ok signal s' →
      signal = .normal ∨ ∃ j, signal.jump? = some j ∧ js j := by
  refine forall_congr' fun s => forall_congr' fun signal => forall_congr' fun s' =>
    imp_congr Iff.rfl ?_
  cases signal <;> simp [Signal.Among, Signal.jump?]

/-- A statement that ends without an error ends normally or with a jump that escapes from it, and so
does a block. In particular the statements after one from which no jump escapes are executed,
whatever procedures it calls and whatever jumps their bodies end with. -/
theorem signal_escapes (fuel : Nat) (s s' : State) (signal : Signal) :
    (∀ t, (withFuel fuel).exec t s = .ok signal s' →
      signal = .normal ∨ ∃ j, signal.jump? = some j ∧ j ∈ t.escapes) ∧
    (∀ b, (withFuel fuel).block b s = .ok signal s' →
      signal = .normal ∨ ∃ j, signal.jump? = some j ∧ ∃ t ∈ b, j ∈ t.escapes) ∧
    ∀ t rest, t.escapes = [] → (withFuel fuel).exec t s = .ok signal s' →
      (withFuel fuel).block (t :: rest) s = (withFuel fuel).block rest s' := by
  have h := honest_withFuel fuel
  refine ⟨fun t => jumpsBy_iff.1 (h t) s signal s', fun b hb => ?_, fun t rest ht hexec => ?_⟩
  · have hsignal := jumpsBy_iff.1 (h.block b) s signal s' hb
    simpa only [List.mem_flatMap] using hsignal
  · obtain rfl : signal = .normal := by
      refine (jumpsBy_iff.1 (h t) s signal s' hexec).resolve_right ?_
      rintro ⟨j, -, hj⟩
      rw [ht] at hj
      cases hj
    exact Interp.bind_of_ok _ hexec

/-- A procedure that jumps out of a loop without being in one. -/
def loopLeaver : State where
  procedures := .ofList [("f", ⟨⟨"Sub", "f", [], "", [.exitBlock .forLoop], [], false⟩, ""⟩)]

/-- The jump of the procedure is lost, and the one after the call is made. -/
theorem signal_escapes_loopLeaver :
    (Signal.exit .select = .normal ∨ ∃ j, (Signal.exit .select).jump? = some j ∧
      j ∈ (Stmt.forEach "x" (.array [.integer 1]) [.exitBlock .select]).escapes) ∧
    (Signal.exit .select = .normal ∨ ∃ j, (Signal.exit .select).jump? = some j ∧
      ∃ t ∈ [Stmt.call (.call "f" []), .exitBlock .select], j ∈ t.escapes) ∧
    (withFuel 4).block [.call (.call "f" []), .exitBlock .select] loopLeaver =
      (withFuel 4).block [.exitBlock .select] loopLeaver := by
  refine ⟨(signal_escapes 4 loopLeaver _ _).1 _ rfl, (signal_escapes 4 loopLeaver _ _).2.1 _ rfl,
    (signal_escapes 4 loopLeaver _ _).2.2 _ _ (Stmt.escapes_eq_nil rfl rfl) rfl⟩

end Runner

end FormBasic
