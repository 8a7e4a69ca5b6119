import FormBasic.Proofs.Machine.Watch

/-!
# What a run asks for itself

A run makes requests of its runner, and the answers to these make further ones. `Runner.Always` is
about all of them, and `Runner.Requests` is about the first kind only. What always holds in a run
always holds in the answers to the requests that it makes itself, so that a statement about the
requests of a run can be followed from one request to the next.

Both are statements about how runs with different runners compare. To put them together, the
requests in question are given up with one mark, and a failed test in the answer to any other
request with another one. A run that asks for none of these requests does not end with the first
mark, and where the test always holds it does not end with the second; so it ends as it does without
marks.

## Main definitions

* `Interp.MarkedOr` — one run ends with a mark, or the two runs are the same
* `Runner.HandsOn` — what hands the marks of a runner on
* `Runner.Requests` — a run makes a request itself that passes a test

## Main results

* `Runner.Always.step` — what always holds in the answer to a request always holds in its step
* `Runner.Requests.of_always` — a run in which a test always holds asks for answers in which it does
-/

namespace FormBasic

open Interp

section
variable {α β : Type}

/-- One run ends with one of some marks, or it does the same as another one. -/
def Interp.MarkedOr (P : Int → Prop) (x y : Interp α) : Prop :=
  ∀ s, (∃ n, P n ∧ x.Marked n s) ∨ x s = y s

theorem Interp.Marked.unique {m n : Int} {x : Interp α} {s : State} (hm : x.Marked m s)
    (hn : x.Marked n s) : m = n := by
  obtain ⟨s', hrun, rfl⟩ := hm
  obtain ⟨s'', hrun', rfl⟩ := hn
  cases hrun.symm.trans hrun'
  rfl

namespace Interp.MarkedOr

variable {P : Int → Prop} {x y : Interp α}

theorem of_eq (h : x = y) : MarkedOr P x y := fun s => .inr (congrFun h s)

theorem bind {k l : α → Interp β} (hx : MarkedOr P x y) (hk : ∀ a, MarkedOr P (k a) (l a)) :
    MarkedOr P (x >>= k) (y >>= l) := by
  intro s
  obtain ⟨n, hn, hmark⟩ | heq := hx s
  · exact .inl ⟨n, hn, hmark.bind k⟩
  · cases hr : y s with
    | ok a s' =>
      unfold Marked
      rw [bind_of_ok k (heq.trans hr), bind_of_ok l hr]
      exact hk a s'
    | error e s' => exact .inr (by rw [bind_of_error k (heq.trans hr), bind_of_error l hr])

theorem found? (h : MarkedOr P x y) : MarkedOr P (Interp.found? x) (Interp.found? y) := fun s =>
  (h s).imp (fun ⟨n, hn, hmark⟩ => ⟨n, hn, hmark.found?⟩) fun heq => by
    simp only [Interp.found?, heq]

theorem attempt (h : MarkedOr P x y) : MarkedOr P (Interp.attempt x) (Interp.attempt y) := fun s =>
  (h s).imp (fun ⟨n, hn, hmark⟩ => ⟨n, hn, hmark.attempt⟩) fun heq => by
    simp only [Interp.attempt, heq]

theorem onFailure (f : Failure → Failure) (h : MarkedOr P x y) :
    MarkedOr P (Interp.onFailure f x) (Interp.onFailure f y) := fun s =>
  (h s).imp (fun ⟨n, hn, hmark⟩ => ⟨n, hn, hmark.onFailure f⟩) fun heq => by
    simp only [Interp.onFailure, heq]

theorem inContext (d : Detour) (h : MarkedOr P x y) :
    MarkedOr P (Interp.inContext d x) (Interp.inContext d y) := fun s =>
  (h { s with context := d.enter s.context }).imp
    (fun ⟨n, hn, hmark⟩ => ⟨n, hn, hmark.inContext⟩) fun heq => by
      simp only [Interp.inContext, heq]

theorem inScope (h : MarkedOr P x y) : MarkedOr P (Interp.inScope x) (Interp.inScope y) := fun s =>
  (h { s with scopes := s.scopes.push }).imp
    (fun ⟨n, hn, hmark⟩ => ⟨n, hn, hmark.inScope⟩) fun heq => by
      simp only [Interp.inScope, heq]

theorem inCall (c : Callable) (self : Option ObjectRef) (classContext : String)
    (h : MarkedOr P x y) :
    MarkedOr P (Interp.inCall c self classContext x) (Interp.inCall c self classContext y) := by
  intro s
  unfold Marked
  rw [inCall_apply, inCall_apply]
  split
  · exact .inr rfl
  · exact (h.onFailure (·.leave c.name)).inScope.inContext (c.detour self classContext) s

/-- A run that bears none of the marks does the same as the other one. -/
theorem eq_of_unmarked {s : State} (h : MarkedOr P x y) (hx : ∀ n, P n → ¬ x.Marked n s) :
    x s = y s :=
  (h s).resolve_left fun ⟨n, hn, hmark⟩ => hx n hn hmark

end Interp.MarkedOr

end

/-- Ending with a mark, or else doing the same, is a relation that sessions respect. -/
def markedRelation (P : Int → Prop) : SessionRelation where
  Rel := MarkedOr P
  quiet _ := .of_eq rfl
  bind := MarkedOr.bind
  read _ h := .bind (.of_eq rfl) fun s => h s trivial
  bindCurrent _ _ := .of_eq rfl
  bindGlobal _ _ := .of_eq rfl
  foundOr _ h := h.found?.bind fun _ => .of_eq rfl
  entering _ h := h.inContext _
  inCall := MarkedOr.inCall
  outOfFuel := .of_eq rfl
  administer _ := .of_eq rfl

theorem markedRelation_admits (P : Int → Prop) (q : Request) : (markedRelation P).Admits q where
  rebinds _ := fun _ _ => MarkedOr.of_eq rfl
  forgives _ := MarkedOr.found?
  catches _ := MarkedOr.attempt
  rethrows _ := fun _ => MarkedOr.of_eq rfl

namespace Runner

/-- What is done with a runner hands its marks on: with two runners that are the same up to marks it
is the same up to marks. -/
def HandsOn {α : Type} (x : Runner → Interp α) : Prop :=
  ∀ {P : Int → Prop} {run run' : Runner}, Related (markedRelation P).toRunRelation run run' →
    MarkedOr P (x run) (x run')

theorem handsOn_answer (q : Request) : HandsOn (·.answer q) := fun h => h.answer q

theorem handsOn_step (q : Request) : HandsOn (·.step q) := fun h =>
  h.step (markedRelation_admits _ q)

variable {α : Type} {x : Runner → Interp α} {test : Test} {fuel : Nat} {n : Int} {s : State}

/-! ### Marks in place of answers -/

/-- Where a watched run ends with a mark if its test fails, it does not matter what another one
does, as long as its test passes wherever the first one does. -/
theorem related_watched_marked {test' : Test}
    (htest : ∀ q s r, test q s r = true → test' q s r = true) (alarm : Alarm) (fuel : Nat) :
    Related (markedRelation (· = n)).toRunRelation (watched test (fun _ => mark n) fuel)
      (watched test' alarm fuel) := by
  refine related_watched (fun {run run'} hrel q s => ?_) fuel
  by_cases hpass : test q s (run.step q s) = true
  · have hfirst : tested test (fun _ => mark n) q (run.step q) s = run.step q s := if_pos hpass
    unfold Marked
    rw [hfirst]
    refine (hrel.step (markedRelation_admits _ q) s).imp_right fun hstep => ?_
    rw [hstep] at hpass ⊢
    exact (if_pos (htest q s _ hpass)).symm
  · have hfirst : tested test (fun _ => mark n) q (run.step q) s = mark n s := if_neg hpass
    exact .inl ⟨n, rfl, _, hfirst, rfl⟩

/-- Answers with marks for failed tests are those of the runner without tests, up to the marks. -/
theorem related_marked_withFuel (test : Test) (n : Int) (fuel : Nat) :
    Related (markedRelation (· = n)).toRunRelation (watched test (fun _ => mark n) fuel)
      (withFuel fuel) := by
  rw [← watched_true (fun _ => mark n) fuel]
  exact related_watched_marked (fun _ _ _ _ => rfl) _ fuel

/-- A run ends with the mark that is made where a test fails, or the test always holds in it. -/
theorem marked_or_always (hx : HandsOn x) (test : Test) (fuel : Nat) (n : Int) (s : State) :
    (x (watched test (fun _ => mark n) fuel)).Marked n s ∨ Always test fuel x s := by
  refine Classical.or_iff_not_imp_left.2 fun hunmarked alarm => ?_
  have hnone : ∀ m, m = n → ¬ (x (watched test (fun _ => mark n) fuel)).Marked m s := by
    rintro _ rfl
    exact hunmarked
  have hplain := (hx (related_marked_withFuel test n fuel)).eq_of_unmarked hnone
  have halarm := (hx (related_watched_marked (fun _ _ _ h => h) alarm fuel)).eq_of_unmarked hnone
  exact halarm.symm.trans hplain

/-- What always holds in the answer to a request always holds in its step. -/
theorem Always.step {q : Request} (h : Always test (fuel + 1) (·.answer q) s) :
    Always test fuel (·.step q) s := by
  -- a mark that the run without tests does not end with
  let n := (((withFuel (fuel + 1)).answer q).after s).foreground + 1
  refine (marked_or_always (handsOn_step q) test fuel n s).resolve_left fun hmark => ?_
  have hanswer : ((watched test (fun _ => mark n) (fuel + 1)).answer q).Marked n s := by
    rw [watched, answer_ofAnswers]
    unfold Marked tested
    split
    · exact hmark
    · exact ⟨_, rfl, rfl⟩
  have hsame : (watched test (fun _ => mark n) (fuel + 1)).answer q s =
      (withFuel (fuel + 1)).answer q s := h fun _ => mark n
  unfold Marked at hanswer
  rw [hsame] at hanswer
  refine not_marked_of_after_ne ?_ hanswer
  show _ ≠ _ + 1
  omega

/-! ### Requests of a run itself -/

/-- A run makes a request itself that passes a test; `Asks` is the case of the run of a step. -/
def Requests (test : Test) (fuel : Nat) (x : Runner → Interp α) (s : State) : Prop :=
  ∃ alarm : Alarm, x (overseen (fun q s r => !test q s r) alarm (withFuel fuel)) s ≠
    x (withFuel fuel) s

/-- Runners whose answers are related are related. -/
theorem Related.of_answer {L : RunRelation} {run run' : Runner} (hfuel : run.fuel = run'.fuel)
    (h : ∀ q, L.Rel (run.answer q) (run'.answer q)) : Related L run run' where
  fuel := hfuel
  eval e := h (.eval e)
  exec s := h (.exec s)
  invoke c self classContext args := h (.invoke c self classContext args)
  assignBound name v := h (.assign name v)

theorem fuel_watched (test : Test) (alarm : Alarm) (fuel : Nat) :
    (watched test alarm fuel).fuel = fuel := by
  cases fuel <;> rfl

/-- An answer that passes the test is the one that the runner gives. -/
theorem overseen_of_pass {run : Runner} {alarm : Alarm} {q : Request}
    (h : test q s (run.answer q s) = true) :
    (overseen test alarm run).answer q s = run.answer q s := by
  rw [overseen, answer_ofAnswers]
  exact if_pos h

theorem overseen_of_fail {run : Runner} {alarm : Alarm} {q : Request}
    (h : test q s (run.answer q s) = false) :
    (overseen test alarm run).answer q s = alarm q s := by
  rw [overseen, answer_ofAnswers]
  exact if_neg (by rw [h]; exact Bool.false_ne_true)

/-- A runner is its fuel and its answers. -/
theorem ext_answer {run run' : Runner} (hfuel : run.fuel = run'.fuel)
    (h : ∀ q s, run.answer q s = run'.answer q s) : run = run' := by
  have hanswer : run.answer = run'.answer := funext fun q => funext (h q)
  have hof : ofAnswers run.fuel run.answer = ofAnswers run'.fuel run'.answer := by
    rw [hfuel, hanswer]
  exact hof

/-- What passes a test passes a weaker one. -/
theorem Requests.mono {g : Test}
    (hg : ∀ q s, test q s ((withFuel fuel).answer q s) = true →
      g q s ((withFuel fuel).answer q s) = true)
    (h : Requests test fuel x s) : Requests g fuel x s := by
  obtain ⟨alarm, hdiffers⟩ := h
  -- an alarm for the weaker test that is silent where the first test fails
  let first := overseen (fun q s r => !test q s r) alarm (withFuel fuel)
  refine ⟨first.answer, ?_⟩
  have hsame : overseen (fun q s r => !g q s r) first.answer (withFuel fuel) = first := by
    refine ext_answer rfl fun q s => ?_
    cases hpass : g q s ((withFuel fuel).answer q s) with
    | true => exact overseen_of_fail (by rw [hpass]; rfl)
    | false =>
      have hfail : test q s ((withFuel fuel).answer q s) = false :=
        Bool.eq_false_iff.2 fun ht => Bool.false_ne_true (hpass.symm.trans (hg q s ht))
      rw [overseen_of_pass (by rw [hpass]; rfl)]
      exact (overseen_of_pass (by rw [hfail]; rfl)).symm
  rwa [hsame]

/-- A runner that ends with a mark where a request of a kind is made of it is the same as another
one up to marks, if the mark is one of them or the other one ends with it as well, and if the two
are the same up to marks for all other requests. -/
theorem related_overseen_marked {P : Int → Prop} {kind : Request → State → Bool} {m : Int}
    {run run' : Runner} (hfuel : run.fuel = run'.fuel)
    (hasked : ∀ q s, kind q s = true → P m ∨ run'.answer q s = mark m s)
    (hother : ∀ q s, kind q s = false →
      (∃ k, P k ∧ (run.answer q).Marked k s) ∨ run.answer q s = run'.answer q s) :
    Related (markedRelation P).toRunRelation
      (overseen (fun q s _ => !kind q s) (fun _ => mark m) run) run' := by
  refine .of_answer hfuel fun q s => ?_
  unfold Marked
  cases hkind : kind q s with
  | true =>
    rw [overseen_of_fail (by rw [hkind]; rfl)]
    exact (hasked q s hkind).imp (fun hm => ⟨m, hm, _, rfl, rfl⟩) Eq.symm
  | false =>
    rw [overseen_of_pass (by rw [hkind]; rfl)]
    exact hother q s hkind

/-- The runner that ends with one mark where a request is made of it that passes a test in the run
without tests, and with another one where a second test fails in the answer to another request. -/
def marking (g test : Test) (m n : Int) (fuel : Nat) : Runner :=
  overseen (fun q s _ => !g q s ((withFuel fuel).answer q s)) (fun _ => mark m)
    (watched test (fun _ => mark n) fuel)

/-- Where the second test always holds, its mark is not made. -/
theorem marked_of_always {g : Test} {m : Int} (hx : HandsOn x) (hall : Always test fuel x s) :
    (x (marking g test m n fuel)).Marked m s ∨
      x (marking g test m n fuel) s = x (withFuel fuel) s := by
  have hrel : Related (markedRelation (· = m)).toRunRelation (marking g test m n fuel)
      (watched test (fun _ => mark n) fuel) :=
    related_overseen_marked rfl (fun _ _ _ => .inl rfl) fun _ _ _ => .inr rfl
  refine (hx hrel s).imp (fun ⟨_, hk, hmark⟩ => hk ▸ hmark) fun heq => ?_
  exact heq.trans (hall fun _ => mark n)

/-- Where nothing is asked for that passes the first test, its mark is not made. -/
theorem marked_of_not_requests {g : Test} {m : Int} (hx : HandsOn x)
    (hnone : ¬ Requests g fuel x s) :
    (x (marking g test m n fuel)).Marked n s ∨
      x (marking g test m n fuel) s = x (withFuel fuel) s := by
  have hrel : Related (markedRelation (· = n)).toRunRelation (marking g test m n fuel)
      (overseen (fun q s r => !g q s r) (fun _ => mark m) (withFuel fuel)) := by
    refine related_overseen_marked (fuel_watched ..) (fun q s hg => .inr ?_) fun q s hg => ?_
    · exact overseen_of_fail (by rw [hg]; rfl)
    · rw [overseen_of_pass (by rw [hg]; rfl)]
      exact (related_marked_withFuel test n fuel).answer q s
  refine (hx hrel s).imp (fun ⟨_, hk, hmark⟩ => hk ▸ hmark) fun heq => ?_
  exact heq.trans (Classical.byContradiction fun hne => hnone ⟨_, hne⟩)

open Classical in
/-- If a test always holds in a run that makes a request itself, then the run makes such a request
in whose answer the test always holds. -/
theorem Requests.of_always {g : Test} (hx : HandsOn x) (hall : Always test fuel x s)
    (hrequests : Requests g fuel x s) :
    Requests (fun q s r => g q s r && decide (Always test fuel (·.answer q) s)) fuel x s := by
  refine Classical.byContradiction fun hnone => ?_
  obtain ⟨alarm, hdiffers⟩ := hrequests
  -- two marks that the run without tests does not end with
  let m := ((x (withFuel fuel)).after s).foreground + 1
  let n := ((x (withFuel fuel)).after s).foreground + 2
  let both : Test := fun q s r => g q s r && decide (Always test fuel (·.answer q) s)
  let run := marking both test m n fuel
  have hsame : x run s = x (withFuel fuel) s := by
    obtain hmark | heq := marked_of_always (g := both) (m := m) (n := n) hx hall
    · refine (marked_of_not_requests hx hnone).resolve_left fun hmark' => ?_
      exact absurd (hmark.unique hmark') (by omega)
    · exact heq
  have hunmarked : ∀ k, k = m ∨ k = n → ¬ (x run).Marked k s := by
    intro k hk
    refine not_marked_of_after_ne ?_
    rw [after_congr hsame]
    omega
  -- what passes the first test bears the first mark, or the second one in its answer
  have hrel : Related (markedRelation fun k => k = m ∨ k = n).toRunRelation run
      (overseen (fun q s r => !g q s r) alarm (withFuel fuel)) := by
    refine related_overseen_marked (fuel_watched ..) (fun _ _ _ => .inl (.inl rfl))
      fun q s hboth => ?_
    cases hg : g q s ((withFuel fuel).answer q s) with
    | false =>
      rw [overseen_of_pass (by rw [hg]; rfl)]
      refine ((related_marked_withFuel test n fuel).answer q s).imp_left ?_
      exact fun ⟨k, hk, hmark⟩ => ⟨k, .inr hk, hmark⟩
    | true =>
      have hfails : ¬ Always test fuel (·.answer q) s := by simpa [both, hg] using hboth
      refine .inl ⟨n, .inr rfl, ?_⟩
      exact (marked_or_always (handsOn_answer q) test fuel n s).resolve_right hfails
  exact hdiffers (((hx hrel).eq_of_unmarked hunmarked).symm.trans hsame)

end Runner

end FormBasic
