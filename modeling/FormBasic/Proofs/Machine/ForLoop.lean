import FormBasic.Proofs.Arithmetic
import FormBasic.Proofs.Machine.Assignment

/-!
# Counting loops

A `For` loop keeps no count of its own. Before each round it reads its variable by name and compares
the value with the end, and after each round it reads the variable again, adds the step and assigns
the sum. So what the loop does depends on what its body does to the variable. If the body leaves the
number alone, the loop counts: its body runs once for each term of the arithmetic progression that
has not passed the end.

The terms before the end are finitely many since the step is not zero, and all of them are numbers
of an `Integer`. The first one past the end need not be one. It is computed all the same, and then
the loop fails after its last round instead of ending.

Whether a number has passed the end is decided by the sign of the step, which the loop takes from
the step as a double. It is assumed of the step that the conversion keeps its sign.

## Main definitions

* `State.Holds` — a variable that holds a number
* `Runner.SettlesTo` — what a run gives as soon as there is enough fuel
* `Runner.LeavesAlone` — what is asked of the body
* `Runner.Counts` — the rounds of a loop that counts, and how it ends

## Main results

* `exists_count` — the terms that have not passed the end
* `Runner.counts_forRounds` — the rounds
* `Runner.forTo_counts` — the loop
-/

namespace FormBasic

open Interp

/-! ### Variables that hold a number -/

/-- A name stands for a variable that holds a number of an `Integer`. -/
def State.Holds (s : State) (name : String) (n : Int) : Prop :=
  s.IsVariable name ∧ ∃ word : Int32, s.data? name = some (.integer word) ∧ word.toInt = n

theorem State.Holds.bounds {s : State} {name : String} {n : Int} (h : s.Holds name n) :
    -2 ^ 31 ≤ n ∧ n < 2 ^ 31 := by
  obtain ⟨-, word, -, rfl⟩ := h
  exact Operation.toInt_integer_bounds word

/-! ### The terms -/

/-- A number has passed the end of a loop, in the direction of the step. -/
def Passed (stop step n : Int) : Prop := (0 < step ∧ stop < n) ∨ (step < 0 ∧ n < stop)

instance (stop step n : Int) : Decidable (Passed stop step n) := inferInstanceAs (Decidable (_ ∨ _))

/-- A number keeps its sign as it is converted to a double. -/
def KeepsSign (n : Int) : Prop := (Float.ofInt n ≥ 0 ↔ n ≥ 0) ∧ (Float.ofInt n < 0 ↔ n < 0)

instance (n : Int) : Decidable (KeepsSign n) := inferInstanceAs (Decidable (_ ∧ _))

section
variable {start stop step : Int}

theorem Runner.hasPassed_iff (hsign : KeepsSign step) (hstep : step ≠ 0) (n : Int) :
    hasPassed (Float.ofInt step) (compare n stop) = true ↔ Passed stop step n := by
  rw [hasPassed, Bool.or_eq_true, Bool.and_eq_true, Bool.and_eq_true, decide_eq_true_iff,
    decide_eq_true_iff, hsign.1, hsign.2, Ordering.isGT_iff_eq_gt, Ordering.isLT_iff_eq_lt,
    Int.compare_eq_gt, Int.compare_eq_lt, Passed]
  omega

/-- The terms of a progression that have not passed the end come first, and they are finitely
many. -/
theorem exists_count (start stop : Int) (hstep : step ≠ 0) :
    ∃ count : Nat, ∀ i : Nat, i < count ↔ ¬Passed stop step (start + i * step) := by
  rcases Int.lt_or_gt_of_ne hstep with hneg | hpos
  · refine ⟨((start - stop) / -step + 1).toNat, fun i => ?_⟩
    have hdiv : (i : Int) ≤ (start - stop) / -step ↔ i * -step ≤ start - stop :=
      Int.le_ediv_iff_mul_le (by omega)
    rw [Int.mul_neg] at hdiv
    rw [Passed]
    omega
  · refine ⟨((stop - start) / step + 1).toNat, fun i => ?_⟩
    have hdiv : (i : Int) ≤ (stop - start) / step ↔ i * step ≤ stop - start :=
      Int.le_ediv_iff_mul_le hpos
    rw [Passed]
    omega

end

/-! ### Runs with enough fuel -/

namespace Runner

section
variable {α β : Type} {s t : State}

/-- A run has a result as soon as there is enough fuel. -/
def SettlesTo (x : Runner → Interp α) (s : State) (r : EStateM.Result Halt State α) : Prop :=
  ∃ needed, ∀ fuel, needed ≤ fuel → x (withFuel fuel) s = r

theorem SettlesTo.bind {x : Runner → Interp α} {k : Runner → α → Interp β} {a : α}
    {r : EStateM.Result Halt State β} (hx : SettlesTo x s (.ok a t))
    (hk : SettlesTo (k · a) t r) : SettlesTo (fun run => x run >>= k run) s r := by
  obtain ⟨needed, hx⟩ := hx
  obtain ⟨needed', hk⟩ := hk
  refine ⟨max needed needed', fun fuel hfuel => ?_⟩
  exact (bind_of_ok _ (hx fuel (by omega))).trans (hk fuel (by omega))

/-- One more level of nesting needs one more unit of fuel. -/
theorem SettlesTo.succ {x y : Runner → Interp α} {r : EStateM.Result Halt State α}
    (hxy : ∀ fuel, y (withFuel (fuel + 1)) s = x (withFuel fuel) s) (hx : SettlesTo x s r) :
    SettlesTo y s r := by
  obtain ⟨needed, hx⟩ := hx
  refine ⟨needed + 1, fun fuel hfuel => ?_⟩
  obtain ⟨fuel, rfl⟩ := Nat.exists_eq_succ_of_ne_zero (Nat.ne_zero_of_lt hfuel)
  exact (hxy fuel).trans (hx fuel (Nat.le_of_succ_le_succ hfuel))

theorem settlesTo_of_succ {x : Runner → Interp α} {r : EStateM.Result Halt State α}
    (hx : ∀ fuel, x (withFuel (fuel + 1)) s = r) : SettlesTo x s r :=
  .succ (x := fun _ _ => r) hx ⟨0, fun _ _ => rfl⟩

end

end Runner

/-! ### The rounds -/

namespace Runner

/-- A body ends normally or with a `Continue For`, whatever the state is, and leaves the number
alone that the variable of the loop holds. -/
def LeavesAlone (name : String) (body : List Stmt) : Prop :=
  ∀ (s : State) (n : Int), s.Holds name n → ∃ signal t, SettlesTo (·.block body) s (.ok signal t) ∧
    (signal = .normal ∨ signal = .next .forLoop) ∧ t.Holds name n

/-- A loop runs its body once for each of a list of numbers, which the variable holds in turn. In
the end the variable holds a given number, or there is an overflow instead because this is none of
an `Integer`. -/
inductive Counts (name : String) (body : List Stmt) (past : Int) :
    List Int → State → EStateM.Result Halt State Signal → Prop
  | past {s : State} (hs : s.Holds name past) : Counts name body past [] s (.ok .normal s)
  | round {s t u : State} {n : Int} {ns : List Int} {signal : Signal} {word : Int32}
    {ended : EStateM.Result Halt State Signal} (hs : s.Holds name n)
    (hbody : SettlesTo (·.block body) s (.ok signal t))
    (hnext : SettlesTo (·.assign name (.integer word)) t (.ok () u))
    (hrest : Counts name body past ns u ended) : Counts name body past (n :: ns) s ended
  | overflow {s t : State} {n : Int} {signal : Signal} (hs : s.Holds name n)
    (hbody : SettlesTo (·.block body) s (.ok signal t))
    (hpast : ¬(-2 ^ 31 ≤ past ∧ past < 2 ^ 31)) :
    Counts name body past [n] s (.error (.failure (.runtime .overflow [])) t)

/-- It ends normally or with the overflow, whichever the number past the end asks for. -/
theorem Counts.ends {name : String} {body : List Stmt} {past : Int} {ns : List Int} {s : State}
    {ended : EStateM.Result Halt State Signal} (h : Counts name body past ns s ended) :
    (-2 ^ 31 ≤ past ∧ past < 2 ^ 31 → ∃ t, ended = .ok .normal t ∧ t.Holds name past) ∧
    (¬(-2 ^ 31 ≤ past ∧ past < 2 ^ 31) →
      ∃ t, ended = .error (.failure (.runtime .overflow [])) t) := by
  induction h with
  | past hs => exact ⟨fun _ => ⟨_, rfl, hs⟩, fun hpast => absurd hs.bounds hpast⟩
  | round _ _ _ _ ih => exact ih
  | overflow _ _ hpast => exact ⟨fun h => absurd h hpast, fun _ => ⟨_, rfl⟩⟩

variable {run : Runner} {name : String} {body : List Stmt} {b c : Int32} {n : Int} {rounds : Nat}
  {s t : State} {signal : Signal}

theorem forRounds_of_passed (hsign : KeepsSign c.toInt) (hstep : c.toInt ≠ 0)
    (hs : s.Holds name n) (hpassed : Passed b.toInt c.toInt n) :
    run.forRounds name (.integer b) (.integer c) (Float.ofInt c.toInt) body (rounds + 1) s =
      .ok .normal s := by
  obtain ⟨hname, word, hdata, rfl⟩ := hs
  rw [forRounds, bind_of_ok _ (readName_of_data? hname.1 hdata)]
  show (if hasPassed (Float.ofInt c.toInt) (compare word.toInt b.toInt) then _ else _ :
    Interp Signal) s = _
  rw [if_pos ((hasPassed_iff hsign hstep _).2 hpassed)]
  rfl

theorem forRounds_of_not_passed (hsign : KeepsSign c.toInt) (hstep : c.toInt ≠ 0)
    (hs : s.Holds name n) (hnot : ¬Passed b.toInt c.toInt n)
    (hbody : run.block body s = .ok signal t) (hsignal : signal = .normal ∨ signal = .next .forLoop)
    (ht : t.Holds name n) :
    run.forRounds name (.integer b) (.integer c) (Float.ofInt c.toInt) body (rounds + 1) s =
      (do
        run.assign name (← Operation.fitInteger (n + c.toInt))
        run.forRounds name (.integer b) (.integer c) (Float.ofInt c.toInt) body rounds :
          Interp Signal) t := by
  have hround : run.round .forLoop body s = .ok none t := by
    rw [round, bind_of_ok _ hbody]
    rcases hsignal with rfl | rfl <;> rfl
  obtain ⟨hname, word, hdata, rfl⟩ := hs
  obtain ⟨hname', word', hdata', hsame⟩ := ht
  rw [forRounds, bind_of_ok _ (readName_of_data? hname.1 hdata)]
  show (if hasPassed (Float.ofInt c.toInt) (compare word.toInt b.toInt) then _ else _ :
    Interp Signal) s = _
  rw [if_neg (mt (hasPassed_iff hsign hstep _).1 hnot), bind_of_ok _ hround]
  show (run.readName name >>= _) t = _
  rw [bind_of_ok _ (readName_of_data? hname'.1 hdata')]
  show (do
    run.assign name (← Operation.onIntegers (· + ·) word' c)
    run.forRounds name (.integer b) (.integer c) (Float.ofInt c.toInt) body rounds :
      Interp Signal) t = _
  rw [Operation.onIntegers_add, hsame]

/-- A number that is none of an `Integer` has passed the end, since the one before it is one. -/
theorem passed_of_overflow (hn : -2 ^ 31 ≤ n ∧ n < 2 ^ 31)
    (hnext : ¬(-2 ^ 31 ≤ n + c.toInt ∧ n + c.toInt < 2 ^ 31)) :
    Passed b.toInt c.toInt (n + c.toInt) := by
  have hb := Operation.toInt_integer_bounds b
  rw [Passed]
  omega

/-- The rounds of a loop, by induction on the number of terms that have not passed the end. Enough
fuel is as much as each run of the body needs, and more than there are rounds. -/
theorem counts_forRounds (hsign : KeepsSign c.toInt) (hstep : c.toInt ≠ 0)
    (hbody : LeavesAlone name body) {count : Nat}
    (hcount : ∀ i : Nat, i < count ↔ ¬Passed b.toInt c.toInt (n + i * c.toInt))
    (hs : s.Holds name n) :
    ∃ ended, Counts name body (n + count * c.toInt) (List.iterate (· + c.toInt) n count) s ended ∧
      ∃ needed, ∀ fuel rounds, needed ≤ fuel → count < rounds →
        (withFuel fuel).forRounds name (.integer b) (.integer c) (Float.ofInt c.toInt) body rounds
          s = ended := by
  induction count generalizing s n with
  | zero =>
    have hpassed : Passed b.toInt c.toInt n := by simpa using hcount 0
    rw [Int.natCast_zero, Int.zero_mul, Int.add_zero]
    refine ⟨_, .past hs, 0, fun fuel rounds _ hrounds => ?_⟩
    obtain ⟨rounds, rfl⟩ := Nat.exists_eq_succ_of_ne_zero (Nat.ne_of_gt hrounds)
    exact forRounds_of_passed hsign hstep hs hpassed
  | succ count ih =>
    have hnot : ¬Passed b.toInt c.toInt n := by simpa using hcount 0
    -- the terms that follow are those from the next one on
    have hshift : ∀ i : Nat, n + (i + 1 : Nat) * c.toInt = n + c.toInt + i * c.toInt := by
      intro i
      rw [Int.natCast_succ, Int.add_mul, Int.one_mul]
      omega
    obtain ⟨signal, t, hblock, hsignal, ht⟩ := hbody s n hs
    have ⟨needed, hneeded⟩ := hblock
    rw [hshift]
    by_cases hnext : -2 ^ 31 ≤ n + c.toInt ∧ n + c.toInt < 2 ^ 31
    · obtain ⟨word, hword⟩ : ∃ word : Int32, word.toInt = n + c.toInt :=
        ⟨_, Int32.toInt_ofInt_of_le hnext.1 hnext.2⟩
      obtain ⟨u, hassign, hname, hdata⟩ := exists_assignOr _ ht.1 (.integer word)
      have hcount' : ∀ i : Nat, i < count ↔ ¬Passed b.toInt c.toInt (n + c.toInt + i * c.toInt) :=
        fun i => by rw [← hshift, ← hcount, Nat.succ_lt_succ_iff]
      obtain ⟨ended, hrest, needed', hrounds⟩ := ih hcount' ⟨hname, word, hdata, hword⟩
      refine ⟨ended, .round hs hblock (settlesTo_of_succ hassign) hrest,
        max (needed + 1) needed', fun fuel rounds hfuel hlt => ?_⟩
      obtain ⟨fuel, rfl⟩ := Nat.exists_eq_succ_of_ne_zero (n := fuel) (by omega)
      obtain ⟨rounds, rfl⟩ := Nat.exists_eq_succ_of_ne_zero (n := rounds) (by omega)
      rw [forRounds_of_not_passed hsign hstep hs hnot (hneeded _ (by omega)) hsignal ht,
        Operation.fitInteger_eq_ok.2 ⟨word, rfl, hword⟩]
      exact (bind_of_ok _ (hassign fuel)).trans (hrounds _ _ (by omega) (by omega))
    · have hlast : count = 0 := by
        by_contra hmore
        refine (hcount 1).1 (Nat.succ_lt_succ (Nat.pos_of_ne_zero hmore)) ?_
        rw [Int.natCast_one, Int.one_mul]
        exact passed_of_overflow hs.bounds hnext
      subst hlast
      rw [Int.natCast_zero, Int.zero_mul, Int.add_zero]
      refine ⟨_, .overflow hs hblock hnext, needed, fun fuel rounds hfuel hlt => ?_⟩
      obtain ⟨rounds, rfl⟩ := Nat.exists_eq_succ_of_ne_zero (n := rounds) (by omega)
      rw [forRounds_of_not_passed hsign hstep hs hnot (hneeded _ hfuel) hsignal ht,
        Operation.fitInteger_eq_error.2 ⟨rfl, hnext⟩]
      rfl

/-- A `For` loop from a number to a number with a step that is not zero, whose variable is plain and
whose body leaves the variable alone. The body runs once for each term of the progression that has
not passed the end, in order and with the variable holding the term. If the first term past the end
is a number of an `Integer`, the loop ends normally with the variable holding it; otherwise it fails
with the overflow. -/
theorem forTo_counts (s s₁ s₂ s₃ : State) (name : String) (start stop : Expr) (step : Option Expr)
    (body : List Stmt) (a b c : Int32)
    (hstart : SettlesTo (·.eval start) s (.ok (.integer a) s₁))
    (hstop : SettlesTo (·.eval stop) s₁ (.ok (.integer b) s₂))
    (hstep : SettlesTo (fun run => step.elim (pure (.integer 1)) run.eval) s₂ (.ok (.integer c) s₃))
    (hnonzero : c.toInt ≠ 0) (hsign : KeepsSign c.toInt) (hname : s₃.IsPlain name)
    (hbody : LeavesAlone name body) :
    ∃ (count : Nat) (t : State) (ended : EStateM.Result Halt State Signal),
      (∀ i : Nat, i < count ↔ ¬Passed b.toInt c.toInt (a.toInt + i * c.toInt)) ∧
      SettlesTo (·.assignOrDefine name (.integer a)) s₃ (.ok () t) ∧
      SettlesTo (·.exec (.forTo name start stop step body)) s ended ∧
      Counts name body (a.toInt + count * c.toInt) (List.iterate (· + c.toInt) a.toInt count) t
        ended ∧
      (-2 ^ 31 ≤ a.toInt + count * c.toInt ∧ a.toInt + count * c.toInt < 2 ^ 31 →
        ∃ u, ended = .ok .normal u ∧ u.Holds name (a.toInt + count * c.toInt)) ∧
      (¬(-2 ^ 31 ≤ a.toInt + count * c.toInt ∧ a.toInt + count * c.toInt < 2 ^ 31) →
        ∃ u, ended = .error (.failure (.runtime .overflow [])) u) := by
  obtain ⟨count, hcount⟩ := exists_count a.toInt b.toInt hnonzero
  obtain ⟨t, hassign, hvariable, hdata⟩ := exists_assignOrDefine hname (.integer a)
  have hassign : SettlesTo (·.assignOrDefine name (.integer a)) s₃ (.ok () t) :=
    settlesTo_of_succ hassign
  obtain ⟨ended, hcounts, needed, hrounds⟩ :=
    counts_forRounds hsign hnonzero hbody hcount ⟨hvariable, a, hdata, rfl⟩
  -- the fuel bounds the number of rounds too
  have hrounds : SettlesTo (fun run => run.forRounds name (.integer b) (.integer c)
      (Float.ofInt c.toInt) body run.fuel) t ended :=
    ⟨max needed (count + 1), fun fuel hfuel => hrounds _ _ (by omega) (by show count < fuel; omega)⟩
  have hloop : SettlesTo (·.forTo name start stop step body) s ended := by
    refine hstart.bind (hstop.bind ?_)
    cases step with
    | none => exact hstep.bind (hassign.bind hrounds)
    | some e => exact hstep.bind (hassign.bind hrounds)
  exact ⟨count, t, ended, hcount, hassign, hloop.succ fun _ => rfl, hcounts, hcounts.ends⟩

/-- A body that goes on with the next round in one of the rounds. -/
def skipper : List Stmt :=
  [.ifThen (.binary .equal (.variable "i") (.integer 2)) [.continueLoop .forLoop] [] none]

theorem leavesAlone_skipper : LeavesAlone "i" skipper := by
  rintro s n ⟨hname, word, hdata, rfl⟩
  refine ⟨if word == 2 then .next .forLoop else .normal, s, ⟨8, fun fuel hfuel => ?_⟩, ?_, hname,
    word, hdata, rfl⟩
  · obtain ⟨fuel, rfl⟩ := Nat.exists_eq_add_of_le' hfuel
    have hread : (withFuel (fuel + 5)).readName "i" s = .ok (.integer word) s :=
      readName_of_data? hname.1 hdata
    have heval : (withFuel (fuel + 7)).eval (.binary .equal (.variable "i") (.integer 2)) s =
        .ok (.boolean (word == 2)) s := bind_of_ok _ hread
    have hcondition : (withFuel (fuel + 7)).condition (.binary .equal (.variable "i") (.integer 2))
        s = .ok (word == 2) s := bind_of_ok _ heval
    have hexec : (withFuel (fuel + 8)).exec (.ifThen (.binary .equal (.variable "i") (.integer 2))
        [.continueLoop .forLoop] [] none) s =
          .ok (if word == 2 then .next .forLoop else .normal) s := by
      refine (bind_of_ok _ hcondition).trans ?_
      cases word == 2 <;> rfl
    refine (bind_of_ok _ hexec).trans ?_
    cases word == 2 <;> rfl
  · cases word == 2
    · exact .inl rfl
    · exact .inr rfl

/-- From one to three, and from the greatest number to itself. -/
theorem forTo_counts_skipper :
    (∃ t u, Counts "i" skipper 4 [1, 2, 3] t (.ok .normal u) ∧
      SettlesTo (·.exec (.forTo "i" (.integer 1) (.integer 3) none skipper)) {} (.ok .normal u) ∧
      u.Holds "i" 4) ∧
    ∃ t u, Counts "i" skipper (2 ^ 31) [2 ^ 31 - 1] t
        (.error (.failure (.runtime .overflow [])) u) ∧
      SettlesTo (·.exec (.forTo "i" (.integer 2147483647) (.integer 2147483647) none skipper)) {}
        (.error (.failure (.runtime .overflow [])) u) := by
  have hliteral : ∀ n : Int32, SettlesTo (·.eval (.integer n)) {} (.ok (.integer n) {}) :=
    fun _ => settlesTo_of_succ fun _ => rfl
  have homitted : SettlesTo (fun run => (none : Option Expr).elim (pure (.integer 1)) run.eval) {}
      (.ok (.integer 1) {}) := ⟨0, fun _ _ => rfl⟩
  have hsign : KeepsSign (1 : Int32).toInt := by decide
  have hplain : State.IsPlain {} "i" :=
    ⟨rfl, fun p b hplace => by cases (show none = some p from hplace)⟩
  constructor
  · obtain ⟨count, t, ended, hcount, -, hexec, hcounts, hnormal, -⟩ :=
      forTo_counts {} {} {} {} "i" (.integer 1) (.integer 3) none skipper 1 3 1 (hliteral _)
        (hliteral _) homitted (by decide) hsign hplain leavesAlone_skipper
    obtain rfl : count = 3 := by
      have hthird : 2 < count := (hcount 2).2 (by decide)
      have hfourth : ¬3 < count := fun h => (hcount 3).1 h (by decide)
      omega
    obtain ⟨u, rfl, hu⟩ := hnormal (by decide)
    exact ⟨t, u, hcounts, hexec, hu⟩
  · obtain ⟨count, t, ended, hcount, -, hexec, hcounts, -, hoverflow⟩ :=
      forTo_counts {} {} {} {} "i" (.integer 2147483647) (.integer 2147483647) none skipper
        2147483647 2147483647 1 (hliteral _) (hliteral _) homitted (by decide) hsign hplain
        leavesAlone_skipper
    obtain rfl : count = 1 := by
      have hfirst : 0 < count := (hcount 0).2 (by decide)
      have hsecond : ¬1 < count := fun h => (hcount 1).1 h (by decide)
      omega
    obtain ⟨u, rfl⟩ := hoverflow (by decide)
    exact ⟨t, u, hcounts, hexec⟩

end Runner

end FormBasic
