import FormBasic.Proofs.Machine.Watch

/-!
# Running with and without a session

What a program does does not depend on whether it runs in a console session, as long as it asks
nothing and the host of the session stays. The texts that it writes are sent there and queued here,
in the same order, and everything else is the same: the result or the error, the bindings, the
instances, and the effects that are not for the console.

The random numbers and the clock need not be excluded. They are part of the state, and the two runs
start from the same one.

## Main results

* `mirrorRelation` — a relation that the machine respects and that admits every request
* `Runner.session_mirrors_call` — a call by name in a session and outside
-/

namespace FormBasic

open Interp

namespace Interp.Mirrored

variable {α : Type} {x : Interp α}

theorem of_quiet (h : x.Quiet) : x.Mirrored := ⟨grows_of_quietAt h.quietAt, h.tandems⟩

theorem resume (x : Except Failure α) : (Interp.resume x).Mirrored := by
  cases x with
  | ok a => exact .of_quiet (quiet_pure a)
  | error f => exact .throw _

theorem foundOr (h : x.Mirrored) (c : Cause) : (Interp.foundOr x c).Mirrored := by
  refine h.found?.bind fun found => ?_
  cases found with
  | some a => exact .of_quiet (quiet_pure a)
  | none => exact .of_quiet (quiet_fail c)

theorem rebind (key : String) (v : Value) : (Interp.rebind key v).Mirrored := by
  refine .of_get (fun _ _ _ => rfl) fun s => .bind (.of_quiet (quiet_lift _)) fun scopes => ?_
  exact .modify fun _ _ _ => rfl

theorem inCall (c : Callable) (self : Option ObjectRef) (classContext : String)
    (h : x.Mirrored) : (Interp.inCall c self classContext x).Mirrored := by
  refine .of_get (fun _ _ _ => rfl) fun s => ?_
  split
  · exact .of_quiet (quiet_failWith _)
  · exact (h.onFailure _).inScope.inContext _

end Interp.Mirrored

/-- Being mirrored is a relation that the machine respects. -/
def mirrorRelation : RunRelation where
  Rel x _ := x.Mirrored
  quiet := .of_quiet
  bind := Mirrored.bind
  read hblind h := .of_get hblind fun s => h s trivial
  bindCurrent _ _ := .modify fun _ _ _ => rfl
  bindGlobal _ _ := .modify fun _ _ _ => rfl
  foundOr c h := h.foundOr c
  entering _ h := h.inContext _
  inCall c self classContext h := h.inCall c self classContext
  outOfFuel := .throw _

theorem mirrorRelation_admits (q : Request) : mirrorRelation.Admits q where
  rebinds _ := Mirrored.rebind
  forgives _ := Mirrored.found?
  catches _ := Mirrored.attempt
  rethrows _ := Mirrored.resume

namespace Runner

theorem mirrored_callProcedure (fuel : Nat) (entry : String) :
    ((withFuel fuel).callProcedure entry []).Mirrored :=
  (related_withFuel mirrorRelation_admits fuel).on.callProcedure entry []

/-- After its entry procedure has ended, a session with a host that stays sends a last message. -/
theorem runConsole_of_attempt {run : Runner} {entry : String} {host : ConsoleHost}
    (hstays : host.Stays) {s t : State} {result : Except Failure Value}
    {sent : List ConsoleMessage} (ht : t.console = some { host, sent })
    (hrun : attempt (run.callProcedure entry []) { s with console := some { host } } =
      .ok result t) :
    run.runConsole entry host s =
      .ok (sent.reverse ++ (closing t.heap result).toList) { t with console := none } := by
  have hstart : (modify fun s => { s with console := some { host } } : Interp PUnit) s =
      .ok ⟨⟩ { s with console := some { host } } := rfl
  rw [runConsole, bind_of_ok _ hstart, bind_of_ok _ hrun, get_bind_apply, ht]
  show EStateM.Result.ok _ _ = _
  cases closing t.heap result with
  | none => simp [ConsoleSession.sentWith]
  | some m => simp [ConsoleSession.sentWith, hstays _]

/-- A program that is run from a state outside a session, and in a session with a host that stays,
and that asks nothing either way, ends alike: with the same result or error, in states that differ
in the session and the queue of effects only. What has been sent in the session are the effects for
the console that have been queued outside, in the same order, and the other effects are queued in
both runs. A host that runs the program is sent this, and a last message that says how it ended. -/
theorem session_mirrors_call (fuel : Nat) (entry : String) {host : ConsoleHost}
    (hstays : host.Stays) {s : State} (hs : s.console = none)
    (hasks : ¬ ((withFuel fuel).callProcedure entry []).Converses s.effects.toList s
      { s with console := some { host } }) :
    let run := (withFuel fuel).callProcedure entry []
    let inside : State := { s with console := some { host } }
    run.outcome inside = run.outcome s ∧
    ∃ added sent,
      (run.after s).console = none ∧
      (run.after s).effects.toList = s.effects.toList ++ added ∧
      run.after inside =
        { run.after s with
          console := some { host, sent := sent.reverse }
          effects := (s.effects.toList ++ added.filter (!·.isConsole)).toArray } ∧
      sent.filterMap (·.effect?) = added.filter (·.isConsole) ∧
      ∀ result t, attempt run s = .ok result t →
        (withFuel fuel).runConsole entry host s =
          .ok (sent ++ (closing t.heap result).toList)
            { run.after inside with console := none } := by
  intro run inside
  have hmirrored : run.Mirrored := mirrored_callProcedure fuel entry
  have hbegin : Tandem host s.effects.toList s inside := .begin hs
  obtain ⟨houtcome, hend⟩ := (hmirrored.tandems hstays hbegin).resolve_left hasks
  obtain ⟨added, sent, hadded, hqueue, hsession, hsent⟩ := hend.told
  refine ⟨houtcome, added, sent.reverse, hend.outside, hadded, ?_, hsent, ?_⟩
  · rw [hend.alike, hsession, ← hqueue, List.reverse_reverse]
  · intro result t hresult
    -- the attempt is mirrored as well
    have hasks' : ¬ (attempt run).Converses s.effects.toList s inside := by
      rwa [Converses, after_attempt, after_attempt]
    obtain ⟨houtcome', -⟩ := (hmirrored.attempt.tandems hstays hbegin).resolve_left hasks'
    have hinside := outcome_eq_ok.1 (houtcome'.trans (outcome_of_ok hresult))
    have ht : t = run.after s := by rw [← after_attempt, after_of_ok hresult]
    rw [after_attempt] at hinside
    have hheap : (run.after inside).heap = t.heap := by rw [hend.alike, ht]
    rw [← hheap]
    exact runConsole_of_attempt hstays hsession hinside

/-- A program that writes, starts a form and clears the console, and then fails. -/
def announcer : State where
  procedures := .ofList
    [("main", ⟨⟨"Sub", "main", [], "",
      [.call (.method (.variable "Console") "Write" [.text "a"]),
        .call (.method (.variable "Application") "Run" [.text "F"]),
        .call (.method (.variable "Console") "Clear" []), .throwValue none], [], false⟩, ""⟩)]

theorem session_mirrors_call_announcer :
    ∃ sent t, (withFuel 6).runConsole "main" (.ofLines []) announcer = .ok
        (sent ++ [.error "Throw without an exception outside a Catch block"]) t ∧
      sent.filterMap (·.effect?) = [.consoleOutput "a", .consoleClear] ∧
      t.effects.toList = [.runApplication "F"] := by
  have hrun : (withFuel 6).callProcedure "main" [] announcer = .error (.failure (.runtime
      (.custom "Throw without an exception outside a Catch block") ["main"]))
      { announcer with effects := #[.consoleOutput "a", .runApplication "F", .consoleClear] } := rfl
  have hasks : ¬ ((withFuel 6).callProcedure "main" []).Converses [] announcer
      { announcer with console := some { host := .ofLines [] } } := by
    rintro (⟨e, he, hdialog⟩ | ⟨session, hsession, hmem⟩)
    · rw [after_of_error hrun] at he
      obtain rfl | rfl | rfl : e = .consoleOutput "a" ∨ e = .runApplication "F" ∨
        e = .consoleClear := by simpa using he
      all_goals cases hdialog
    · obtain rfl : ConsoleSession.mk (.ofLines []) [.clear, .output "a" 7 0] false = session :=
        Option.some.inj hsession
      simp at hmem
  obtain ⟨-, added, sent, -, hadded, hinside, hsent, hconsole⟩ :=
    session_mirrors_call 6 "main" (s := announcer) (fun _ => rfl) rfl hasks
  rw [after_of_error hrun] at hadded
  obtain rfl : _ = added := hadded
  refine ⟨sent, _, hconsole _ _ (attempt_of_failure hrun), hsent, ?_⟩
  rw [hinside]
  rfl

end Runner

end FormBasic
