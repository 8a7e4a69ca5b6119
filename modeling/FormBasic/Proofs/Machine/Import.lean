import FormBasic.Proofs.Machine.ContextBalance
import FormBasic.Proofs.Machine.StateCondition

/-!
# Imported modules

The name of a module is looked for among the files, the file is read, and its program is loaded.
Between the last two steps a note is taken of the import, and what has been noted is not loaded
again. So of the ways in which an import can fail, two leave no trace, that there is no file and
that it cannot be read, and then the import fails again when it is made again. The third does: if
the loading fails, the module counts as imported all the same, and the next import succeeds without
doing anything.

No program imports modules, and nothing that a host does takes an import back. What has been
imported in the course of a session can therefore be told from the actions of the host alone.

## Main results

* `imports_perform` — what has been imported after an action of the host
* `Session.exists_import` — what has been imported has been imported at some time
* `Runner.modules_imported_once` — when an import loads, and when it succeeds
-/

namespace FormBasic

open Interp

/-! ### Programs of modules -/

/-- The program of the module that a name stands for among the files, or why there is none. -/
def State.moduleProgram (s : State) (name : String) : Except Failure Program :=
  match s.moduleFile name with
  | .error faults => .error (.noModule name faults)
  | .ok (format, text) =>
    match Program.read format text with
    | .error e => .error (.unreadable ("decode module " ++ name) e)
    | .ok p => .ok p

/-- A module has been imported under a name, in any letter case. -/
def State.HasImported (s : State) (name : String) : Prop := Text.lower name ∈ s.imported

instance (s : State) (name : String) : Decidable (s.HasImported name) :=
  inferInstanceAs (Decidable (_ ∈ _))

/-- Take note of an import. -/
def State.noteImport (s : State) (name : String) : State :=
  { s with imported := Text.lower name :: s.imported }

/-- The name under which an imported module is loaded. -/
def importedAs (name : String) : String := (moduleParts name).getLast?.getD ""

namespace Runner

variable {run : Runner} {s t : State} {name : String} {p : Program} {f : Failure}

/-! ### One import -/

theorem importModule_of_imported (h : s.HasImported name) : run.importModule name s = .ok () s := by
  have hcontains : s.imported.contains (Text.lower name) = true := List.contains_iff_mem.2 h
  rw [importModule, get_bind_apply]
  rw [if_pos hcontains]
  rfl

/-- An import under a new name, by what the name stands for. -/
theorem importModule_of_not_imported (h : ¬ s.HasImported name) :
    run.importModule name s =
      match s.moduleProgram name with
      | .error f => .error (.failure f) s
      | .ok p => run.loadModule (importedAs name) p (s.noteImport name) := by
  have hcontains : ¬ s.imported.contains (Text.lower name) = true :=
    fun hmem => h (List.contains_iff_mem.1 hmem)
  rw [importModule, get_bind_apply, State.moduleProgram, if_neg hcontains]
  cases s.moduleFile name with
  | error faults => rfl
  | ok file =>
    obtain ⟨format, text⟩ := file
    dsimp only
    cases Program.read format text <;> rfl

theorem importModule_of_unread (run : Runner) (h : ¬ s.HasImported name)
    (hf : s.moduleProgram name = .error f) :
    run.importModule name s = .error (.failure f) s := by
  rw [importModule_of_not_imported h, hf]

theorem importModule_of_read (run : Runner) (h : ¬ s.HasImported name)
    (hp : s.moduleProgram name = .ok p) :
    run.importModule name s = run.loadModule (importedAs name) p (s.noteImport name) := by
  rw [importModule_of_not_imported h, hp]

/-- A program is loaded as a module to its end: its declarations are entered, and then its
statements are run. -/
def LoadsModule (run : Runner) (moduleName : String) (p : Program) (s t : State) : Prop :=
  ∃ u signal v,
    run.declareAll moduleName p.declarations
      ((s.enterModule moduleName).registerAll moduleName p.declarations) = .ok () u ∧
    run.block p.statements u = .ok signal v ∧ t = { v with context := s.context }

theorem loadsModule_of_ok {fuel : Nat} {moduleName : String}
    (h : (withFuel fuel).loadModule moduleName p s = .ok () t) :
    (withFuel fuel).LoadsModule moduleName p s t := by
  have hload : inContext (.inModule moduleName) ((withFuel fuel).loadInto moduleName p)
      (s.addModule moduleName) = .ok () t := h
  obtain ⟨v, hbody, rfl⟩ := exists_of_inContext_ok hload
  have hbody : (withFuel fuel).loadInto moduleName p (s.enterModule moduleName) = .ok () v := hbody
  have hcontext := (sameFrame_after ((related_any fuel).on.loadInto
    (L := (frameRelation .any).toLoadRelation) moduleName p) (s.enterModule moduleName)).context
  rw [after_of_ok hbody] at hcontext
  obtain ⟨_, u, hdeclare, hrun⟩ := exists_of_bind_ok (x := (withFuel fuel).declareAll _ _) hbody
  obtain ⟨signal, _, hblock, hend⟩ := exists_of_bind_ok hrun
  cases hend
  refine ⟨u, signal, v, hdeclare, hblock, ?_⟩
  rw [hcontext]
  rfl

/-- Where an import succeeds, the module counts as imported, or it is loaded to its end. -/
theorem importModule_eq_ok {fuel : Nat} (h : (withFuel fuel).importModule name s = .ok () t) :
    s.HasImported name ∧ t = s ∨
      ∃ p, s.moduleProgram name = .ok p ∧
        (withFuel fuel).LoadsModule (importedAs name) p (s.noteImport name) t := by
  by_cases himported : s.HasImported name
  · rw [importModule_of_imported himported] at h
    cases h
    exact .inl ⟨himported, rfl⟩
  · rw [importModule_of_not_imported himported] at h
    split at h
    · cases h
    · next p hp => exact .inr ⟨p, hp, loadsModule_of_ok h⟩

end Runner

/-! ### What actions of the host import -/

/-- Importing the same is a relation that loading and the host respect, as long as they import
nothing. -/
def importingRelation (imports : Imports) : LoadRelation where
  toBindingRelation := (conditionRelation (.importing imports)).toBindingRelation
  arrange h := .of_keeps fun s hs => (h s).2.2.trans hs

/-- What has been imported after an action of the host. -/
def HostAction.importsAfter (s : State) : HostAction → Imports
  | .importModule name =>
    if s.HasImported name then s.imports
    else match s.moduleProgram name with
      | .error _ => s.imports
      | .ok _ => (s.noteImport name).imports
  | _ => s.imports

section
variable {s t : State} {fuel : Nat} {name : String}

theorem Runner.imports_loadModule (fuel : Nat) (moduleName : String) (p : Program) (s : State) :
    (((withFuel fuel).loadModule moduleName p).after s).imports = s.imports :=
  (((related_condition (.importing s.imports) fuel).on.loadModule
    (L := importingRelation s.imports) moduleName p) s rfl).2

theorem Runner.imports_importModule (fuel : Nat) (name : String) (s : State) :
    (((withFuel fuel).importModule name).after s).imports =
      (HostAction.importModule name).importsAfter s := by
  rw [HostAction.importsAfter]
  split
  · next h => rw [after_of_ok (importModule_of_imported h)]
  · next h =>
    split
    · next f hf => rw [after_of_error (importModule_of_unread _ h hf)]
    · next p hp =>
      rw [after, importModule_of_read _ h hp]
      exact imports_loadModule fuel (importedAs name) p (s.noteImport name)

/-- Only an import adds to what has been imported, and only if its program can be read. -/
theorem imports_perform (fuel : Nat) (action : HostAction) (s : State) :
    ((action.perform (.withFuel fuel)).after s).imports = action.importsAfter s := by
  by_cases himport : ∃ name, action = .importModule name
  · obtain ⟨name, rfl⟩ := himport
    exact Runner.imports_importModule fuel name s
  · have hsame : action.importsAfter s = s.imports := by
      cases action with
      | importModule name => exact absurd ⟨name, rfl⟩ himport
      | _ => rfl
    rw [hsame]
    exact ((Runner.related_condition (.importing s.imports) fuel).on.performs
      (L := importingRelation s.imports) (fun _ _ _ => AgreeWhere.attempt)
      (fun name hname => absurd ⟨name, hname⟩ himport) s rfl).2

/-! ### Sessions -/

/-- The state of a session is followed by another one after an action of the host. -/
def State.Leads (s t : State) : Prop :=
  ∃ (fuel : Nat) (action : HostAction), t = (action.perform (.withFuel fuel)).after s

/-- The state of a session is followed by another one after some actions of the host. -/
abbrev State.LeadsTo : State → State → Prop := Relation.ReflTransGen State.Leads

theorem HostAction.mem_importsAfter (action : HostAction) (h : s.HasImported name) :
    Text.lower name ∈ (action.importsAfter s).imported := by
  unfold importsAfter
  split
  · split
    · exact h
    · split
      · exact h
      · exact List.mem_cons_of_mem _ h
  · exact h

/-- What has been imported stays imported. -/
theorem State.HasImported.leadsTo (h : s.HasImported name) (hleads : s.LeadsTo t) :
    t.HasImported name := by
  induction hleads with
  | refl => exact h
  | @tail u t _ hstep ih =>
    obtain ⟨fuel, action, rfl⟩ := hstep
    show Text.lower name ∈ ((action.perform (.withFuel fuel)).after u).imports.imported
    rw [imports_perform]
    exact action.mem_importsAfter ih

/-- An import whose program can be read counts, however the loading ends. -/
theorem Runner.hasImported_after (fuel : Nat) {p : Program}
    (hp : s.moduleProgram name = .ok p) :
    (((withFuel fuel).importModule name).after s).HasImported name := by
  show Text.lower name ∈ (((withFuel fuel).importModule name).after s).imports.imported
  rw [imports_importModule, HostAction.importsAfter]
  split
  · next h => exact h
  · rw [hp]
    exact List.mem_cons_self

/-- What has been imported in a session has been imported by an action of the host, which read its
program and loaded it. -/
theorem Session.exists_import (hs : Session s) (h : s.HasImported name) :
    ∃ s₀ fuel₀ name₀ p, Session s₀ ∧ Text.lower name₀ = Text.lower name ∧
      ¬ s₀.HasImported name₀ ∧ s₀.moduleProgram name₀ = .ok p ∧
      (((Runner.withFuel fuel₀).importModule name₀).after s₀).LeadsTo s := by
  induction hs with
  | fresh => exact absurd h List.not_mem_nil
  | @perform u fuel action hu ih =>
    by_cases hbefore : u.HasImported name
    · obtain ⟨s₀, fuel₀, name₀, p, hs₀, hname, hnew, hp, hleads⟩ := ih hbefore
      exact ⟨s₀, fuel₀, name₀, p, hs₀, hname, hnew, hp, hleads.tail ⟨fuel, action, rfl⟩⟩
    · -- this action is the import
      have himports := congrArg Imports.imported (imports_perform fuel action u)
      have hmem : Text.lower name ∈ (action.importsAfter u).imported := himports ▸ h
      unfold HostAction.importsAfter at hmem
      split at hmem
      · next name₀ =>
        split at hmem
        · exact absurd hmem hbefore
        · next hnew =>
          split at hmem
          · exact absurd hmem hbefore
          · next p hp =>
            obtain heq | hold := List.mem_cons.1 hmem
            · exact ⟨u, fuel, name₀, p, hu, heq.symm, hnew, hp, .refl⟩
            · exact absurd hold hbefore
      · exact absurd hmem hbefore

end

namespace Runner

/-- An import under a name that has been imported succeeds and does nothing. Any other one reads the
program of the module; if there is none, it fails and leaves no trace, and if there is one, it loads
it and counts from then on, whatever comes of the loading and whatever the host does. So an import
that is made again after it failed succeeds exactly if the program could be read, which means that
its loading failed, and otherwise it fails in the same way. An import succeeds only if it loads the
program to its end itself, or if the module counts as imported; and then, in a session, the program
was read and its loading was begun by an earlier import. -/
theorem modules_imported_once (fuel : Nat) (name : String) (s : State) :
    (s.HasImported name → (withFuel fuel).importModule name s = .ok () s) ∧
    (¬ s.HasImported name →
      (∀ f, s.moduleProgram name = .error f →
        (withFuel fuel).importModule name s = .error (.failure f) s) ∧
      ∀ p, s.moduleProgram name = .ok p →
        (withFuel fuel).importModule name s =
          (withFuel fuel).loadModule (importedAs name) p (s.noteImport name) ∧
        ∀ t, (((withFuel fuel).importModule name).after s).LeadsTo t →
          ∀ fuel' name', Text.lower name' = Text.lower name →
            (withFuel fuel').importModule name' t = .ok () t) ∧
    (∀ f t, (withFuel fuel).importModule name s = .error (.failure f) t → ∀ fuel',
      ((withFuel fuel').importModule name t = .ok () t ↔
        ∃ p, s.moduleProgram name = .ok p ∧
          (withFuel fuel).loadModule (importedAs name) p (s.noteImport name) =
            .error (.failure f) t) ∧
      ((∀ p, s.moduleProgram name ≠ .ok p) →
        t = s ∧ (withFuel fuel').importModule name t = .error (.failure f) t)) ∧
    (∀ t, (withFuel fuel).importModule name s = .ok () t →
      s.HasImported name ∧ t = s ∨
        ∃ p, s.moduleProgram name = .ok p ∧
          (withFuel fuel).LoadsModule (importedAs name) p (s.noteImport name) t) ∧
    (Session s → s.HasImported name →
      ∃ s₀ fuel₀ name₀ p, Session s₀ ∧ Text.lower name₀ = Text.lower name ∧
        ¬ s₀.HasImported name₀ ∧ s₀.moduleProgram name₀ = .ok p ∧
        (((withFuel fuel₀).loadModule (importedAs name₀) p).after (s₀.noteImport name₀)).LeadsTo
          s) := by
  refine ⟨importModule_of_imported, fun h => ⟨fun f => importModule_of_unread _ h, fun p hp =>
    ⟨importModule_of_read _ h hp, ?_⟩⟩, fun f t hfail fuel' => ?_, fun t => importModule_eq_ok,
    fun hs h => ?_⟩
  · intro t hleads fuel' name' hname
    refine importModule_of_imported ?_
    rw [State.HasImported, hname]
    exact (hasImported_after fuel hp).leadsTo hleads
  · have h : ¬ s.HasImported name := by
      intro h
      rw [importModule_of_imported h] at hfail
      cases hfail
    cases hprogram : s.moduleProgram name with
    | error f' =>
      cases (importModule_of_unread _ h hprogram).symm.trans hfail
      have hagain := importModule_of_unread (withFuel fuel') h hprogram
      refine ⟨⟨fun hok => ?_, nofun⟩, fun _ => ⟨rfl, hagain⟩⟩
      rw [hagain] at hok
      cases hok
    | ok p =>
      have himported := hasImported_after fuel hprogram
      rw [after_of_error hfail] at himported
      refine ⟨⟨fun _ => ⟨p, rfl, ?_⟩, fun _ => importModule_of_imported himported⟩,
        fun hnone => absurd rfl (hnone p)⟩
      rw [← importModule_of_read _ h hprogram, hfail]
  · obtain ⟨s₀, fuel₀, name₀, p, hs₀, hname, hnew₀, hp, hleads⟩ := hs.exists_import h
    refine ⟨s₀, fuel₀, name₀, p, hs₀, hname, hnew₀, hp, ?_⟩
    rwa [after, importModule_of_read _ hnew₀ hp] at hleads

/-- A module whose only statement throws again where nothing has been caught. -/
def throwing : State :=
  { State.initial {} with
    files := .ofList [("boom.json", "[\x7b\"type\": \"ThrowStatement\"\x7d]")] }

/-- The import fails, and succeeds when it is made again, although nothing has been loaded. -/
theorem modules_imported_once_throwing :
    ∃ f t, (withFuel 8).importModule "boom" throwing = .error (.failure f) t ∧
      (withFuel 8).importModule "boom" t = .ok () t ∧
      ∀ u, t.LeadsTo u → (withFuel 8).importModule "BOOM" u = .ok () u := by
  have hfails : (((withFuel 8).importModule "boom").failure? throwing).isSome = true := by
    decide +kernel
  have hread : (throwing.moduleProgram "boom").isOk = true := by decide +kernel
  have hnew : ¬ throwing.HasImported "boom" := by decide
  obtain ⟨f, hf⟩ := Option.isSome_iff_exists.1 hfails
  obtain ⟨t, hrun⟩ := exists_of_failure? hf
  cases hp : throwing.moduleProgram "boom" with
  | error f =>
    rw [hp] at hread
    cases hread
  | ok p =>
    obtain ⟨-, himport, hagain, -⟩ := modules_imported_once 8 "boom" throwing
    obtain ⟨hload, hlater⟩ := (himport hnew).2 p hp
    rw [after_of_error hrun] at hlater
    exact ⟨f, t, hrun, (hagain f t hrun 8).1.2 ⟨p, hp, hload ▸ hrun⟩, fun u hu =>
      hlater u hu 8 "BOOM" (by decide)⟩

end Runner

end FormBasic
