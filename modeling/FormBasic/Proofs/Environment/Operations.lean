import FormBasic.Proofs.Environment.View

/-!
# Sequences of operations on an environment

What is left of the operations that are done between the opening of a scope and its closing. They
run above the scopes that were there before, and reach these in two ways only: rebinding finds a
name there that no scope above them binds, and a global definition goes to the global scope from
everywhere.

`Environment.Frame` is what one operation, and hence a sequence of them, owes to the scopes below a
number of levels. It is stated relative to what the operations do to those scopes, so that it is
closed under composition, and `Environment.frame_perform` is the only place where the operations are
told apart. `Environment.sound_perform` and `Environment.toScopes_perform` are the same for what the
tables keep and for the scopes on which programs run.

## Main definitions

* `Environment.Operation`, `Environment.perform`, `Environment.performAll` — operations and
  sequences of them
* `Environment.balanced` — every scope that is opened is closed, and no other
* `Environment.Frame` — what happens to the scopes below

## Main results

* `Environment.frame_perform`, `Environment.frame_performAll` — one operation and a sequence
* `Environment.sound_performAll` — the tables are sound at all times
* `Environment.toScopes_performAll` — the scopes on which programs run are these
* `Environment.scope_leaves_the_rest` — what is left once a scope has been closed
-/

namespace FormBasic

/-! ### Operations -/

/-- An operation on the bindings of names. -/
inductive Environment.Operation where
  | define (name : String) (v : Value)
  | defineConst (name : String) (v : Value)
  | defineGlobal (name : String) (v : Value)
  | defineMember (owner member : String) (v : Value)
  | set (name : String) (v : Value)
  | push
  | pop

/-- The scopes after an operation, and why it has failed if it has. -/
def Scopes.perform (s : Scopes) : Environment.Operation → Scopes × Option Cause
  | .define name v => (s.define name v, none)
  | .defineConst name v => (s.defineConst name v, none)
  | .defineGlobal name v => (s.defineGlobal name v, none)
  | .defineMember owner member v => (s.defineMember owner member v, none)
  | .set name v => match s.set name v with
    | .ok t => (t, none)
    | .error c => (s, some c)
  | .push => (s.push, none)
  | .pop => (s.pop, none)

namespace Environment

/-- The environment after an operation, and why it has failed if it has. -/
def perform (e : Environment) : Operation → Environment × Option Cause
  | .define name v => (e.define name v, none)
  | .defineConst name v => (e.defineConst name v, none)
  | .defineGlobal name v => (e.defineGlobal name v, none)
  | .defineMember owner member v => (e.defineMember owner member v, none)
  | .set name v => e.set name v
  | .push => (e.push, none)
  | .pop => (e.pop, none)

/-- The environment after a sequence of operations; one that fails does not stop the rest. -/
def performAll (e : Environment) (ops : List Operation) : Environment :=
  ops.foldl (fun e op => (e.perform op).1) e

/-- With so many scopes open, operations close them all and those that they open, and no other. -/
def balanced : (opened : Nat) → List Operation → Bool
  | n, [] => n == 0
  | n, .push :: ops => balanced (n + 1) ops
  | 0, .pop :: _ => false
  | n + 1, .pop :: ops => balanced n ops
  | n, _ :: ops => balanced n ops

variable {e f g : Environment} {op : Operation} {ops : List Operation} {levels i : Nat}
  {key name : String} {v : Value}

theorem performAll_append (e : Environment) (ops ops' : List Operation) :
    e.performAll (ops ++ ops') = (e.performAll ops).performAll ops' := List.foldl_append

/-! ### What the tables keep -/

theorem sound_perform (h : e.Sound) (op : Operation) : (e.perform op).1.Sound := by
  cases op with
  | define name v => exact h.define name v
  | defineConst name v => exact h.defineConst name v
  | defineGlobal name v => exact h.defineGlobal name v
  | defineMember owner member v => exact h.defineGlobal _ v
  | set name v => exact h.set name v
  | push => exact h.push
  | pop => exact h.pop

/-- The tables stay sound, however many scopes are opened and closed. -/
theorem sound_performAll (h : e.Sound) (ops : List Operation) : (e.performAll ops).Sound := by
  induction ops generalizing e with
  | nil => exact h
  | cons op ops ih => exact ih (sound_perform h op)

/-- An operation does to the scopes on which programs run what it does to the environment. -/
theorem toScopes_perform (h : e.Sound) (op : Operation) :
    e.toScopes.perform op = ((e.perform op).1.toScopes, (e.perform op).2) := by
  cases op with
  | define name v => exact congrArg (·, none) (h.toScopes_define name v).symm
  | defineConst name v => exact congrArg (·, none) (h.toScopes_defineConst name v).symm
  | defineGlobal name v => exact congrArg (·, none) (h.toScopes_defineGlobal name v).symm
  | defineMember owner member v => exact congrArg (·, none) (h.toScopes_defineGlobal _ v).symm
  | set name v =>
    unfold Scopes.perform perform
    dsimp only
    rw [toScopes_set h]
    obtain ⟨-, hset⟩ | ⟨i, -, -, hset⟩ | ⟨i, -, -, hset⟩ := set_cases e name v <;> rw [hset]
  | push => exact congrArg (·, none) (toScopes_push h).symm
  | pop => exact congrArg (·, none) (toScopes_pop h).symm

theorem toScopes_performAll (h : e.Sound) (ops : List Operation) :
    (e.performAll ops).toScopes = ops.foldl (fun s op => (s.perform op).1) e.toScopes := by
  induction ops generalizing e with
  | nil => rfl
  | cons op ops ih =>
    rw [List.foldl_cons, toScopes_perform h, ← ih (sound_perform h op)]
    rfl

/-! ### What an operation does to a scope -/

/-- An operation rebinds a key in a scope: it succeeds in setting a name, and finds the name in this
scope, where it is no constant. -/
def Rebinds (e : Environment) (op : Operation) (i : Nat) (key : String) : Prop :=
  ∃ name v, op = .set name v ∧ Text.lower name = key ∧ (e.set name v).2 = none ∧
    e.innermost? name = some i ∧ e.isMarked i key = false

/-- An operation defines a key in the global scope. -/
def DefinesGlobal (op : Operation) (key : String) : Prop :=
  (∃ name v, op = .defineGlobal name v ∧ Text.lower name = key) ∨
    ∃ owner member v, op = .defineMember owner member v ∧ Text.lower (memberKey owner member) = key

/-- A sequence of operations rebinds a key in a scope at some time. -/
def RebindsIn (e : Environment) (ops : List Operation) (i : Nat) (key : String) : Prop :=
  ∃ before op after, ops = before ++ op :: after ∧ (e.performAll before).Rebinds op i key

/-- Below so many levels no name comes or goes, but for those that come to the global scope by a
definition, every mark stays, and a key has the value that it had unless it has been rebound in this
very scope; a definition in the global scope may change both. -/
structure Frame (levels : Nat) (Rebound : Nat → String → Prop) (Defined : String → Prop)
    (e f : Environment) : Prop where
  names : ∀ i < levels, i ≠ 0 → ∀ key, (f.find? i key).isSome = (e.find? i key).isSome
  globals : ∀ key, (e.find? 0 key).isSome = true → (f.find? 0 key).isSome = true
  marks : ∀ i < levels, ∀ key, f.isMarked i key = e.isMarked i key ∨ i = 0 ∧ Defined key
  values : ∀ i < levels, ∀ key,
    f.find? i key = e.find? i key ∨ Rebound i key ∨ i = 0 ∧ Defined key

namespace Frame

variable {R R' : Nat → String → Prop} {D D' : String → Prop}

/-- What leaves the scopes alone, the global one included. -/
theorem of_eq (hlevels : 0 < levels) (h : ∀ i < levels, f.scopes[i]? = e.scopes[i]?) :
    Frame levels R D e f where
  names i hi _ key := by rw [find?_congr (h i hi)]
  globals key hkey := by rwa [find?_congr (h 0 hlevels)]
  marks i hi key := .inl (isMarked_congr (h i hi) key)
  values i hi key := .inl (find?_congr (h i hi) key)

theorem refl (e : Environment) : Frame levels R D e e where
  names _ _ _ _ := rfl
  globals _ := id
  marks _ _ _ := .inl rfl
  values _ _ _ := .inl rfl

theorem mono (h : Frame levels R D e f) (hR : ∀ i key, R i key → R' i key)
    (hD : ∀ key, D key → D' key) : Frame levels R' D' e f where
  names := h.names
  globals := h.globals
  marks i hi key := (h.marks i hi key).imp_right (And.imp_right (hD key))
  values i hi key := (h.values i hi key).imp_right (Or.imp (hR i key) (And.imp_right (hD key)))

theorem trans (h : Frame levels R D e f) (h' : Frame levels R D f g) : Frame levels R D e g where
  names i hi hne key := (h'.names i hi hne key).trans (h.names i hi hne key)
  globals key hkey := h'.globals key (h.globals key hkey)
  marks i hi key := by
    rcases h'.marks i hi key with heq | hD
    · rw [heq]
      exact h.marks i hi key
    · exact .inr hD
  values i hi key := by
    rcases h'.values i hi key with heq | hRD
    · rw [heq]
      exact h.values i hi key
    · exact .inr hRD

end Frame

/-! ### One operation -/

/-- A change of one scope that gives one key a value. It rebinds a key of this scope and leaves its
mark, or it defines a key of the global scope. -/
theorem frame_modify {R : Nat → String → Prop} {D : String → Prop} {f : Level → Level}
    (hi : i < e.depth)
    (hvalues : ∀ l other,
      (f l).bindings.find? other = if key = other then some v else l.bindings.find? other)
    (hmarks : ∀ l other, key ≠ other → (f l).isMarked other = l.isMarked other)
    (hreached :
      (e.find? i key).isSome = true ∧ (∀ l, (f l).isMarked key = l.isMarked key) ∧ R i key ∨
        i = 0 ∧ D key) :
    Frame levels R D e (e.modify i f) := by
  have hother {j : Nat} (hne : i ≠ j) : (e.modify i f).scopes[j]? = e.scopes[j]? :=
    getElem?_modify_of_ne hne
  have hfind := find?_modify_self hi hvalues
  have hsome (key' : String) (hbound : (e.find? i key').isSome = true) :
      ((e.modify i f).find? i key').isSome = true := by
    rw [hfind]
    split
    · rfl
    · exact hbound
  refine ⟨fun j _ hne key' => ?_, fun key' hbound => ?_, fun j _ key' => ?_, fun j _ key' => ?_⟩
  · by_cases hij : i = j
    · obtain ⟨hbound, -, -⟩ := hreached.resolve_right fun h => hne (hij ▸ h.1)
      rw [← hij, hfind]
      split
      · next hkey => rw [← hkey, hbound, Option.isSome_some]
      · rfl
    · rw [find?_congr (hother hij)]
  · by_cases hij : i = 0
    · exact hij ▸ hsome key' (hij ▸ hbound)
    · rwa [find?_congr (hother hij)]
  · by_cases hij : i = j
    · rw [← hij]
      by_cases hkey : key = key'
      · exact hreached.imp (fun h => hkey ▸ isMarked_modify_self h.2.1) fun h => hkey ▸ h
      · exact .inl (isMarked_modify_self fun l => hmarks l key' hkey)
    · exact .inl (isMarked_congr (hother hij) key')
  · by_cases hij : i = j
    · rw [← hij, hfind]
      split
      · next hkey => exact .inr (hkey ▸ hreached.imp_left fun h => h.2.2)
      · exact .inl rfl
    · exact .inl (find?_congr (hother hij) key')

/-- Rebinding reaches one scope, that in which the name is found. -/
theorem frame_set {D : String → Prop} (name : String) (v : Value) :
    Frame levels (e.Rebinds (.set name v)) D e (e.set name v).1 := by
  obtain ⟨-, hset⟩ | ⟨j, -, -, hset⟩ | ⟨j, hj, hmark, hset⟩ := set_cases e name v
  · rw [hset]
    exact .refl e
  · rw [hset]
    exact .refl e
  · have hbound := (innermost?_eq_some_iff.1 hj).1
    have hrebinds : e.Rebinds (.set name v) j (Text.lower name) :=
      ⟨name, v, rfl, rfl, by rw [hset], hj, hmark⟩
    rw [hset]
    exact frame_modify (lt_depth_of_find? hbound) (fun _ _ => Table.find?_insert ..)
      (fun _ _ _ => rfl) (.inl ⟨hbound, fun _ => rfl, hrebinds⟩)

/-- A global definition reaches the global scope. -/
theorem frame_defineGlobal {R : Nat → String → Prop} (h : 0 < e.depth) (name : String) (v : Value) :
    Frame levels R (fun key => Text.lower name = key) e (e.defineGlobal name v) :=
  frame_modify h (fun _ _ => Table.find?_insert ..)
    (fun l other hne => (Level.isMarked_define l _ other v).trans (if_neg hne)) (.inr ⟨rfl, rfl⟩)

/-- Binding in the innermost scope reaches nothing below it. -/
theorem frame_modify_last {R : Nat → String → Prop} {D : String → Prop} (hlevels : 0 < levels)
    (h : levels < e.depth) (f : Level → Level) : Frame levels R D e (e.modify (e.depth - 1) f) :=
  .of_eq hlevels fun i hi => getElem?_modify_of_ne (by omega)

/-- What one operation does to the scopes below the innermost one. -/
theorem frame_perform (hlevels : 0 < levels) (h : levels < e.depth) :
    Frame levels (e.Rebinds op) (DefinesGlobal op) e (e.perform op).1 := by
  have hopen : 0 < e.depth := Nat.lt_of_le_of_lt (Nat.zero_le _) h
  cases op with
  | define name v => exact frame_modify_last hlevels h (·.define (Text.lower name) v)
  | defineConst name v => exact frame_modify_last hlevels h (·.defineConst (Text.lower name) v)
  | defineGlobal name v =>
    exact (frame_defineGlobal hopen name v).mono (fun _ _ => id) fun key hkey =>
      .inl ⟨name, v, rfl, hkey⟩
  | defineMember owner member v =>
    exact (frame_defineGlobal hopen _ v).mono (fun _ _ => id) fun key hkey =>
      .inr ⟨owner, member, v, rfl, hkey⟩
  | set name v => exact frame_set name v
  | push => exact .of_eq hlevels fun i hi => getElem?_push (Nat.lt_trans hi h)
  | pop => exact .of_eq hlevels fun i hi => getElem?_pop (by omega)

/-- Only opening and closing change the number of scopes. -/
theorem depth_perform (hpush : op ≠ .push) (hpop : op ≠ .pop) :
    (e.perform op).1.depth = e.depth := by
  cases op with
  | define name v => exact depth_modify ..
  | defineConst name v => exact depth_modify ..
  | defineGlobal name v => exact depth_modify ..
  | defineMember owner member v => exact depth_modify ..
  | set name v =>
    obtain ⟨-, hset⟩ | ⟨i, -, -, hset⟩ | ⟨i, -, -, hset⟩ := set_cases e name v
    · rw [perform, hset]
    · rw [perform, hset]
    · rw [perform, hset]
      exact depth_modify ..
  | push => exact absurd rfl hpush
  | pop => exact absurd rfl hpop

/-! ### A sequence of operations -/

theorem RebindsIn.head (h : e.Rebinds op i key) : e.RebindsIn (op :: ops) i key :=
  ⟨[], op, ops, rfl, h⟩

theorem RebindsIn.tail (h : (e.perform op).1.RebindsIn ops i key) :
    e.RebindsIn (op :: ops) i key := by
  obtain ⟨before, op', after, rfl, h⟩ := h
  exact ⟨op :: before, op', after, rfl, h⟩

/-- What a sequence does follows from what its first operation does and what the rest does. -/
theorem Frame.cons
    (h : Frame levels (e.Rebinds op) (DefinesGlobal op) e (e.perform op).1)
    (h' : Frame levels ((e.perform op).1.RebindsIn ops)
      (fun key => ∃ op' ∈ ops, DefinesGlobal op' key) (e.perform op).1
      ((e.perform op).1.performAll ops)) :
    Frame levels (e.RebindsIn (op :: ops)) (fun key => ∃ op' ∈ op :: ops, DefinesGlobal op' key) e
      (e.performAll (op :: ops)) := by
  refine (h.mono (fun _ _ => .head) fun key hkey => ?_).trans
    (h'.mono (fun _ _ => .tail) fun key hkey => ?_)
  · exact ⟨op, List.mem_cons_self, hkey⟩
  · obtain ⟨op', hmem, hkey⟩ := hkey
    exact ⟨op', List.mem_cons_of_mem _ hmem, hkey⟩

/-- Operations that close all scopes above the first that they start with, and that leave this one
open, reach what is below it as its parts do. -/
theorem frame_performAll {opened : Nat} (hbalanced : balanced opened ops = true)
    (hlevels : 0 < levels) (hdepth : e.depth = levels + 1 + opened) :
    Frame levels (e.RebindsIn ops) (fun key => ∃ op ∈ ops, DefinesGlobal op key) e
        (e.performAll ops) ∧
      (e.performAll ops).depth = levels + 1 := by
  fun_induction balanced opened ops generalizing e with
  | case1 opened =>
    obtain rfl := eq_of_beq hbalanced
    exact ⟨.refl e, hdepth⟩
  | case2 opened ops ih =>
    obtain ⟨hframe, hend⟩ := ih (e := e.push) hbalanced (by rw [depth_push]; omega)
    exact ⟨.cons (frame_perform hlevels (by omega)) hframe, hend⟩
  | case3 ops => cases hbalanced
  | case4 opened ops ih =>
    obtain ⟨hframe, hend⟩ := ih (e := e.pop) hbalanced (by rw [depth_pop (by omega)]; omega)
    exact ⟨.cons (frame_perform hlevels (by omega)) hframe, hend⟩
  | case5 opened op ops hpush hpop hpop' ih =>
    have hop : op ≠ .pop := by
      cases opened with
      | zero => exact hpop rfl
      | succ opened => exact hpop' opened rfl
    obtain ⟨hframe, hend⟩ := ih (e := (e.perform op).1) hbalanced
      (by rw [depth_perform hpush hop, hdepth])
    exact ⟨.cons (frame_perform hlevels (by omega)) hframe, hend⟩

/-- Between the opening of a scope and its closing, the scopes that were there before are kept. -/
theorem frame_scope (h : 0 < e.depth) (hbalanced : balanced 0 ops = true) :
    (e.performAll (.push :: ops ++ [.pop])).depth = e.depth ∧
      Frame e.depth (e.push.RebindsIn ops) (fun key => ∃ op ∈ ops, DefinesGlobal op key) e
        (e.performAll (.push :: ops ++ [.pop])) := by
  have hrun : e.performAll (.push :: ops ++ [.pop]) = (e.push.performAll ops).pop :=
    performAll_append e.push ops [.pop]
  obtain ⟨hframe, hend⟩ := frame_performAll (e := e.push) hbalanced h (depth_push e)
  rw [hrun]
  refine ⟨?_, ?_⟩
  · rw [depth_pop (by omega), hend, Nat.add_sub_cancel]
  · exact (Frame.of_eq h fun i hi => getElem?_push hi).trans
      (hframe.trans (.of_eq h fun i hi => getElem?_pop (by omega)))

theorem isSome_lookup? (h : e.innermost? name = some i) : (e.lookup? name).isSome = true := by
  rw [lookup?, h, Option.bind_some]
  exact (innermost?_eq_some_iff.1 h).1

/-- Setting a name fails if it is bound nowhere or found as a constant, and for no other reason. -/
theorem set_fails_iff (e : Environment) (name : String) (v : Value) :
    (e.set name v).2.isSome = true ↔ e.lookup? name = none ∨ e.isConst name = true := by
  obtain ⟨hi, hset⟩ | ⟨i, hi, hmark, hset⟩ | ⟨i, hi, hmark, hset⟩ := set_cases e name v
  · simp [hset, lookup?, hi]
  · simp [hset, isConst, hi, hmark]
  · have hbound := Option.isSome_iff_ne_none.1 (isSome_lookup? hi)
    simp [hset, isConst, hi, hmark, hbound]

theorem set_of_fails (h : (e.set name v).2.isSome = true) : (e.set name v).1 = e := by
  obtain ⟨-, hset⟩ | ⟨i, -, -, hset⟩ | ⟨i, -, -, hset⟩ := set_cases e name v
  · rw [hset]
  · rw [hset]
  · rw [hset] at h
    cases h

/-- Whatever is done between the opening of a scope and its closing, as many scopes are open
afterwards as before. They bind the same names, and the global scope also those that have been
defined in it meanwhile. But for these, a name is a constant if it was one, and has its value unless
it has been set successfully when it was found in this scope, and no constant. At all times, also
where more scopes are closed than have been opened, the global scope is on the stack, what is marked
as a constant in a scope has a value there, and setting a name changes nothing if it fails: when the
name is bound nowhere or found as a constant. The scopes on which programs run are at all times
those of the environment, and answer as it does. -/
theorem scope_leaves_the_rest (earlier : List Operation) :
    let e := performAll {} earlier
    (∀ ops, balanced 0 ops = true →
      let t := e.performAll (.push :: ops ++ [.pop])
      t.depth = e.depth ∧
      Frame e.depth (e.push.RebindsIn ops) (fun key => ∃ op ∈ ops, DefinesGlobal op key) e t) ∧
    1 ≤ e.depth ∧
    (∀ i key, e.isMarked i key = true → (e.find? i key).isSome = true) ∧
    (∀ name v, ((e.set name v).2.isSome = true ↔ e.lookup? name = none ∨ e.isConst name = true) ∧
      ((e.set name v).2.isSome = true → (e.set name v).1 = e)) ∧
    e.toScopes = earlier.foldl (fun s op => (s.perform op).1) {} ∧ e.AnswersAs e.toScopes := by
  have hsound := sound_performAll .empty earlier
  exact ⟨fun ops hops => frame_scope hsound.depth hops, hsound.depth,
    fun i key => hsound.find?_of_isMarked, fun name v => ⟨set_fails_iff _ name v, set_of_fails⟩,
    toScopes_performAll .empty earlier, hsound.answersAs⟩

/-- A local variable that is hidden by a constant of its name stays a variable, and a constant of
the global scope stays one. -/
theorem scope_leaves_the_rest_hidden :
    let e := performAll {} [.defineConst "Limit" (.integer 9), .push, .define "x" (.integer 1)]
    let ops : List Operation := [.defineConst "X" (.integer 2), .set "x" (.integer 3), .push,
      .set "limit" (.integer 4), .define "x" (.integer 5), .set "X" (.integer 6), .pop]
    balanced 0 ops = true ∧
      let t := e.performAll (.push :: ops ++ [.pop])
      t.depth = 2 ∧ (t.find? 1 "x").isSome = true ∧ (t.find? 0 "limit").isSome = true := by
  intro e ops
  have hops : balanced 0 ops = true := by decide
  obtain ⟨hdepth, hframe⟩ := (scope_leaves_the_rest
    [.defineConst "Limit" (.integer 9), .push, .define "x" (.integer 1)]).1 ops hops
  exact ⟨hops, hdepth.trans rfl,
    (hframe.names 1 (by decide) Nat.one_ne_zero "x").trans (by decide +kernel),
    hframe.globals "limit" (by decide +kernel)⟩

end Environment

end FormBasic
