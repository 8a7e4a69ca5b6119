import FormBasic.Scope

/-!
# Laws of scopes

How the operations on scopes act on what each scope binds. `Scopes.bindingAt?` is the view through
which local scopes are compared: the binding of a key in the scope at a *level*, where levels count
from the outermost local scope, so that opening and closing scopes leaves the levels below alone.
Rebinding a name changes one entry of one scope, and `Scopes.set_cases` says which.

`Scopes.Kept` is what a call owes its caller: the scopes below a level have the bindings they had,
apart from new values for what is neither constant nor fixed.

## Main results

* `Scopes.setIn_cases`, `Scopes.set_cases` — what rebinding does
* `Scopes.bindingAt?_set` — the same by levels
* `Scopes.findIn_eq_bindingAt?` — a name is looked up at the innermost level that binds it
* `Scopes.Kept.set`, `Scopes.Kept.updateCurrent`, `Scopes.Kept.call` — what keeps the levels below
-/

namespace FormBasic.Scopes

/-! ### Depth -/

@[simp] theorem depth_push (s : Scopes) : s.push.depth = s.depth + 1 := rfl

@[simp] theorem depth_updateCurrent (s : Scopes) (f : Scope → Scope) :
    (s.updateCurrent f).depth = s.depth := by
  unfold updateCurrent
  split
  · rfl
  · next h => simp [depth, h]

theorem depth_pop_of_depth_eq {s t : Scopes} (h : t.depth = s.depth + 1) :
    t.pop.depth = s.depth := by
  simp only [depth, pop, List.length_tail] at h ⊢
  omega

/-! ### Rebinding -/

/-- A key is rebound in the first scope that binds it. -/
theorem setIn_cases {key : String} {v : Value} {ls ls' : List Scope}
    (h : setIn key v ls = some ls') :
    ∃ inner l outer, ls = inner ++ l :: outer ∧ (∀ m ∈ inner, m.find? key = none) ∧
      (l.find? key).isSome = true ∧ ls' = inner ++ l.insert key ⟨v, false⟩ :: outer := by
  induction ls generalizing ls' with
  | nil => cases h
  | cons l ls ih =>
    rw [setIn] at h
    split at h
    · next hl =>
      cases h
      exact ⟨[], l, ls, rfl, by simp, hl, rfl⟩
    · next hl =>
      obtain ⟨ls'', hls, rfl⟩ := Option.map_eq_some_iff.1 h
      obtain ⟨inner, m, outer, rfl, hfree, hm, rfl⟩ := ih hls
      refine ⟨l :: inner, m, outer, rfl, ?_, hm, rfl⟩
      rintro m' (_ | ⟨_, hm'⟩)
      · simpa [Table.contains] using hl
      · exact hfree m' hm'

theorem findIn_append (key : String) (ls ls' : List Scope) :
    findIn key (ls ++ ls') = (findIn key ls).or (findIn key ls') := by
  induction ls with
  | nil => rfl
  | cons l ls ih =>
    simp only [List.cons_append, findIn, ih]
    cases l.find? key <;> rfl

theorem findIn_eq_none {key : String} {ls : List Scope} (h : ∀ l ∈ ls, l.find? key = none) :
    findIn key ls = none := by
  induction ls with
  | nil => rfl
  | cons l ls ih =>
    rw [findIn, h l List.mem_cons_self]
    exact ih fun m hm => h m (List.mem_cons_of_mem _ hm)

theorem setIn_eq_none {key : String} {v : Value} {ls : List Scope} (h : setIn key v ls = none) :
    ∀ l ∈ ls, l.find? key = none := by
  induction ls with
  | nil => exact nofun
  | cons l ls ih =>
    rw [setIn] at h
    split at h
    · cases h
    · next hl =>
      have hrest : setIn key v ls = none := Option.map_eq_none_iff.1 h
      rintro m (_ | ⟨_, hm⟩)
      · simpa [Table.contains] using hl
      · exact ih hrest m hm

theorem setIn_of_free {key : String} {v : Value} {ls : List Scope}
    (h : ∀ l ∈ ls, l.find? key = none) : setIn key v ls = none := by
  induction ls with
  | nil => rfl
  | cons l ls ih =>
    rw [setIn, Table.contains, h l List.mem_cons_self, Option.isSome_none,
      if_neg Bool.false_ne_true, ih fun m hm => h m (List.mem_cons_of_mem _ hm), Option.map_none]

theorem setIn_append {key : String} {v : Value} {inner outer : List Scope} {l : Scope}
    (hfree : ∀ m ∈ inner, m.find? key = none) (hl : (l.find? key).isSome = true) :
    setIn key v (inner ++ l :: outer) = some (inner ++ l.insert key ⟨v, false⟩ :: outer) := by
  induction inner with
  | nil => rw [List.nil_append, setIn, Table.contains, hl, if_pos rfl, List.nil_append]
  | cons m inner ih =>
    rw [List.cons_append, setIn, Table.contains, hfree m List.mem_cons_self, Option.isSome_none,
      if_neg Bool.false_ne_true, ih fun m hm => hfree m (List.mem_cons_of_mem _ hm),
      Option.map_some, List.cons_append]

/-- What rebinding a name does: it finds a binding that is no constant, and gives it a new value in
the first local scope that has it, or else in the global scope. -/
theorem set_cases {s s' : Scopes} {name : String} {v : Value} (h : s.set name v = .ok s') :
    (∃ inner l outer b, s.locals = inner ++ l :: outer ∧
      (∀ m ∈ inner, m.find? (Text.lower name) = none) ∧
      l.find? (Text.lower name) = some b ∧ b.isConst = false ∧
      s' = { s with locals := inner ++ l.insert (Text.lower name) ⟨v, false⟩ :: outer }) ∨
    ∃ b, findIn (Text.lower name) s.locals = none ∧
      s.globals.find? (Text.lower name) = some b ∧ b.isConst = false ∧
      s' = { s with globals := s.globals.insert (Text.lower name) ⟨v, false⟩ } := by
  unfold set at h
  split at h
  · cases h
  · next b hb =>
    split at h
    · cases h
    · next hconst =>
      dsimp only at h
      split at h
      · next ls hls =>
        cases h
        obtain ⟨inner, l, outer, hs, hfree, hl, rfl⟩ := setIn_cases hls
        obtain ⟨b', hb'⟩ := Option.isSome_iff_exists.1 hl
        have hfind : findIn (Text.lower name) s.locals = some b' := by
          rw [hs, findIn_append, findIn_eq_none hfree, findIn, hb']
          rfl
        have hbb : b' = b := by simpa [binding?, hfind] using hb
        exact .inl ⟨inner, l, outer, b', hs, hfree, hb', by simpa [hbb] using hconst, rfl⟩
      · next hnone =>
        cases h
        have hfind := findIn_eq_none (setIn_eq_none hnone)
        have hglobal : s.globals.find? (Text.lower name) = some b := by
          simpa [binding?, hfind] using hb
        exact .inr ⟨b, hfind, hglobal, by simpa using hconst, rfl⟩

/-- A bound name can be rebound unless it is a constant. -/
theorem not_missing_of_set {s : Scopes} {name : String} {v : Value} {c : Cause}
    (hbound : (s.binding? name).isSome = true) (h : s.set name v = .error c) :
    c.isMissing = false := by
  obtain ⟨b, hb⟩ := Option.isSome_iff_exists.1 hbound
  unfold set at h
  rw [hb] at h
  dsimp only at h
  split at h
  · cases h
    rfl
  · split at h <;> cases h

theorem exists_set_of_binding? {s : Scopes} {name : String} {b : Binding}
    (hb : s.binding? name = some b) (hconst : b.isConst = false) (v : Value) :
    ∃ scopes, s.set name v = .ok scopes := by
  unfold set
  rw [hb]
  dsimp only
  rw [hconst, if_neg Bool.false_ne_true]
  split <;> exact ⟨_, rfl⟩

theorem depth_set {s s' : Scopes} {name : String} {v : Value} (h : s.set name v = .ok s') :
    s'.depth = s.depth := by
  obtain ⟨inner, l, outer, b, hs, -, -, -, rfl⟩ | ⟨b, -, -, -, rfl⟩ := set_cases h
  · simp [depth, hs]
  · rfl

/-! ### Bindings of names -/

/-- A name that is bound globally is found unless a local scope binds it. -/
theorem lookup?_defineGlobal {s : Scopes} {name : String} (v : Value)
    (h : s.hasLocal name = false) : (s.defineGlobal name v).lookup? name = some v := by
  have hnone : findIn (Text.lower name) s.locals = none := by simpa [hasLocal] using h
  simp only [lookup?, binding?, defineGlobal, hnone, Option.orElse_none, Table.find?_insert_self,
    Option.map_some]

/-- A name is found in any letter case. -/
theorem lookup?_of_lower (s : Scopes) {name other : String}
    (h : Text.lower name = Text.lower other) : s.lookup? name = s.lookup? other := by
  rw [lookup?, lookup?, binding?, binding?, h]

/-- Binding a name in the innermost scope changes what that name finds, and nothing else. -/
theorem binding?_updateCurrent (s : Scopes) (name other : String) (b : Binding) :
    (s.updateCurrent (·.insert (Text.lower name) b)).binding? other =
      if Text.lower name = Text.lower other then some b else s.binding? other := by
  obtain ⟨globals, locals⟩ := s
  cases locals with
  | nil => simp [updateCurrent, binding?, findIn, Table.find?_insert]
  | cons l ls =>
    simp only [updateCurrent, binding?, findIn, Table.find?_insert]
    split <;> rfl

/-- A name that is bound in the innermost scope is found there. -/
theorem lookup?_define (s : Scopes) (name : String) (v : Value) :
    (s.define name v).lookup? name = some v := by
  obtain ⟨globals, locals⟩ := s
  cases locals with
  | nil => simp [lookup?, binding?, define, updateCurrent, findIn]
  | cons l ls => simp [lookup?, binding?, define, updateCurrent, findIn]

theorem hasLocal_define {s : Scopes} (h : s.locals ≠ []) (name : String) (v : Value) :
    (s.define name v).hasLocal name = true := by
  obtain ⟨globals, locals⟩ := s
  cases locals with
  | nil => exact absurd rfl h
  | cons l ls => simp [hasLocal, define, updateCurrent, findIn]

/-- Rebinding a name leaves the constants of the global scope alone. -/
theorem find?_globals_set {s s' : Scopes} {name key : String} {v : Value} {b : Binding}
    (h : s.set name v = .ok s') (hb : s.globals.find? key = some b) (hconst : b.isConst = true) :
    s'.globals.find? key = some b := by
  obtain ⟨inner, l, outer, b', -, -, -, -, rfl⟩ | ⟨b', -, hb', hconst', rfl⟩ := set_cases h
  · exact hb
  · have hne : Text.lower name ≠ key := by
      rintro rfl
      rw [hb, Option.some.injEq] at hb'
      rw [hb', hconst'] at hconst
      cases hconst
    exact (Table.find?_insert_of_ne _ _ hne).trans hb

/-- A constant cannot be rebound. -/
theorem set_of_isConst {s : Scopes} {name : String} (v : Value) (h : s.isConst name = true) :
    s.set name v = .error (.custom ("Cannot assign to constant '" ++ name ++ "'")) := by
  obtain ⟨b, hb, hconst⟩ := (Option.any_eq_true _ _).1 h
  simp only [set, hb, hconst, if_true]

/-- A constant of the global scope is found unless a local scope binds its name. -/
theorem isConst_of_find?_globals {s : Scopes} {name : String} {b : Binding}
    (hlocal : s.hasLocal name = false) (hb : s.globals.find? (Text.lower name) = some b)
    (hconst : b.isConst = true) : s.isConst name = true := by
  have hnone : findIn (Text.lower name) s.locals = none := by simpa [hasLocal] using hlocal
  simp only [isConst, binding?, hnone, Option.orElse_none, hb, Option.any_some, hconst]

/-! ### Levels -/

/-- The binding of a key in the local scope at a level, counted from the outermost one. -/
def bindingAt? (s : Scopes) (level : Nat) (key : String) : Option Binding :=
  s.locals.reverse[level]?.bind (·.find? key)

/-- Whether a local scope binds a key at a level or above it. -/
def boundFrom (s : Scopes) (level : Nat) (key : String) : Bool :=
  (s.locals.reverse.drop level).any (·.contains key)

theorem bindingAt?_push (s : Scopes) {level : Nat} (h : level < s.locals.length) (key : String) :
    s.push.bindingAt? level key = s.bindingAt? level key := by
  have hl : level < s.locals.reverse.length := by simpa using h
  rw [bindingAt?, bindingAt?, push, List.reverse_cons, List.getElem?_append_left hl]

theorem bindingAt?_pop {s : Scopes} {level : Nat} (h : level + 1 < s.locals.length)
    (key : String) : s.pop.bindingAt? level key = s.bindingAt? level key := by
  rw [bindingAt?, bindingAt?, pop]
  cases hs : s.locals with
  | nil => simp [hs] at h
  | cons l ls =>
    have hl : level < ls.reverse.length := by simpa [hs] using h
    rw [List.tail_cons, List.reverse_cons, List.getElem?_append_left hl]

theorem bindingAt?_updateCurrent {s : Scopes} {level : Nat} (h : level + 1 < s.locals.length)
    (f : Scope → Scope) (key : String) :
    (s.updateCurrent f).bindingAt? level key = s.bindingAt? level key := by
  rw [bindingAt?, bindingAt?, updateCurrent]
  cases hs : s.locals with
  | nil => simp [hs] at h
  | cons l ls =>
    have hl : level < ls.reverse.length := by simpa [hs] using h
    dsimp only
    rw [List.reverse_cons, List.reverse_cons, List.getElem?_append_left hl,
      List.getElem?_append_left hl]

theorem bindingAt?_append (g : Scope) (inner outer : List Scope) (l : Scope) (level : Nat)
    (key : String) :
    (Scopes.mk g (inner ++ l :: outer)).bindingAt? level key =
      if level = outer.length then l.find? key
      else (Scopes.mk g (inner ++ ∅ :: outer)).bindingAt? level key := by
  simp only [bindingAt?, List.reverse_append, List.reverse_cons, List.append_assoc,
    List.singleton_append]
  split
  · next h =>
    rw [h, List.getElem?_append_right (by simp)]
    simp
  · next h =>
    rcases Nat.lt_or_gt_of_ne h with hlt | hgt
    · rw [List.getElem?_append_left (by simpa using hlt),
        List.getElem?_append_left (by simpa using hlt)]
    · obtain ⟨n, rfl⟩ : ∃ n, level = outer.length + 1 + n := ⟨level - (outer.length + 1), by omega⟩
      rw [List.getElem?_append_right (by simp; omega), List.getElem?_append_right (by simp; omega)]
      have : outer.length + 1 + n - outer.reverse.length = n + 1 := by simp; omega
      rw [this, List.getElem?_cons_succ, List.getElem?_cons_succ]

/-- Binding a key in one scope. -/
theorem bindingAt?_insert (g : Scope) (inner outer : List Scope) (l : Scope) (key : String)
    (b : Binding) (level : Nat) (other : String) :
    (Scopes.mk g (inner ++ l.insert key b :: outer)).bindingAt? level other =
      if level = outer.length ∧ key = other then some b
      else (Scopes.mk g (inner ++ l :: outer)).bindingAt? level other := by
  rw [bindingAt?_append, bindingAt?_append _ _ _ l]
  by_cases hlevel : level = outer.length
  · simp only [hlevel, if_true, true_and, Table.find?_insert]
  · simp only [hlevel, if_false, false_and]

/-- What rebinding a name does at each level: nothing, or a new value for the binding at the highest
level that has one. -/
theorem bindingAt?_set {s s' : Scopes} {name : String} {v : Value} (h : s.set name v = .ok s') :
    (∀ level key, s'.bindingAt? level key = s.bindingAt? level key) ∨
    ∃ i b, s.bindingAt? i (Text.lower name) = some b ∧ b.isConst = false ∧
      (∀ level, i < level → s.bindingAt? level (Text.lower name) = none) ∧
      ∀ level key, s'.bindingAt? level key =
        if level = i ∧ key = Text.lower name then some ⟨v, false⟩ else s.bindingAt? level key := by
  obtain ⟨inner, l, outer, b, hs, hfree, hb, hconst, rfl⟩ | ⟨b, -, -, -, rfl⟩ := set_cases h
  · obtain ⟨g, ls⟩ := s
    subst hs
    refine .inr ⟨outer.length, b, ?_, hconst, ?_, ?_⟩
    · rw [bindingAt?_append, if_pos rfl, hb]
    · intro level hlevel
      rw [bindingAt?, List.reverse_append, List.reverse_cons, List.append_assoc,
        List.getElem?_append_right (by simpa using Nat.le_of_lt hlevel)]
      obtain ⟨n, hn⟩ : ∃ n, level - outer.reverse.length = n + 1 :=
        ⟨level - outer.length - 1, by simp; omega⟩
      rw [hn, List.singleton_append, List.getElem?_cons_succ]
      cases hm : inner.reverse[n]? with
      | none => rfl
      | some m =>
        exact hfree m (List.mem_reverse.1 (List.mem_of_getElem? hm))
    · intro level key
      simp only [bindingAt?_insert, eq_comm (a := key)]
  · exact .inl fun _ _ => rfl

theorem exists_bindingAt?_of_boundFrom {s : Scopes} {level : Nat} {key : String}
    (h : s.boundFrom level key = true) : ∃ i, level ≤ i ∧ (s.bindingAt? i key).isSome = true := by
  obtain ⟨l, hl, hkey⟩ := List.any_eq_true.1 h
  obtain ⟨n, hn⟩ := List.mem_iff_getElem?.1 hl
  rw [List.getElem?_drop] at hn
  exact ⟨level + n, Nat.le_add_right _ _, by rw [bindingAt?, hn]; exact hkey⟩

/-! ### The innermost level -/

theorem bindingAt?_cons (g l : Scope) (ls : List Scope) {level : Nat} (h : level ≤ ls.length)
    (key : String) :
    (Scopes.mk g (l :: ls)).bindingAt? level key =
      if level = ls.length then l.find? key else (Scopes.mk g ls).bindingAt? level key := by
  have happend := bindingAt?_append g [] ls l level key
  rw [List.nil_append, List.nil_append] at happend
  rw [happend]
  split
  · rfl
  · next hne => exact bindingAt?_push (Scopes.mk g ls) (Nat.lt_of_le_of_ne h hne) key

theorem bindingAt?_eq_none {s : Scopes} {level : Nat} (h : s.locals.length ≤ level)
    (key : String) : s.bindingAt? level key = none := by
  rw [bindingAt?, List.getElem?_eq_none (by simpa using h)]
  rfl

/-- The highest of so many levels at which a key is bound. -/
def topLevel? (s : Scopes) (key : String) : (levels : Nat) → Option Nat
  | 0 => none
  | level + 1 => if (s.bindingAt? level key).isSome then some level else s.topLevel? key level

/-- The level of the innermost local scope that binds a key. -/
def level? (s : Scopes) (key : String) : Option Nat := s.topLevel? key s.locals.length

theorem topLevel?_congr {s t : Scopes} {key : String} {levels : Nat}
    (h : ∀ level < levels, (t.bindingAt? level key).isSome = (s.bindingAt? level key).isSome) :
    t.topLevel? key levels = s.topLevel? key levels := by
  induction levels with
  | zero => rfl
  | succ level ih =>
    rw [topLevel?, topLevel?, h level (Nat.lt_succ_self level),
      ih fun level' hlevel => h level' (Nat.lt_succ_of_lt hlevel)]

theorem isSome_of_topLevel? {s : Scopes} {key : String} {levels level : Nat}
    (h : s.topLevel? key levels = some level) : (s.bindingAt? level key).isSome = true := by
  induction levels with
  | zero => cases h
  | succ n ih =>
    rw [topLevel?] at h
    split at h
    · next hn =>
      cases h
      exact hn
    · exact ih h

theorem exists_topLevel? {s : Scopes} {key : String} {levels level : Nat} (hlevel : level < levels)
    (h : (s.bindingAt? level key).isSome = true) : (s.topLevel? key levels).isSome = true := by
  induction levels with
  | zero => omega
  | succ n ih =>
    rw [topLevel?]
    split
    · rfl
    · next hn =>
      have hne : level ≠ n := fun heq => hn (heq ▸ h)
      exact ih (by omega)

theorem level?_cons (g l : Scope) (ls : List Scope) (key : String) :
    (Scopes.mk g (l :: ls)).level? key =
      if (l.find? key).isSome then some ls.length else (Scopes.mk g ls).level? key := by
  have hbelow : ∀ level < ls.length, ((Scopes.mk g (l :: ls)).bindingAt? level key).isSome =
      ((Scopes.mk g ls).bindingAt? level key).isSome := by
    intro level hlevel
    rw [bindingAt?_cons g l ls (Nat.le_of_lt hlevel), if_neg (Nat.ne_of_lt hlevel)]
  rw [level?, level?, List.length_cons, topLevel?, topLevel?_congr hbelow,
    bindingAt?_cons g l ls (Nat.le_refl _), if_pos rfl]

/-- The first binding of a key is that at the innermost level. -/
theorem findIn_eq_bindingAt? (g : Scope) (ls : List Scope) (key : String) :
    findIn key ls =
      ((Scopes.mk g ls).level? key).bind ((Scopes.mk g ls).bindingAt? · key) := by
  induction ls with
  | nil => rfl
  | cons l ls ih =>
    rw [findIn, level?_cons]
    cases hl : l.find? key with
    | some b =>
      rw [Option.isSome_some, if_pos rfl, Option.bind_some, bindingAt?_cons g l ls (Nat.le_refl _),
        if_pos rfl, hl]
      rfl
    | none =>
      rw [Option.isSome_none, if_neg Bool.false_ne_true, Option.orElse_none, ih]
      cases hlevel : (Scopes.mk g ls).level? key with
      | none => rfl
      | some level =>
        have hlt : level < ls.length := by
          refine Nat.lt_of_not_le fun hle => ?_
          have hsome := isSome_of_topLevel? hlevel
          rw [bindingAt?_eq_none hle] at hsome
          cases hsome
        rw [Option.bind_some, Option.bind_some, bindingAt?_cons g l ls (Nat.le_of_lt hlt),
          if_neg (Nat.ne_of_lt hlt)]

theorem level?_append {g l : Scope} {inner outer : List Scope} {key : String}
    (hfree : ∀ m ∈ inner, m.find? key = none) (hl : (l.find? key).isSome = true) :
    (Scopes.mk g (inner ++ l :: outer)).level? key = some outer.length := by
  induction inner with
  | nil => rw [List.nil_append, level?_cons, if_pos hl]
  | cons m inner ih =>
    rw [List.cons_append, level?_cons, hfree m List.mem_cons_self, Option.isSome_none,
      if_neg Bool.false_ne_true, ih fun m hm => hfree m (List.mem_cons_of_mem _ hm)]

/-! ### Keeping the levels below -/

/-- The scopes below a level bind the names that they did, with the constants that they had and with
the values that they had for fixed keys. -/
structure Kept (level : Nat) (Fixed : String → Prop) (s s' : Scopes) : Prop where
  length : s'.locals.length = s.locals.length
  names : ∀ i < level, ∀ key, (s'.bindingAt? i key).isSome = (s.bindingAt? i key).isSome
  constants : ∀ i < level, ∀ key b, s.bindingAt? i key = some b → b.isConst = true →
    s'.bindingAt? i key = some b
  values : ∀ i < level, ∀ key, Fixed key → s'.bindingAt? i key = s.bindingAt? i key

namespace Kept

variable {level : Nat} {P : String → Prop} {s t u : Scopes}

theorem of_bindingAt? (hlength : t.locals.length = s.locals.length)
    (h : ∀ i < level, ∀ key, t.bindingAt? i key = s.bindingAt? i key) : Kept level P s t where
  length := hlength
  names i hi key := congrArg Option.isSome (h i hi key)
  constants i hi key _ hb _ := (h i hi key).trans hb
  values i hi key _ := h i hi key

theorem refl (s : Scopes) : Kept level P s s := of_bindingAt? rfl fun _ _ _ => rfl

theorem trans (h : Kept level P s t) (h' : Kept level P t u) : Kept level P s u where
  length := h'.length.trans h.length
  names i hi key := (h'.names i hi key).trans (h.names i hi key)
  constants i hi key b hb hconst :=
    h'.constants i hi key b (h.constants i hi key b hb hconst) hconst
  values i hi key hkey := (h'.values i hi key hkey).trans (h.values i hi key hkey)

/-- Binding in the innermost scope keeps the levels below it. -/
theorem updateCurrent (h : level < s.locals.length) (f : Scope → Scope) :
    Kept level P s (s.updateCurrent f) := by
  refine of_bindingAt? ?_ fun i hi key => bindingAt?_updateCurrent (by omega) f key
  have hdepth := depth_updateCurrent s f
  simp only [depth] at hdepth
  omega

/-- Rebinding a name keeps the levels below one where the name is bound again, if it is fixed. -/
theorem set {name : String} {v : Value} (h : s.set name v = .ok t)
    (hname : P (Text.lower name) → s.boundFrom level (Text.lower name) = true) :
    Kept level P s t := by
  have hlength : t.locals.length = s.locals.length := by
    have hdepth := depth_set h
    simp only [depth] at hdepth
    omega
  obtain hsame | ⟨i, b, hb, hconst, htop, hset⟩ := bindingAt?_set h
  · exact of_bindingAt? hlength fun j _ key => hsame j key
  · refine ⟨hlength, fun j _ key => ?_, fun j _ key c hc hcconst => ?_, fun j hj key hkey => ?_⟩
    · rw [hset]
      split
      · next hji =>
        rw [hji.1, hji.2, hb]
        rfl
      · rfl
    · rw [hset]
      split
      · next hji =>
        -- the binding that is given a new value is no constant
        obtain ⟨rfl, rfl⟩ := hji
        rw [hb, Option.some.injEq] at hc
        rw [hc, hcconst] at hconst
        cases hconst
      · exact hc
    · rw [hset, if_neg]
      rintro ⟨rfl, rfl⟩
      obtain ⟨m, hm, hsome⟩ := exists_bindingAt?_of_boundFrom (hname hkey)
      rw [htop m (by omega)] at hsome
      cases hsome

/-- A scope that is opened and closed keeps the levels below if what is done in it does. -/
theorem call (h : level ≤ s.locals.length) (hbody : Kept level P s.push t) :
    Kept level P s t.pop := by
  have hlength : t.locals.length = s.locals.length + 1 := hbody.length
  have hpop : ∀ i < level, ∀ key, t.pop.bindingAt? i key = t.bindingAt? i key :=
    fun i hi key => bindingAt?_pop (by omega) key
  have hpush : ∀ i < level, ∀ key, s.push.bindingAt? i key = s.bindingAt? i key :=
    fun i hi key => bindingAt?_push s (by omega) key
  refine ⟨?_, fun i hi key => ?_, fun i hi key b hb hconst => ?_, fun i hi key hkey => ?_⟩
  · simp [pop, hlength]
  · rw [hpop i hi, hbody.names i hi, hpush i hi]
  · rw [hpop i hi]
    exact hbody.constants i hi key b ((hpush i hi key).trans hb) hconst
  · rw [hpop i hi, hbody.values i hi key hkey, hpush i hi]

end Kept

end FormBasic.Scopes
