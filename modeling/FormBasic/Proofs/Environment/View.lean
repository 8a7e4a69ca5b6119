import FormBasic.Proofs.Environment
import FormBasic.Proofs.Scope

/-!
# The scopes of an environment

Programs run on `Scopes`, where a binding carries its mark and the global scope stands apart from
the local ones. `Environment.toScopes` forgets in what form an environment has them. On sound
environments it takes every operation to the one of the same name, with the same failures, and the
readers give the same answers on both sides.

The stack runs from the global scope upwards, the local scopes run the other way. A stack is
therefore split at the scope that an operation reaches, `below ++ l :: above`, and the two sides are
compared piece by piece.

## Main definitions

* `Environment.toScopes` — the scopes of an environment
* `Environment.AnswersAs` — scopes of which every question has the answer of an environment

## Main results

* `Environment.toScopes_modify_last`, `Environment.toScopes_set` — binding and rebinding
* `Environment.Sound.toScopes_define`, `Environment.Sound.toScopes_defineConst`, … — the operations
* `Environment.binding?_toScopes` — a name is found with the same value and the same mark
* `Environment.Sound.answersAs` — the readers
-/

namespace FormBasic.Environment

variable {e : Environment} {l : Level} {key name : String} {v : Value}

/-! ### One scope -/

/-- A value with the mark of its key. -/
def Level.bind (l : Level) (key : String) (v : Value) : Binding := ⟨v, l.isMarked key⟩

/-- The bindings of a scope with their marks. -/
def Level.toScope (l : Level) : Scope :=
  ⟨l.bindings.entries.map fun entry => (entry.1, l.bind entry.1 entry.2)⟩

/-- The binding of a key with its mark. -/
def Level.binding? (l : Level) (key : String) : Option Binding :=
  (l.bindings.find? key).map (l.bind key)

theorem Level.find?_toScope (l : Level) (key : String) : l.toScope.find? key = l.binding? key :=
  Table.findIn_map l.bind key l.bindings.entries

theorem Level.isSome_binding? (l : Level) (key : String) :
    (l.binding? key).isSome = (l.bindings.find? key).isSome := Option.isSome_map

/-- A key that gets a value has the mark that the scope has for it afterwards, and the other keys
have the marks that they had. -/
theorem Level.Sound.toScope_insert (h : l.Sound) (key : String) (v : Value) {constants : Table Bool}
    {mark : Bool}
    (hmark : (Level.mk l.bindings constants).isMarked key = mark)
    (hmarks : ∀ other, key ≠ other →
      (Level.mk l.bindings constants).isMarked other = l.isMarked other) :
    (Level.mk (l.bindings.insert key v) constants).toScope = l.toScope.insert key ⟨v, mark⟩ := by
  subst hmark
  exact congrArg Table.mk (Table.insertIn_map l.bind (Level.mk l.bindings constants).bind v h.nodup
    fun other w hne => congrArg (Binding.mk w) (hmarks other hne))

theorem Level.Sound.toScope_define (h : l.Sound) (key : String) (v : Value) :
    (l.define key v).toScope = l.toScope.insert key ⟨v, false⟩ :=
  h.toScope_insert key v ((isMarked_define l key key v).trans (if_pos rfl))
    fun other hne => (isMarked_define l key other v).trans (if_neg hne)

theorem Level.Sound.toScope_defineConst (h : l.Sound) (key : String) (v : Value) :
    (l.defineConst key v).toScope = l.toScope.insert key ⟨v, true⟩ :=
  h.toScope_insert key v ((isMarked_defineConst l key key v).trans (if_pos rfl))
    fun other hne => (isMarked_defineConst l key other v).trans (if_neg hne)

theorem Level.Sound.toScope_rebind (h : l.Sound) (hmark : l.isMarked key = false) (v : Value) :
    (l.rebind key v).toScope = l.toScope.insert key ⟨v, false⟩ :=
  h.toScope_insert key v hmark fun _ _ => rfl

/-! ### The stack -/

/-- The scopes of an environment. -/
def toScopes (e : Environment) : Scopes where
  globals := (e.scopes.headD {}).toScope
  locals := (e.scopes.tail.map Level.toScope).reverse

theorem exists_split {i : Nat} (h : i < e.depth) :
    ∃ below l above, e = ⟨below ++ l :: above⟩ ∧ below.length = i := by
  have hsplit := List.take_append_drop i e.scopes
  rw [← List.getElem_cons_drop h] at hsplit
  exact ⟨_, _, _, congrArg Environment.mk hsplit.symm, List.length_take_of_le (Nat.le_of_lt h)⟩

theorem modify_split (below above : List Level) (l : Level) (f : Level → Level) :
    (Environment.mk (below ++ l :: above)).modify below.length f = ⟨below ++ f l :: above⟩ := by
  refine congrArg Environment.mk ?_
  induction below with
  | nil => rfl
  | cons m below ih => simpa using ih

theorem getElem?_split (below above : List Level) (l : Level) :
    (below ++ l :: above)[below.length]? = some l := by
  rw [List.getElem?_append_right (Nat.le_refl _), Nat.sub_self, List.getElem?_cons_zero]

/-- The global scope of a stack. -/
theorem toScopes_global (g : Level) (above : List Level) :
    toScopes ⟨g :: above⟩ = ⟨g.toScope, (above.map Level.toScope).reverse⟩ := rfl

/-- A local scope of a stack and those around it. -/
theorem toScopes_local (g l : Level) (below above : List Level) :
    toScopes ⟨g :: below ++ l :: above⟩ = ⟨g.toScope,
      (above.map Level.toScope).reverse ++ l.toScope :: (below.map Level.toScope).reverse⟩ := by
  simp [toScopes]

theorem eq_nil_of_length_eq_pred_depth {below above : List Level}
    (h : below.length = depth ⟨below ++ l :: above⟩ - 1) : above = [] := by
  simp only [depth, List.length_append, List.length_cons] at h
  exact List.eq_nil_of_length_eq_zero (by omega)

/-- Changing the innermost scope. -/
theorem toScopes_modify_last {f : Level → Level} {F : Scope → Scope} (h : e.Sound)
    (hf : ∀ l : Level, l.Sound → (f l).toScope = F l.toScope) :
    (e.modify (e.depth - 1) f).toScopes = e.toScopes.updateCurrent F := by
  have hlast : e.depth - 1 < e.depth := Nat.sub_lt h.depth Nat.one_pos
  obtain ⟨below, l, above, rfl, hlength⟩ := exists_split hlast
  obtain rfl : above = [] := eq_nil_of_length_eq_pred_depth hlength
  have hl : l.Sound := h.levels l (List.mem_append_right _ List.mem_cons_self)
  rw [← hlength, modify_split]
  cases below with
  | nil => exact congrArg (Scopes.mk · []) (hf l hl)
  | cons g below =>
    rw [toScopes_local, toScopes_local, hf l hl]
    rfl

/-- Changing the global scope. -/
theorem toScopes_modify_zero {f : Level → Level} {F : Scope → Scope} (h : e.Sound)
    (hf : ∀ l : Level, l.Sound → (f l).toScope = F l.toScope) :
    (e.modify 0 f).toScopes = { e.toScopes with globals := F e.toScopes.globals } := by
  obtain ⟨_ | ⟨g, above⟩⟩ := e
  · exact absurd h.depth (Nat.not_succ_le_zero 0)
  · exact congrArg (Scopes.mk · _) (hf g (h.levels g List.mem_cons_self))

/-! ### The operations -/

namespace Sound

theorem toScopes_define (h : e.Sound) (name : String) (v : Value) :
    (e.define name v).toScopes = e.toScopes.define name v :=
  toScopes_modify_last h fun _ hl => hl.toScope_define (Text.lower name) v

theorem toScopes_defineConst (h : e.Sound) (name : String) (v : Value) :
    (e.defineConst name v).toScopes = e.toScopes.defineConst name v :=
  toScopes_modify_last h fun _ hl => hl.toScope_defineConst (Text.lower name) v

theorem toScopes_defineGlobal (h : e.Sound) (name : String) (v : Value) :
    (e.defineGlobal name v).toScopes = e.toScopes.defineGlobal name v :=
  toScopes_modify_zero (F := (·.insert (Text.lower name) ⟨v, false⟩)) h fun _ hl =>
    hl.toScope_define (Text.lower name) v

end Sound

theorem toScopes_push (h : e.Sound) : e.push.toScopes = e.toScopes.push := by
  obtain ⟨_ | ⟨g, above⟩⟩ := e
  · exact absurd h.depth (Nat.not_succ_le_zero 0)
  · simp only [push, toScopes, List.headD_cons, List.cons_append, List.tail_cons, List.map_append,
      List.reverse_append]
    rfl

theorem toScopes_pop (h : e.Sound) : e.pop.toScopes = e.toScopes.pop := by
  obtain ⟨_ | ⟨g, above⟩⟩ := e
  · exact absurd h.depth (Nat.not_succ_le_zero 0)
  · cases above with
    | nil => rfl
    | cons l above =>
      have hopen : 1 < depth ⟨g :: l :: above⟩ := Nat.succ_lt_succ (Nat.zero_lt_succ _)
      rw [pop, if_pos hopen, List.dropLast_cons_cons, toScopes_global, toScopes_global, Scopes.pop,
        List.tail_reverse, List.map_dropLast]

/-- The scope in which a name is found, between those below it and those above it, which do not
bind the name. -/
theorem exists_split_of_innermost? {i : Nat} (h : e.innermost? name = some i) :
    ∃ below l above w, e = ⟨below ++ l :: above⟩ ∧ below.length = i ∧
      l.bindings.find? (Text.lower name) = some w ∧
      ∀ m ∈ above, m.binding? (Text.lower name) = none := by
  obtain ⟨hi, habove⟩ := innermost?_eq_some_iff.1 h
  obtain ⟨below, l, above, rfl, rfl⟩ := exists_split (lt_depth_of_find? hi)
  rw [find?, getElem?_split, Option.bind_some] at hi
  obtain ⟨w, hw⟩ := Option.isSome_iff_exists.1 hi
  refine ⟨below, l, above, w, rfl, rfl, hw, fun m hm => ?_⟩
  obtain ⟨n, hn⟩ := List.mem_iff_getElem?.1 hm
  have hindex : (below ++ l :: above)[below.length + (n + 1)]? = some m := by
    rw [List.getElem?_append_right (Nat.le_add_right _ _), Nat.add_sub_cancel_left,
      List.getElem?_cons_succ, hn]
  have hnone := habove (below.length + (n + 1)) (by omega)
  rw [find?, hindex, Option.bind_some] at hnone
  rw [Level.binding?, hnone, Option.map_none]

theorem binding?_eq_none_of_innermost? (h : e.innermost? name = none) :
    ∀ m ∈ e.scopes, m.binding? (Text.lower name) = none := by
  intro m hm
  obtain ⟨i, hi⟩ := List.mem_iff_getElem?.1 hm
  have hnone := innermost?_eq_none_iff.1 h i
  rw [find?, hi, Option.bind_some] at hnone
  rw [Level.binding?, hnone, Option.map_none]

/-- Scopes do not bind a key if their levels do not. -/
theorem find?_eq_none_of_mem {ms : List Level} (h : ∀ m ∈ ms, m.binding? key = none) :
    ∀ m ∈ (ms.map Level.toScope).reverse, m.find? key = none := by
  intro m hm
  obtain ⟨m', hm', rfl⟩ := List.mem_map.1 (List.mem_reverse.1 hm)
  rw [Level.find?_toScope, h m' hm']

/-- A name that is bound nowhere on the stack is bound in no scope. -/
theorem binding?_toScopes_of_none (h : e.Sound) (hi : e.innermost? name = none) :
    e.toScopes.binding? name = none ∧ e.toScopes.hasLocal name = false := by
  obtain ⟨_ | ⟨g, above⟩⟩ := e
  · exact absurd h.depth (Nat.not_succ_le_zero 0)
  · have hnone := binding?_eq_none_of_innermost? hi
    have hfree := find?_eq_none_of_mem fun m hm => hnone m (List.mem_cons_of_mem _ hm)
    constructor
    · rw [toScopes_global, Scopes.binding?, Scopes.findIn_eq_none hfree, Option.orElse_none,
        Level.find?_toScope, hnone g List.mem_cons_self]
    · rw [toScopes_global, Scopes.hasLocal, Scopes.findIn_eq_none hfree, Option.isSome_none]

/-- A name is found with the value and the mark that it has in the first scope that binds it. -/
theorem binding?_toScopes_split (below : List Level) {above : List Level} {w : Value}
    (hw : l.bindings.find? (Text.lower name) = some w)
    (habove : ∀ m ∈ above, m.binding? (Text.lower name) = none) :
    (toScopes ⟨below ++ l :: above⟩).binding? name = some (l.bind (Text.lower name) w) ∧
      (toScopes ⟨below ++ l :: above⟩).hasLocal name = decide (1 ≤ below.length) := by
  have hb : l.toScope.find? (Text.lower name) = some (l.bind (Text.lower name) w) := by
    rw [Level.find?_toScope, Level.binding?, hw, Option.map_some]
  have hfree := find?_eq_none_of_mem habove
  cases below with
  | nil =>
    rw [List.nil_append, toScopes_global, Scopes.binding?, Scopes.hasLocal,
      Scopes.findIn_eq_none hfree, Option.orElse_none, hb]
    exact ⟨rfl, rfl⟩
  | cons g below =>
    rw [toScopes_local, Scopes.binding?, Scopes.hasLocal, Scopes.findIn_append,
      Scopes.findIn_eq_none hfree, Scopes.findIn, hb]
    exact ⟨rfl, by simp⟩

/-- Setting a name succeeds on both sides or fails on both sides for the same cause. -/
theorem toScopes_set (h : e.Sound) (name : String) (v : Value) :
    e.toScopes.set name v = match (e.set name v).2 with
      | none => .ok (e.set name v).1.toScopes
      | some c => .error c := by
  obtain ⟨hi, hset⟩ | ⟨i, hi, hmark, hset⟩ | ⟨i, hi, hmark, hset⟩ := set_cases e name v
  · rw [hset, Scopes.set, (binding?_toScopes_of_none h hi).1]
  · obtain ⟨below, l, above, w, rfl, rfl, hw, habove⟩ := exists_split_of_innermost? hi
    rw [isMarked, getElem?_split, Option.any_some] at hmark
    rw [hset, Scopes.set, (binding?_toScopes_split below hw habove).1, Level.bind, hmark]
    rfl
  · obtain ⟨below, l, above, w, rfl, rfl, hw, habove⟩ := exists_split_of_innermost? hi
    rw [isMarked, getElem?_split, Option.any_some] at hmark
    have hsound : l.Sound := h.levels l (List.mem_append_right _ List.mem_cons_self)
    have hrebind := hsound.toScope_rebind hmark v
    have hfree := find?_eq_none_of_mem habove
    rw [hset, Scopes.set, (binding?_toScopes_split below hw habove).1, Level.bind, hmark]
    dsimp only
    rw [if_neg Bool.false_ne_true, modify_split]
    cases below with
    | nil =>
      rw [List.nil_append, List.nil_append, toScopes_global, toScopes_global,
        Scopes.setIn_of_free hfree, hrebind]
    | cons g below =>
      have hbound : (l.toScope.find? (Text.lower name)).isSome = true := by
        rw [Level.find?_toScope, Level.binding?, hw]
        rfl
      rw [toScopes_local, toScopes_local, Scopes.setIn_append hfree hbound, hrebind]

/-! ### The readers -/

theorem depth_toScopes (h : e.Sound) : e.toScopes.depth = e.depth := by
  obtain ⟨_ | ⟨g, above⟩⟩ := e
  · exact absurd h.depth (Nat.not_succ_le_zero 0)
  · simp [Scopes.depth, toScopes, depth]

/-- A name has the same value on both sides, is a constant on both sides, and is bound in a local
scope on both sides. -/
theorem reads_toScopes (h : e.Sound) (name : String) :
    e.toScopes.lookup? name = e.lookup? name ∧ e.toScopes.isConst name = e.isConst name ∧
      e.toScopes.hasLocal name = e.hasLocal name := by
  rw [Scopes.lookup?, Scopes.isConst, lookup?, isConst, hasLocal]
  cases hi : e.innermost? name with
  | none =>
    obtain ⟨hnone, hlocal⟩ := binding?_toScopes_of_none h hi
    rw [hnone, hlocal]
    exact ⟨rfl, rfl, rfl⟩
  | some i =>
    obtain ⟨below, l, above, w, rfl, rfl, hw, habove⟩ := exists_split_of_innermost? hi
    obtain ⟨hfound, hlocal⟩ := binding?_toScopes_split below hw habove
    rw [hfound, hlocal, Option.bind_some, find?, getElem?_split, Option.bind_some, hw,
      Option.any_some, Option.any_some, isMarked, getElem?_split, Option.any_some]
    exact ⟨rfl, rfl, rfl⟩

theorem get_toScopes (h : e.Sound) (name : String) : e.toScopes.get name = e.get name := by
  have hvalue := (reads_toScopes h name).1
  cases hfound : e.lookup? name <;> rw [Scopes.get, get, hvalue, hfound]

theorem getGlobal_toScopes (h : e.Sound) (name : String) :
    e.toScopes.getGlobal name = e.getGlobal name := by
  obtain ⟨_ | ⟨g, above⟩⟩ := e
  · exact absurd h.depth (Nat.not_succ_le_zero 0)
  · have hfind : find? ⟨g :: above⟩ 0 (Text.lower name) = g.bindings.find? (Text.lower name) := rfl
    rw [toScopes_global, Scopes.getGlobal, getGlobal, Level.find?_toScope, Level.binding?, hfind]
    cases g.bindings.find? (Text.lower name) <;> rfl

theorem inCurrent_toScopes (h : e.Sound) (name : String) :
    e.toScopes.inCurrent name = e.inCurrent name := by
  have hlast : e.depth - 1 < e.depth := Nat.sub_lt h.depth Nat.one_pos
  obtain ⟨below, l, above, rfl, hlength⟩ := exists_split hlast
  obtain rfl : above = [] := eq_nil_of_length_eq_pred_depth hlength
  have hbound : l.toScope.contains (Text.lower name) =
      (l.bindings.find? (Text.lower name)).isSome := by
    rw [Table.contains, Level.find?_toScope, Level.isSome_binding?]
  rw [inCurrent, ← hlength, find?, getElem?_split, Option.bind_some, ← hbound]
  cases below with
  | nil => rfl
  | cons g below =>
    rw [toScopes_local]
    rfl

theorem lookupMember_toScopes (h : e.Sound) (heap : Heap) (owner member : String) :
    e.toScopes.lookupMember heap owner member = e.lookupMember heap owner member := by
  have hvalue := (reads_toScopes h (memberKey owner member)).1
  have howner := get_toScopes h owner
  rw [Scopes.lookupMember]
  generalize e.toScopes.lookup? (memberKey owner member) = found at hvalue ⊢
  generalize e.toScopes.get owner = target at howner ⊢
  subst hvalue howner
  rfl

theorem globalNames_toScopes (e : Environment) : e.toScopes.globalNames = e.globalNames := by
  -- sorting looks at the names only, which a scope has in common with its level
  have hsort := List.map_mergeSort (l := (e.scopes.headD {}).bindings.entries)
    (f := fun entry => (entry.1, (e.scopes.headD {}).bind entry.1 entry.2))
    (r := fun a b => decide (a.1 ≤ b.1)) (s := fun a b => decide (a.1 ≤ b.1)) fun _ _ _ _ => rfl
  rw [Scopes.globalNames, toScopes, globalNames, Table.sortedNames, Table.sortedNames, Table.sorted,
    Table.sorted, Level.toScope, ← hsort, List.map_map]
  rfl

/-- Whatever an environment is asked, the scopes give the same answer. -/
structure AnswersAs (e : Environment) (s : Scopes) : Prop where
  depth : s.depth = e.depth
  get : ∀ name, s.get name = e.get name
  getGlobal : ∀ name, s.getGlobal name = e.getGlobal name
  isConst : ∀ name, s.isConst name = e.isConst name
  hasLocal : ∀ name, s.hasLocal name = e.hasLocal name
  inCurrent : ∀ name, s.inCurrent name = e.inCurrent name
  lookupMember : ∀ heap owner member,
    s.lookupMember heap owner member = e.lookupMember heap owner member
  globalNames : s.globalNames = e.globalNames

theorem Sound.answersAs (h : e.Sound) : e.AnswersAs e.toScopes where
  depth := depth_toScopes h
  get := get_toScopes h
  getGlobal := getGlobal_toScopes h
  isConst name := (reads_toScopes h name).2.1
  hasLocal name := (reads_toScopes h name).2.2
  inCurrent := inCurrent_toScopes h
  lookupMember := lookupMember_toScopes h
  globalNames := globalNames_toScopes e

end FormBasic.Environment
