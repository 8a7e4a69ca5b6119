import FormBasic.Environment

/-!
# Laws of the environment

How the operations act on what the scope at an index holds: a value for a key, and a mark. Opening
and closing leave the indices below alone, so that scopes of different stacks are compared by index.
Rebinding changes one value in one scope, and `Environment.set_cases` says which.

`Environment.Sound` is what the operations keep of the tables: the global scope is on the stack, a
scope holds a key once, and a marked key has a value.

## Main results

* `Environment.innermost?_eq_some_iff`, `Environment.innermost?_eq_none_iff` — where a name is found
* `Environment.set_cases` — what setting a name does, and why it fails
* `Environment.Sound.push`, `Environment.Sound.pop`, `Environment.Sound.set`, … — every operation
  keeps the tables sound
-/

namespace FormBasic.Environment

variable {e e' : Environment} {i : Nat} {key name : String} {v : Value}

/-! ### The scope at an index -/

theorem find?_eq_none (h : e.depth ≤ i) (key : String) : e.find? i key = none := by
  rw [find?, List.getElem?_eq_none h, Option.bind_none]

theorem lt_depth_of_find? (h : (e.find? i key).isSome = true) : i < e.depth := by
  refine Nat.lt_of_not_le fun hle => ?_
  rw [find?_eq_none hle] at h
  cases h

@[simp] theorem depth_push (e : Environment) : e.push.depth = e.depth + 1 := by
  rw [depth, push, List.length_append]
  rfl

@[simp] theorem depth_modify (e : Environment) (i : Nat) (f : Level → Level) :
    (e.modify i f).depth = e.depth := List.length_modify ..

theorem depth_pop (h : 1 < e.depth) : e.pop.depth = e.depth - 1 := by
  rw [pop, if_pos h, depth, List.length_dropLast]
  rfl

theorem getElem?_push (h : i < e.depth) : e.push.scopes[i]? = e.scopes[i]? :=
  List.getElem?_append_left h

theorem getElem?_pop (h : i + 1 < e.depth) : e.pop.scopes[i]? = e.scopes[i]? := by
  have hlt : i < e.scopes.length - 1 := by
    simp only [depth] at h
    omega
  rw [pop, if_pos (Nat.lt_of_le_of_lt (Nat.le_add_left 1 i) h), List.getElem?_dropLast, if_pos hlt]

theorem getElem?_modify_of_ne {f : Level → Level} {j : Nat} (h : i ≠ j) :
    (e.modify i f).scopes[j]? = e.scopes[j]? := List.getElem?_modify_ne f _ h

theorem getElem?_modify_self (e : Environment) (i : Nat) (f : Level → Level) :
    (e.modify i f).scopes[i]? = e.scopes[i]?.map f := List.getElem?_modify_eq f i _

theorem find?_congr (h : e'.scopes[i]? = e.scopes[i]?) (key : String) :
    e'.find? i key = e.find? i key := by
  rw [find?, h, find?]

theorem isMarked_congr (h : e'.scopes[i]? = e.scopes[i]?) (key : String) :
    e'.isMarked i key = e.isMarked i key := by
  rw [isMarked, h, isMarked]

/-- The values of a scope after a change that gives one key a value. -/
theorem find?_modify_self {f : Level → Level} (hi : i < e.depth)
    (hvalues : ∀ l other,
      (f l).bindings.find? other = if key = other then some v else l.bindings.find? other)
    (other : String) :
    (e.modify i f).find? i other = if key = other then some v else e.find? i other := by
  have hscope : e.scopes[i]? = some e.scopes[i] := List.getElem?_eq_getElem hi
  rw [find?, getElem?_modify_self, hscope, Option.map_some, Option.bind_some, hvalues, find?,
    hscope, Option.bind_some]

theorem isMarked_modify_self {f : Level → Level}
    (hmark : ∀ l, (f l).isMarked key = l.isMarked key) :
    (e.modify i f).isMarked i key = e.isMarked i key := by
  rw [isMarked, getElem?_modify_self, Option.any_map, isMarked]
  exact congrArg (Option.any · _) (funext hmark)

/-! ### Where a name is found -/

theorem innermostBelow?_eq_some_iff {n : Nat} :
    e.innermostBelow? key n = some i ↔
      i < n ∧ (e.find? i key).isSome = true ∧ ∀ j < n, i < j → e.find? j key = none := by
  induction n with
  | zero => simp [innermostBelow?]
  | succ n ih =>
    rw [innermostBelow?]
    cases hn : e.find? n key with
    | some v =>
      rw [Option.isSome_some, if_pos rfl, Option.some.injEq]
      constructor
      · rintro rfl
        exact ⟨Nat.lt_succ_self _, by rw [hn]; rfl, fun j hj hlt => by omega⟩
      · rintro ⟨hlt, -, habove⟩
        -- nothing is found above the scope sought, so this is the highest one
        refine (Nat.eq_of_lt_succ_of_not_lt hlt fun hi => ?_).symm
        rw [habove n (Nat.lt_succ_self n) hi] at hn
        cases hn
    | none =>
      rw [Option.isSome_none, if_neg Bool.false_ne_true, ih]
      constructor
      · rintro ⟨hlt, hi, habove⟩
        refine ⟨Nat.lt_succ_of_lt hlt, hi, fun j hj hij => ?_⟩
        rcases Nat.lt_succ_iff_lt_or_eq.1 hj with hj | rfl
        · exact habove j hj hij
        · exact hn
      · rintro ⟨hlt, hi, habove⟩
        have hne : i ≠ n := fun heq => by
          rw [heq, hn] at hi
          cases hi
        exact ⟨by omega, hi, fun j hj => habove j (Nat.lt_succ_of_lt hj)⟩

theorem innermostBelow?_eq_none_iff {n : Nat} :
    e.innermostBelow? key n = none ↔ ∀ j < n, e.find? j key = none := by
  induction n with
  | zero => simp [innermostBelow?]
  | succ n ih =>
    rw [innermostBelow?]
    cases hn : e.find? n key with
    | some v =>
      rw [Option.isSome_some, if_pos rfl]
      refine ⟨nofun, fun h => ?_⟩
      rw [h n (Nat.lt_succ_self n)] at hn
      cases hn
    | none =>
      rw [Option.isSome_none, if_neg Bool.false_ne_true, ih]
      refine ⟨fun h j hj => ?_, fun h j hj => h j (Nat.lt_succ_of_lt hj)⟩
      rcases Nat.lt_succ_iff_lt_or_eq.1 hj with hj | rfl
      · exact h j hj
      · exact hn

/-- A name is found in the scope that binds it while none above does. -/
theorem innermost?_eq_some_iff :
    e.innermost? name = some i ↔
      (e.find? i (Text.lower name)).isSome = true ∧
        ∀ j, i < j → e.find? j (Text.lower name) = none := by
  rw [innermost?, innermostBelow?_eq_some_iff]
  constructor
  · rintro ⟨-, hi, habove⟩
    refine ⟨hi, fun j hij => ?_⟩
    rcases Nat.lt_or_ge j e.depth with hj | hj
    · exact habove j hj hij
    · exact find?_eq_none hj _
  · rintro ⟨hi, habove⟩
    exact ⟨lt_depth_of_find? hi, hi, fun j _ => habove j⟩

theorem innermost?_eq_none_iff :
    e.innermost? name = none ↔ ∀ j, e.find? j (Text.lower name) = none := by
  rw [innermost?, innermostBelow?_eq_none_iff]
  refine ⟨fun h j => ?_, fun h j _ => h j⟩
  rcases Nat.lt_or_ge j e.depth with hj | hj
  · exact h j hj
  · exact find?_eq_none hj _

/-- Setting a name fails and changes nothing, as the name is found nowhere or as a constant, or it
gives another value to the name where this is found. -/
theorem set_cases (e : Environment) (name : String) (v : Value) :
    (e.innermost? name = none ∧ e.set name v = (e, some (.undefinedVariable name))) ∨
    (∃ i, e.innermost? name = some i ∧ e.isMarked i (Text.lower name) = true ∧
      e.set name v = (e, some (.custom ("Cannot assign to constant '" ++ name ++ "'")))) ∨
    ∃ i, e.innermost? name = some i ∧ e.isMarked i (Text.lower name) = false ∧
      e.set name v = (e.modify i (·.rebind (Text.lower name) v), none) := by
  unfold set
  dsimp only
  split
  · next h => exact .inl ⟨h, rfl⟩
  · next i h =>
    cases hconst : e.isMarked i (Text.lower name) with
    | true => exact .inr (.inl ⟨i, h, hconst, if_pos rfl⟩)
    | false => exact .inr (.inr ⟨i, h, hconst, if_neg Bool.false_ne_true⟩)

/-! ### What the operations keep -/

/-- A scope holds a key once, and what it marks as a constant it binds. -/
structure Level.Sound (l : Level) : Prop where
  nodup : l.bindings.names.Nodup
  bound : ∀ key, l.isMarked key = true → (l.bindings.find? key).isSome = true

/-- The global scope is on the stack, and every scope is sound. -/
structure Sound (e : Environment) : Prop where
  depth : 1 ≤ e.depth
  levels : ∀ l ∈ e.scopes, l.Sound

namespace Level

variable {l : Level}

theorem isMarked_define (l : Level) (key other : String) (v : Value) :
    (l.define key v).isMarked other = if key = other then false else l.isMarked other := by
  rw [isMarked, define, Table.find?_erase]
  split <;> rfl

theorem isMarked_defineConst (l : Level) (key other : String) (v : Value) :
    (l.defineConst key v).isMarked other = if key = other then true else l.isMarked other := by
  rw [isMarked, defineConst, Table.find?_insert]
  split <;> rfl

theorem Sound.empty : Sound {} where
  nodup := List.nodup_nil
  bound _ h := by cases h

/-- A scope stays sound when a key gets a value, whether it is marked or not. -/
theorem Sound.insert (h : l.Sound) {key : String} {v : Value} {constants : Table Bool}
    (hmarks : ∀ other, key ≠ other →
      (Level.mk l.bindings constants).isMarked other = l.isMarked other) :
    Sound ⟨l.bindings.insert key v, constants⟩ where
  nodup := Table.nodup_names_insert h.nodup
  bound other hmarked := by
    rw [Table.find?_insert]
    split
    · rfl
    · next hne => exact h.bound other ((hmarks other hne).symm.trans hmarked)

theorem Sound.define (h : l.Sound) (key : String) (v : Value) : (l.define key v).Sound :=
  h.insert fun other hne => (isMarked_define l key other v).trans (if_neg hne)

theorem Sound.defineConst (h : l.Sound) (key : String) (v : Value) : (l.defineConst key v).Sound :=
  h.insert fun other hne => (isMarked_defineConst l key other v).trans (if_neg hne)

theorem Sound.rebind (h : l.Sound) (key : String) (v : Value) : (l.rebind key v).Sound :=
  h.insert fun _ _ => rfl

end Level

namespace Sound

theorem empty : Sound {} where
  depth := Nat.le_refl 1
  levels := by
    rintro l (_ | ⟨_, ⟨⟩⟩)
    exact .empty

theorem modify (h : e.Sound) (i : Nat) {f : Level → Level}
    (hf : ∀ l : Level, l.Sound → (f l).Sound) :
    (e.modify i f).Sound where
  depth := by rw [depth_modify]; exact h.depth
  levels l hl := by
    obtain ⟨j, hj⟩ := List.mem_iff_getElem?.1 hl
    by_cases hij : i = j
    · rw [← hij, getElem?_modify_self] at hj
      obtain ⟨l', hl', rfl⟩ := Option.map_eq_some_iff.1 hj
      exact hf l' (h.levels l' (List.mem_of_getElem? hl'))
    · rw [getElem?_modify_of_ne hij] at hj
      exact h.levels l (List.mem_of_getElem? hj)

theorem find?_of_isMarked (h : e.Sound) (hmark : e.isMarked i key = true) :
    (e.find? i key).isSome = true := by
  obtain ⟨l, hl, hkey⟩ := (Option.any_eq_true _ _).1 hmark
  rw [find?, hl, Option.bind_some]
  exact (h.levels l (List.mem_of_getElem? hl)).bound key hkey

theorem push (h : e.Sound) : e.push.Sound where
  depth := by rw [depth_push]; exact Nat.le_add_left 1 _
  levels l hl := by
    rcases List.mem_append.1 hl with hl | hl
    · exact h.levels l hl
    · obtain rfl := List.mem_singleton.1 hl
      exact .empty

theorem pop (h : e.Sound) : e.pop.Sound := by
  unfold Environment.pop
  split
  · next hlt =>
    refine ⟨?_, fun l hl => h.levels l (List.dropLast_subset _ hl)⟩
    rw [Environment.depth, List.length_dropLast]
    exact Nat.le_sub_one_of_lt hlt
  · exact h

theorem define (h : e.Sound) (name : String) (v : Value) : (e.define name v).Sound :=
  h.modify _ fun _ hl => hl.define _ v

theorem defineConst (h : e.Sound) (name : String) (v : Value) : (e.defineConst name v).Sound :=
  h.modify _ fun _ hl => hl.defineConst _ v

theorem defineGlobal (h : e.Sound) (name : String) (v : Value) : (e.defineGlobal name v).Sound :=
  h.modify _ fun _ hl => hl.define _ v

theorem set (h : e.Sound) (name : String) (v : Value) : (e.set name v).1.Sound := by
  obtain ⟨-, hset⟩ | ⟨i, -, -, hset⟩ | ⟨i, -, -, hset⟩ := set_cases e name v
  · rwa [hset]
  · rwa [hset]
  · rw [hset]
    exact h.modify i fun _ hl => hl.rebind _ v

end Sound

end FormBasic.Environment
