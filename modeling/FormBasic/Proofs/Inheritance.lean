import FormBasic.Proofs.Machine.Domain
import Mathlib.Data.List.Perm.Subperm
import Mathlib.Logic.Relation

/-!
# Inheritance

A class names its base, and a program may name there what it likes: a class that is not declared,
the class itself, or one that inherits from it. The chain of a class is the walk from base to base.
It notes the keys that it has passed, and ends where it would pass one again; since it passes known
keys only, it ends before there are more of them than the table has entries.

A walk that leaves out what it has passed may still be asked for everything that can be reached.
Where it stops in front of a key, the class under this key is already in it, and so are the bases of
this class. So the chain is closed under going to the base, and nothing else is in it than what the
walk comes by.

A class is looked for under its name in lower case, but whether it is meant as a base is a question
of case classes. Names for which the two differ, such as `σ` and `ς`, are left out where
transitivity is stated.

A member is looked for class by class along the chain, which comes to taking the first one among all
the members that are declared along it.

## Main definitions

* `ClassTable.Built` — the tables that declarations build
* `ClassTable.Extends` — a class and its base
* `ClassTable.FirstMethod` — the first declaration of a method along a chain
* `Text.CaseUniform` — names for which lower case and case class tell the same

## Main results

* `ClassTable.chainFrom_eq_of_lt` — the walk ends by itself
* `ClassTable.mem_chain_iff` — the classes of a chain are those that can be reached
* `ClassTable.method?_eq_some_iff` — the method that is found is the first declaration
* `ClassTable.chains_and_subclasses` — chains, and the order of classes
-/

namespace FormBasic

/-! ### Lower case and case classes -/

namespace Text

/-- Names that have the same case class exactly if they are the same in lower case. -/
def CaseUniform (P : String → Prop) : Prop :=
  ∀ s t, P s → P t → (fold s = fold t ↔ lower s = lower t)

/-- Only the empty text is empty in lower case. -/
theorem eq_empty_of_lower {s : String} (h : lower s = lower "") : s = "" := by
  have hnil : s.toList.map lowerChar = [] := String.ofList_inj.1 h
  exact String.toList_eq_nil_iff.1 (List.map_eq_nil_iff.1 hnil)

/-- A text of ASCII characters. -/
def IsAscii (s : String) : Prop := ∀ c ∈ s.toList, c.toNat < 128

instance (s : String) : Decidable (IsAscii s) := List.decidableBAll _ s.toList

theorem fold_eq_toList_lower {s : String} (h : IsAscii s) : fold s = (lower s).toList := by
  rw [lower, String.toList_ofList, fold]
  refine List.map_congr_left fun c hc => ?_
  rw [foldChar, lowerChar, if_pos (h c hc), if_pos (h c hc)]

theorem caseUniform_isAscii : CaseUniform IsAscii := by
  intro s t hs ht
  rw [fold_eq_toList_lower hs, fold_eq_toList_lower ht, String.toList_inj]

end Text

namespace Table

variable {α : Type*}

theorem mem_names_of_findIn {name : String} {es : List (String × α)} {v : α}
    (h : findIn name es = some v) : name ∈ es.map (·.1) := by
  induction es with
  | nil => cases h
  | cons e es ih =>
    rw [List.map_cons, List.mem_cons]
    unfold findIn at h
    split at h
    · next hname => exact .inl (eq_of_beq hname).symm
    · exact .inr (ih h)

theorem mem_names_of_find? {t : Table α} {name : String} {v : α} (h : t.find? name = some v) :
    name ∈ t.names :=
  mem_names_of_findIn h

end Table

/-- The first element of a list that has a property. -/
def IsFirst {α : Type*} (p : α → Prop) (xs : List α) (x : α) : Prop :=
  p x ∧ ∃ before after, xs = before ++ x :: after ∧ ∀ y ∈ before, ¬ p y

theorem find?_eq_some_iff_isFirst {α : Type*} {test : α → Bool} {p : α → Prop}
    (h : ∀ x, test x = true ↔ p x) {xs : List α} {x : α} :
    xs.find? test = some x ↔ IsFirst p xs x := by
  simp only [List.find?_eq_some_iff_append, IsFirst, Bool.not_eq_true', ← Bool.not_eq_true, h]

theorem IsFirst.unique {α : Type*} {p : α → Prop} {xs : List α} {x y : α} (hx : IsFirst p xs x)
    (hy : IsFirst p xs y) : x = y := by
  classical
  have htest : ∀ x, decide (p x) = true ↔ p x := fun _ => decide_eq_true_iff
  have hfound := (find?_eq_some_iff_isFirst htest).2 hx
  exact Option.some.inj (hfound.symm.trans ((find?_eq_some_iff_isFirst htest).2 hy))

namespace ClassTable

variable {t : ClassTable} {c d : ClassInfo} {fuel : Nat} {seen : List String} {key name : String}

/-! ### Tables that declarations build -/

/-- A class table as declarations build it. -/
inductive Built : ClassTable → Prop
  | empty : Built ∅
  | declare {t : ClassTable} (h : Built t) (d : ClassDecl) (moduleName : String) :
    Built (t.declare d moduleName)

/-- Every class stands under its name in lower case. -/
theorem Built.lower_name (ht : t.Built) (h : Table.find? t key = some c) :
    Text.lower c.name = key := by
  induction ht generalizing key c with
  | empty => cases h
  | @declare t _ decl moduleName ih =>
    rw [ClassTable.declare, Table.find?_insert] at h
    split at h
    · next hkey =>
      cases h
      rw [← hkey]
      split
      · next c hc =>
        split
        · exact ih (c := c) hc
        · rfl
      · rfl
    · exact ih h

/-! ### The walk -/

/-- A class and its base, if this is known. -/
def Extends (t : ClassTable) (c d : ClassInfo) : Prop :=
  c.inherits ≠ "" ∧ t.class? c.inherits = some d

theorem chainFrom_of_mem (h : key ∈ seen) : t.chainFrom fuel seen key = [] := by
  cases fuel with
  | zero => rfl
  | succ fuel => rw [chainFrom, if_pos (List.contains_iff_mem.2 h)]

theorem chainFrom_of_none (h : Table.find? t key = none) : t.chainFrom fuel seen key = [] := by
  cases fuel with
  | zero => rfl
  | succ fuel =>
    rw [chainFrom, h]
    split <;> rfl

/-- Where the walk goes on, it has the class under its key, and then what there is from its base
on. -/
theorem chainFrom_succ (hnew : key ∉ seen) (hc : Table.find? t key = some c) :
    t.chainFrom (fuel + 1) seen key =
      c :: if c.inherits = "" then []
        else t.chainFrom fuel (key :: seen) (Text.lower c.inherits) := by
  have hcontains : ¬ seen.contains key = true := fun h => hnew (List.contains_iff_mem.1 h)
  rw [chainFrom, if_neg hcontains, hc]
  dsimp only
  by_cases hbase : c.inherits = "" <;> simp [hbase]

/-- The three ways in which a walk goes on. -/
theorem walk_cases (t : ClassTable) (seen : List String) (key : String) :
    key ∈ seen ∨ Table.find? t key = none ∨ key ∉ seen ∧ ∃ c, Table.find? t key = some c := by
  by_cases hseen : key ∈ seen
  · exact .inl hseen
  · cases hc : Table.find? t key with
    | none => exact .inr (.inl rfl)
    | some c => exact .inr (.inr ⟨hseen, c, rfl⟩)

/-- What the walk has passed: known keys, each of them once. -/
structure Passed (t : ClassTable) (seen : List String) : Prop where
  nodup : seen.Nodup
  known : ∀ key ∈ seen, key ∈ Table.names t

namespace Passed

theorem nil (t : ClassTable) : t.Passed [] := ⟨.nil, nofun⟩

theorem cons (h : t.Passed seen) (hnew : key ∉ seen) (hc : Table.find? t key = some c) :
    t.Passed (key :: seen) := by
  refine ⟨List.nodup_cons.2 ⟨hnew, h.nodup⟩, fun other hother => ?_⟩
  rcases List.mem_cons.1 hother with rfl | hother
  · exact Table.mem_names_of_find? hc
  · exact h.known other hother

theorem length_le (h : t.Passed seen) : seen.length ≤ Table.size t := by
  have hle := (h.nodup.subperm h.known).length_le
  rwa [Table.names, List.length_map] at hle

end Passed

/-- Fuel for one step more than there are keys to pass is enough. -/
theorem chainFrom_add (hseen : t.Passed seen) (hfuel : Table.size t < fuel + seen.length)
    (more : Nat) : t.chainFrom (fuel + more) seen key = t.chainFrom fuel seen key := by
  induction fuel generalizing seen key with
  | zero => exact absurd hseen.length_le (by omega)
  | succ fuel ih =>
    rcases walk_cases t seen key with h | h | ⟨hnew, c, hc⟩
    · rw [chainFrom_of_mem h, chainFrom_of_mem h]
    · rw [chainFrom_of_none h, chainFrom_of_none h]
    · have hrest : t.chainFrom (fuel + more) (key :: seen) (Text.lower c.inherits) =
          t.chainFrom fuel (key :: seen) (Text.lower c.inherits) :=
        ih (hseen.cons hnew hc) (by rw [List.length_cons]; omega)
      rw [Nat.add_right_comm, chainFrom_succ hnew hc, chainFrom_succ hnew hc, hrest]

/-- The walk ends by itself: more fuel than it is given makes no difference. -/
theorem chainFrom_eq_of_lt (hfuel : Table.size t < fuel) :
    t.chainFrom fuel [] (Text.lower name) = t.chain name := by
  obtain ⟨more, rfl⟩ := Nat.exists_eq_add_of_le hfuel
  exact chainFrom_add (.nil t) (Nat.lt_succ_self _) more

theorem head?_chain (t : ClassTable) (name : String) : (t.chain name).head? = t.class? name := by
  unfold chain class?
  cases hc : Table.find? t (Text.lower name) with
  | none => rw [chainFrom_of_none hc, List.head?_nil]
  | some c => rw [chainFrom_succ List.not_mem_nil hc, List.head?_cons]

/-- The walk passes no key again. -/
theorem nodup_chainFrom (ht : t.Built) (fuel : Nat) (seen : List String) (key : String) :
    ((t.chainFrom fuel seen key).map (Text.lower ·.name)).Nodup ∧
      ∀ c ∈ t.chainFrom fuel seen key, Text.lower c.name ∉ seen := by
  induction fuel generalizing seen key with
  | zero => exact ⟨.nil, nofun⟩
  | succ fuel ih =>
    rcases walk_cases t seen key with h | h | ⟨hnew, c, hc⟩
    · rw [chainFrom_of_mem h]
      exact ⟨.nil, nofun⟩
    · rw [chainFrom_of_none h]
      exact ⟨.nil, nofun⟩
    · rw [chainFrom_succ hnew hc]
      obtain ⟨hnodup, hfree⟩ := ih (key :: seen) (Text.lower c.inherits)
      have hkey := ht.lower_name hc
      split
      · refine ⟨List.pairwise_singleton _ _, fun d hd => ?_⟩
        rwa [List.mem_singleton.1 hd, hkey]
      · refine ⟨List.nodup_cons.2 ⟨fun hmem => ?_, hnodup⟩, fun d hd => ?_⟩
        · obtain ⟨d, hd, hsame⟩ := List.mem_map.1 hmem
          exact hfree d hd (hsame.trans hkey ▸ List.mem_cons_self)
        · rcases List.mem_cons.1 hd with rfl | hd
          · rwa [hkey]
          · exact fun hmem => hfree d hd (List.mem_cons_of_mem _ hmem)

/-- All that the walk comes by can be reached from where it starts. -/
theorem reaches_of_mem_chainFrom (h : d ∈ t.chainFrom fuel seen key) :
    ∃ c, Table.find? t key = some c ∧ Relation.ReflTransGen t.Extends c d := by
  induction fuel generalizing seen key with
  | zero => cases h
  | succ fuel ih =>
    rcases walk_cases t seen key with hmem | hnone | ⟨hnew, c, hc⟩
    · rw [chainFrom_of_mem hmem] at h
      cases h
    · rw [chainFrom_of_none hnone] at h
      cases h
    · refine ⟨c, hc, ?_⟩
      rw [chainFrom_succ hnew hc] at h
      rcases List.mem_cons.1 h with rfl | h
      · exact .refl
      · split at h
        · cases h
        · next hbase =>
          obtain ⟨c', hc', hreach⟩ := ih h
          exact .head ⟨hbase, hc'⟩ hreach

/-- The base of a class that the walk comes by is one that it comes by as well, unless the walk had
passed it before. -/
theorem closed_chainFrom (hseen : t.Passed seen) (hfuel : Table.size t < fuel + seen.length)
    (h : c ∈ t.chainFrom fuel seen key) (hbase : t.Extends c d) :
    d ∈ t.chainFrom fuel seen key ∨ Text.lower c.inherits ∈ seen := by
  induction fuel generalizing seen key with
  | zero => cases h
  | succ fuel ih =>
    rcases walk_cases t seen key with hmem | hnone | ⟨hnew, first, hfirst⟩
    · rw [chainFrom_of_mem hmem] at h
      cases h
    · rw [chainFrom_of_none hnone] at h
      cases h
    · have hpassed := hseen.cons hnew hfirst
      rw [chainFrom_succ hnew hfirst] at h ⊢
      -- what the rest of the walk had passed is the first class, or was passed before
      have hbefore : ∀ rest, Text.lower c.inherits ∈ key :: seen →
          d ∈ first :: rest ∨ Text.lower c.inherits ∈ seen := by
        refine fun rest hmem => (List.mem_cons.1 hmem).imp_left fun hkey => ?_
        have hsame : some d = some first := by rw [← hbase.2, class?, hkey, hfirst]
        exact List.mem_cons.2 (.inl (Option.some.inj hsame))
      rcases List.mem_cons.1 h with rfl | h
      · rw [if_neg hbase.1]
        by_cases hmem : Text.lower c.inherits ∈ key :: seen
        · exact hbefore _ hmem
        · obtain ⟨fuel, rfl⟩ : ∃ n, fuel = n + 1 :=
            Nat.exists_eq_add_one.2 (by have := hpassed.length_le; simp at this; omega)
          rw [chainFrom_succ hmem hbase.2]
          exact .inl (List.mem_cons_of_mem _ List.mem_cons_self)
      · split at h
        · cases h
        · next hnext =>
          rw [if_neg hnext]
          rcases ih hpassed (by rw [List.length_cons]; omega) h with hd | hmem
          · exact .inl (List.mem_cons_of_mem _ hd)
          · exact hbefore _ hmem

theorem mem_chain_of_extends (h : c ∈ t.chain name) (hbase : t.Extends c d) : d ∈ t.chain name :=
  (closed_chainFrom (.nil t) (Nat.lt_succ_self _) h hbase).resolve_right List.not_mem_nil

/-- The classes of a chain are those that can be reached. -/
theorem mem_chain_iff :
    d ∈ t.chain name ↔ ∃ c, t.class? name = some c ∧ Relation.ReflTransGen t.Extends c d := by
  refine ⟨reaches_of_mem_chainFrom, ?_⟩
  rintro ⟨c, hc, hreach⟩
  induction hreach with
  | refl => exact List.mem_of_mem_head? ((head?_chain t name).trans hc)
  | tail _ hbase ih => exact mem_chain_of_extends ih hbase

/-! ### Members along a chain -/

/-- What the classes of a chain declare, in the order of the chain and of the declarations, each
with its class. -/
def declaredAlong {α : Type*} (members : ClassInfo → List α) (chain : List ClassInfo) :
    List (α × ClassInfo) :=
  chain.flatMap fun c => (members c).map (·, c)

theorem mem_declaredAlong {α : Type*} {members : ClassInfo → List α} {chain : List ClassInfo}
    {m : α} : (m, c) ∈ declaredAlong members chain ↔ c ∈ chain ∧ m ∈ members c := by
  simp only [declaredAlong, List.mem_flatMap, List.mem_map, Prod.mk.injEq]
  exact ⟨fun ⟨_, hc, _, hm, hsame, hclass⟩ => hclass ▸ ⟨hc, hsame ▸ hm⟩,
    fun ⟨hc, hm⟩ => ⟨c, hc, m, hm, rfl, rfl⟩⟩

/-- The member that is found along a chain is the first one that passes, in this order. -/
theorem firstMember_eq_find? {α : Type*} (members : ClassInfo → List α) (test : α → Bool)
    (chain : List ClassInfo) :
    firstMember members test chain = (declaredAlong members chain).find? (test ·.1) := by
  induction chain with
  | nil => rfl
  | cons c cs ih =>
    have htest : (test ·.1) ∘ (·, c) = test := rfl
    rw [declaredAlong, List.flatMap_cons, List.find?_append, List.find?_map, ← declaredAlong, ← ih,
      firstMember, htest]
    cases (members c).find? test <;> rfl

theorem firstMember_eq_some_iff {α : Type*} {members : ClassInfo → List α} {test : α → Bool}
    {p : α → Prop} (h : ∀ m, test m = true ↔ p m) {chain : List ClassInfo} {m : α} :
    firstMember members test chain = some (m, c) ↔
      IsFirst (p ·.1) (declaredAlong members chain) (m, c) := by
  rw [firstMember_eq_find?]
  exact find?_eq_some_iff_isFirst fun d : α × ClassInfo => h d.1

theorem firstMember_eq_none_iff {α : Type*} {members : ClassInfo → List α} {test : α → Bool}
    {p : α → Prop} (h : ∀ m, test m = true ↔ p m) {chain : List ClassInfo} :
    firstMember members test chain = none ↔ ∀ d ∈ declaredAlong members chain, ¬ p d.1 := by
  simp only [firstMember_eq_find?, List.find?_eq_none, h]

/-- The first declaration of a method along the chain of a class, with the class in which it
stands. -/
def FirstMethod (t : ClassTable) (className name : String) (m : Procedure) (c : ClassInfo) : Prop :=
  IsFirst (fun d => Text.fold d.1.name = Text.fold name)
    (declaredAlong (·.methods) (t.chain className)) (m, c)

theorem method?_eq_some_iff {className : String} {m : Procedure} :
    t.method? className name = some (m, c) ↔ t.FirstMethod className name m c :=
  firstMember_eq_some_iff fun _ => Text.equalFold_iff _ _

theorem method?_eq_none_iff {className : String} :
    t.method? className name = none ↔
      ∀ d ∈ declaredAlong (·.methods) (t.chain className), Text.fold d.1.name ≠ Text.fold name :=
  firstMember_eq_none_iff fun _ => Text.equalFold_iff _ _

theorem FirstMethod.mem_chain {className : String} {m : Procedure}
    (h : t.FirstMethod className name m c) : c ∈ t.chain className := by
  obtain ⟨-, before, after, happend, -⟩ := h
  exact (mem_declaredAlong.1 (happend ▸ List.mem_append_right _ List.mem_cons_self)).1

/-- A method that is declared somewhere along a chain has a first declaration. -/
theorem exists_firstMethod {className : String} {m : Procedure} (hc : c ∈ t.chain className)
    (hm : m ∈ c.methods) (hname : Text.fold m.name = Text.fold name) :
    ∃ m d, t.FirstMethod className name m d := by
  cases hfound : t.method? className name with
  | some found => exact ⟨found.1, found.2, method?_eq_some_iff.1 hfound⟩
  | none => exact absurd hname (method?_eq_none_iff.1 hfound _ (mem_declaredAlong.2 ⟨hc, hm⟩))

/-! ### Classes and their bases -/

theorem isSubclass_iff {base : String} :
    t.isSubclass name base = true ↔ Text.fold name = Text.fold base ∨
      ∃ c ∈ t.chain name, Text.fold c.name = Text.fold base ∨
        Text.fold c.inherits = Text.fold base := by
  simp only [isSubclass, Bool.or_eq_true, List.any_eq_true, Text.equalFold_iff]

theorem isSubclass_refl (t : ClassTable) (name : String) : t.isSubclass name name = true :=
  isSubclass_iff.2 (.inl rfl)

/-- Names that are the same in lower case have the same chain. -/
theorem chain_congr {other : String} (h : Text.lower name = Text.lower other) :
    t.chain name = t.chain other := by
  rw [chain, chain, h]

/-- A class of a chain stands under its own name. -/
theorem class?_of_mem_chain (ht : t.Built) (hc : c ∈ t.chain name) :
    t.class? c.name = some c := by
  obtain ⟨key, hkey⟩ := exists_find?_of_mem_chain hc
  rw [class?, ht.lower_name hkey, hkey]

/-- A chain goes on after a class in it as the chain of this class does. -/
theorem chain_subset {base : String} (hd : t.class? base = some d) (hmem : d ∈ t.chain name) :
    t.chain base ⊆ t.chain name := by
  intro e he
  obtain ⟨first, hfirst, hreach⟩ := mem_chain_iff.1 he
  obtain rfl : d = first := Option.some.inj (hd.symm.trans hfirst)
  clear he
  induction hreach with
  | refl => exact hmem
  | tail _ hbase ih => exact mem_chain_of_extends ih hbase

/-- What is a base of a base of a class is a base of the class. -/
theorem isSubclass_trans (ht : t.Built) {P : String → Prop} (hP : Text.CaseUniform P)
    {a b base : String} (ha : P a) (hb : P b)
    (hchain : ∀ c ∈ t.chain a, P c.name ∧ P c.inherits) (hne : b ≠ "")
    (hab : t.isSubclass a b = true) (hbase : t.isSubclass b base = true) :
    t.isSubclass a base = true := by
  rw [isSubclass_iff] at hbase ⊢
  rcases isSubclass_iff.1 hab with hsame | ⟨c, hc, hname | hname⟩
  · rwa [hsame, chain_congr ((hP a b ha hb).1 hsame)]
  · rcases hbase with hbase | ⟨d, hd, hbase⟩
    · exact .inr ⟨c, hc, .inl (hname.trans hbase)⟩
    · have hlower := (hP c.name b (hchain c hc).1 hb).1 hname
      rw [← chain_congr hlower] at hd
      exact .inr ⟨d, chain_subset (class?_of_mem_chain ht hc) hc hd, hbase⟩
  · rcases hbase with hbase | ⟨d, hd, hbase⟩
    · exact .inr ⟨c, hc, .inr (hname.trans hbase)⟩
    · have hlower := (hP c.inherits b (hchain c hc).2 hb).1 hname
      rw [← chain_congr hlower] at hd
      obtain ⟨first, hfirst, -⟩ := mem_chain_iff.1 hd
      have hinherits : c.inherits ≠ "" := by
        intro hempty
        rw [hempty] at hlower
        exact hne (Text.eq_empty_of_lower hlower.symm)
      have hmem := mem_chain_of_extends hc ⟨hinherits, hfirst⟩
      exact .inr ⟨d, chain_subset hfirst hmem hd, hbase⟩

/-- The chain of a class starts with the class, has no class twice and has just the classes that can
be reached from it by going from a class to its base; the walk that collects it ends by itself.
Being a subclass is reflexive and transitive, where the names that occur are the same in lower case
as soon as they are the same up to case; only the empty name, which stands for no base, is no link
between two others. -/
theorem chains_and_subclasses {t : ClassTable} (ht : t.Built) :
    (∀ name, (t.chain name).head? = t.class? name ∧
      ((t.chain name).map (Text.lower ·.name)).Nodup ∧
      (∀ d, d ∈ t.chain name ↔
        ∃ c, t.class? name = some c ∧ Relation.ReflTransGen t.Extends c d) ∧
      ∀ fuel, Table.size t < fuel →
        t.chainFrom fuel [] (Text.lower name) = t.chain name) ∧
    (∀ name, t.isSubclass name name = true) ∧
    ∀ P, Text.CaseUniform P → ∀ a b base, P a → P b →
      (∀ c ∈ t.chain a, P c.name ∧ P c.inherits) → b ≠ "" →
      t.isSubclass a b = true → t.isSubclass b base = true → t.isSubclass a base = true := by
  refine ⟨fun name => ⟨head?_chain t name, ?_, fun d => mem_chain_iff, fun fuel hfuel => ?_⟩,
    isSubclass_refl t, fun P hP a b base ha hb hchain hne => ?_⟩
  · exact (nodup_chainFrom ht _ _ _).1
  · exact chainFrom_eq_of_lt hfuel
  · exact isSubclass_trans ht hP ha hb hchain hne

/-- Two classes that inherit from one another, and one that inherits from one of them. -/
def mutualBases : ClassTable :=
  let decl (name inherits : String) : ClassDecl := ⟨name, false, inherits, [], [], [], []⟩
  (((∅ : ClassTable).declare (decl "A" "B") "").declare (decl "b" "a") "").declare (decl "C" "B") ""

theorem built_mutualBases : mutualBases.Built := by
  unfold mutualBases
  exact .declare (.declare (.declare .empty _ _) _ _) _ _

theorem chains_and_subclasses_mutualBases :
    mutualBases.Built ∧ Text.CaseUniform Text.IsAscii ∧
      (Text.IsAscii "C" ∧ Text.IsAscii "B" ∧
        ∀ c ∈ mutualBases.chain "C", Text.IsAscii c.name ∧ Text.IsAscii c.inherits) ∧
      mutualBases.isSubclass "C" "B" = true ∧ mutualBases.isSubclass "B" "A" = true ∧
      mutualBases.isSubclass "C" "A" = true := by
  have hnames : ∀ c ∈ mutualBases.chain "C", Text.IsAscii c.name ∧ Text.IsAscii c.inherits := by
    decide +kernel
  have hC : Text.IsAscii "C" := by decide +kernel
  have hB : Text.IsAscii "B" := by decide +kernel
  have hcb : mutualBases.isSubclass "C" "B" = true := by decide +kernel
  have hba : mutualBases.isSubclass "B" "A" = true := by decide +kernel
  have hP := Text.caseUniform_isAscii
  refine ⟨built_mutualBases, hP, ⟨hC, hB, hnames⟩, hcb, hba, ?_⟩
  exact (chains_and_subclasses built_mutualBases).2.2 _ hP _ _ _ hC hB hnames (by decide) hcb hba

end ClassTable

end FormBasic
