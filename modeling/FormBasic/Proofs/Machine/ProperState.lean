import FormBasic.Machine.Load
import FormBasic.Proofs.Heap
import FormBasic.Proofs.Scope
import FormBasic.Proofs.Library

/-!
# Proper states

A value that stands for an omitted argument belongs into an argument list, and into the array that a
parameter array makes of one. Where a program keeps values under names it has no place: a state is
*proper* if all bindings, all fields and all objects of `With` blocks are proper values. The
elements of an array are nobody's business here, since reading one takes an omitted argument for
`Nothing`.

Proper states are closed under everything that a program does to them, as long as the values that it
binds and writes are proper, and what it reads from one is proper.

## Main definitions

* `Scopes.Proper`, `Heap.Proper`, `State.Proper`

## Main results

* `State.Proper.data?` — data that is read from a proper state
* `State.proper_initial` — nothing is wrong at the start
-/

namespace FormBasic

/-! ### Scopes -/

/-- All bindings of a scope have proper values. -/
def Scope.Proper (l : Scope) : Prop :=
  ∀ key b, l.find? key = some b → b.value.isProper = true

theorem Scope.proper_empty : Scope.Proper ∅ := nofun

theorem Scope.Proper.insert {l : Scope} (h : l.Proper) (key : String) {b : Binding}
    (hb : b.value.isProper = true) : Scope.Proper (l.insert key b) := by
  intro other b' hb'
  rw [Table.find?_insert] at hb'
  split at hb'
  · cases hb'
    exact hb
  · exact h other b' hb'

/-- All bindings have proper values. -/
structure Scopes.Proper (s : Scopes) : Prop where
  globals : s.globals.Proper
  locals : ∀ l ∈ s.locals, l.Proper

namespace Scopes.Proper

variable {s : Scopes} (h : s.Proper)
include h

theorem push : s.push.Proper where
  globals := h.globals
  locals := by
    rintro l (_ | ⟨_, hl⟩)
    · exact Scope.proper_empty
    · exact h.locals l hl

theorem pop : s.pop.Proper := ⟨h.globals, fun l hl => h.locals l (List.mem_of_mem_tail hl)⟩

theorem insertCurrent (key : String) {b : Binding} (hb : b.value.isProper = true) :
    (s.updateCurrent (·.insert key b)).Proper := by
  unfold updateCurrent
  split
  · exact ⟨h.globals.insert key hb, h.locals⟩
  · next l ls hls =>
    have hlocals := h.locals
    rw [hls] at hlocals
    refine ⟨h.globals, ?_⟩
    rintro m (_ | ⟨_, hm⟩)
    · exact (hlocals l List.mem_cons_self).insert key hb
    · exact hlocals m (List.mem_cons_of_mem _ hm)

theorem defineGlobal (name : String) {v : Value} (hv : v.isProper = true) :
    (s.defineGlobal name v).Proper := ⟨h.globals.insert _ hv, h.locals⟩

theorem set {name : String} {v : Value} {t : Scopes} (hv : v.isProper = true)
    (hset : s.set name v = .ok t) : t.Proper := by
  obtain ⟨inner, l, outer, b, hs, -, -, -, rfl⟩ | ⟨b, -, -, -, rfl⟩ := set_cases hset
  · have hlocals := h.locals
    rw [hs] at hlocals
    refine ⟨h.globals, fun m hm => ?_⟩
    obtain hm | hm := List.mem_append.1 hm
    · exact hlocals m (List.mem_append_left _ hm)
    · cases hm with
      | head => exact (hlocals l (by simp)).insert _ hv
      | tail _ hm => exact hlocals m (List.mem_append_right _ (List.mem_cons_of_mem _ hm))
  · exact ⟨h.globals.insert _ hv, h.locals⟩

theorem binding? {name : String} {b : Binding} (hb : s.binding? name = some b) :
    b.value.isProper = true := by
  have hfind : ∀ {key : String} {ls : List Scope} {b : Binding}, (∀ l ∈ ls, l.Proper) →
      findIn key ls = some b → b.value.isProper = true := by
    intro key ls b hls hfound
    induction ls with
    | nil => cases hfound
    | cons l ls ih =>
      rw [findIn, Option.orElse_eq_or, Option.or_eq_some_iff] at hfound
      obtain hl | ⟨-, hrest⟩ := hfound
      · exact hls l List.mem_cons_self key b hl
      · exact ih (fun m hm => hls m (List.mem_cons_of_mem _ hm)) hrest
  rw [Scopes.binding?, Option.orElse_eq_or, Option.or_eq_some_iff] at hb
  obtain hlocal | ⟨-, hglobal⟩ := hb
  · exact hfind h.locals hlocal
  · exact h.globals _ b hglobal

theorem lookup? {name : String} {v : Value} (hv : s.lookup? name = some v) :
    v.isProper = true := by
  obtain ⟨b, hb, rfl⟩ := Option.map_eq_some_iff.1 hv
  exact h.binding? hb

theorem givesProper_get (name : String) : (s.get name).GivesProper := by
  unfold Scopes.get
  split
  · next hv => exact .ok (h.lookup? hv)
  · exact .error _

theorem defineConsts {es : List (String × Value)} (hes : ∀ e ∈ es, e.2.isProper = true) :
    (es.foldl (fun scopes (name, v) => scopes.defineConst name v) s).Proper := by
  induction es generalizing s with
  | nil => exact h
  | cons e es ih =>
    refine ih (h.insertCurrent _ (hes e List.mem_cons_self)) fun e' he' => ?_
    exact hes e' (List.mem_cons_of_mem _ he')

end Scopes.Proper

theorem Scopes.proper_initial : Scopes.initial.Proper := by
  have hempty : ({} : Scopes).Proper := ⟨Scope.proper_empty, fun _ hl => nomatch hl⟩
  refine hempty.defineConsts fun e he => ?_
  obtain he | he := List.mem_append.1 he
  · obtain ⟨_, -, rfl⟩ := List.mem_map.1 he
    rfl
  · obtain ⟨_, -, rfl⟩ := List.mem_map.1 he
    rfl

/-! ### Heaps -/

/-- All fields have proper values. -/
def Heap.Proper (h : Heap) : Prop := ∀ r name v, h.get? r name = some v → v.isProper = true

namespace Heap.Proper

variable {h : Heap} (hh : h.Proper)
include hh

theorem set (r : ObjectRef) (name : String) {v : Value} (hv : v.isProper = true) :
    (h.set r name v).Proper := by
  intro r' other w hw
  rw [get?_set] at hw
  split at hw
  · cases hw
    exact hv
  · exact hh r' other w hw

theorem alloc (className : String) : (h.alloc className).2.Proper := by
  intro r name v hv
  rw [get?_alloc] at hv
  exact hh r name v hv

theorem tags (tags : Nat) : Heap.Proper { h with tags } := hh

theorem givesProper_memberOf (v : Value) (member : String) : (memberOf h v member).GivesProper := by
  unfold memberOf
  split
  · split
    · next hw => exact .ok (hh _ _ _ hw)
    · exact .error _
  · exact .error _

end Heap.Proper

/-! ### States -/

/-- All that a program keeps under names, and the objects of its `With` blocks, are proper
values. -/
structure State.Proper (s : State) : Prop where
  scopes : s.scopes.Proper
  heap : s.heap.Proper
  withStack : ∀ v ∈ s.context.withStack, v.isProper = true

/-- A detour with only proper values in its `With` blocks, at the start and at the end. -/
structure Detour.KeepsProper (d : Detour) : Prop where
  enter : ∀ {ctx : Context}, (∀ v ∈ ctx.withStack, v.isProper = true) →
    ∀ v ∈ (d.enter ctx).withStack, v.isProper = true
  leave : ∀ {before ctx : Context}, (∀ v ∈ before.withStack, v.isProper = true) →
    (∀ v ∈ ctx.withStack, v.isProper = true) →
    ∀ v ∈ (d.leave before ctx).withStack, v.isProper = true

/-- A detour that leaves the `With` blocks alone. -/
theorem Detour.keepsProper_of_withStack {d : Detour}
    (henter : ∀ ctx, (d.enter ctx).withStack = ctx.withStack)
    (hleave : ∀ before ctx, (d.leave before ctx).withStack = ctx.withStack) : d.KeepsProper where
  enter h := by rwa [henter]
  leave _ h := by rwa [hleave]

theorem Detour.keepsProper_withBlock {v : Value} (hv : v.isProper = true) :
    (withBlock v).KeepsProper where
  enter h := by
    rintro w (_ | ⟨_, hw⟩)
    · exact hv
    · exact h w hw
  leave _ h := fun w hw => h w (List.mem_of_mem_tail hw)

namespace State

theorem proper_initial (config : Config) : (State.initial config).Proper where
  scopes := Scopes.proper_initial
  heap := by
    intro r name v hv
    cases hv
  withStack := nofun

namespace Proper

variable {s : State} (h : s.Proper)
include h

theorem moduleVariable? {name key : String} {v : Value}
    (hv : s.moduleVariable? name = some (key, v)) : v.isProper = true := by
  have hfirst : ∀ {keys : List String}, firstBound s.scopes keys = some (key, v) →
      v.isProper = true := by
    intro keys hkeys
    induction keys with
    | nil => cases hkeys
    | cons key' keys ih =>
      rw [firstBound] at hkeys
      split at hkeys
      · next hw =>
        cases hkeys
        exact h.scopes.lookup? hw
      · exact ih hkeys
  exact hfirst hv

theorem data? {name : String} {v : Value} (hv : s.data? name = some v) : v.isProper = true := by
  unfold State.data? at hv
  split at hv
  · exact h.scopes.lookup? hv
  · split at hv
    · next hfield =>
      cases hv
      obtain ⟨self, -, hfield⟩ := Option.bind_eq_some_iff.1 hfield
      exact h.heap _ _ _ hfield
    · split at hv
      · next hw =>
        cases hv
        exact h.scopes.lookup? hw
      · obtain ⟨⟨key, w⟩, hw, rfl⟩ := Option.map_eq_some_iff.1 hv
        exact h.moduleVariable? hw

end Proper

end State

end FormBasic
