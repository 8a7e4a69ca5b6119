/-!
# Tables

A finite map from names to values, kept as a list of entries with one entry per name in the order
of first insertion. `find?` is the view through which the operations are specified.
-/

namespace FormBasic

/-- Entries by name. -/
structure Table (α : Type u) where
  entries : List (String × α) := []
deriving Repr

namespace Table

variable {α : Type u}

/-- The table without entries. -/
def empty : Table α := ⟨[]⟩

instance : EmptyCollection (Table α) := ⟨empty⟩

instance : Inhabited (Table α) := ⟨empty⟩

/-- The first entry under a name in a list of entries. -/
def findIn (name : String) : List (String × α) → Option α
  | [] => none
  | (k, v) :: es => if k == name then some v else findIn name es

/-- The value under a name. -/
def find? (t : Table α) (name : String) : Option α := findIn name t.entries

/-- Whether a name has an entry. -/
def contains (t : Table α) (name : String) : Bool := (t.find? name).isSome

/-- Put a value under a name in a list of entries: in place if the name is there, else at the
end. -/
def insertIn (name : String) (v : α) : List (String × α) → List (String × α)
  | [] => [(name, v)]
  | (k, w) :: es => if k == name then (k, v) :: es else (k, w) :: insertIn name v es

/-- Put a value under a name, replacing the one that is there. -/
def insert (t : Table α) (name : String) (v : α) : Table α := ⟨insertIn name v t.entries⟩

/-- Remove a name. -/
def erase (t : Table α) (name : String) : Table α :=
  ⟨t.entries.filter fun e => !(e.1 == name)⟩

/-- Insert a list of entries, later ones replacing earlier ones. -/
def ofList (es : List (String × α)) : Table α :=
  es.foldl (fun t e => t.insert e.1 e.2) ∅

/-- The names in order of first insertion. -/
def names (t : Table α) : List String := t.entries.map (·.1)

/-- The entries in the order of their names. -/
def sorted (t : Table α) : List (String × α) :=
  t.entries.mergeSort fun a b => decide (a.1 ≤ b.1)

/-- The names in order. -/
def sortedNames (t : Table α) : List String := t.sorted.map (·.1)

/-- Number of entries. -/
def size (t : Table α) : Nat := t.entries.length

@[simp] theorem find?_empty (name : String) : (∅ : Table α).find? name = none := rfl

theorem findIn_insertIn (name other : String) (v : α) (es : List (String × α)) :
    findIn other (insertIn name v es) = if name = other then some v else findIn other es := by
  induction es with
  | nil => by_cases h : name = other <;> simp [insertIn, findIn, h]
  | cons e es ih =>
    obtain ⟨k, w⟩ := e
    by_cases hk : k = name
    · subst hk
      by_cases h : k = other <;> simp [insertIn, findIn, h]
    · by_cases ho : k = other
      · subst ho
        simp [insertIn, findIn, hk, Ne.symm hk]
      · simp [insertIn, findIn, hk, ho, ih]

/-- Inserting under a name changes what that name finds, and nothing else. -/
theorem find?_insert (t : Table α) (name other : String) (v : α) :
    (t.insert name v).find? other = if name = other then some v else t.find? other :=
  findIn_insertIn name other v t.entries

@[simp] theorem find?_insert_self (t : Table α) (name : String) (v : α) :
    (t.insert name v).find? name = some v := by simp [find?_insert]

theorem find?_insert_of_ne (t : Table α) {name other : String} (v : α) (h : name ≠ other) :
    (t.insert name v).find? other = t.find? other := by simp [find?_insert, h]

theorem findIn_filter (name other : String) (es : List (String × α)) :
    findIn other (es.filter fun e => !(e.1 == name)) =
      if name = other then none else findIn other es := by
  induction es with
  | nil => simp [findIn]
  | cons e es ih =>
    obtain ⟨k, w⟩ := e
    by_cases hk : k = name
    · subst hk
      by_cases h : k = other
      · subst h; simpa [findIn] using ih
      · simp only [List.filter_cons, beq_self_eq_true, Bool.not_true, Bool.false_eq_true,
          if_false, ih, findIn, if_neg h, beq_iff_eq]
    · by_cases ho : k = other
      · subst ho
        simp [findIn, hk, Ne.symm hk]
      · simp [findIn, hk, ho, ih]

theorem findIn_map {β : Type v} (g : String → α → β) (name : String) (es : List (String × α)) :
    findIn name (es.map fun e => (e.1, g e.1 e.2)) = (findIn name es).map (g name) := by
  induction es with
  | nil => rfl
  | cons e es ih =>
    obtain ⟨k, v⟩ := e
    by_cases hk : k = name
    · simp [findIn, hk]
    · simpa [findIn, hk] using ih

/-- Inserting comes before or after a change of the values; only the value inserted has to be
changed as it should be at last. -/
theorem insertIn_map {β : Type v} (g g' : String → α → β) {name : String} (v : α)
    {es : List (String × α)} (hes : (es.map (·.1)).Nodup)
    (hg : ∀ other w, name ≠ other → g' other w = g other w) :
    (insertIn name v es).map (fun e => (e.1, g' e.1 e.2)) =
      insertIn name (g' name v) (es.map fun e => (e.1, g e.1 e.2)) := by
  induction es with
  | nil => rfl
  | cons e es ih =>
    obtain ⟨k, w⟩ := e
    obtain ⟨hk, hes⟩ := List.nodup_cons.1 hes
    by_cases hname : k = name
    · subst hname
      have hrest : es.map (fun e => (e.1, g' e.1 e.2)) = es.map fun e => (e.1, g e.1 e.2) :=
        List.map_congr_left fun e he => by
          have hne : k ≠ e.1 := fun heq => hk (List.mem_map.2 ⟨e, he, heq.symm⟩)
          rw [hg e.1 e.2 hne]
      simp [insertIn, hrest]
    · simp [insertIn, hname, hg k w (Ne.symm hname), ih hes]

theorem names_insertIn (name : String) (v : α) (es : List (String × α)) :
    (insertIn name v es).map (·.1) =
      if name ∈ es.map (·.1) then es.map (·.1) else es.map (·.1) ++ [name] := by
  induction es with
  | nil => simp [insertIn]
  | cons e es ih =>
    obtain ⟨k, w⟩ := e
    by_cases hk : k = name
    · simp [insertIn, hk]
    · simp only [insertIn, beq_iff_eq, hk, if_false, List.map_cons, ih, List.mem_cons, Ne.symm hk,
        false_or]
      split <;> rfl

/-- Inserting keeps every name at one entry. -/
theorem nodup_names_insert {t : Table α} (h : t.names.Nodup) {name : String} {v : α} :
    (t.insert name v).names.Nodup := by
  rw [names, insert, names_insertIn]
  split
  · exact h
  · next hname =>
    exact List.nodup_append.2 ⟨h, by simp, fun a ha b hb heq =>
      hname (List.mem_singleton.1 hb ▸ heq ▸ ha)⟩

/-- Erasing a name leaves the other names alone. -/
theorem find?_erase (t : Table α) (name other : String) :
    (t.erase name).find? other = if name = other then none else t.find? other :=
  findIn_filter name other t.entries

end Table

end FormBasic
