import FormBasic.Data.Connection
import FormBasic.Proofs.Text.Blank
import FormBasic.Proofs.Text.Case
import Mathlib.Data.List.Nodup
import Mathlib.Data.List.Perm.Basic

/-!
# The spelling of a connection string

A list of entries can be written in many ways: the entries in any order, the keys in any letter
case, and blanks around keys, values and entries. What is read from such a text is a table of the
keys in lower case and the values, both without the blanks around them, and the order of the entries
is lost in it if no key comes twice. The rules that choose the database look at this table only. So
the spelling makes no difference, unless no rule applies, and the text itself is the path of a file.

A text that begins like a URL is not read as a list. It begins like its first entry, and whether an
entry begins like a URL is a matter of its key in lower case.

## Main definitions

* `Connection.Entry` — an entry as it is written, and what it means
* `Connection.HasRule` — the entries that choose a database
* `Connection.byRules?` — the database that the rules choose

## Main results

* `Table.find?_ofList_iff` — what is found in the table of a list
* `Connection.entries_write` — what is read from a written list
* `Connection.parse_write` — a written list is no URL
* `Connection.parse_respelled` — the same entries in two spellings
-/

namespace FormBasic

/-! ### Tables of lists -/

namespace Table

variable {α : Type} {key : String} {v : α}

theorem find?_foldl_insert_iff {es : List (String × α)} {t : Table α}
    (hes : (es.map Prod.fst).Nodup) :
    (es.foldl (fun t e => t.insert e.1 e.2) t).find? key = some v ↔
      (key, v) ∈ es ∨ key ∉ es.map Prod.fst ∧ t.find? key = some v := by
  induction es generalizing t with
  | nil => simp
  | cons e es ih =>
    obtain ⟨k, w⟩ := e
    rw [List.map_cons, List.nodup_cons] at hes
    rw [List.foldl_cons, ih hes.2, find?_insert]
    by_cases hk : k = key
    · subst hk
      have hnot : (k, v) ∉ es := fun hmem => hes.1 (List.mem_map.2 ⟨_, hmem, rfl⟩)
      simp [hes.1, hnot, eq_comm]
    · simp [hk, Ne.symm hk]

/-- If no key comes twice, a table has the entries of its list. -/
theorem find?_ofList_iff {es : List (String × α)} (hes : (es.map Prod.fst).Nodup) :
    (ofList es).find? key = some v ↔ (key, v) ∈ es := by
  rw [ofList, find?_foldl_insert_iff hes]
  simp

/-- The order of a list makes no difference to what is found. -/
theorem find?_ofList_perm {es es' : List (String × α)} (hes : (es.map Prod.fst).Nodup)
    (h : es'.Perm es) : (ofList es').find? = (ofList es).find? := by
  have hes' : (es'.map Prod.fst).Nodup := ((h.map Prod.fst).nodup_iff).2 hes
  funext key
  refine Option.ext fun v => ?_
  rw [find?_ofList_iff hes', find?_ofList_iff hes, h.mem_iff]

end Table

namespace Data.Connection

open Text

/-! ### Entries -/

/-- An entry as it is written. -/
structure Entry where
  key : String
  value : String

/-- How the texts begin that are not read as a list of entries. -/
def urlPrefixes : List String := ["sqlite:", "postgres://", "postgresql://", "mysql://"]

namespace Entry

/-- The text of an entry. -/
def text (e : Entry) : List Char := e.key.toList ++ '=' :: e.value.toList

/-- The key in lower case and the value, without the blanks around them. -/
def meaning (e : Entry) : String × String := (lower (trim e.key), trim e.value)

/-- An entry can be read back from a list, and does not begin like a URL in any letter case. -/
structure IsPlain (e : Entry) : Prop where
  /-- The key does not end the entry. -/
  semicolon_key : ';' ∉ e.key.toList
  /-- The key does not end itself. -/
  equals_key : '=' ∉ e.key.toList
  /-- The value does not end the entry. -/
  semicolon_value : ';' ∉ e.value.toList
  /-- Not even behind blanks the entry is the beginning of a URL. -/
  noUrl : ∀ u ∈ urlPrefixes, ¬ u.toList <+: (lower (trimStart (String.ofList e.text))).toList

end Entry

/-- The text of a list of entries. -/
def write (es : List Entry) : String := String.ofList (joinWith [';'] (es.map Entry.text))

variable {e e' : Entry} {es es' : List Entry}

theorem isMark_semicolon : IsMark ';' := by decide

theorem isMark_equals : IsMark '=' := by decide

/-- A mark that is no blank stays in a key when it is trimmed and put in lower case. -/
theorem mem_lower_trim_iff {x : Char} (hx : IsMark x) (hblank : isBlank x = false) (s : String) :
    x ∈ (lower (trim s)).toList ↔ x ∈ s.toList := by
  rw [mem_lower_iff hx, trim, String.toList_ofList, mem_trimChars hblank]

/-! ### The beginning of a URL -/

/-- What does not have a character cannot go on beyond it. -/
theorem prefix_append_cons_iff {x : Char} {l as bs : List Char} (hx : x ∉ l) :
    l <+: as ++ x :: bs ↔ l <+: as := by
  refine ⟨fun h => ?_, fun h => h.trans (List.prefix_append as _)⟩
  rcases List.prefix_or_prefix_of_prefix h (List.prefix_append as _) with hl | ⟨rest, rfl⟩
  · exact hl
  · cases rest with
    | nil => exact ⟨[], by rw [List.append_nil, List.append_nil]⟩
    | cons y rest =>
      rw [List.prefix_append_right_inj, List.cons_prefix_cons] at h
      exact absurd (by simp [h.1]) hx

theorem prefix_append_blanks_iff {l as bs : List Char} (hl : l.any isBlank = false)
    (hbs : ∀ c ∈ bs, isBlank c = true) : l <+: as ++ bs ↔ l <+: as := by
  cases bs with
  | nil => rw [List.append_nil]
  | cons b bs =>
    refine prefix_append_cons_iff fun hmem => ?_
    exact List.any_eq_false.1 hl b hmem (hbs b List.mem_cons_self)

theorem urlPrefixes_free :
    ∀ u ∈ urlPrefixes, '=' ∉ u.toList ∧ u.toList.any isBlank = false := by
  decide

theorem map_lowerChar_of_blanks {bs : List Char} (h : ∀ c ∈ bs, isBlank c = true) :
    bs.map lowerChar = bs := by
  rw [List.map_congr_left fun c hc => lowerChar_of_isBlank (h c hc), List.map_id']

/-- A text with an equals sign begins like a URL exactly if its key does, and this is a matter of
the key without the blanks around it. -/
theorem prefix_lower_iff {u : String} (hu : u ∈ urlPrefixes) (key : String) (cs : List Char) :
    u.toList <+: (key.toList.dropWhile isBlank ++ '=' :: cs).map lowerChar ↔
      u.toList <+: (lower (trim key)).toList := by
  obtain ⟨hequals, hblanks⟩ := urlPrefixes_free u hu
  have hmark : lowerChar '=' = '=' := (lowerChar_eq_iff isMark_equals '=').2 rfl
  have htrail : ∀ c ∈ (key.toList.dropWhile isBlank).rtakeWhile isBlank, isBlank c = true :=
    fun c hc => List.mem_rtakeWhile_imp hc
  have hkey : key.toList.dropWhile isBlank =
      trimChars isBlank key.toList ++ (key.toList.dropWhile isBlank).rtakeWhile isBlank :=
    List.rdropWhile_append_rtakeWhile.symm
  rw [List.map_append, List.map_cons, hmark, prefix_append_cons_iff hequals, hkey, List.map_append,
    map_lowerChar_of_blanks htrail, prefix_append_blanks_iff hblanks htrail, lower, trim,
    String.toList_ofList, String.toList_ofList]

/-! ### Plain entries -/

/-- Whether an entry is plain is a matter of its meaning. -/
theorem Entry.isPlain_iff : e.IsPlain ↔
    ';' ∉ e.meaning.1.toList ∧ '=' ∉ e.meaning.1.toList ∧ ';' ∉ e.meaning.2.toList ∧
      ∀ u ∈ urlPrefixes, ¬ u.toList <+: e.meaning.1.toList := by
  have hurl :
      (∀ u ∈ urlPrefixes, ¬ u.toList <+: (lower (trimStart (String.ofList e.text))).toList) ↔
      ∀ u ∈ urlPrefixes, ¬ u.toList <+: e.meaning.1.toList := by
    refine forall₂_congr fun u hu => not_congr ?_
    rw [lower, String.toList_ofList, trimStart, String.toList_ofList, String.toList_ofList,
      Entry.text, dropWhile_append_cons (by decide), prefix_lower_iff hu, Entry.meaning]
  have hkey : ';' ∈ e.meaning.1.toList ↔ ';' ∈ e.key.toList :=
    mem_lower_trim_iff isMark_semicolon (by decide) e.key
  have hequals : '=' ∈ e.meaning.1.toList ↔ '=' ∈ e.key.toList :=
    mem_lower_trim_iff isMark_equals (by decide) e.key
  have hvalue : ';' ∈ (trim e.value).toList ↔ ';' ∈ e.value.toList := by
    rw [trim, String.toList_ofList, mem_trimChars (by decide)]
  rw [hkey, hequals, show e.meaning.2 = trim e.value from rfl, hvalue, ← hurl]
  constructor
  · exact fun h => ⟨h.semicolon_key, h.equals_key, h.semicolon_value, h.noUrl⟩
  · rintro ⟨hsemicolon, hequals, hvalue, hurl⟩
    exact ⟨hsemicolon, hequals, hvalue, hurl⟩

instance : Decidable e.IsPlain := decidable_of_iff _ Entry.isPlain_iff.symm

/-- Another spelling of a plain entry is plain. -/
theorem Entry.IsPlain.of_meaning (h : e.IsPlain) (hmeaning : e'.meaning = e.meaning) :
    e'.IsPlain := by
  rw [Entry.isPlain_iff] at h ⊢
  rwa [hmeaning]

/-! ### What is read -/

/-- What is read of a piece of a list. -/
theorem cut_text (h : e.IsPlain) : cut '=' (trimChars isBlank e.text) =
    (e.key.toList.dropWhile isBlank, some (dropEndWhile isBlank e.value.toList)) := by
  rw [cut_eq_iff, Entry.text, trimChars_append_cons (by decide)]
  exact ⟨rfl, fun hmem => h.equals_key ((List.dropWhile_sublist isBlank).mem hmem)⟩

/-- A written list is read as the meanings of its entries. -/
theorem entries_write (hes : es ≠ []) (hplain : ∀ e ∈ es, e.IsPlain) :
    entries (trim (write es)) = .ofList (es.map Entry.meaning) := by
  have hfree : ∀ piece ∈ es.map Entry.text, ';' ∉ piece := by
    intro piece hpiece
    obtain ⟨e, he, rfl⟩ := List.mem_map.1 hpiece
    have hp := hplain e he
    simp [Entry.text, hp.semicolon_key, hp.semicolon_value]
  have hpieces : (splitOn [';'] (trim (write es)).toList).map (trimChars isBlank) =
      (es.map Entry.text).map (trimChars isBlank) := by
    rw [trim, String.toList_ofList, map_trimChars_splitOn (by decide), write, String.toList_ofList,
      splitOn_joinWith (by simpa using hes) hfree]
  rw [entries, hpieces, List.map_map, List.filterMap_map, ← List.filterMap_eq_map]
  refine congrArg Table.ofList (List.filterMap_congr fun e he => ?_)
  rw [Function.comp_apply, Function.comp_apply, cut_text (hplain e he)]
  simp only [Function.comp_apply, Entry.meaning, trim, String.toList_ofList, trimChars_dropWhile,
    trimChars_dropEndWhile]

/-- A written list begins like its first entry. -/
theorem exists_trim_write (hes : es ≠ []) : ∃ e ∈ es, ∃ cs,
    (trim (write es)).toList = e.key.toList.dropWhile isBlank ++ '=' :: cs := by
  obtain ⟨e, rest, rfl⟩ := List.exists_cons_of_ne_nil hes
  have hjoin : ∃ tail, joinWith [';'] ((e :: rest).map Entry.text) = e.text ++ tail := by
    cases rest with
    | nil => exact ⟨[], (List.append_nil _).symm⟩
    | cons e' rest =>
      exact ⟨_, (joinWith_cons _ _ (List.cons_ne_nil _ _)).trans (List.append_assoc _ _ _)⟩
  obtain ⟨tail, htail⟩ := hjoin
  -- The equals sign of the first entry keeps trimming at the start apart from trimming at the end.
  refine ⟨e, List.mem_cons_self, dropEndWhile isBlank (e.value.toList ++ tail), ?_⟩
  rw [trim, String.toList_ofList, write, String.toList_ofList, htail, Entry.text, List.append_assoc,
    List.cons_append, trimChars_append_cons (by decide)]

/-- A written list of plain entries is no URL. -/
theorem parse_write (hes : es ≠ []) (hplain : ∀ e ∈ es, e.IsPlain) :
    parse (write es) = .ok (ofEntries (trim (write es))) := by
  obtain ⟨e, he, cs, hcs⟩ := exists_trim_write hes
  have hne : (trim (write es) == "") = false := by
    refine beq_false_of_ne fun hempty => ?_
    rw [hempty] at hcs
    simp at hcs
  have hstarts : ∀ u ∈ urlPrefixes,
      startsWith u.toList (lower (trim (write es))).toList = false := by
    intro u hu
    have hkey := (Entry.isPlain_iff.1 (hplain e he)).2.2.2 u hu
    rw [Bool.eq_false_iff, ne_eq, startsWith_iff, lower, String.toList_ofList, hcs,
      prefix_lower_iff hu]
    exact hkey
  simp only [urlPrefixes, List.forall_mem_cons] at hstarts
  obtain ⟨hsqlite, hpostgres, hpostgresql, hmysql, -⟩ := hstarts
  simp only [parse, hne, hsqlite, hpostgres, hpostgresql, hmysql, Bool.or_self, Bool.false_eq_true,
    if_false]

/-! ### Rules -/

/-- The words in the name of a provider that say which database it is for. -/
def providerWords : List String := ["jet", "ace", "postgre", "sqloledb", "mysql"]

/-- An entry of a table chooses a database: a provider that is known, a data source that is a file,
and every host and every server. -/
inductive HasRule : String × String → Prop
  | provider {value word : String} (hword : word ∈ providerWords)
      (h : mentions (lower value) word = true) : HasRule ("provider", value)
  | source {value : String} (h : isFile value = true) : HasRule ("data source", value)
  | host {value : String} : HasRule ("host", value)
  | server {value : String} : HasRule ("server", value)

/-- The database that the rules choose. -/
def byRules? (pairs : Table String) : Option Connection :=
  let provider := lower ((pairs.find? "provider").getD "")
  let source := pairs.find? "data source"
  if mentions provider "jet" || mentions provider "ace" || source.any isFile then
    some ⟨.sqlite, source.getD ":memory:"⟩
  else if mentions provider "postgre" || (pairs.contains "host" && !pairs.contains "server") then
    some ⟨.postgres, postgresSource pairs⟩
  else if mentions provider "sqloledb" || mentions provider "mysql" || pairs.contains "server" then
    some ⟨.mysql, mysqlOfEntries pairs⟩
  else none

/-- Without a rule that applies, a text is the path of a file. -/
theorem ofEntries_eq (s : String) : ofEntries s = (byRules? (entries s)).getD ⟨.sqlite, s⟩ := by
  simp only [ofEntries, byRules?]
  split_ifs <;> rfl

variable {pairs pairs' : Table String}

/-- The rules look at what is found in a table. -/
theorem byRules?_congr (h : pairs.find? = pairs'.find?) : byRules? pairs = byRules? pairs' := by
  have hfirst : firstOf pairs = firstOf pairs' := by
    funext default keys
    rw [firstOf, firstOf, h]
  have hcontains : pairs.contains = pairs'.contains := by
    funext key
    rw [Table.contains, Table.contains, h]
  have hpostgres : postgresSource pairs = postgresSource pairs' := by
    unfold postgresSource
    rw [hfirst]
  have hmysql : mysqlOfEntries pairs = mysqlOfEntries pairs' := by
    unfold mysqlOfEntries
    rw [hfirst]
  unfold byRules?
  rw [h, hcontains, hpostgres, hmysql]

theorem byRules?_isSome : (byRules? pairs).isSome ↔
    (∃ word ∈ providerWords, mentions (lower ((pairs.find? "provider").getD "")) word = true) ∨
      (pairs.find? "data source").any isFile = true ∨ pairs.contains "host" = true ∨
      pairs.contains "server" = true := by
  simp only [providerWords, List.exists_mem_cons_iff, List.not_mem_nil, false_and, exists_false,
    or_false]
  unfold byRules?
  dsimp only
  split_ifs with hsqlite hpostgres hmysql
  all_goals
    simp only [Bool.or_eq_true, Bool.and_eq_true, Bool.not_eq_true'] at *
    grind

theorem mentions_empty {word : String} (hword : word ∈ providerWords) :
    mentions (lower "") word = false := by
  revert word
  decide

/-- The rules choose a database exactly if there is an entry that does. -/
theorem byRules?_isSome_iff :
    (byRules? pairs).isSome ↔ ∃ key value, pairs.find? key = some value ∧ HasRule (key, value) := by
  rw [byRules?_isSome]
  constructor
  · rintro (⟨word, hword, h⟩ | h | h | h)
    · cases hfind : pairs.find? "provider" with
      | none =>
        rw [hfind, Option.getD_none, mentions_empty hword] at h
        cases h
      | some value =>
        rw [hfind, Option.getD_some] at h
        exact ⟨_, value, hfind, .provider hword h⟩
    · cases hfind : pairs.find? "data source" with
      | none =>
        rw [hfind] at h
        cases h
      | some value =>
        rw [hfind] at h
        exact ⟨_, value, hfind, .source h⟩
    · obtain ⟨value, hfind⟩ := Option.isSome_iff_exists.1 h
      exact ⟨_, value, hfind, .host⟩
    · obtain ⟨value, hfind⟩ := Option.isSome_iff_exists.1 h
      exact ⟨_, value, hfind, .server⟩
  · rintro ⟨key, value, hfind, hrule⟩
    cases hrule with
    | provider hword h =>
      refine .inl ⟨_, hword, ?_⟩
      rwa [hfind]
    | source h =>
      refine .inr (.inl ?_)
      rw [hfind]
      exact h
    | host =>
      refine .inr (.inr (.inl ?_))
      rw [Table.contains, hfind]
      rfl
    | server =>
      refine .inr (.inr (.inr ?_))
      rw [Table.contains, hfind]
      rfl

/-! ### Spellings -/

/-- What a written list of plain entries means. -/
theorem parse_write_eq (hes : es ≠ []) (hplain : ∀ e ∈ es, e.IsPlain) :
    parse (write es) =
      .ok ((byRules? (.ofList (es.map Entry.meaning))).getD ⟨.sqlite, trim (write es)⟩) := by
  rw [parse_write hes hplain, ofEntries_eq, entries_write hes hplain]

/-- Whether a rule applies to one of some entries whose keys are distinct. -/
theorem byRules?_ofList_isSome_iff (hkeys : (es.map fun e => e.meaning.1).Nodup) :
    (byRules? (.ofList (es.map Entry.meaning))).isSome ↔ ∃ e ∈ es, HasRule e.meaning := by
  have hnodup : ((es.map Entry.meaning).map Prod.fst).Nodup := by
    rwa [List.map_map]
  rw [byRules?_isSome_iff]
  simp only [Table.find?_ofList_iff hnodup, List.mem_map]
  constructor
  · rintro ⟨key, value, ⟨e, he, hmeaning⟩, hrule⟩
    exact ⟨e, he, hmeaning ▸ hrule⟩
  · rintro ⟨e, he, hrule⟩
    exact ⟨_, _, ⟨e, he, rfl⟩, hrule⟩

/-- Entries whose keys are distinct mean the same database in every order, with the keys in any
letter case and with any blanks around keys and values. If there is no entry that chooses a
database, each text is the path of a file. -/
theorem parse_respelled (hes : es ≠ []) (hplain : ∀ e ∈ es, e.IsPlain)
    (hkeys : (es.map fun e => e.meaning.1).Nodup)
    (hspelling : (es'.map Entry.meaning).Perm (es.map Entry.meaning)) :
    ((∃ e ∈ es, HasRule e.meaning) →
      ∃ c, parse (write es) = .ok c ∧ parse (write es') = .ok c) ∧
    ((¬ ∃ e ∈ es, HasRule e.meaning) →
      parse (write es) = .ok ⟨.sqlite, trim (write es)⟩ ∧
        parse (write es') = .ok ⟨.sqlite, trim (write es')⟩) := by
  have hes' : es' ≠ [] := by
    rintro rfl
    exact hes (List.map_eq_nil_iff.1 (List.nil_perm.1 hspelling))
  have hplain' : ∀ e' ∈ es', e'.IsPlain := by
    intro e' he'
    obtain ⟨e, he, hmeaning⟩ := List.mem_map.1 (hspelling.mem_iff.1 (List.mem_map_of_mem he'))
    exact (hplain e he).of_meaning hmeaning.symm
  have hnodup : ((es.map Entry.meaning).map Prod.fst).Nodup := by
    rwa [List.map_map]
  have hsame : byRules? (.ofList (es'.map Entry.meaning)) =
      byRules? (.ofList (es.map Entry.meaning)) :=
    byRules?_congr (Table.find?_ofList_perm hnodup hspelling)
  rw [parse_write_eq hes hplain, parse_write_eq hes' hplain', hsame,
    ← byRules?_ofList_isSome_iff hkeys]
  cases byRules? (.ofList (es.map Entry.meaning)) with
  | none => exact ⟨nofun, fun _ => ⟨rfl, rfl⟩⟩
  | some c => exact ⟨fun _ => ⟨c, rfl, rfl⟩, fun h => absurd rfl h⟩

/-- A server, its database and a password with an equals sign, and the same the other way round. -/
theorem parse_respelled_server :
    let es : List Entry := [⟨"Server", "db"⟩, ⟨"Database", "x"⟩, ⟨"Pwd", "a=b"⟩]
    let es' : List Entry := [⟨" pwd ", "a=b "⟩, ⟨"DATABASE", "\tx"⟩, ⟨"\nserver", " db"⟩]
    parse (write es) = .ok ⟨.mysql, "root:a=b@tcp(db:3306)/x"⟩ ∧
      parse (write es') = .ok ⟨.mysql, "root:a=b@tcp(db:3306)/x"⟩ := by
  intro es es'
  have hplain : ∀ e ∈ es, e.IsPlain := by decide +kernel
  have hkeys : (es.map fun e => e.meaning.1).Nodup := by decide +kernel
  have hspelling : (es'.map Entry.meaning).Perm (es.map Entry.meaning) := by decide +kernel
  have hserver : ∃ e ∈ es, HasRule e.meaning := by
    have hmeaning : (⟨"Server", "db"⟩ : Entry).meaning = ("server", "db") := by decide +kernel
    exact ⟨_, List.mem_cons_self, hmeaning ▸ .server⟩
  obtain ⟨c, hleft, hright⟩ :=
    (parse_respelled (List.cons_ne_nil _ _) hplain hkeys hspelling).1 hserver
  have hparse : parse (write es) = .ok ⟨.mysql, "root:a=b@tcp(db:3306)/x"⟩ := by decide +kernel
  exact ⟨hparse, hright.trans (hleft.symm.trans hparse)⟩

end Data.Connection

end FormBasic
