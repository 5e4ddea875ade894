import Mathlib.Data.List.Forall2

/-!
# TOML documents

A document is an ordered table: a key is looked up by its first entry, and set in
place if it is there and at the end if not.  Below the tables are the values, of
which an inline table is one, and arrays of tables.

A reader of a document sees less: strings, numbers, flags, sequences and maps
(`Item.content`).  An array of tables and an array are both sequences, and a
table, an inline table and a date, which is read through one entry of its own, are
all maps.
-/

namespace Mum.Library

universe u v

/-- An ordered table. -/
abbrev Entries (V : Type u) := List (String × V)

namespace Entries

variable {V : Type u} {W : Type v}

def get (entries : Entries V) (key : String) : Option V := List.lookup key entries

def set (entries : Entries V) (key : String) (value : V) : Entries V :=
  match entries with
  | [] => [(key, value)]
  | entry :: rest => if entry.1 = key then (key, value) :: rest else entry :: set rest key value

/-- The entries whose keys are not among the known ones. -/
def unknown (known : List String) (entries : Entries V) : Entries V :=
  entries.filter fun entry => entry.1 ∉ known

@[simp] theorem get_nil (key : String) : get ([] : Entries V) key = none := rfl

theorem get_cons (entry : String × V) (rest : Entries V) (key : String) :
    get (entry :: rest) key = if entry.1 = key then some entry.2 else get rest key := by
  obtain ⟨key', value⟩ := entry
  by_cases h : key' = key
  · subst h
    simp [get]
  · have hne : (key == key') = false := by simpa using Ne.symm h
    simp [get, List.lookup_cons, hne, h]

@[simp] theorem get_set (entries : Entries V) (key key' : String) (value : V) :
    get (set entries key value) key' = if key = key' then some value else get entries key' := by
  induction entries with
  | nil => rw [set, get_cons]
  | cons entry rest ih =>
      rw [set]
      by_cases hentry : entry.1 = key
      · rw [if_pos hentry, get_cons, get_cons, hentry]
        by_cases h : key = key' <;> simp [h]
      · rw [if_neg hentry, get_cons, get_cons, ih]
        by_cases h : entry.1 = key'
        · have hne : key ≠ key' := fun hkey => hentry (h.trans hkey.symm)
          simp [h, hne]
        · simp [h]

theorem get_filter (p : String → Bool) (entries : Entries V) (key : String) :
    get (entries.filter fun entry => p entry.1) key = if p key then get entries key else none := by
  induction entries with
  | nil => simp
  | cons entry rest ih =>
      rw [List.filter_cons, get_cons]
      by_cases hentry : entry.1 = key
      · subst hentry
        by_cases hp : p entry.1 <;> simp [hp, get_cons, ih]
      · by_cases hp : p entry.1 <;> simp [hp, get_cons, hentry, ih]

/-- What is not known stays, in its order, when a known key is set. -/
theorem unknown_set {known : List String} {key : String} (hkey : key ∈ known)
    (entries : Entries V) (value : V) :
    unknown known (set entries key value) = unknown known entries := by
  induction entries with
  | nil => simp [set, unknown, hkey]
  | cons entry rest ih =>
      rw [set]
      by_cases hentry : entry.1 = key
      · rw [if_pos hentry]
        simp [unknown, hentry, hkey]
      · simp only [unknown, if_neg hentry, List.filter_cons] at ih ⊢
        rw [ih]

/-- A table with other values under the same keys. -/
theorem set_map (f : V → W) (entries : Entries V) (key : String) (value : V) :
    (set entries key value).map (fun entry => (entry.1, f entry.2)) =
      set (entries.map fun entry => (entry.1, f entry.2)) key (f value) := by
  induction entries with
  | nil => rfl
  | cons entry rest ih =>
      rw [set, List.map_cons, set]
      split
      · rfl
      · rw [List.map_cons, ih]

end Entries

namespace Toml

/-- A value.  Floats are a parameter. -/
inductive Value (F : Type)
  | string (s : String)
  | integer (i : Int)
  | float (f : F)
  | boolean (b : Bool)
  | datetime (text : String)
  | array (items : List (Value F))
  | inlineTable (entries : List (String × Value F))

/-- What a key stands for. -/
inductive Item (F : Type)
  | value (v : Value F)
  | table (entries : List (String × Item F))
  | arrayOfTables (tables : List (List (String × Item F)))

variable {F : Type}

abbrev Table (F : Type) := Entries (Item F)

/-- The document is its root table. -/
abbrev Document (F : Type) := Table F

/-- What a reader sees. -/
inductive Content (F : Type)
  | string (s : String)
  | integer (i : Int)
  | float (f : F)
  | boolean (b : Bool)
  | seq (items : List (Item F))
  | map (entries : Table F)

namespace Item

/-- The key under which the text of a date is read. -/
def datetimeKey : String := "$__toml_private_datetime"

def content : Item F → Content F
  | value (.string s) => .string s
  | value (.integer i) => .integer i
  | value (.float f) => .float f
  | value (.boolean b) => .boolean b
  | value (.datetime text) => .map [(datetimeKey, value (.string text))]
  | value (.array items) => .seq (items.map value)
  | value (.inlineTable entries) => .map (entries.map fun entry => (entry.1, value entry.2))
  | table entries => .map entries
  | arrayOfTables tables => .seq (tables.map table)

/-- Sets a value of a table, inline or not; other items have no keys. -/
def setValue (item : Item F) (key : String) (v : Value F) : Option (Item F) :=
  match item with
  | table entries => some (table (Entries.set entries key (value v)))
  | value (.inlineTable entries) => some (value (.inlineTable (Entries.set entries key v)))
  | _ => none

/-- The entries of a map that are not known. -/
def unknown (known : List String) (item : Item F) : Table F :=
  match item.content with
  | .map entries => Entries.unknown known entries
  | _ => []

/-- The item at a key of a map. -/
def get (item : Item F) (key : String) : Option (Item F) :=
  match item.content with
  | .map entries => Entries.get entries key
  | _ => none

/-- The items of a sequence. -/
def items (item : Item F) : List (Item F) :=
  match item.content with
  | .seq items => items
  | _ => []

theorem content_setValue {item item' : Item F} {key : String} {v : Value F}
    (h : item.setValue key v = some item') :
    ∃ entries, item.content = .map entries ∧
      item'.content = .map (Entries.set entries key (value v)) := by
  cases item with
  | value w =>
      cases w with
      | inlineTable entries =>
          cases h
          refine ⟨_, rfl, ?_⟩
          rw [content, Entries.set_map]
      | _ => cases h
  | table entries =>
      cases h
      exact ⟨entries, rfl, rfl⟩
  | arrayOfTables tables => cases h

end Item

/-! ## Texts -/

/-- An array of tables without tables. -/
def Item.isEmptyArray : Item F → Bool
  | .arrayOfTables [] => true
  | _ => false

/-- The document without its empty arrays of tables, which have no text. -/
def dropEmpty (document : Document F) : Document F :=
  document.filter fun entry => !(Entries.get document entry.1).any Item.isEmptyArray

theorem get_dropEmpty (document : Document F) (key : String) :
    Entries.get (dropEmpty document) key =
      (Entries.get document key).filter (!Item.isEmptyArray ·) := by
  rw [dropEmpty, Entries.get_filter fun key => !(Entries.get document key).any Item.isEmptyArray]
  cases Entries.get document key with
  | none => simp
  | some item => cases h : item.isEmptyArray <;> simp [h, Option.filter_some]

theorem dropEmpty_dropEmpty (document : Document F) :
    dropEmpty (dropEmpty document) = dropEmpty document := by
  rw [dropEmpty, List.filter_eq_self]
  intro entry hentry
  have hkept := (List.mem_filter.mp hentry).2
  rw [get_dropEmpty]
  cases hget : Entries.get document entry.1 with
  | none => rfl
  | some item =>
      rw [hget] at hkept
      have hitem : item.isEmptyArray = false := by simpa using hkept
      rw [Option.filter_some_pos (by simp [hitem])]
      exact hkept

/-- What a text can say: a document without empty arrays of tables. -/
abbrev Text (F : Type) := { document : Document F // dropEmpty document = document }

/-- The text of a document. -/
def Text.of (document : Document F) : Text F := ⟨dropEmpty document, dropEmpty_dropEmpty document⟩

/-- A key of an edited text. -/
theorem get_dropEmpty_set {document : Document F} (hdocument : dropEmpty document = document)
    (key : String) (item : Item F) (key' : String) :
    Entries.get (dropEmpty (Entries.set document key item)) key' =
      if key = key' then (if item.isEmptyArray then none else some item)
      else Entries.get document key' := by
  rw [get_dropEmpty, Entries.get_set]
  by_cases hkey : key = key'
  · rw [if_pos hkey, if_pos hkey]
    cases hitem : item.isEmptyArray <;> simp [Option.filter_some, hitem]
  · rw [if_neg hkey, if_neg hkey, ← get_dropEmpty, hdocument]

/-- What is not known stays when a known key of a text is set. -/
theorem unknown_dropEmpty_set {document : Document F} (hdocument : dropEmpty document = document)
    {known : List String} {key : String} (hkey : key ∈ known) (item : Item F) :
    Entries.unknown known (dropEmpty (Entries.set document key item)) =
      Entries.unknown known document := by
  have hcomm : Entries.unknown known (dropEmpty (Entries.set document key item)) =
      (Entries.unknown known (Entries.set document key item)).filter fun entry =>
        !(Entries.get (Entries.set document key item) entry.1).any Item.isEmptyArray := by
    rw [Entries.unknown, dropEmpty, List.filter_filter, Entries.unknown, List.filter_filter]
    exact List.filter_congr fun entry _ => Bool.and_comm _ _
  rw [hcomm, Entries.unknown_set hkey, List.filter_eq_self]
  intro entry hentry
  obtain ⟨hmem, hunknown⟩ := List.mem_filter.mp hentry
  have hne : key ≠ entry.1 := by
    intro h
    rw [h] at hkey
    simp [hkey] at hunknown
  rw [Entries.get_set, if_neg hne]
  rw [← hdocument] at hmem
  exact (List.mem_filter.mp hmem).2

/-! ## Reading -/

/-- How a value of a type is read. -/
abbrev Reader (F : Type) (A : Type) := Item F → Option A

namespace Reader

variable {A : Type}

def string : Reader F String := fun item =>
  match item.content with
  | .string s => some s
  | _ => none

def boolean : Reader F Bool := fun item =>
  match item.content with
  | .boolean b => some b
  | _ => none

/-- A sequence, all of whose items are read. -/
def seq (read : Reader F A) : Reader F (List A) := fun item =>
  match item.content with
  | .seq items => items.mapM read
  | _ => none

/-- The key may be missing. -/
def optional (read : Reader F A) (entries : Table F) (key : String) : Option (Option A) :=
  match Entries.get entries key with
  | none => some none
  | some item => (read item).map some

/-- The key has to be there. -/
def required (read : Reader F A) (entries : Table F) (key : String) : Option A :=
  (Entries.get entries key).bind read

@[simp] theorem optional_set (read : Reader F A) (entries : Table F) (key key' : String)
    (item : Item F) :
    read.optional (Entries.set entries key item) key' =
      if key = key' then (read item).map some else read.optional entries key' := by
  rw [optional, Entries.get_set]
  by_cases h : key = key'
  · rw [if_pos h, if_pos h]
  · rw [if_neg h, if_neg h, optional]

@[simp] theorem required_set (read : Reader F A) (entries : Table F) (key key' : String)
    (item : Item F) :
    read.required (Entries.set entries key item) key' =
      if key = key' then read item else read.required entries key' := by
  rw [required, Entries.get_set]
  by_cases h : key = key'
  · rw [if_pos h, if_pos h]
    rfl
  · rw [if_neg h, if_neg h, required]

end Reader

/-! ## Lists of items that are read -/

section Lists

variable {A B : Type} {f : A → Option B} {l : List A} {l' : List B}

theorem mapM_eq_some_iff :
    l.mapM f = some l' ↔ List.Forall₂ (fun a b => f a = some b) l l' := by
  induction l generalizing l' with
  | nil =>
      rw [List.mapM_nil, List.forall₂_nil_left_iff]
      exact ⟨fun h => (Option.some.inj h).symm, fun h => by rw [h]; rfl⟩
  | cons a rest ih =>
      rw [List.mapM_cons, List.forall₂_cons_left_iff]
      constructor
      · intro h
        obtain ⟨b, hb, h⟩ := Option.bind_eq_some_iff.mp h
        obtain ⟨bs, hbs, h⟩ := Option.bind_eq_some_iff.mp h
        exact ⟨b, bs, hb, ih.mp hbs, (Option.some.inj h).symm⟩
      · rintro ⟨b, bs, hb, hbs, rfl⟩
        exact Option.bind_eq_some_iff.mpr ⟨b, hb, Option.bind_eq_some_iff.mpr
          ⟨bs, ih.mpr hbs, rfl⟩⟩

theorem mapM_set (h : l.mapM f = some l') {a : A} {b : B} (hb : f a = some b) (i : ℕ) :
    (l.set i a).mapM f = some (l'.set i b) := by
  rw [mapM_eq_some_iff] at h ⊢
  induction h generalizing i with
  | nil => exact .nil
  | cons hhead hrest ih =>
      cases i with
      | zero => exact .cons hb hrest
      | succ i => exact .cons hhead (ih i)

theorem mapM_set_eq_none {a : A} (ha : f a = none) {i : ℕ} (hi : i < l.length) :
    (l.set i a).mapM f = none := by
  rw [Option.eq_none_iff_forall_ne_some]
  intro l' h
  rw [mapM_eq_some_iff, List.forall₂_iff_get] at h
  have hget := h.2 i (by simpa using hi) (by simpa [← h.1] using hi)
  simp [ha] at hget

theorem mapM_eraseIdx (h : l.mapM f = some l') (i : ℕ) :
    (l.eraseIdx i).mapM f = some (l'.eraseIdx i) := by
  rw [mapM_eq_some_iff] at h ⊢
  induction h generalizing i with
  | nil => exact .nil
  | cons hhead hrest ih =>
      cases i with
      | zero => exact hrest
      | succ i => exact .cons hhead (ih i)

theorem mapM_concat (h : l.mapM f = some l') {a : A} {b : B} (hb : f a = some b) :
    (l ++ [a]).mapM f = some (l' ++ [b]) := by
  rw [mapM_eq_some_iff] at h ⊢
  exact List.rel_append h (.cons hb .nil)

theorem length_of_mapM (h : l.mapM f = some l') : l.length = l'.length :=
  (mapM_eq_some_iff.mp h).length_eq

/-- What stands at a place is read from what stands there. -/
theorem get_of_mapM (h : l.mapM f = some l') {i : ℕ} {a : A} (ha : l[i]? = some a) :
    ∃ b, l'[i]? = some b ∧ f a = some b := by
  rw [mapM_eq_some_iff] at h
  induction h generalizing i with
  | nil => cases ha
  | @cons a' b' _ _ hhead hrest ih =>
      cases i with
      | zero =>
          cases ha
          exact ⟨b', rfl, hhead⟩
      | succ i => exact ih ha

end Lists

end Toml

end Mum.Library
