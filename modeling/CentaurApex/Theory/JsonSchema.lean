/-
# Theory.JsonSchema -- what a schema accepts

The keywords of JSON Schema that a closed contract is written in (`Schema`), and what each asks of
a value (`Schema.valid`).  A keyword says something about values of one type only: a string has no
items, and a schema that asks for items accepts it, unless another keyword asks for an array.
Values are the same by what they are worth: `1` and `1.0` are, and `1` and `true` are not
(`Json.same`).

* `valid_enum_texts`, `valid_const_text`: of texts, the keywords say what they list.
* `valid_items_texts`: an array of such texts is a list of them.
* `valid_unique_texts`: it has each of them once, if `uniqueItems` says so; and a list that is as
  long as the vocabulary is then the vocabulary, in some order (`perm_of_unique`).
-/
import CentaurApex.Theory.Json
import Mathlib.Data.List.Perm.Subperm

namespace CentaurApex.Theory

open CentaurApex.Theory.ExtNum (fin)

set_option autoImplicit false

/-! ## Values that are the same -/

namespace Json

mutual

/-- Whether a schema takes two values for the same. -/
def same : Json → Json → Bool
  | .null, .null => true
  | .bool a, .bool b => a = b
  | .int a, .int b => a = b
  | .int a, .float y => y = fin (a : ℚ)
  | .float x, .int b => x = fin (b : ℚ)
  | .float x, .float y => x = y ∧ x ≠ .nan
  | .str s, .str t => s = t
  | .arr items, .arr others => sameItems items others
  | .obj fields, .obj others => fields.length = others.length && sameFields fields others
  | _, _ => false

def sameItems : List Json → List Json → Bool
  | [], [] => true
  | item :: items, other :: others => same item other && sameItems items others
  | _, _ => false

def sameFields : List (String × Json) → List (String × Json) → Bool
  | [], _ => true
  | (key, value) :: fields, others =>
      (others.lookup key).any (same value ·) && sameFields fields others

end

theorem same_text {value : Json} {s : String} : value.same (.str s) = true ↔ value = .str s := by
  cases value <;> simp [same]

theorem same_texts (s t : String) : same (.str s) (.str t) = decide (s = t) := by
  rw [same]

/-- The same as an integer is the integer, and the number. -/
theorem same_int {value : Json} {n : ℤ} :
    value.same (.int n) = true ↔ value = .int n ∨ value = .float (fin (n : ℚ)) := by
  cases value <;> simp [same]

end Json

/-! ## Schemas -/

inductive JsonType where
  | string
  | array
  | object
  | boolean

/-- The type of a value is this one. -/
def JsonType.ofValue : JsonType → Json → Bool
  | string, .str _ => true
  | array, .arr _ => true
  | object, .obj _ => true
  | boolean, .bool _ => true
  | _, _ => false

/-- A schema: keywords, and more of them.  A pattern is what it finds. -/
inductive Schema where
  | anything
  | both (first second : Schema)
  | type (t : JsonType)
  | const (value : Json)
  | enum (values : List Json)
  | minLength (n : ℕ)
  | pattern (found : List Char → Bool)
  | minItems (n : ℕ)
  | uniqueItems
  | items (item : Schema)
  | contains (item : Schema)
  | required (names : List String)
  | property (name : String) (value : Schema)
  /-- `additionalProperties: false`, where these are the properties. -/
  | closed (names : List String)

namespace Schema

/-- The keywords of one object. -/
def all (keywords : List Schema) : Schema := keywords.foldr both anything

/-- No two of them are the same. -/
def distinct : List Json → Bool
  | [] => true
  | item :: others => others.all (fun other => !item.same other) && distinct others

/-- Whether a schema accepts a value. -/
def valid : Schema → Json → Bool
  | anything, _ => true
  | both first second, value => first.valid value && second.valid value
  | type t, value => t.ofValue value
  | const expected, value => value.same expected
  | enum values, value => values.any (value.same ·)
  | minLength n, .str s => n ≤ s.length
  | pattern found, .str s => found s.toList
  | minItems n, .arr values => n ≤ values.length
  | uniqueItems, .arr values => distinct values
  | items item, .arr values => values.all item.valid
  | contains item, .arr values => values.any item.valid
  | required names, .obj fields => names.all fun name => (fields.lookup name).isSome
  | property name schema, .obj fields => (fields.lookup name).all schema.valid
  | closed names, .obj fields => fields.all (·.1 ∈ names)
  | _, _ => true

variable {value : Json} {items : List Json} {fields : List (String × Json)}

theorem valid_type {t : JsonType} : (type t).valid value = t.ofValue value := rfl

theorem valid_all {keywords : List Schema} :
    (all keywords).valid value = true ↔ ∀ keyword ∈ keywords, keyword.valid value = true := by
  induction keywords with
  | nil => exact iff_of_true rfl fun _ none_ => absurd none_ List.not_mem_nil
  | cons keyword keywords ih =>
      rw [List.forall_mem_cons, ← ih, ← Bool.and_eq_true]
      rfl

theorem valid_array : (type .array).valid value = true ↔ ∃ items, value = .arr items := by
  cases value <;> simp [valid_type, JsonType.ofValue]

theorem valid_object : (type .object).valid value = true ↔ ∃ fields, value = .obj fields := by
  cases value <;> simp [valid_type, JsonType.ofValue]

theorem valid_string : (type .string).valid value = true ↔ ∃ s, value = .str s := by
  cases value <;> simp [valid_type, JsonType.ofValue]

theorem valid_boolean : (type .boolean).valid value = true ↔ ∃ b, value = .bool b := by
  cases value <;> simp [valid_type, JsonType.ofValue]

theorem valid_const_text {s : String} : (const (.str s)).valid value = true ↔ value = .str s :=
  Json.same_text

theorem valid_const_int {n : ℤ} :
    (const (.int n)).valid value = true ↔ value = .int n ∨ value = .float (fin (n : ℚ)) :=
  Json.same_int

/-- A vocabulary. -/
def texts (words : List String) : Schema := enum (words.map .str)

theorem valid_enum_texts {words : List String} :
    (texts words).valid value = true ↔ ∃ word ∈ words, value = .str word := by
  show (words.map Json.str).any (value.same ·) = true ↔ _
  simp only [List.any_map, List.any_eq_true, Function.comp_apply, Json.same_text]

theorem valid_minLength {n : ℕ} {s : String} :
    (minLength n).valid (.str s) = true ↔ n ≤ s.toList.length := by
  rw [String.length_toList]
  exact decide_eq_true_iff

theorem valid_minItems {n : ℕ} : (minItems n).valid (.arr items) = true ↔ n ≤ items.length :=
  decide_eq_true_iff

theorem valid_items {item : Schema} :
    (Schema.items item).valid (.arr items) = true ↔ ∀ value ∈ items, item.valid value = true :=
  List.all_eq_true

/-- An array of words is a list of words. -/
theorem valid_items_texts {words : List String} :
    (Schema.items (texts words)).valid (.arr items) = true ↔
      ∃ chosen : List String, items = chosen.map .str ∧ ∀ word ∈ chosen, word ∈ words := by
  rw [valid_items]
  induction items with
  | nil => exact ⟨fun _ => ⟨[], rfl, fun _ none_ => absurd none_ List.not_mem_nil⟩,
      fun _ value none_ => absurd none_ List.not_mem_nil⟩
  | cons value items ih =>
      rw [List.forall_mem_cons, ih, valid_enum_texts]
      constructor
      · rintro ⟨⟨word, known, rfl⟩, chosen, rfl, others⟩
        exact ⟨word :: chosen, rfl, List.forall_mem_cons.mpr ⟨known, others⟩⟩
      · rintro ⟨chosen, whole, known⟩
        cases chosen with
        | nil => cases whole
        | cons word chosen =>
            obtain ⟨rfl, rfl⟩ := List.cons.inj whole
            obtain ⟨here, others⟩ := List.forall_mem_cons.mp known
            exact ⟨⟨word, here, rfl⟩, chosen, rfl, others⟩

/-- Texts are distinct as they are different. -/
theorem valid_unique_texts {chosen : List String} :
    uniqueItems.valid (.arr (chosen.map .str)) = true ↔ chosen.Nodup := by
  show distinct (chosen.map .str) = true ↔ _
  induction chosen with
  | nil => simp [distinct]
  | cons word chosen ih =>
      rw [List.map_cons, distinct, Bool.and_eq_true, ih, List.nodup_cons, List.all_map,
        List.all_eq_true]
      refine and_congr_left fun _ => ⟨fun others inside => ?_, fun fresh other inside => ?_⟩
      · have differs := others word inside
        simp [Json.same_texts] at differs
      · have differs : word ≠ other := fun same => fresh (same ▸ inside)
        simp [Json.same_texts, differs]

/-- Different words of a vocabulary, as many as it has, are all of them. -/
theorem perm_of_unique {words chosen : List String} (known : ∀ word ∈ chosen, word ∈ words)
    (unique : chosen.Nodup) (enough : words.length ≤ chosen.length) : chosen.Perm words :=
  (unique.subperm known).perm_of_length_le enough

theorem valid_contains_text {chosen : List String} {s : String} :
    (contains (const (.str s))).valid (.arr (chosen.map .str)) = true ↔ s ∈ chosen := by
  show (chosen.map Json.str).any (·.same (.str s)) = true ↔ _
  simp only [List.any_map, List.any_eq_true, Function.comp_apply, Json.same_texts,
    decide_eq_true_eq, exists_eq_right]

theorem valid_required {names : List String} :
    (required names).valid (.obj fields) = true ↔
      ∀ name ∈ names, ∃ value, fields.lookup name = some value := by
  show (names.all fun name => (fields.lookup name).isSome) = true ↔ _
  simp only [List.all_eq_true, Option.isSome_iff_exists]

theorem valid_property {name : String} {schema : Schema} :
    (property name schema).valid (.obj fields) = true ↔
      ∀ value, fields.lookup name = some value → schema.valid value = true := by
  show (fields.lookup name).all schema.valid = true ↔ _
  rw [Option.all_eq_true]

/-- What a schema says of a field that is there. -/
theorem valid_property_of {name : String} {schema : Schema}
    (there : fields.lookup name = some value) :
    (property name schema).valid (.obj fields) = true ↔ schema.valid value = true := by
  rw [valid_property]
  constructor
  · intro every
    exact every value there
  · intro accepted other same
    obtain rfl := Option.some.inj (there.symm.trans same)
    exact accepted

theorem valid_closed {names : List String} :
    (closed names).valid (.obj fields) = true ↔ ∀ field ∈ fields, field.1 ∈ names := by
  show (fields.all (·.1 ∈ names)) = true ↔ _
  simp only [List.all_eq_true, decide_eq_true_eq]

end Schema

end CentaurApex.Theory
