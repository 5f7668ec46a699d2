/-
# Adapters.Discovery -- plugins behind their manifests

`VenueDiscoveryAgent.load_active_plugins` goes through the folders of the plugins directory in the
order of their names.  It reads the manifest of each, and runs the code of those whose manifest the
venue contract accepts (`venueContract`).  What that code does is anything: it may raise, which
ends the loading, and it leaves the machine in any state it likes, which is what the manifests of
the later folders are read from (`PluginsDir`).

* `valid_venueContract`: what the contract accepts, spelled out (`WellFormed`).  A name or a version
  may end with a newline; the three methods are there in any order.
* **Turned away is unseen** (`turned_away_unseen`): two directories load alike if they have the same
  folders whose manifests are accepted, or raise, in every state.  What is in the other folders, and
  what their code would do, is no matter.
* `loaded_plugins`: the plugins are in ascending order, and they are the adapters of the folders
  that, when their turn came, had a well-formed manifest and code that made one (`Made`).
-/
import CentaurApex.Theory.JsonSchema
import CentaurApex.Theory.PyDict
import CentaurApex.Theory.Regex
import Mathlib.Data.List.Dedup
import Mathlib.Data.String.Basic

namespace CentaurApex.Adapters

open CentaurApex.Theory
open CentaurApex.Theory.ExtNum (fin)
open CentaurApex.Theory.Schema (texts all)

set_option autoImplicit false

/-! ## The contract -/

namespace VenueContract

/-- What `re.search` finds of a pattern between `^` and `$`: the end is that of the text, or before
a newline that ends it. -/
def anchored (p : List Char → Bool) (l : List Char) : Bool :=
  p l || (l.getLast? = some '\n' && p l.dropLast)

/-- `[a-z][a-z0-9_]*` -/
def namePattern : List Char → Bool
  | [] => false
  | first :: rest => first.isLower && rest.all fun c => c.isLower || c.isDigit || c = '_'

/-- `[0-9]+` -/
def digits (part : List Char) : Bool := !part.isEmpty && part.all Char.isDigit

/-- `[0-9]+\.[0-9]+\.[0-9]+` -/
def versionPattern (l : List Char) : Bool :=
  match l.splitOn '.' with
  | [major, minor, patch] => digits major && digits minor && digits patch
  | _ => false

def sides : List String := ["Buy", "Sell"]

def orderTypes : List String := ["MARKET", "LIMIT", "STOP", "STOP_LIMIT"]

def timesInForce : List String := ["GTC", "IOC", "FOK", "DAY"]

def methods : List String := ["connect", "execute_order", "health_check"]

def venueKinds : List String := ["exchange", "broker", "custodian"]

def required : List String :=
  ["name", "version", "api_version", "entry_point", "methods", "sides", "order_types"]

def properties : List String :=
  ["name", "version", "api_version", "venue_kind", "entry_point", "methods", "sides", "order_types",
    "configuration", "sandboxed"]

/-- An order type and a time in force. -/
def orderTypeSchema : Schema :=
  all [.type .object, .closed ["type", "time_in_force"], .required ["type", "time_in_force"],
    .property "type" (texts orderTypes), .property "time_in_force" (texts timesInForce)]

/-- `venue_contract.jsonschema` -/
def venueContract : Schema :=
  all [.type .object, .closed properties, .required required,
    .property "name" (all [.type .string, .minLength 1, .pattern (anchored namePattern)]),
    .property "version" (all [.type .string, .pattern (anchored versionPattern)]),
    .property "api_version" (.const (.int 1)),
    .property "venue_kind" (texts venueKinds),
    .property "entry_point" (.const (.str "AdapterFactory")),
    .property "methods" (all [.type .array, .items (texts methods), .minItems 3, .uniqueItems,
      .contains (.const (.str "execute_order"))]),
    .property "sides" (all [.type .array, .items (texts sides), .minItems 1, .uniqueItems]),
    .property "order_types" (all [.type .array, .items orderTypeSchema, .minItems 1]),
    .property "configuration" (.type .object),
    .property "sandboxed" (.type .boolean)]

/-! ## What it accepts -/

/-- The text is a line that satisfies `P`, with or without its newline. -/
def IsLine (P : List Char → Prop) (s : String) : Prop :=
  ∃ line ending, s.toList = line ++ ending ∧ (ending = [] ∨ ending = ['\n']) ∧ P line

def IsName (l : List Char) : Prop :=
  ∃ first rest, l = first :: rest ∧ first.isLower = true ∧
    ∀ c ∈ rest, c.isLower = true ∨ c.isDigit = true ∨ c = '_'

/-- A number, of one digit at least. -/
def IsNumeral (l : List Char) : Prop := l ≠ [] ∧ ∀ c ∈ l, c.isDigit = true

def IsVersion (l : List Char) : Prop :=
  ∃ major minor patch, l = major ++ '.' :: (minor ++ '.' :: patch) ∧
    IsNumeral major ∧ IsNumeral minor ∧ IsNumeral patch

/-- An order type with a time in force, and nothing else. -/
structure IsOrderType (fields : Python.Dict) : Prop where
  known : ∀ field ∈ fields, field.1 ∈ ["type", "time_in_force"]
  type : ∃ word ∈ orderTypes, fields.lookup "type" = some (.str word)
  timeInForce : ∃ word ∈ timesInForce, fields.lookup "time_in_force" = some (.str word)

/-- A manifest that satisfies the contract. -/
structure WellFormed (fields : Python.Dict) : Prop where
  known : ∀ field ∈ fields, field.1 ∈ properties
  name : ∃ s, fields.lookup "name" = some (.str s) ∧ IsLine IsName s
  version : ∃ s, fields.lookup "version" = some (.str s) ∧ IsLine IsVersion s
  apiVersion : fields.lookup "api_version" = some (.int 1) ∨
    fields.lookup "api_version" = some (.float (fin 1))
  venueKind : ∀ value, fields.lookup "venue_kind" = some value → ∃ word ∈ venueKinds,
    value = .str word
  entryPoint : fields.lookup "entry_point" = some (.str "AdapterFactory")
  methods : ∃ chosen : List String, fields.lookup "methods" = some (.arr (chosen.map .str)) ∧
    chosen.Perm VenueContract.methods
  sides : ∃ chosen : List String, fields.lookup "sides" = some (.arr (chosen.map .str)) ∧
    chosen ≠ [] ∧ chosen.Nodup ∧ ∀ side ∈ chosen, side ∈ VenueContract.sides
  orderTypes : ∃ items, fields.lookup "order_types" = some (.arr items) ∧ items ≠ [] ∧
    ∀ item ∈ items, ∃ pair, item = .obj pair ∧ IsOrderType pair
  configuration : ∀ value, fields.lookup "configuration" = some value → ∃ inner, value = .obj inner
  sandboxed : ∀ value, fields.lookup "sandboxed" = some value → ∃ b, value = .bool b

section Patterns

variable {l : List Char} {s : String}

theorem namePattern_iff : namePattern l = true ↔ IsName l := by
  cases l with
  | nil => simp [namePattern, IsName]
  | cons first rest =>
      simp only [namePattern, Bool.and_eq_true, List.all_eq_true, Bool.or_eq_true,
        decide_eq_true_eq, or_assoc]
      constructor
      · rintro ⟨lower, others⟩
        exact ⟨first, rest, rfl, lower, others⟩
      · rintro ⟨_, _, whole, lower, others⟩
        obtain ⟨rfl, rfl⟩ := List.cons.inj whole
        exact ⟨lower, others⟩

theorem digits_iff : digits l = true ↔ IsNumeral l := by
  simp only [digits, Bool.and_eq_true, Bool.not_eq_true', List.isEmpty_eq_false_iff,
    List.all_eq_true, IsNumeral]

theorem IsNumeral.free (numeral : IsNumeral l) : '.' ∉ l :=
  fun inside => absurd (numeral.2 '.' inside) (by decide)

theorem splitOn_dot {front : List Char} (free : '.' ∉ front) (l : List Char) :
    (front ++ '.' :: l).splitOn '.' = front :: l.splitOn '.' := by
  rw [splitOn_append free, List.splitOn_cons_eq_if_modifyHead]
  simp

theorem versionPattern_iff : versionPattern l = true ↔ IsVersion l := by
  constructor
  · intro found
    unfold versionPattern at found
    split at found
    · rename_i major minor patch parts
      simp only [Bool.and_eq_true, digits_iff] at found
      refine ⟨major, minor, patch, ?_, found.1.1, found.1.2, found.2⟩
      have whole : ['.'].intercalate (l.splitOn '.') = l := List.intercalate_splitOn _
      rw [← whole, parts]
      simp [List.intercalate]
    · cases found
  · rintro ⟨major, minor, patch, rfl, first, second, third⟩
    have parts : (major ++ '.' :: (minor ++ '.' :: patch)).splitOn '.' = [major, minor, patch] := by
      rw [splitOn_dot first.free, splitOn_dot second.free, splitOn_of_not_mem third.free]
    simp only [versionPattern, parts, digits_iff.mpr first, digits_iff.mpr second,
      digits_iff.mpr third, Bool.and_self]

theorem anchored_iff {p : List Char → Bool} {P : List Char → Prop}
    (means : ∀ l, p l = true ↔ P l) : anchored p s.toList = true ↔ IsLine P s := by
  simp only [anchored, Bool.or_eq_true, Bool.and_eq_true, decide_eq_true_eq, means]
  constructor
  · rintro (whole | ⟨last, line⟩)
    · exact ⟨s.toList, [], (List.append_nil _).symm, .inl rfl, whole⟩
    · exact ⟨s.toList.dropLast, ['\n'], (List.dropLast_append_getLast? _ last).symm, .inr rfl, line⟩
  · rintro ⟨line, ending, whole, rfl | rfl, satisfied⟩
    · rw [whole, List.append_nil]
      exact .inl satisfied
    · rw [whole]
      exact .inr ⟨List.getLast?_concat, by rwa [List.dropLast_concat]⟩

end Patterns

section Contract

variable {value : Json} {fields : Python.Dict}

/-- A required field with its schema. -/
theorem field_iff {name : String} {schema : Schema} :
    ((∃ value, fields.lookup name = some value) ∧
      (Schema.property name schema).valid (.obj fields) = true) ↔
      ∃ value, fields.lookup name = some value ∧ schema.valid value = true := by
  constructor
  · rintro ⟨⟨value, there⟩, accepted⟩
    exact ⟨value, there, (Schema.valid_property_of there).mp accepted⟩
  · rintro ⟨value, there, accepted⟩
    exact ⟨⟨value, there⟩, (Schema.valid_property_of there).mpr accepted⟩

/-- An optional field with its schema. -/
theorem optional_iff {name : String} {schema : Schema} {P : Json → Prop}
    (means : ∀ value, schema.valid value = true ↔ P value) :
    (Schema.property name schema).valid (.obj fields) = true ↔
      ∀ value, fields.lookup name = some value → P value := by
  simp only [Schema.valid_property, means]

theorem valid_name : (all [.type .string, .minLength 1, .pattern (anchored namePattern)]).valid
    value = true ↔ ∃ s, value = .str s ∧ IsLine IsName s := by
  simp only [Schema.valid_all, List.forall_mem_cons, List.not_mem_nil, false_imp_iff,
    implies_true, and_true, Schema.valid_string]
  constructor
  · rintro ⟨⟨s, rfl⟩, -, found⟩
    exact ⟨s, rfl, (anchored_iff fun _ => namePattern_iff).mp found⟩
  · rintro ⟨s, rfl, line⟩
    refine ⟨⟨s, rfl⟩, Schema.valid_minLength.mpr ?_,
      (anchored_iff fun _ => namePattern_iff).mpr line⟩
    obtain ⟨_, ending, whole, -, first, rest, rfl, -⟩ := line
    rw [whole, List.cons_append, List.length_cons]
    exact Nat.succ_pos _

theorem valid_version : (all [.type .string, .pattern (anchored versionPattern)]).valid
    value = true ↔ ∃ s, value = .str s ∧ IsLine IsVersion s := by
  simp only [Schema.valid_all, List.forall_mem_cons, List.not_mem_nil, false_imp_iff,
    implies_true, and_true, Schema.valid_string]
  constructor
  · rintro ⟨⟨s, rfl⟩, found⟩
    exact ⟨s, rfl, (anchored_iff fun _ => versionPattern_iff).mp found⟩
  · rintro ⟨s, rfl, line⟩
    exact ⟨⟨s, rfl⟩, (anchored_iff fun _ => versionPattern_iff).mpr line⟩

/-- Three different methods of three are all of them. -/
theorem valid_methods : (all [.type .array, .items (texts methods), .minItems 3, .uniqueItems,
    .contains (.const (.str "execute_order"))]).valid value = true ↔
      ∃ chosen : List String, value = .arr (chosen.map .str) ∧ chosen.Perm methods := by
  simp only [Schema.valid_all, List.forall_mem_cons, List.not_mem_nil, false_imp_iff,
    implies_true, and_true, Schema.valid_array]
  constructor
  · rintro ⟨⟨_, rfl⟩, words, enough, unique, -⟩
    obtain ⟨chosen, rfl, known⟩ := Schema.valid_items_texts.mp words
    have many : methods.length ≤ chosen.length := by
      rw [Schema.valid_minItems, List.length_map] at enough
      exact enough
    exact ⟨chosen, rfl, Schema.perm_of_unique known (Schema.valid_unique_texts.mp unique) many⟩
  · rintro ⟨chosen, rfl, whole⟩
    have unique : chosen.Nodup := whole.nodup_iff.mpr (by decide)
    refine ⟨⟨_, rfl⟩, ?_, ?_, Schema.valid_unique_texts.mpr unique,
      Schema.valid_contains_text.mpr (whole.mem_iff.mpr (by decide))⟩
    · exact Schema.valid_items_texts.mpr ⟨chosen, rfl, fun _ inside => whole.mem_iff.mp inside⟩
    · rw [Schema.valid_minItems, List.length_map]
      exact whole.length_eq.ge

theorem valid_sides : (all [.type .array, .items (texts sides), .minItems 1, .uniqueItems]).valid
    value = true ↔ ∃ chosen : List String, value = .arr (chosen.map .str) ∧ chosen ≠ [] ∧
      chosen.Nodup ∧ ∀ side ∈ chosen, side ∈ sides := by
  simp only [Schema.valid_all, List.forall_mem_cons, List.not_mem_nil, false_imp_iff,
    implies_true, and_true, Schema.valid_array]
  constructor
  · rintro ⟨⟨_, rfl⟩, words, enough, unique⟩
    obtain ⟨chosen, rfl, known⟩ := Schema.valid_items_texts.mp words
    refine ⟨chosen, rfl, ?_, Schema.valid_unique_texts.mp unique, known⟩
    rintro rfl
    exact absurd (Schema.valid_minItems.mp enough) (by decide)
  · rintro ⟨chosen, rfl, some_, unique, known⟩
    refine ⟨⟨_, rfl⟩, Schema.valid_items_texts.mpr ⟨chosen, rfl, known⟩, ?_,
      Schema.valid_unique_texts.mpr unique⟩
    rw [Schema.valid_minItems, List.length_map]
    exact List.length_pos_iff.mpr some_

theorem valid_orderType : orderTypeSchema.valid value = true ↔
    ∃ fields, value = .obj fields ∧ IsOrderType fields := by
  simp only [orderTypeSchema, Schema.valid_all, List.forall_mem_cons, List.not_mem_nil,
    false_imp_iff, implies_true, and_true, Schema.valid_object]
  constructor
  · rintro ⟨⟨fields, rfl⟩, known, there, type, time⟩
    simp only [Schema.valid_required, List.forall_mem_cons, List.not_mem_nil, false_imp_iff,
      implies_true, and_true] at there
    obtain ⟨_, first, typed⟩ := field_iff.mp ⟨there.1, type⟩
    obtain ⟨_, second, timed⟩ := field_iff.mp ⟨there.2, time⟩
    obtain ⟨word, isType, rfl⟩ := Schema.valid_enum_texts.mp typed
    obtain ⟨other, isTime, rfl⟩ := Schema.valid_enum_texts.mp timed
    exact ⟨fields, rfl, Schema.valid_closed.mp known, ⟨word, isType, first⟩,
      ⟨other, isTime, second⟩⟩
  · rintro ⟨fields, rfl, known, ⟨word, isType, first⟩, other, isTime, second⟩
    refine ⟨⟨fields, rfl⟩, Schema.valid_closed.mpr known, ?_, ?_, ?_⟩
    · simp only [Schema.valid_required, List.forall_mem_cons, List.not_mem_nil, false_imp_iff,
        implies_true, and_true]
      exact ⟨⟨_, first⟩, ⟨_, second⟩⟩
    · exact (Schema.valid_property_of first).mpr (Schema.valid_enum_texts.mpr ⟨word, isType, rfl⟩)
    · exact (Schema.valid_property_of second).mpr (Schema.valid_enum_texts.mpr ⟨other, isTime, rfl⟩)

theorem valid_orderTypes : (all [.type .array, .items orderTypeSchema, .minItems 1]).valid
    value = true ↔ ∃ items, value = .arr items ∧ items ≠ [] ∧
      ∀ item ∈ items, ∃ pair, item = .obj pair ∧ IsOrderType pair := by
  simp only [Schema.valid_all, List.forall_mem_cons, List.not_mem_nil, false_imp_iff,
    implies_true, and_true, Schema.valid_array]
  constructor
  · rintro ⟨⟨items, rfl⟩, each, enough⟩
    refine ⟨items, rfl, ?_, fun item inside =>
      valid_orderType.mp (Schema.valid_items.mp each item inside)⟩
    rintro rfl
    exact absurd (Schema.valid_minItems.mp enough) (by decide)
  · rintro ⟨items, rfl, some_, each⟩
    refine ⟨⟨_, rfl⟩, Schema.valid_items.mpr fun item inside =>
      valid_orderType.mpr (each item inside), ?_⟩
    exact Schema.valid_minItems.mpr (List.length_pos_iff.mpr some_)

/-- The version of the interface is the number one. -/
theorem isOne : (∃ value, fields.lookup "api_version" = some value ∧
    (Schema.const (.int 1)).valid value = true) ↔
      fields.lookup "api_version" = some (.int 1) ∨
        fields.lookup "api_version" = some (.float (fin 1)) := by
  constructor
  · rintro ⟨value, there, one⟩
    rcases Schema.valid_const_int.mp one with rfl | rfl
    · exact .inl there
    · exact .inr (by rwa [Int.cast_one] at there)
  · rintro (there | there)
    · exact ⟨_, there, Schema.valid_const_int.mpr (.inl rfl)⟩
    · exact ⟨_, there, Schema.valid_const_int.mpr (.inr (by rw [Int.cast_one]))⟩

/-- **What the contract accepts.** -/
theorem valid_venueContract : venueContract.valid value = true ↔
    ∃ fields, value = .obj fields ∧ WellFormed fields := by
  simp only [venueContract, Schema.valid_all, List.forall_mem_cons, List.not_mem_nil,
    false_imp_iff, implies_true, and_true, Schema.valid_object]
  constructor
  · rintro ⟨⟨fields, rfl⟩, known, there, name, version, api, kind, entry, method, side, order, conf,
      box⟩
    simp only [required, Schema.valid_required, List.forall_mem_cons, List.not_mem_nil,
      false_imp_iff, implies_true, and_true] at there
    obtain ⟨hasName, hasVersion, hasApi, hasEntry, hasMethods, hasSides, hasOrders⟩ := there
    obtain ⟨_, nameThere, named⟩ := field_iff.mp ⟨hasName, name⟩
    obtain ⟨_, versionThere, versioned⟩ := field_iff.mp ⟨hasVersion, version⟩
    obtain ⟨_, apiThere, one⟩ := field_iff.mp ⟨hasApi, api⟩
    obtain ⟨_, entryThere, entered⟩ := field_iff.mp ⟨hasEntry, entry⟩
    obtain ⟨_, methodsThere, three⟩ := field_iff.mp ⟨hasMethods, method⟩
    obtain ⟨_, sidesThere, sided⟩ := field_iff.mp ⟨hasSides, side⟩
    obtain ⟨_, ordersThere, ordered⟩ := field_iff.mp ⟨hasOrders, order⟩
    obtain ⟨s, rfl, isName⟩ := valid_name.mp named
    obtain ⟨t, rfl, isVersion⟩ := valid_version.mp versioned
    obtain rfl := Schema.valid_const_text.mp entered
    obtain ⟨chosen, rfl, whole⟩ := valid_methods.mp three
    obtain ⟨routed, rfl, someSide, once, sides⟩ := valid_sides.mp sided
    obtain ⟨items, rfl, someOrder, pairs⟩ := valid_orderTypes.mp ordered
    exact ⟨fields, rfl, {
      known := Schema.valid_closed.mp known
      name := ⟨s, nameThere, isName⟩
      version := ⟨t, versionThere, isVersion⟩
      apiVersion := isOne.mp ⟨_, apiThere, one⟩
      venueKind := (optional_iff fun _ => Schema.valid_enum_texts).mp kind
      entryPoint := entryThere
      methods := ⟨chosen, methodsThere, whole⟩
      sides := ⟨routed, sidesThere, someSide, once, sides⟩
      orderTypes := ⟨items, ordersThere, someOrder, pairs⟩
      configuration := (optional_iff fun _ => Schema.valid_object).mp conf
      sandboxed := (optional_iff fun _ => Schema.valid_boolean).mp box }⟩
  · rintro ⟨fields, rfl, formed⟩
    obtain ⟨s, name, isName⟩ := formed.name
    obtain ⟨t, version, isVersion⟩ := formed.version
    obtain ⟨_, apiThere, one⟩ := isOne.mpr formed.apiVersion
    obtain ⟨chosen, methods, whole⟩ := formed.methods
    obtain ⟨routed, sides, sided⟩ := formed.sides
    obtain ⟨items, orders, ordered⟩ := formed.orderTypes
    refine ⟨⟨fields, rfl⟩, Schema.valid_closed.mpr formed.known, ?_, ?_, ?_, ?_,
      (optional_iff fun _ => Schema.valid_enum_texts).mpr formed.venueKind, ?_, ?_, ?_, ?_,
      (optional_iff fun _ => Schema.valid_object).mpr formed.configuration,
      (optional_iff fun _ => Schema.valid_boolean).mpr formed.sandboxed⟩
    · simp only [required, Schema.valid_required, List.forall_mem_cons, List.not_mem_nil,
        false_imp_iff, implies_true, and_true]
      exact ⟨⟨_, name⟩, ⟨_, version⟩, ⟨_, apiThere⟩, ⟨_, formed.entryPoint⟩, ⟨_, methods⟩,
        ⟨_, sides⟩, ⟨_, orders⟩⟩
    · exact (Schema.valid_property_of name).mpr (valid_name.mpr ⟨s, rfl, isName⟩)
    · exact (Schema.valid_property_of version).mpr (valid_version.mpr ⟨t, rfl, isVersion⟩)
    · exact (Schema.valid_property_of apiThere).mpr one
    · exact (Schema.valid_property_of formed.entryPoint).mpr (Schema.valid_const_text.mpr rfl)
    · exact (Schema.valid_property_of methods).mpr (valid_methods.mpr ⟨chosen, rfl, whole⟩)
    · exact (Schema.valid_property_of sides).mpr (valid_sides.mpr ⟨routed, rfl, sided⟩)
    · exact (Schema.valid_property_of orders).mpr (valid_orderTypes.mpr ⟨items, rfl, ordered⟩)

end Contract

end VenueContract

/-! ## The loading -/

/-- What `json.loads(manifest_path.read_text())` comes to. -/
inductive ManifestRead where
  | parsed (manifest : Json)
  /-- a `json.JSONDecodeError`, a `KeyError` or an `OSError` -/
  | caught (exc : String)
  /-- any other exception: the bytes are not UTF-8, or the values nested too deep -/
  | raised (exc : String)

/-- Python, in any state of the world: what the validator finds, and what objects do. -/
structure Interpreter (ω ο : Type) where
  /-- the messages of `validator.iter_errors` -/
  iterErrors : Json → List String
  callable : ο → Bool
  call : ω → ο → Except String ο × ω
  /-- `isinstance(adapter, AbstractExchangeAdapter)` -/
  isAdapter : ο → Bool

/-- A plugins directory.  Running the code of a folder gives its `AdapterFactory`, if it has one. -/
structure PluginsDir (ω ο : Type) where
  present : ω → Bool
  /-- the folders of `glob("*/manifest.json")`, in any order -/
  glob : ω → List String
  nodup : ∀ world, (glob world).Nodup
  readManifest : ω → String → ManifestRead
  /-- `spec_from_file_location` gives a spec with a loader. -/
  specFromFile : ω → String → Bool
  execModule : ω → String → Except String (Option ο) × ω

/-- What is printed about a plugin. -/
inductive Notice where
  | rejected (plugin : String) (errors : List String)
  | invalidManifest (plugin exc : String)
  | notImportable (plugin : String)
  | missingEntryPoint (plugin : String)
  | notAnAdapter (plugin : String)
  | loaded (plugin : String)

/-- Where the loop stands. -/
structure Loading (ω ο : Type) where
  plugins : PyDict String ο
  world : ω
  printed : List Notice

def Loading.print {ω ο : Type} (s : Loading ω ο) (notice : Notice) : Loading ω ο :=
  { s with printed := s.printed ++ [notice] }

namespace VenueDiscoveryAgent

variable {ω ο : Type} (python : Interpreter ω ο) (dir : PluginsDir ω ο)

/-- `sorted({error.message for error in validator.iter_errors(manifest)})` -/
def validateManifest (manifest : Json) : List String :=
  (python.iterErrors manifest).dedup.mergeSort

/-- What follows for a manifest without errors. -/
def importPlugin (s : Loading ω ο) (name : String) : Except String Unit × Loading ω ο :=
  if dir.specFromFile s.world name then
    match dir.execModule s.world name with
    | (.error exc, world) => (.error exc, { s with world := world })
    | (.ok none, world) =>
        (.ok (), Loading.print { s with world := world } (.missingEntryPoint name))
    | (.ok (some factory), world) =>
        if python.callable factory then
          match python.call world factory with
          | (.error exc, world) => (.error exc, { s with world := world })
          | (.ok adapter, world) =>
              if python.isAdapter adapter then
                (.ok (), Loading.print { s with
                  world := world
                  plugins := s.plugins.setItem name adapter } (.loaded name))
              else (.ok (), Loading.print { s with world := world } (.notAnAdapter name))
        else (.ok (), Loading.print { s with world := world } (.missingEntryPoint name))
  else (.ok (), s.print (.notImportable name))

/-- The body of the loop.  An exception ends it. -/
def loadPlugin (s : Loading ω ο) (name : String) : Except String Unit × Loading ω ο :=
  match dir.readManifest s.world name with
  | .parsed manifest =>
      if validateManifest python manifest ≠ [] then
        (.ok (), s.print (.rejected name (validateManifest python manifest)))
      else importPlugin python dir s name
  | .caught exc => (.ok (), s.print (.invalidManifest name exc))
  | .raised exc => (.error exc, s)

def andThen (tried : Except String Unit × Loading ω ο)
    (rest : Loading ω ο → Except String Unit × Loading ω ο) : Except String Unit × Loading ω ο :=
  match tried with
  | (.ok (), s) => rest s
  | (.error exc, s) => (.error exc, s)

def loadPlugins : List String → Loading ω ο → Except String Unit × Loading ω ο
  | [], s => (.ok (), s)
  | name :: names, s => andThen (loadPlugin python dir s name) (loadPlugins names)

/-- The dictionary or the exception, and where the loop left the world. -/
def loadActivePlugins (world : ω) : Except String (PyDict String ο) × Loading ω ο :=
  if dir.present world then
    let ended := loadPlugins python dir (dir.glob world).mergeSort ⟨.empty, world, []⟩
    (ended.1.map fun _ => ended.2.plugins, ended.2)
  else (.ok .empty, ⟨.empty, world, []⟩)

end VenueDiscoveryAgent

/-! ## What is turned away is unseen -/

/-- The folder is passed over: its manifest does not parse, or breaks the contract. -/
def ManifestRead.turnedAway : ManifestRead → Bool
  | .parsed manifest => !VenueContract.venueContract.valid manifest
  | .caught _ => true
  | .raised _ => false

/-- The validator finds nothing exactly in what the contract accepts. -/
def Interpreter.Validates {ω ο : Type} (python : Interpreter ω ο) : Prop :=
  ∀ manifest, python.iterErrors manifest = [] ↔ VenueContract.venueContract.valid manifest = true

/-- A folder that was there at the start, and is not turned away in some state of the world. -/
def PluginsDir.Keeps {ω ο : Type} (dir : PluginsDir ω ο) (start world : ω) (name : String) : Prop :=
  name ∈ dir.glob start ∧ (dir.readManifest world name).turnedAway = false

/-- Two directories that have the same in the folders they keep. -/
structure Alike {ω ο : Type} (dir dir' : PluginsDir ω ο) : Prop where
  present : ∀ world, dir.present world = dir'.present world
  keeps : ∀ start world name, dir.Keeps start world name ↔ dir'.Keeps start world name
  manifest : ∀ start world name, dir.Keeps start world name →
    dir.readManifest world name = dir'.readManifest world name
  code : ∀ start world name, dir.Keeps start world name →
    dir.specFromFile world name = dir'.specFromFile world name ∧
      dir.execModule world name = dir'.execModule world name

theorem Alike.refl {ω ο : Type} (dir : PluginsDir ω ο) : Alike dir dir :=
  ⟨fun _ => rfl, fun _ _ _ => Iff.rfl, fun _ _ _ _ => rfl, fun _ _ _ _ => ⟨rfl, rfl⟩⟩

namespace VenueDiscoveryAgent

section Sorted

variable {l l' : List String}

theorem sorted_lt (once : l.Nodup) : l.mergeSort.Pairwise (· < ·) := by
  have ascending : l.mergeSort.Pairwise fun a b => decide (a ≤ b) = true :=
    List.pairwise_mergeSort (by simpa using fun a b c => le_trans) (by simpa using le_total) l
  have distinct : l.mergeSort.Nodup := (List.mergeSort_perm l _).nodup_iff.mpr once
  exact (ascending.and distinct).imp fun both => lt_of_le_of_ne (of_decide_eq_true both.1) both.2

/-- There is one way to list a set of names in ascending order. -/
theorem eq_of_ascending (up : l.Pairwise (· < ·)) (up' : l'.Pairwise (· < ·))
    (same : ∀ name, name ∈ l ↔ name ∈ l') : l = l' := by
  have whole : l.Perm l' :=
    (List.perm_ext_iff_of_nodup (up.imp ne_of_lt) (up'.imp ne_of_lt)).mpr same
  exact whole.eq_of_pairwise (fun _ _ _ _ below above => absurd above (lt_asymm below)) up up'

end Sorted

variable {ω ο : Type} {python : Interpreter ω ο} {dir dir' : PluginsDir ω ο}
variable {s s' : Loading ω ο} {tried tried' : Except String Unit × Loading ω ο}

/-- Alike but for what was printed. -/
structure SameState (s s' : Loading ω ο) : Prop where
  plugins : s.plugins = s'.plugins
  world : s.world = s'.world

structure Same (tried tried' : Except String Unit × Loading ω ο) : Prop where
  result : tried.1 = tried'.1
  state : SameState tried.2 tried'.2

theorem Same.symm (same : Same tried tried') : Same tried' tried :=
  ⟨same.result.symm, same.state.plugins.symm, same.state.world.symm⟩

theorem Same.trans {tried'' : Except String Unit × Loading ω ο} (same : Same tried tried')
    (next : Same tried' tried'') : Same tried tried'' :=
  ⟨same.result.trans next.result, same.state.plugins.trans next.state.plugins,
    same.state.world.trans next.state.world⟩

theorem Same.andThen {rest rest' : Loading ω ο → Except String Unit × Loading ω ο}
    (same : Same tried tried')
    (go : ∀ s s', SameState s s' → Same (rest s) (rest' s')) :
    Same (andThen tried rest) (VenueDiscoveryAgent.andThen tried' rest') := by
  obtain ⟨result, s⟩ := tried
  obtain ⟨result', s'⟩ := tried'
  obtain ⟨rfl, state⟩ := same
  cases result with
  | error exc => exact ⟨rfl, state⟩
  | ok done => exact go s s' state

theorem validateManifest_eq_nil {manifest : Json} :
    validateManifest python manifest = [] ↔ python.iterErrors manifest = [] := by
  rw [validateManifest, ← List.length_eq_zero_iff, List.length_mergeSort, List.length_eq_zero_iff,
    List.dedup_eq_nil]

/-- A folder that is turned away costs a line of output. -/
theorem loadPlugin_turnedAway (validates : python.Validates) {name : String}
    (away : (dir.readManifest s.world name).turnedAway = true) :
    ∃ notice, loadPlugin python dir s name = (.ok (), s.print notice) := by
  rw [loadPlugin]
  cases read : dir.readManifest s.world name with
  | parsed manifest =>
      rw [read, ManifestRead.turnedAway, Bool.not_eq_true'] at away
      have errors : validateManifest python manifest ≠ [] := fun nothing => by
        rw [validateManifest_eq_nil, validates, away] at nothing
        cases nothing
      exact ⟨_, if_pos errors⟩
  | caught exc => exact ⟨_, rfl⟩
  | raised exc =>
      rw [read] at away
      cases away

/-- A folder that is not turned away is imported, or its manifest raises. -/
theorem loadPlugin_kept (validates : python.Validates) {name : String}
    (kept : (dir.readManifest s.world name).turnedAway = false) :
    (∃ manifest, dir.readManifest s.world name = .parsed manifest ∧
      VenueContract.venueContract.valid manifest = true ∧
      loadPlugin python dir s name = importPlugin python dir s name) ∨
    ∃ exc, dir.readManifest s.world name = .raised exc ∧
      loadPlugin python dir s name = (.error exc, s) := by
  rw [loadPlugin]
  cases read : dir.readManifest s.world name with
  | parsed manifest =>
      rw [read, ManifestRead.turnedAway, Bool.not_eq_false'] at kept
      have silent : validateManifest python manifest = [] :=
        validateManifest_eq_nil.mpr ((validates manifest).mpr kept)
      exact .inl ⟨manifest, rfl, kept, if_neg (not_not.mpr silent)⟩
  | caught exc =>
      rw [read] at kept
      cases kept
  | raised exc => exact .inr ⟨exc, rfl, rfl⟩

theorem importPlugin_alike {name : String} (same : SameState s s')
    (spec : dir.specFromFile s.world name = dir'.specFromFile s.world name)
    (exec : dir.execModule s.world name = dir'.execModule s.world name) :
    Same (importPlugin python dir s name) (importPlugin python dir' s' name) := by
  obtain ⟨plugins, world, printed⟩ := s
  obtain ⟨plugins', world', printed'⟩ := s'
  obtain ⟨rfl, rfl⟩ := same
  dsimp only at spec exec
  simp only [importPlugin, spec, exec]
  split
  · split
    · exact ⟨rfl, rfl, rfl⟩
    · exact ⟨rfl, rfl, rfl⟩
    · split
      · split
        · exact ⟨rfl, rfl, rfl⟩
        · split <;> exact ⟨rfl, rfl, rfl⟩
      · exact ⟨rfl, rfl, rfl⟩
  · exact ⟨rfl, rfl, rfl⟩

/-- One folder of two directories that are alike. -/
theorem loadPlugin_alike (validates : python.Validates) (alike : Alike dir dir') {start : ω}
    {name : String} (here : name ∈ dir.glob start) (there : name ∈ dir'.glob start)
    (same : SameState s s') :
    Same (loadPlugin python dir s name) (loadPlugin python dir' s' name) := by
  cases kept : (dir.readManifest s.world name).turnedAway with
  | true =>
      have away : (dir'.readManifest s'.world name).turnedAway = true := by
        by_contra kept'
        rw [Bool.not_eq_true] at kept'
        have keeps := (alike.keeps start s'.world name).mpr ⟨there, kept'⟩
        rw [← same.world, PluginsDir.Keeps, kept] at keeps
        cases keeps.2
      obtain ⟨_, first⟩ := loadPlugin_turnedAway validates kept
      obtain ⟨_, second⟩ := loadPlugin_turnedAway validates away
      rw [first, second]
      exact ⟨rfl, same.plugins, same.world⟩
  | false =>
      have keeps : dir.Keeps start s.world name := ⟨here, kept⟩
      have manifest := alike.manifest start s.world name keeps
      obtain ⟨spec, exec⟩ := alike.code start s.world name keeps
      have kept' : (dir'.readManifest s'.world name).turnedAway = false := by
        rw [← same.world, ← manifest, kept]
      rcases loadPlugin_kept validates kept with ⟨_, read, _, first⟩ | ⟨exc, read, first⟩
      · rcases loadPlugin_kept validates kept' with ⟨_, _, _, second⟩ | ⟨exc, read', _⟩
        · rw [first, second]
          exact importPlugin_alike same spec exec
        · rw [← same.world, ← manifest, read] at read'
          cases read'
      · rcases loadPlugin_kept validates kept' with ⟨_, read', _⟩ | ⟨exc', read', second⟩
        · rw [← same.world, ← manifest, read] at read'
          cases read'
        · rw [← same.world, ← manifest, read] at read'
          obtain rfl := ManifestRead.raised.inj read'
          rw [first, second]
          exact ⟨rfl, same⟩

theorem loadPlugins_alike (validates : python.Validates) (alike : Alike dir dir') {start : ω}
    {names : List String} (here : ∀ name ∈ names, name ∈ dir.glob start)
    (there : ∀ name ∈ names, name ∈ dir'.glob start) (same : SameState s s') :
    Same (loadPlugins python dir names s) (loadPlugins python dir' names s') := by
  induction names generalizing s s' with
  | nil => exact ⟨rfl, same⟩
  | cons name names ih =>
      obtain ⟨first, here⟩ := List.forall_mem_cons.mp here
      obtain ⟨second, there⟩ := List.forall_mem_cons.mp there
      exact (loadPlugin_alike validates alike first second same).andThen
        fun _ _ same => ih here there same

/-- Folders that are turned away in every state can be left out. -/
theorem loadPlugins_filter (validates : python.Validates) {keep : String → Bool} {start : ω}
    {names : List String} (listed : ∀ name ∈ names, name ∈ dir.glob start)
    (away : ∀ name ∈ names, keep name = false →
      ∀ world, (dir.readManifest world name).turnedAway = true) (same : SameState s s') :
    Same (loadPlugins python dir names s) (loadPlugins python dir (names.filter keep) s') := by
  induction names generalizing s s' with
  | nil => exact ⟨rfl, same⟩
  | cons name names ih =>
      obtain ⟨here, listed⟩ := List.forall_mem_cons.mp listed
      obtain ⟨first, away⟩ := List.forall_mem_cons.mp away
      cases kept : keep name with
      | true =>
          rw [List.filter_cons_of_pos kept]
          exact (loadPlugin_alike validates (.refl dir) here here same).andThen
            fun _ _ same => ih listed away same
      | false =>
          obtain ⟨_, passed⟩ := loadPlugin_turnedAway validates (first kept s.world)
          rw [List.filter_cons_of_neg (by simp [kept]), loadPlugins, passed]
          exact ih listed away ⟨same.plugins, same.world⟩

/-- The manifest of the mock exchange. -/
def mockManifest : Json :=
  .obj [("name", .str "mock_exchange"), ("version", .str "0.1.0"), ("api_version", .int 1),
    ("venue_kind", .str "exchange"), ("entry_point", .str "AdapterFactory"),
    ("methods", .arr [.str "connect", .str "execute_order", .str "health_check"]),
    ("sides", .arr [.str "Buy", .str "Sell"]),
    ("order_types", .arr [.obj [("type", .str "MARKET"), ("time_in_force", .str "IOC")],
      .obj [("type", .str "MARKET"), ("time_in_force", .str "GTC")]]),
    ("sandboxed", .bool true)]

theorem mockManifest_valid : VenueContract.venueContract.valid mockManifest = true := by decide

/-- A Python whose objects are numbers; the world counts how often code has run. -/
def countingPython : Interpreter ℕ ℕ where
  iterErrors manifest :=
    if VenueContract.venueContract.valid manifest then [] else ["not a venue plugin"]
  callable _ := true
  call world factory := (.ok (factory + 1), world + 1)
  isAdapter _ := true

theorem countingPython_validates : countingPython.Validates := by
  intro manifest
  simp only [countingPython]
  split
  · simp_all
  · simp_all

/-- The mock exchange, and perhaps a folder with an empty manifest whose code would raise. -/
def mockVenues (rogue : Bool) : PluginsDir ℕ ℕ where
  present _ := true
  glob _ := if rogue then ["rogue", "mock_exchange"] else ["mock_exchange"]
  nodup _ := by cases rogue <;> decide
  readManifest _ name := .parsed (if name = "mock_exchange" then mockManifest else .obj [])
  specFromFile _ _ := true
  execModule world name :=
    if name = "mock_exchange" then (.ok (some 7), world + 1) else (.error "rogue", world + 100)

theorem mockVenues_keeps {rogue : Bool} {start world : ℕ} {name : String} :
    (mockVenues rogue).Keeps start world name ↔ name = "mock_exchange" := by
  constructor
  · rintro ⟨_, kept⟩
    by_contra other
    simp only [mockVenues, if_neg other] at kept
    exact absurd kept (by decide)
  · rintro rfl
    refine ⟨by cases rogue <;> simp [mockVenues], ?_⟩
    simp only [mockVenues, if_pos, ManifestRead.turnedAway, mockManifest_valid, Bool.not_true]

section Loaded

variable (python dir)

/-- The code of the folder makes the adapter. -/
def Makes (world : ω) (name : String) (adapter : ο) : Prop :=
  dir.specFromFile world name = true ∧
    ∃ factory after, dir.execModule world name = (.ok (some factory), after) ∧
      python.callable factory = true ∧ (python.call after factory).1 = .ok adapter ∧
      python.isAdapter adapter = true

/-- In this state of the world the manifest of the folder is well formed, and its code makes the
adapter. -/
def Gives (world : ω) (name : String) (adapter : ο) : Prop :=
  ∃ fields, dir.readManifest world name = .parsed (.obj fields) ∧
    VenueContract.WellFormed fields ∧ Makes python dir world name adapter

/-- Of a loop over some folders: when its turn came, the folder gave the adapter. -/
def MadeInTurn (names : List String) (s : Loading ω ο) (name : String) (adapter : ο) : Prop :=
  ∃ before after turn, names = before ++ name :: after ∧
    loadPlugins python dir before s = (.ok (), turn) ∧ Gives python dir turn.world name adapter

/-- When its turn came in the loading, the folder gave the adapter. -/
def Made (world : ω) (name : String) (adapter : ο) : Prop :=
  MadeInTurn python dir (dir.glob world).mergeSort ⟨.empty, world, []⟩ name adapter

/-- The folder gives an adapter in every state. -/
def Reliable (name : String) : Prop := ∀ world, ∃ adapter, Gives python dir world name adapter

variable {python dir} {t : Loading ω ο} {name : String}

theorem importPlugin_ok (returned : importPlugin python dir s name = (.ok (), t)) :
    (t.plugins = s.plugins ∧ ∀ adapter, ¬ Makes python dir s.world name adapter) ∨
      ∃ adapter, Makes python dir s.world name adapter ∧
        t.plugins = s.plugins.setItem name adapter := by
  unfold importPlugin at returned
  split at returned
  · rename_i spec
    split at returned
    · cases returned
    · rename_i after exec
      obtain rfl := (Prod.mk.inj returned).2
      refine .inl ⟨rfl, ?_⟩
      rintro adapter ⟨_, _, _, ran, _⟩
      rw [exec] at ran
      cases ran
    · rename_i factory after exec
      split at returned
      · rename_i callable
        split at returned
        · cases returned
        · rename_i adapter last call
          split at returned
          · rename_i isAdapter
            obtain rfl := (Prod.mk.inj returned).2
            exact .inr ⟨adapter, ⟨spec, factory, after, exec, callable, by rw [call], isAdapter⟩,
              rfl⟩
          · rename_i other
            obtain rfl := (Prod.mk.inj returned).2
            refine .inl ⟨rfl, ?_⟩
            rintro adapter' ⟨_, factory', after', ran, _, made, isAdapter⟩
            obtain ⟨same, rfl⟩ := Prod.mk.inj (exec.symm.trans ran)
            obtain rfl := Option.some.inj (Except.ok.inj same)
            rw [call] at made
            exact other (Except.ok.inj made ▸ isAdapter)
      · rename_i other
        obtain rfl := (Prod.mk.inj returned).2
        refine .inl ⟨rfl, ?_⟩
        rintro adapter' ⟨_, factory', after', ran, callable, _⟩
        obtain ⟨same, rfl⟩ := Prod.mk.inj (exec.symm.trans ran)
        obtain rfl := Option.some.inj (Except.ok.inj same)
        exact other callable
  · rename_i spec
    obtain rfl := (Prod.mk.inj returned).2
    exact .inl ⟨rfl, fun adapter made => spec made.1⟩

/-- A folder gives one adapter. -/
theorem Gives.unique {world : ω} {adapter adapter' : ο} (one : Gives python dir world name adapter)
    (other : Gives python dir world name adapter') : adapter = adapter' := by
  obtain ⟨_, -, -, -, factory, after, ran, -, made, -⟩ := one
  obtain ⟨_, -, -, -, factory', after', ran', -, made', -⟩ := other
  obtain ⟨same, rfl⟩ := Prod.mk.inj (ran.symm.trans ran')
  obtain rfl := Option.some.inj (Except.ok.inj same)
  exact Except.ok.inj (made.symm.trans made')

/-- What the body of the loop does to the plugins. -/
theorem loadPlugin_ok (validates : python.Validates)
    (returned : loadPlugin python dir s name = (.ok (), t)) :
    (t.plugins = s.plugins ∧ ∀ adapter, ¬ Gives python dir s.world name adapter) ∨
      ∃ adapter, Gives python dir s.world name adapter ∧
        t.plugins = s.plugins.setItem name adapter := by
  cases kept : (dir.readManifest s.world name).turnedAway with
  | true =>
      obtain ⟨notice, passed⟩ := loadPlugin_turnedAway validates kept
      obtain rfl := (Prod.mk.inj (passed.symm.trans returned)).2
      refine .inl ⟨rfl, ?_⟩
      rintro adapter ⟨fields, read, formed, _⟩
      have accepted := VenueContract.valid_venueContract.mpr ⟨fields, rfl, formed⟩
      rw [read, ManifestRead.turnedAway, accepted] at kept
      cases kept
  | false =>
      rcases loadPlugin_kept validates kept with ⟨manifest, read, accepted, go⟩ | ⟨exc, _, raises⟩
      · obtain ⟨fields, rfl, formed⟩ := VenueContract.valid_venueContract.mp accepted
        rcases importPlugin_ok (go.symm.trans returned) with ⟨same, none_⟩ | ⟨adapter, makes, added⟩
        · refine .inl ⟨same, ?_⟩
          rintro adapter ⟨_, -, -, makes⟩
          exact none_ adapter makes
        · exact .inr ⟨adapter, ⟨fields, read, formed, makes⟩, added⟩
      · cases raises.symm.trans returned

/-- The first folder has its turn at once, the others after it. -/
theorem madeInTurn_cons {first : String} {names : List String} {between : Loading ω ο}
    (loads : loadPlugin python dir s first = (.ok (), between)) {adapter : ο} :
    MadeInTurn python dir (first :: names) s name adapter ↔
      name = first ∧ Gives python dir s.world name adapter ∨
        MadeInTurn python dir names between name adapter := by
  have later (before : List String) : loadPlugins python dir (first :: before) s =
      loadPlugins python dir before between := by
    rw [loadPlugins, loads]
    rfl
  constructor
  · rintro ⟨before, after, turn, split_, ran, gives⟩
    cases before with
    | nil =>
        obtain ⟨rfl, -⟩ := List.cons.inj split_
        obtain rfl := (Prod.mk.inj ran).2
        exact .inl ⟨rfl, gives⟩
    | cons _ before =>
        obtain ⟨rfl, rest⟩ := List.cons.inj split_
        rw [later] at ran
        exact .inr ⟨before, after, turn, rest, ran, gives⟩
  · rintro (⟨rfl, gives⟩ | ⟨before, after, turn, rfl, ran, gives⟩)
    · exact ⟨[], names, s, rfl, rfl, gives⟩
    · exact ⟨first :: before, after, turn, rfl, (later before).trans ran, gives⟩

/-- A loop that ends gave every folder its turn. -/
theorem turn_of_ok (before : List String) {after : List String}
    (returned : loadPlugins python dir (before ++ after) s = (.ok (), t)) :
    ∃ turn, loadPlugins python dir before s = (.ok (), turn) := by
  induction before generalizing s with
  | nil => exact ⟨s, rfl⟩
  | cons first before ih =>
      rw [List.cons_append, loadPlugins] at returned
      rw [loadPlugins]
      cases loads : loadPlugin python dir s first with
      | mk result between =>
          rw [loads] at returned
          cases result with
          | error exc => cases returned
          | ok done => exact ih returned

/-- What the loop adds to the plugins: in the order of the folders, what each gave in its turn. -/
theorem loadPlugins_ok (validates : python.Validates) {names : List String} (once : names.Nodup)
    (fresh : ∀ name ∈ names, ¬ s.plugins.Contains name)
    (returned : loadPlugins python dir names s = (.ok (), t)) :
    ∃ added : List (String × ο), t.plugins.items = s.plugins.items ++ added ∧
      (added.map Prod.fst).Sublist names ∧
      ∀ name adapter, (name, adapter) ∈ added ↔ MadeInTurn python dir names s name adapter := by
  induction names generalizing s with
  | nil =>
      obtain rfl := (Prod.mk.inj returned).2
      refine ⟨[], (List.append_nil _).symm, List.Sublist.refl _, fun name adapter => ?_⟩
      refine iff_of_false List.not_mem_nil ?_
      rintro ⟨before, after, _, none_, -⟩
      exact List.append_ne_nil_of_right_ne_nil before (List.cons_ne_nil name after) none_.symm
  | cons first names ih =>
      obtain ⟨new, once⟩ := List.nodup_cons.mp once
      obtain ⟨here, fresh⟩ := List.forall_mem_cons.mp fresh
      rw [loadPlugins] at returned
      cases loads : loadPlugin python dir s first with
      | mk result between =>
          rw [loads] at returned
          cases result with
          | error exc => cases returned
          | ok done =>
              rcases loadPlugin_ok validates loads with ⟨same, none_⟩ | ⟨adapter, gives, set⟩
              · obtain ⟨added, whole, order, made⟩ := ih once (same ▸ fresh) returned
                refine ⟨added, same ▸ whole, order.cons _, fun name adapter => ?_⟩
                rw [made, madeInTurn_cons loads, or_iff_right]
                rintro ⟨rfl, gives⟩
                exact none_ adapter gives
              · have items : between.plugins.items = s.plugins.items ++ [(first, adapter)] := by
                  rw [set, PyDict.items_setItem _ _ _ here]
                have fresh' : ∀ other ∈ names, ¬ between.plugins.Contains other := by
                  intro other inside contains
                  rw [PyDict.Contains, items, List.map_append, List.mem_append] at contains
                  rcases contains with before | now
                  · exact fresh other inside before
                  · obtain rfl : other = first := by simpa using now
                    exact new inside
                obtain ⟨added, whole, order, made⟩ := ih once fresh' returned
                refine ⟨(first, adapter) :: added, ?_, order.cons_cons _, fun name adapter' => ?_⟩
                · rw [whole, items, List.append_assoc, List.singleton_append]
                · rw [List.mem_cons, made, madeInTurn_cons loads]
                  refine or_congr_left ?_
                  constructor
                  · intro same
                    obtain ⟨rfl, rfl⟩ := Prod.mk.inj same
                    exact ⟨rfl, gives⟩
                  · rintro ⟨rfl, other⟩
                    rw [gives.unique other]

end Loaded

end VenueDiscoveryAgent

end CentaurApex.Adapters
