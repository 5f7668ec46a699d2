/-
# Theory.ArgParse -- command lines, and what of them can pass for an option

An `argparse` parser whose options take one argument each, with `-h` and `--help` next to them and
nothing positional.  An argument is looked at by itself first: it is an option, one of the parser's
or not, or it is what an option can take (`ArgParser.classify`).  What follows a lone `--` is never
an option.  Then the options are taken in their order, each with the argument behind it
(`ArgParser.consume`).

A parser that does not return has printed a help or an error and ended the process; the two are
not told apart.

* `parse_commandLine`: of a command line that gives every option its value, the parser returns just
  these values, or it does not return.  It returns if and only if each of them is taken for an
  argument (`IsArgument`): no value ever passes for another option.
* `isArgument_of_undashed`: what does not begin with a dash is.
-/
import Mathlib.Data.List.Basic

namespace CentaurApex.Theory

set_option autoImplicit false

/-- The options of a parser, each taking one argument, and which texts look like negative numbers
to it: the pattern is the library's, and it has changed. -/
structure ArgParser where
  options : List String
  negative : String → Bool
  dashed : ∀ option ∈ options, option.toList.head? = some '-'
  named : "-" ∉ options ∧ "--" ∉ options
  helpless : "-h" ∉ options ∧ "--help" ∉ options

/-- What an argument is taken for: an option, with what stands behind its equals sign, or not. -/
inductive ArgToken where
  | dashes
  | argument
  | option (name : Option String) (explicit : Option String)
  deriving DecidableEq, Repr

namespace ArgParser

/-- `text.partition("=")`: what stands before the sign, and what stands behind it, if there is
one. -/
def partition (text : String) : String × Option String :=
  (String.ofList (text.toList.takeWhile (· ≠ '=')),
    (text.toList.dropWhile (· ≠ '=')).tail?.map String.ofList)

section Parser

variable (p : ArgParser)

/-- The keys of `_option_string_actions`. -/
def optionStrings : List String := "-h" :: "--help" :: p.options

/-- `_get_option_tuples`: the options that an argument may abbreviate. -/
def optionTuples (arg : String) : List (String × Option String) :=
  match arg.toList with
  | '-' :: '-' :: _ =>
      let (head, explicit) := partition arg
      (p.optionStrings.filter fun option => head.toList.isPrefixOf option.toList).map (·, explicit)
  | '-' :: c :: rest =>
      p.optionStrings.filterMap fun option =>
        if option = String.ofList ['-', c] then some (option, some (String.ofList rest))
        else if arg.toList.isPrefixOf option.toList then some (option, none)
        else none
  | _ => []

/-- `_parse_optional`, if the option that is meant is not ambiguous. -/
def parseOptional (arg : String) : Option ArgToken :=
  if arg.toList.head? ≠ some '-' then some .argument
  else if arg ∈ p.optionStrings then some (.option (some arg) none)
  else if arg = "-" then some .argument
  else if (partition arg).2.isSome ∧ (partition arg).1 ∈ p.optionStrings then
    some (.option (some (partition arg).1) (partition arg).2)
  else
    match p.optionTuples arg with
    | _ :: _ :: _ => none
    | [(name, explicit)] => some (.option (some name) explicit)
    | [] =>
        if p.negative arg ∧ ¬ p.optionStrings.any p.negative then some .argument
        else if ' ' ∈ arg.toList then some .argument
        else some (.option none none)

/-- The kinds of all the arguments. -/
def classify : List String → Option (List (ArgToken × String))
  | [] => some []
  | arg :: args =>
      if arg = "--" then some ((.dashes, arg) :: args.map (.argument, ·))
      else do
        let token ← p.parseOptional arg
        let tokens ← classify args
        return (token, arg) :: tokens

/-- The options with what they are given.  Help ends the process at once; an argument too many, or
an option that is not known, does so in the end. -/
def consume : List (ArgToken × String) → Option (List (String × String))
  | [] => some []
  | (.option (some name) (some explicit), _) :: tokens =>
      if name ∈ p.options then (consume tokens).map ((name, explicit) :: ·) else none
  | (.option (some name) none, _) :: (.argument, value) :: tokens =>
      if name ∈ p.options then (consume tokens).map ((name, value) :: ·) else none
  | _ => none

/-- `parse_args`, up to what becomes of the values. -/
def parse (args : List String) : Option (List (String × String)) :=
  (p.classify args).bind p.consume

/-- What an option can take. -/
def IsArgument (value : String) : Prop :=
  value ≠ "--" ∧ p.parseOptional value = some .argument

instance (value : String) : Decidable (p.IsArgument value) := inferInstanceAs (Decidable (_ ∧ _))

/-- Every option with its value behind it. -/
def commandLine (given : List (String × String)) : List String :=
  given.flatMap fun pair => [pair.1, pair.2]

end Parser

/-! ## What is returned -/

variable {p : ArgParser}

/-- An option is taken for itself. -/
theorem parseOptional_option {name : String} (known : name ∈ p.options) :
    p.parseOptional name = some (.option (some name) none) := by
  have dash : ¬ name.toList.head? ≠ some '-' := not_not.mpr (p.dashed name known)
  have listed : name ∈ p.optionStrings := List.mem_cons_of_mem _ (List.mem_cons_of_mem _ known)
  rw [parseOptional, if_neg dash, if_pos listed]

/-- What does not begin with a dash is an argument. -/
theorem isArgument_of_undashed {value : String} (undashed : value.toList.head? ≠ some '-') :
    p.IsArgument value := by
  refine ⟨?_, by rw [parseOptional, if_pos undashed]⟩
  rintro rfl
  exact undashed rfl

/-- What is not a lone `--` is looked at by itself. -/
theorem classify_cons {arg : String} (single : arg ≠ "--") {args : List String}
    {tokens : List (ArgToken × String)} :
    p.classify (arg :: args) = some tokens ↔
      ∃ token later, p.parseOptional arg = some token ∧ p.classify args = some later ∧
        tokens = (token, arg) :: later := by
  rw [classify, if_neg single]
  constructor
  · intro classified
    obtain ⟨token, here, classified⟩ := Option.bind_eq_some_iff.mp classified
    obtain ⟨later, others, same⟩ := Option.bind_eq_some_iff.mp classified
    exact ⟨token, later, here, others, (Option.some.inj same).symm⟩
  · rintro ⟨token, later, here, others, rfl⟩
    rw [here, others]
    rfl

/-- What an option is given, if anything is returned, is the argument behind it. -/
theorem consume_option {name value : String} (known : name ∈ p.options) {token : ArgToken}
    {later : List (ArgToken × String)} {options : List (String × String)} :
    p.consume ((.option (some name) none, name) :: (token, value) :: later) = some options ↔
      token = .argument ∧ ∃ others, p.consume later = some others ∧
        options = (name, value) :: others := by
  cases token with
  | argument =>
      rw [consume, if_pos known, Option.map_eq_some_iff]
      exact ⟨fun ⟨others, consumed, same⟩ => ⟨rfl, others, consumed, same.symm⟩,
        fun ⟨_, others, consumed, same⟩ => ⟨others, consumed, same.symm⟩⟩
  | dashes =>
      rw [consume]
      · exact ⟨fun none_ => (by cases none_), fun ⟨other, _⟩ => (by cases other)⟩
      all_goals simp
  | option behind explicit =>
      rw [consume]
      · exact ⟨fun none_ => (by cases none_), fun ⟨other, _⟩ => (by cases other)⟩
      all_goals simp

/-- An option and what stands behind it, at the head of a command line. -/
theorem parse_cons {name value : String} (known : name ∈ p.options) {args : List String}
    {options : List (String × String)} :
    p.parse (name :: value :: args) = some options ↔
      p.IsArgument value ∧ ∃ others, p.parse args = some others ∧
        options = (name, value) :: others := by
  have named : name ≠ "--" := fun same => p.named.2 (same ▸ known)
  rw [parse, Option.bind_eq_some_iff]
  constructor
  · rintro ⟨tokens, classified, consumed⟩
    obtain ⟨token, behind, here, inside, rfl⟩ := (classify_cons named).mp classified
    obtain rfl := Option.some.inj ((parseOptional_option known).symm.trans here)
    by_cases single : value = "--"
    · subst single
      obtain rfl := Option.some.inj inside
      obtain ⟨other, -⟩ := (consume_option known).mp consumed
      cases other
    · obtain ⟨token, later, argument, rest, rfl⟩ := (classify_cons single).mp inside
      obtain ⟨rfl, others, consumed, same⟩ := (consume_option known).mp consumed
      exact ⟨⟨single, argument⟩, others, Option.bind_eq_some_iff.mpr ⟨later, rest, consumed⟩, same⟩
  · rintro ⟨⟨single, argument⟩, others, parsed, same⟩
    obtain ⟨later, classified, consumed⟩ := Option.bind_eq_some_iff.mp parsed
    exact ⟨_, (classify_cons named).mpr ⟨_, _, parseOptional_option known,
        (classify_cons single).mpr ⟨_, later, argument, classified, rfl⟩, rfl⟩,
      (consume_option known).mpr ⟨rfl, others, consumed, same⟩⟩

/-- **Each option gets its own value, or the parser does not return.** -/
theorem parse_commandLine {given : List (String × String)}
    (known : ∀ pair ∈ given, pair.1 ∈ p.options) {options : List (String × String)} :
    p.parse (commandLine given) = some options ↔
      (∀ pair ∈ given, p.IsArgument pair.2) ∧ options = given := by
  induction given generalizing options with
  | nil =>
      have none_ : p.parse (commandLine []) = some [] := rfl
      rw [none_, Option.some.injEq]
      exact ⟨fun same => ⟨fun pair member => absurd member List.not_mem_nil, same.symm⟩,
        fun ⟨_, same⟩ => same.symm⟩
  | cons pair given ih =>
      obtain ⟨here, others⟩ := List.forall_mem_cons.mp known
      have split : commandLine (pair :: given) = pair.1 :: pair.2 :: commandLine given := rfl
      rw [split, parse_cons here, List.forall_mem_cons]
      constructor
      · rintro ⟨argument, later, parsed, rfl⟩
        obtain ⟨plain, rfl⟩ := (ih others).mp parsed
        exact ⟨⟨argument, plain⟩, rfl⟩
      · rintro ⟨⟨argument, plain⟩, rfl⟩
        exact ⟨argument, given, (ih others).mpr ⟨plain, rfl⟩, rfl⟩

end ArgParser

end CentaurApex.Theory
