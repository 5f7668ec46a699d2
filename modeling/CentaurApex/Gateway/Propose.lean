/-
# Gateway.Propose -- a proposal asked for over HTTP, by way of a command line

`GET /cortex/propose` takes its query apart, and `CortexService.emitProposal` writes what it found
as the arguments of a process: `python -m cortex.engine`.  The process reads them with `argparse`,
evaluates one market tick and prints the result as JSON, which the service parses.  Nothing on the
way quotes a value: an asset, or a trend, is any text that somebody sent.

* **The engine is asked for what was sent, or for nothing** (`emitProposal_iff`): the promise
  resolves if and only if every value is taken for an argument (`Accepted`), the process comes to
  its end, the engine evaluates the tick of just these values without raising, and its notional is
  finite; and then it resolves with what the engine emitted.

The texts of numbers are the two languages' own.  An asset that looks like an option is refused, and
so is a negative number that JavaScript writes with an exponent.
-/
import CentaurApex.Cortex.RequestFrames
import CentaurApex.Cortex.Sizing
import CentaurApex.Theory.ArgParse

namespace CentaurApex.Gateway

open CentaurApex.Theory
open CentaurApex.Theory.ExtNum (fin)
open CentaurApex.Theory.Python (Dict PyError)
open CentaurApex.Cortex

set_option autoImplicit false

/-! ## The engine as a command -/

/-- What the two programs take from their languages. -/
structure Platform where
  runtime : Runtime
  /-- `int(text)` -/
  intOfText : String → Option ℤ
  /-- what `argparse` takes for a negative number -/
  negative : String → Bool
  /-- `float.__repr__` -/
  floats : ProposalApi.FloatText
  /-- `Number(text)` -/
  number : String → PyFloat
  /-- `String(x)` -/
  string : PyFloat → String

/-- The options of `cortex.engine`. -/
def engineOptions : List String :=
  ["--asset", "--price", "--equity", "--trend", "--momentum", "--volatility"]

def trends : List String := ["bullish", "bearish", "neutral"]

/-- The namespace that `parse_args` returns. -/
structure EngineArguments where
  asset : String
  price : PyFloat
  equity : PyFloat
  trend : String
  momentum : ℤ
  volatility : PyFloat

namespace EngineArguments

def default : EngineArguments where
  asset := "SYNTH-PERP"
  price := fin 100
  equity := fin 10000
  trend := "bullish"
  momentum := 1
  volatility := fin 0

/-- The tick that `main` makes of its arguments. -/
def marketTick (args : EngineArguments) : Dict :=
  [("price", .float args.price), ("account_equity", .float args.equity), ("trend", .str args.trend),
    ("momentum_signal", .bool (args.momentum ≠ 0)), ("volatility", .float args.volatility)]

end EngineArguments

/-- What `evaluate_market_tick` returns, as a value. -/
def resultJson : EngineResult → Json
  | .noAction => .obj [("status", .str "NoAction"), ("proposal", .null)]
  | .proposalGenerated timestamp proposal =>
      .obj [("status", .str "ProposalGenerated"), ("timestamp", .int timestamp),
        ("proposal", .obj proposal)]

/-- How a process ends: with an error, or with what it printed. -/
inductive EngineExit where
  | failed
  | printed (stdout : List Char)

namespace Platform

variable (rt : Platform)

def engineParser : ArgParser where
  options := engineOptions
  negative := rt.negative
  dashed := by decide
  named := by decide
  helpless := by decide

/-- An option stores its value, converted and checked. -/
def store (args : EngineArguments) (given : String × String) : Option EngineArguments :=
  if given.1 = "--asset" then some { args with asset := given.2 }
  else if given.1 = "--price" then
    (rt.runtime.floatOfText given.2).map fun price => { args with price }
  else if given.1 = "--equity" then
    (rt.runtime.floatOfText given.2).map fun equity => { args with equity }
  else if given.1 = "--trend" then
    if given.2 ∈ trends then some { args with trend := given.2 } else none
  else if given.1 = "--momentum" then
    (rt.intOfText given.2).bind fun momentum =>
      if momentum = 0 ∨ momentum = 1 then some { args with momentum } else none
  else (rt.runtime.floatOfText given.2).map fun volatility => { args with volatility }

def parseArgs (argv : List String) : Option EngineArguments :=
  (rt.engineParser.parse argv).bind fun given => given.foldlM rt.store .default

/-- `json.dumps(result)`, and the newline of `print`. -/
def printed (result : EngineResult) : Except PyError (List Char) :=
  ((PyValue.ofJson (resultJson result)).dumps (RequestFrames.floatRepr rt.floats)).map (· ++ ['\n'])

/-- `main`, with the arguments behind `python -m cortex.engine`. -/
def engineMain (proposalId : String) (now : ℤ) (argv : List String) : EngineExit :=
  match rt.parseArgs argv with
  | none => .failed
  | some args =>
      match evaluateMarketTick rt.runtime args.asset proposalId now args.marketTick with
      | .error _ => .failed
      | .ok result =>
          match rt.printed result with
          | .error _ => .failed
          | .ok stdout => .printed stdout

end Platform

/-! ## The gateway -/

/-- `CortexEmissionInput`. -/
structure CortexEmissionInput where
  assetId : String
  price : PyFloat
  equity : PyFloat
  trend : String
  momentum : Bool
  volatility : Option PyFloat

/-- The query of `GET /cortex/propose`. -/
structure ProposeQuery where
  asset : Option String
  price : Option String
  equity : Option String
  trend : Option String
  momentum : Option String
  volatility : Option String

/-- `CortexEmissionResult`, with its fields as they were parsed. -/
structure CortexEmissionResult where
  status : Option JsonTree
  timestamp : Option JsonTree
  proposal : Option JsonTree

/-- What a promise is rejected with: the command, an output with nothing in it, a text that is no
JSON, or a property of `null`. -/
inductive EmitError where
  | command
  | noStdout
  | syntaxError
  | typeError

/-- `maxBuffer`, in bytes. -/
def maxBuffer : ℕ := 64 * 1024

/-- What `String.prototype.trim` takes off. -/
def isJsBlank (c : Char) : Bool :=
  (9 ≤ c.toNat && c.toNat ≤ 13) || (0x2000 ≤ c.toNat && c.toNat ≤ 0x200A) ||
    [0x20, 0xA0, 0x1680, 0x2028, 0x2029, 0x202F, 0x205F, 0x3000, 0xFEFF].contains c.toNat

def jsTrim (cs : List Char) : List Char :=
  ((cs.dropWhile isJsBlank).reverse.dropWhile isJsBlank).reverse

/-- A property of an object: the last of its name. -/
def property (fields : List (PyStr × JsonTree)) (name : String) : Option JsonTree :=
  ((fields.filter fun field => field.1 = PyStr.ofString name).getLast?).map Prod.snd

/-- `value ?? undefined`. -/
def defined : Option JsonTree → Option JsonTree
  | some .null => none
  | value => value

def emission : JsonTree → Except EmitError CortexEmissionResult
  | .null => .error .typeError
  | .obj fields =>
      .ok ⟨property fields "status", property fields "timestamp",
        defined (property fields "proposal")⟩
  | _ => .ok ⟨none, none, none⟩

/-- What becomes of the output of the command. -/
def received (stdout : List Char) : Except EmitError CortexEmissionResult :=
  let trimmed := jsTrim stdout
  if trimmed.isEmpty then .error .noStdout
  else
    match JsonTree.read trimmed with
    | none => .error .syntaxError
    | some parsed => emission parsed

/-- The arguments that are meant. -/
def CortexEmissionInput.arguments (input : CortexEmissionInput) : EngineArguments where
  asset := input.assetId
  price := input.price
  equity := input.equity
  trend := input.trend
  momentum := if input.momentum then 1 else 0
  volatility := input.volatility.getD (fin 0)

namespace Platform

variable (rt : Platform)

/-- `Number(value)`, also of a value that is missing. -/
def numberOf : Option String → PyFloat
  | none => .nan
  | some text => rt.number text

/-- `CortexController.propose`, up to the call of the service. -/
def ofQuery (q : ProposeQuery) : CortexEmissionInput where
  assetId := q.asset.getD "SYNTH-PERP"
  price := rt.numberOf q.price
  equity := rt.numberOf q.equity
  trend := q.trend.getD "bullish"
  momentum := q.momentum.getD "1" = "1"
  volatility := (q.volatility.filter (· ≠ "")).map rt.number

/-- The values of the options, as they are written. -/
def given (input : CortexEmissionInput) : List (String × String) :=
  [("--asset", input.assetId), ("--price", rt.string input.price),
    ("--equity", rt.string input.equity), ("--trend", input.trend),
    ("--momentum", if input.momentum then "1" else "0"),
    ("--volatility", rt.string (input.volatility.getD (fin 0)))]

/-- `CortexCliRunner.run`: the process has to come to its end in time, without an error and
without printing more than is kept.  `inTime` stands for its beginning too: at an argument with
a NUL in it, `execFile` throws before there is a process. -/
def run (inTime : Bool) (proposalId : String) (now : ℤ) (argv : List String) :
    Except EmitError (List Char) :=
  match rt.engineMain proposalId now argv with
  | .failed => .error .command
  | .printed stdout =>
      if inTime ∧ (utf8 stdout).length ≤ maxBuffer then .ok stdout else .error .command

/-- `CortexService.emitProposal`. -/
def emitProposal (inTime : Bool) (proposalId : String) (now : ℤ) (input : CortexEmissionInput) :
    Except EmitError CortexEmissionResult :=
  (rt.run inTime proposalId now (ArgParser.commandLine (rt.given input))).bind received

/-- `GET /cortex/propose`. -/
def propose (inTime : Bool) (proposalId : String) (now : ℤ) (q : ProposeQuery) :
    Except EmitError CortexEmissionResult :=
  rt.emitProposal inTime proposalId now (rt.ofQuery q)

/-! ## What is asked for -/

/-- What the two programs rely on: a proposal is validated as it is, unless its notional is not
positive, and the digits of the signal are read. -/
structure Documented : Prop where
  standard : Standard rt.runtime
  refuses_nan : ∀ (proposal : TradeProposal), proposal.targetNotional = .float .nan →
    ∃ e, rt.runtime.validate proposal.modelDump = .error e
  int_zero : rt.intOfText "0" = some 0
  int_one : rt.intOfText "1" = some 1

/-- The engine is asked at all: no value looks like an option, and the trend is one that it
knows. -/
structure Accepted (input : CortexEmissionInput) : Prop where
  asset : rt.engineParser.IsArgument input.assetId
  price : rt.engineParser.IsArgument (rt.string input.price)
  equity : rt.engineParser.IsArgument (rt.string input.equity)
  trend : input.trend ∈ trends
  volatility : rt.engineParser.IsArgument (rt.string (input.volatility.getD (fin 0)))

/-- The numbers of the input are read by the one language as the other writes them. -/
def Printed (input : CortexEmissionInput) : Prop :=
  ∀ x ∈ [input.price, input.equity, input.volatility.getD (fin 0)],
    rt.runtime.floatOfText (rt.string x) = some x

/-- What the promise resolves with for what the engine returned. -/
def emissionOf : EngineResult → CortexEmissionResult
  | .noAction => ⟨some (.str (.ofString "NoAction")), none, none⟩
  | .proposalGenerated timestamp proposal =>
      ⟨some (.str (.ofString "ProposalGenerated")), some (.number (intChars timestamp)),
        ((PyValue.ofJson (.obj proposal)).tree (RequestFrames.floatRepr rt.floats)).toOption⟩

variable {rt}
variable {input : CortexEmissionInput}

theorem isArgument_of_trend {trend : String} (known : trend ∈ trends) :
    rt.engineParser.IsArgument trend := by
  refine ArgParser.isArgument_of_undashed ?_
  revert trend
  decide

theorem isArgument_of_signal (momentum : Bool) :
    rt.engineParser.IsArgument (if momentum then "1" else "0") := by
  refine ArgParser.isArgument_of_undashed ?_
  revert momentum
  decide

theorem given_known : ∀ pair ∈ rt.given input, pair.1 ∈ rt.engineParser.options := by
  simp only [given, List.forall_mem_cons, List.not_mem_nil, false_implies, implies_true, and_true]
  show _ ∈ engineOptions ∧ _ ∈ engineOptions ∧ _ ∈ engineOptions ∧ _ ∈ engineOptions ∧
    _ ∈ engineOptions ∧ _ ∈ engineOptions
  decide

/-- The values are stored as they were sent, if the trend is one of the three. -/
theorem store_given (documented : rt.Documented) (printed : rt.Printed input) :
    (rt.given input).foldlM rt.store .default =
      if input.trend ∈ trends then some input.arguments else none := by
  have signal : rt.intOfText (if input.momentum then "1" else "0") =
      some (if input.momentum then 1 else 0) := by
    cases input.momentum
    · exact documented.int_zero
    · exact documented.int_one
  obtain ⟨price, equity, volatility⟩ := by
    simpa only [Printed, List.forall_mem_cons, List.not_mem_nil, false_implies, implies_true,
      and_true] using printed
  by_cases known : input.trend ∈ trends
  · simp [given, store, price, equity, volatility, signal, known, List.foldlM_cons,
      CortexEmissionInput.arguments]
  · simp [given, store, price, equity, known, List.foldlM_cons]

/-- **The values that are parsed are the values that were sent.** -/
theorem parseArgs_given (documented : rt.Documented) (printed : rt.Printed input)
    {args : EngineArguments} :
    rt.parseArgs (ArgParser.commandLine (rt.given input)) = some args ↔
      rt.Accepted input ∧ args = input.arguments := by
  rw [parseArgs, Option.bind_eq_some_iff]
  constructor
  · rintro ⟨options, parsed, stored⟩
    obtain ⟨plain, rfl⟩ := (ArgParser.parse_commandLine given_known).mp parsed
    rw [store_given documented printed] at stored
    split_ifs at stored with known
    simp only [given, List.forall_mem_cons] at plain
    obtain ⟨asset, price, equity, -, -, volatility, -⟩ := plain
    exact ⟨⟨asset, price, equity, known, volatility⟩, (Option.some.inj stored).symm⟩
  · rintro ⟨accepted, rfl⟩
    refine ⟨rt.given input, (ArgParser.parse_commandLine given_known).mpr ⟨?_, rfl⟩, ?_⟩
    · simp only [given, List.forall_mem_cons, List.not_mem_nil, false_implies, implies_true,
        and_true]
      exact ⟨accepted.asset, accepted.price, accepted.equity, isArgument_of_trend accepted.trend,
        isArgument_of_signal input.momentum, accepted.volatility⟩
    · rw [store_given documented printed, if_pos accepted.trend]

/-! ## What is answered -/

/-- A notional is positive, unless it is not a number. -/
theorem notional_nan_or_pos (x : PyFloat) :
    Python.round2 (Python.max2 x (fin 1)) = .nan ∨
      fin 0 < Python.round2 (Python.max2 x (fin 1)) := by
  have least (q : ℚ) (above : 1 ≤ q) : fin 0 < Python.round2 (fin q) := by
    have hundred : ((100 : ℤ) : ℚ) ≤ q * 100 := by
      push_cast
      linarith
    have rounded : (100 : ℤ) ≤ roundHalfEven (q * 100) := by
      simpa only [roundHalfEven_intCast] using roundHalfEven_mono hundred
    have cast : (100 : ℚ) ≤ roundHalfEven (q * 100) := by exact_mod_cast rounded
    rw [Python.round2, ExtNum.fin_lt_fin]
    linarith
  cases x with
  | fin q =>
      rw [Python.max2_fin]
      exact .inr (least _ (le_max_right _ _))
  | posInf => exact .inr (by decide +kernel)
  | negInf => exact .inr (by decide +kernel)
  | nan => exact .inl (by decide +kernel)

/-- What the engine returns: no action, or a proposal with its fields as they were given. -/
theorem evaluate_cases (documented : rt.Documented) {assetId proposalId : String} {now : ℤ}
    {marketData : Dict} {out : EngineResult}
    (returns : evaluateMarketTick rt.runtime assetId proposalId now marketData = .ok out) :
    out = .noAction ∨ ∃ direction n, fin 0 < n ∧
      out = .proposalGenerated now (proposalOf assetId proposalId direction n).modelDump := by
  have whole := returns
  unfold evaluateMarketTick at whole
  obtain ⟨p, price, whole⟩ := Python.bind_ok_iff.mp whole
  obtain ⟨e, equity, -⟩ := Python.bind_ok_iff.mp whole
  rw [evaluate_eq price equity] at returns
  split at returns
  · exact .inl (Except.ok.inj returns).symm
  · split at returns
    · exact .inl (Except.ok.inj returns).symm
    · rename_i direction _
      obtain ⟨v, -, returns⟩ := Python.bind_ok_iff.mp returns
      obtain ⟨proposal, valid, returns⟩ := Python.bind_ok_iff.mp returns
      obtain rfl := Except.ok.inj returns
      rcases notional_nan_or_pos (e * sizing v) with nan | positive
      · obtain ⟨_, refused⟩ := documented.refuses_nan (proposalOf assetId proposalId direction _)
          (congrArg Json.float nan)
        rw [refused] at valid
        cases valid
      · have same := documented.standard.validates
          (proposalOf assetId proposalId direction _) _ rfl positive slippage_nonneg
        obtain rfl := Except.ok.inj (same.symm.trans valid)
        exact .inr ⟨direction, _, positive, rfl⟩

/-- An object with a newline behind it is trimmed to the object. -/
theorem jsTrim_object (body : List Char) :
    jsTrim ('\x7b' :: (body ++ ['\x7d']) ++ ['\n']) = '\x7b' :: (body ++ ['\x7d']) := by
  have front : ('\x7b' :: (body ++ ['\x7d']) ++ ['\n']).dropWhile isJsBlank =
      '\x7b' :: (body ++ ['\x7d']) ++ ['\n'] := List.dropWhile_cons_of_neg (by decide)
  have reversed : ('\x7b' :: (body ++ ['\x7d']) ++ ['\n']).reverse =
      '\n' :: '\x7d' :: ('\x7b' :: body).reverse := by simp
  have blank : isJsBlank '\n' = true := by decide
  rw [jsTrim, front, reversed, List.dropWhile_cons_of_pos blank,
    List.dropWhile_cons_of_neg (by decide)]
  simp

section Received

open JsonTree (PlainFields depthFields asciiEscaping Refuses readValue maxDepth)

/-- What is printed of an object is received as it was. -/
theorem received_written {fields : List (String × JsonTree)}
    (plain : ∀ entry ∈ fields, entry.2.Plain) (shallow : ∀ entry ∈ fields, entry.2.depth ≤ 1) :
    received ((JsonTree.object fields).write asciiEscaping [' '] ++ ['\n']) =
      emission (JsonTree.object fields) := by
  have read : JsonTree.read ((JsonTree.object fields).write asciiEscaping [' ']) =
      some (JsonTree.object fields) :=
    JsonTree.read_write ProposalApi.isGap_space (JsonTree.plain_object.mpr plain)
      ((JsonTree.depth_object_le shallow).trans (by decide))
  have trimmed : jsTrim ((JsonTree.object fields).write asciiEscaping [' '] ++ ['\n']) =
      (JsonTree.object fields).write asciiEscaping [' '] := jsTrim_object _
  have some_ : ((JsonTree.object fields).write asciiEscaping [' ']).isEmpty = false := rfl
  simp only [received, trimmed, some_, Bool.false_eq_true, if_false, read]

/-- What is no JSON is a syntax error. -/
theorem received_refused {fields : List (String × JsonTree)}
    (refused : Refuses (readValue maxDepth) ((JsonTree.object fields).write asciiEscaping [' '])) :
    received ((JsonTree.object fields).write asciiEscaping [' '] ++ ['\n']) =
      .error .syntaxError := by
  have trimmed : jsTrim ((JsonTree.object fields).write asciiEscaping [' '] ++ ['\n']) =
      (JsonTree.object fields).write asciiEscaping [' '] := jsTrim_object _
  have some_ : ((JsonTree.object fields).write asciiEscaping [' ']).isEmpty = false := rfl
  simp only [received, trimmed, some_, Bool.false_eq_true, if_false, JsonTree.read_refused refused]

/-- The proposal as it is printed. -/
def proposalTree (rt : Platform) (assetId proposalId : String) (direction : OrderDirection)
    (n : PyFloat) : JsonTree :=
  JsonTree.object
    [("proposal_id", .str (.ofString proposalId)), ("asset_id", .str (.ofString assetId)),
      ("direction", .str (.ofString direction.value)),
      ("target_notional", .number ((RequestFrames.floatRepr rt.floats).text n)),
      ("max_acceptable_slippage",
        .number ((RequestFrames.floatRepr rt.floats).text (fin (15 / 10000))))]

theorem tree_proposal (assetId proposalId : String) (direction : OrderDirection) (n : PyFloat) :
    (PyValue.ofJson (.obj (proposalOf assetId proposalId direction n).modelDump)).tree
        (RequestFrames.floatRepr rt.floats) =
      .ok (proposalTree rt assetId proposalId direction n) := rfl

theorem printed_noAction :
    rt.printed .noAction = .ok ((JsonTree.object [("status", .str (.ofString "NoAction")),
      ("proposal", .null)]).write asciiEscaping [' '] ++ ['\n']) := rfl

/-- The fields of an answer with a proposal. -/
def proposalAnswer (rt : Platform) (now : ℤ) (assetId proposalId : String)
    (direction : OrderDirection) (n : PyFloat) : List (String × JsonTree) :=
  [("status", .str (.ofString "ProposalGenerated")), ("timestamp", .number (intChars now)),
    ("proposal", proposalTree rt assetId proposalId direction n)]

theorem printed_proposal {now : ℤ} (clock : ShortInt now) (assetId proposalId : String)
    (direction : OrderDirection) (n : PyFloat) :
    rt.printed (.proposalGenerated now (proposalOf assetId proposalId direction n).modelDump) =
      .ok ((JsonTree.object (proposalAnswer rt now assetId proposalId direction n)).write
        asciiEscaping [' '] ++ ['\n']) := by
  have walked : (PyValue.ofJson (resultJson (.proposalGenerated now
      (proposalOf assetId proposalId direction n).modelDump))).tree
        (RequestFrames.floatRepr rt.floats) =
      .ok (JsonTree.object (proposalAnswer rt now assetId proposalId direction n)) := by
    simp only [resultJson, PyValue.ofJson, PyValue.ofFields, PyValue.tree, PyValue.fieldTrees,
      PyValue.keyText, PyValue.intText_of_short clock]
    rfl
  rw [printed, PyValue.dumps, walked]
  rfl

/-- Everything of a finite proposal is JSON. -/
theorem proposalTree_plain (assetId proposalId : String) (direction : OrderDirection) (q : ℚ) :
    (proposalTree rt assetId proposalId direction (fin q)).Plain ∧
      (proposalTree rt assetId proposalId direction (fin q)).depth ≤ 1 := by
  refine ⟨JsonTree.plain_object.mpr ?_, JsonTree.depth_object_le ?_⟩
  · simp only [List.forall_mem_cons, List.not_mem_nil, false_implies, implies_true, and_true,
      JsonTree.plain_str, JsonTree.plain_number]
    exact ⟨JsonTree.isText_ofString _, JsonTree.isText_ofString _, JsonTree.isText_ofString _,
      rt.floats.repr_number q, rt.floats.repr_number _⟩
  · simp

/-- A proposal that is not finite is none. -/
theorem proposalTree_refused (assetId proposalId : String) (direction : OrderDirection)
    (depth : ℕ) :
    Refuses (readValue (depth + 1)) ((proposalTree rt assetId proposalId direction .posInf).write
      asciiEscaping [' ']) := by
  refine JsonTree.refuses_obj ProposalApi.isGap_space
    [(.ofString "proposal_id", .str (.ofString proposalId)),
      (.ofString "asset_id", .str (.ofString assetId)),
      (.ofString "direction", .str (.ofString direction.value))]
    ?_ ?_ (JsonTree.isText_ofString "target_notional")
    (JsonTree.refuses_name (List.mem_cons_of_mem _ List.mem_cons_self) depth)
  · exact ⟨JsonTree.isText_ofString _, JsonTree.isText_ofString _, JsonTree.isText_ofString _,
      JsonTree.isText_ofString _, JsonTree.isText_ofString _, JsonTree.isText_ofString _, trivial⟩
  · exact depth.zero_le

/-- Of fields with different names, a property is the field of its name. -/
theorem property_eq {fields : List (String × JsonTree)} (distinct : (fields.map Prod.fst).Nodup)
    {name : String} {value : JsonTree} (member : (name, value) ∈ fields) :
    property (fields.map fun field => (PyStr.ofString field.1, field.2)) name = some value := by
  have one := Constitution.Serde.filter_name distinct member
  rw [property, List.filter_map]
  exact congrArg (fun found => ((found.map fun field : String × JsonTree =>
    (PyStr.ofString field.1, field.2)).getLast?).map Prod.snd) one

/-- A finite proposal is received as it was. -/
theorem received_finite (now : ℤ) (assetId proposalId : String) (direction : OrderDirection)
    (q : ℚ) :
    received ((JsonTree.object (proposalAnswer rt now assetId proposalId direction (fin q))).write
        asciiEscaping [' '] ++ ['\n']) =
      .ok (rt.emissionOf
        (.proposalGenerated now (proposalOf assetId proposalId direction (fin q)).modelDump)) := by
  obtain ⟨plain, shallow⟩ := proposalTree_plain assetId proposalId direction q
  rw [received_written, emissionOf, tree_proposal]
  · have distinct : ((proposalAnswer rt now assetId proposalId direction (fin q)).map
        Prod.fst).Nodup := by
      simp only [proposalAnswer, List.map_cons, List.map_nil]
      decide
    rw [JsonTree.object, emission, property_eq distinct List.mem_cons_self,
      property_eq distinct (List.mem_cons_of_mem _ List.mem_cons_self),
      property_eq distinct (List.mem_cons_of_mem _ (List.mem_cons_of_mem _ List.mem_cons_self))]
    rfl
  · simp only [proposalAnswer, List.forall_mem_cons, List.not_mem_nil, false_implies, implies_true,
      and_true, JsonTree.plain_str, JsonTree.plain_number]
    exact ⟨JsonTree.isText_ofString _, isNumber_intChars now, plain⟩
  · simp [proposalAnswer, shallow]

/-- An infinite one is not. -/
theorem received_infinite (now : ℤ) (assetId proposalId : String) (direction : OrderDirection) :
    received ((JsonTree.object (proposalAnswer rt now assetId proposalId direction .posInf)).write
        asciiEscaping [' '] ++ ['\n']) = .error .syntaxError := by
  refine received_refused (JsonTree.refuses_obj ProposalApi.isGap_space
    [(.ofString "status", .str (.ofString "ProposalGenerated")),
      (.ofString "timestamp", .number (intChars now))] ?_ ?_ (JsonTree.isText_ofString "proposal")
    (proposalTree_refused assetId proposalId direction 125))
  · exact ⟨JsonTree.isText_ofString _, JsonTree.isText_ofString _, JsonTree.isText_ofString _,
      isNumber_intChars now, trivial⟩
  · exact Nat.zero_le _

/-- What the engine returns is printed, and it is received as it was unless it is infinite. -/
theorem received_printed (documented : rt.Documented) {assetId proposalId : String} {now : ℤ}
    (clock : ShortInt now) {marketData : Dict} {out : EngineResult}
    (returns : evaluateMarketTick rt.runtime assetId proposalId now marketData = .ok out) :
    ∃ stdout, rt.printed out = .ok stdout ∧ ∀ result, received stdout = .ok result ↔
      (∀ n, out.notional = some n → n.IsFinite) ∧ result = rt.emissionOf out := by
  rcases evaluate_cases documented returns with rfl | ⟨direction, n, positive, rfl⟩
  · refine ⟨_, printed_noAction, fun result => ?_⟩
    have whole : received ((JsonTree.object [("status", .str (.ofString "NoAction")),
        ("proposal", .null)]).write asciiEscaping [' '] ++ ['\n']) =
          .ok (rt.emissionOf .noAction) := by
      rw [received_written]
      · rfl
      · simp [JsonTree.isText_ofString, JsonTree.Plain]
      · simp [JsonTree.depth]
    rw [whole]
    constructor
    · intro same
      exact ⟨fun n none_ => (by cases none_), (Except.ok.inj same).symm⟩
    · rintro ⟨_, rfl⟩
      rfl
  · refine ⟨_, printed_proposal clock assetId proposalId direction n, fun result => ?_⟩
    cases n with
    | fin q =>
        rw [received_finite]
        constructor
        · intro same
          refine ⟨fun n some_ => ?_, (Except.ok.inj same).symm⟩
          obtain rfl := Option.some.inj some_
          trivial
        · rintro ⟨_, rfl⟩
          rfl
    | posInf =>
        rw [received_infinite]
        constructor
        · intro raised
          cases raised
        · rintro ⟨finite, _⟩
          exact absurd (finite _ rfl) id
    | negInf => exact absurd positive (by decide)
    | nan => exact absurd positive (by decide)

end Received

variable (rt) in
/-- The notional of a proposal is finite, and the output is no longer than is kept. -/
structure Prints (out : EngineResult) : Prop where
  finite : ∀ n, out.notional = some n → n.IsFinite
  short : ∀ stdout, rt.printed out = .ok stdout → (utf8 stdout).length ≤ maxBuffer

/-- **The engine is asked for what was sent, or for nothing.** -/
theorem emitProposal_iff (documented : rt.Documented) (printed : rt.Printed input) {now : ℤ}
    (clock : ShortInt now) (inTime : Bool) (proposalId : String) (result : CortexEmissionResult) :
    rt.emitProposal inTime proposalId now input = .ok result ↔
      rt.Accepted input ∧ inTime = true ∧ ∃ out,
        evaluateMarketTick rt.runtime input.assetId proposalId now input.arguments.marketTick =
          .ok out ∧
        Prints rt out ∧ result = rt.emissionOf out := by
  by_cases accepted : rt.Accepted input
  · have parsed := (parseArgs_given documented printed).mpr ⟨accepted, rfl⟩
    have asset : input.arguments.asset = input.assetId := rfl
    cases returns : evaluateMarketTick rt.runtime input.assetId proposalId now
        input.arguments.marketTick with
    | error e =>
        have rejected : rt.emitProposal inTime proposalId now input = .error .command := by
          simp only [emitProposal, run, engineMain, parsed, asset, returns]
          rfl
        rw [rejected]
        constructor
        · intro same
          cases same
        · rintro ⟨_, _, _, raised, _⟩
          cases raised
    | ok out =>
        obtain ⟨stdout, prints, reads⟩ := received_printed documented clock returns
        have answered : rt.emitProposal inTime proposalId now input =
            if inTime ∧ (utf8 stdout).length ≤ maxBuffer then received stdout
            else .error .command := by
          simp only [emitProposal, run, engineMain, parsed, asset, returns, prints]
          split_ifs <;> rfl
        rw [answered]
        by_cases kept : inTime = true ∧ (utf8 stdout).length ≤ maxBuffer
        · rw [if_pos kept, reads]
          constructor
          · rintro ⟨finite, same⟩
            refine ⟨accepted, kept.1, out, rfl, ⟨finite, fun text written => ?_⟩, same⟩
            obtain rfl := Except.ok.inj (prints.symm.trans written)
            exact kept.2
          · rintro ⟨-, -, out', same, can, received⟩
            obtain rfl := Except.ok.inj same
            exact ⟨can.finite, received⟩
        · rw [if_neg kept]
          refine ⟨fun same => (by cases same), ?_⟩
          rintro ⟨-, ran, out', same, can, -⟩
          obtain rfl := Except.ok.inj same
          exact absurd ⟨ran, can.short stdout prints⟩ kept
  · have refused : rt.parseArgs (ArgParser.commandLine (rt.given input)) = none := by
      cases parsed : rt.parseArgs (ArgParser.commandLine (rt.given input)) with
      | none => rfl
      | some args => exact absurd ((parseArgs_given documented printed).mp parsed).1 accepted
    have rejected : rt.emitProposal inTime proposalId now input = .error .command := by
      simp only [emitProposal, run, engineMain, refused]
      rfl
    rw [rejected]
    exact ⟨fun same => (by cases same), fun ⟨accepted', _⟩ => absurd accepted' accepted⟩

end Platform

/-! ## Poles: an asset, and an option for an asset -/

namespace Desk

/-- A validation of the fields that the engine gives it; the notional has to be positive. -/
def runtime : Runtime where
  floatOfText text := parseFloat text.toList
  validate fields :=
    match fields.lookup "proposal_id", fields.lookup "asset_id", fields.lookup "direction",
      fields.lookup "target_notional", fields.lookup "max_acceptable_slippage" with
    | some (.str proposalId), some (.str assetId), some (.str direction),
      some (.float notional), some (.float slippage) =>
        if fin 0 < notional ∧ fin 0 ≤ slippage then
          .ok ⟨proposalId, assetId, if direction = "Buy" then .buy else .sell, .float notional,
            slippage⟩
        else .error .validationError
    | _, _, _, _, _ => .error .validationError

/-- The texts of three floats. -/
def floatChars (q : ℚ) : List Char :=
  if q = 2500 then "2500.0".toList else if q = 15 / 10000 then "0.0015".toList else "0.0".toList

theorem isNumber_floatChars (q : ℚ) : JsonTree.IsNumber (floatChars q) := by
  rw [floatChars]
  split_ifs <;> decide

def platform : Platform where
  runtime := runtime
  intOfText text := if text = "0" then some 0 else if text = "1" then some 1 else none
  negative text := text.toList.head? = some '-' ∧ text.toList.tail.all Char.isDigit
  floats :=
    { repr := floatChars
      compact := floatChars
      readF64 := parseFloat
      repr_number := isNumber_floatChars
      compact_number := isNumber_floatChars }
  number text := (parseFloat text.toList).getD .nan
  string x := if x = fin 100 then "100" else if x = fin 50000 then "50000" else "0"

theorem documented : platform.Documented := by
  refine ⟨⟨fun proposal n notional positive slippage => ?_, by decide +kernel⟩,
    fun proposal nan => ?_, rfl, rfl⟩
  · obtain ⟨proposalId, assetId, direction, _, s⟩ := proposal
    subst notional
    show (if fin 0 < n ∧ fin 0 ≤ s then _ else _) = _
    rw [if_pos ⟨positive, slippage⟩]
    cases direction <;> rfl
  · obtain ⟨proposalId, assetId, direction, _, s⟩ := proposal
    subst nan
    refine ⟨.validationError, ?_⟩
    have none_ : ¬ (fin 0 < .nan ∧ fin 0 ≤ s) := fun both => absurd both.1 (by decide)
    show (if fin 0 < .nan ∧ fin 0 ≤ s then Except.ok (⟨proposalId, assetId,
      if direction.value = "Buy" then .buy else .sell, .float .nan, s⟩ : TradeProposal)
      else .error PyError.validationError) = _
    rw [if_neg none_]

/-- What is sent for an asset. -/
def input (assetId : String) : CortexEmissionInput where
  assetId := assetId
  price := fin 100
  equity := fin 50000
  trend := "bullish"
  momentum := true
  volatility := none

theorem input_printed (assetId : String) : platform.Printed (input assetId) := by
  have texts : ∀ x ∈ [fin 100, fin 50000, fin 0],
      platform.runtime.floatOfText (platform.string x) = some x := by decide +kernel
  exact texts

/-- A twentieth of the equity, in euros. -/
def bought : EngineResult :=
  .proposalGenerated 7 (proposalOf "EURUSD" "p" .buy (fin 2500)).modelDump

theorem bought_prints : Platform.Prints platform bought := by
  refine ⟨fun n some_ => ?_, fun stdout written => ?_⟩
  · obtain rfl := Option.some.inj some_
    trivial
  · have printed : platform.printed bought = .ok _ :=
      Platform.printed_proposal (by decide) "EURUSD" "p" .buy (fin 2500)
    obtain rfl := Except.ok.inj (printed.symm.trans written)
    decide +kernel

theorem evaluate_bought :
    evaluateMarketTick platform.runtime "EURUSD" "p" 7 (input "EURUSD").arguments.marketTick =
      .ok bought := by
  have sized : Python.round2 (Python.max2 (fin 50000 * sizing (fin 0)) (fin 1)) = fin 2500 := by
    decide +kernel
  have valid := documented.standard.validates (proposalOf "EURUSD" "p" .buy (fin 2500)) _ rfl
    (by decide +kernel) slippage_nonneg
  have price : readFloat platform.runtime (input "EURUSD").arguments.marketTick "price" (fin 0) =
      .ok (fin 100) := by decide +kernel
  have equity : readFloat platform.runtime (input "EURUSD").arguments.marketTick "account_equity"
      (fin 10000) = .ok (fin 50000) := by decide +kernel
  have trend : readTrend (input "EURUSD").arguments.marketTick = some .buy := by decide +kernel
  have volatility : readVolatility platform.runtime (input "EURUSD").arguments.marketTick =
      .ok (fin 0) := by decide +kernel
  have goes : ¬ (Python.truthy (Python.get (input "EURUSD").arguments.marketTick "momentum_signal"
      (.bool false)) = false ∨ fin (100 : ℚ) ≤ fin 0) := by decide +kernel
  rw [evaluate_eq price equity, if_neg goes, trend, volatility]
  refine Python.bind_ok_iff.mpr ⟨_, rfl, Python.bind_ok_iff.mpr ⟨_, ?_, rfl⟩⟩
  rw [sized]
  exact valid

/-- Euros are bought; an asset that would set the price is not asked for. -/
theorem option_not_asked :
    platform.emitProposal true "p" 7 (input "EURUSD") = .ok (platform.emissionOf bought) ∧
      ∀ result, platform.emitProposal true "p" 7 (input "--price=1") ≠ .ok result := by
  constructor
  · refine (Platform.emitProposal_iff documented (input_printed _) (by decide) true "p" _).mpr
      ⟨⟨?_, ?_, ?_, ?_, ?_⟩, rfl, bought, ?_, bought_prints, rfl⟩
    · exact ArgParser.isArgument_of_undashed (by decide)
    · exact ArgParser.isArgument_of_undashed (by decide +kernel)
    · exact ArgParser.isArgument_of_undashed (by decide +kernel)
    · decide
    · exact ArgParser.isArgument_of_undashed (by decide +kernel)
    · exact evaluate_bought
  · intro result asked
    have accepted := ((Platform.emitProposal_iff documented (input_printed _) (by decide) true "p"
      result).mp asked).1
    exact absurd accepted.asset (by decide +kernel)

end Desk

end CentaurApex.Gateway
