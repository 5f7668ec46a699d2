/-
# Cortex.ProposalApi -- a proposal as it is sent, and as it is read

A proposal leaves the Cortex as text on two ways: as its own JSON (`toJsonPayload`), and
in an `evaluate` call, where the request is JSON inside a string of the envelope's JSON
(`evaluateFrame`).  On the other side `serde_json` reads the one as a proposal and the
other as an envelope and then a request.

The two sides describe the record separately.  `roundTrips_iff`: both ways give back the
proposal that was sent exactly when its strings are text and its numbers are finite and
are read back from the texts they are printed as.  The validation asks for none of
these: an infinite notional is accepted, and is `null` on one way and `Infinity`, which
is no JSON, on the other (`infinite_notional_lost`).
-/
import CentaurApex.Constitution.Serde
import CentaurApex.Cortex.Engine

namespace CentaurApex.Cortex.ProposalApi

open CentaurApex.Theory
open CentaurApex.Theory.ExtNum (fin)
open CentaurApex.Theory.JsonTree
open CentaurApex.Theory.PyStr (IsText isText_ofChars)
open CentaurApex.Constitution.Serde

set_option autoImplicit false

/-! ## Proposals -/

/-- A proposal that was accepted.  A bound takes what compares on the right side of it, so it
refuses a NaN and lets an infinity through. -/
structure TradeProposal where
  proposalId : PyStr
  assetId : PyStr
  direction : OrderDirection
  targetNotional : PyFloat
  maxAcceptableSlippage : PyFloat
  notional_gt : fin 0 < targetNotional
  slippage_ge : fin 0 ≤ maxAcceptableSlippage

/-- How numbers are printed and read: `repr` of a finite float, the shorter text of the
model's own serializer, and what `serde_json` makes of a number.  Both texts are numbers
as JSON writes them. -/
structure FloatText where
  repr : ℚ → List Char
  compact : ℚ → List Char
  readF64 : List Char → Option PyFloat
  repr_number : ∀ x, IsNumber (repr x)
  compact_number : ∀ x, IsNumber (compact x)

section Send

variable (text : FloatText)

/-- A float as `json.dumps` writes it. -/
def dumpsFloat : PyFloat → JsonTree
  | .fin x => .number (text.repr x)
  | .posInf => .number "Infinity".toList
  | .negInf => .number "-Infinity".toList
  | .nan => .number "NaN".toList

/-- A float as `model_dump_json` writes it. -/
def compactFloat : PyFloat → JsonTree
  | .fin x => .number (text.compact x)
  | _ => .null

namespace TradeProposal

variable (proposal : TradeProposal)

/-- The fields in the order of the model, the numbers as `float` writes them. -/
def fields (float : PyFloat → JsonTree) : JsonTree :=
  object
    [("proposal_id", .str proposal.proposalId), ("asset_id", .str proposal.assetId),
      ("direction", .str (PyStr.ofString proposal.direction.value)),
      ("target_notional", float proposal.targetNotional),
      ("max_acceptable_slippage", float proposal.maxAcceptableSlippage)]

/-- `to_json_payload`: a string with a surrogate has no UTF-8, and the serializer raises. -/
def toJsonPayload : Option (List Char) :=
  if IsText proposal.proposalId ∧ IsText proposal.assetId then
    some ((proposal.fields (compactFloat text)).write textEscaping [])
  else none

end TradeProposal

/-- `json.dumps`, with its default separators. -/
def dumps (tree : JsonTree) : List Char := tree.write asciiEscaping [' ']

def buildEnvelope (opcode : String) (payload : List Char) : List UInt8 :=
  utf8 (dumps (object
    [("protocol_version", .number "1".toList), ("request_id", .str (PyStr.ofString "cortex-0001")),
      ("opcode", .str (PyStr.ofString opcode)), ("payload", .str (PyStr.ofChars payload))]))

/-- The frame of `evaluate(portfolio, proposal.model_dump())`. -/
def evaluateFrame (portfolio : JsonTree) (proposal : TradeProposal) : List UInt8 :=
  buildEnvelope "EvaluateProposal"
    (dumps (object [("portfolio", portfolio), ("proposal", proposal.fields (dumpsFloat text))]))

end Send

/-! ## The same proposal -/

def sameDirection : OrderDirection → Constitution.OrderDirection
  | .buy => .buy
  | .sell => .sell

/-- The proposal that was read is the one that was sent. -/
structure Same (sent : TradeProposal) (read : Constitution.TradeProposal) : Prop where
  proposalId : PyStr.ofString read.proposalId = sent.proposalId
  assetId : PyStr.ofString read.assetId = sent.assetId
  direction : read.direction = sameDirection sent.direction
  targetNotional : read.targetNotional = sent.targetNotional
  maxAcceptableSlippage : read.maxAcceptableSlippage = sent.maxAcceptableSlippage

/-- A portfolio that is itself read, as `json.dumps` writes it. -/
structure Readable (text : FloatText) (portfolio : JsonTree) : Prop where
  plain : portfolio.Plain
  shallow : portfolio.depth < 127
  read : ∃ state, Constitution.Serde.portfolioState text.readF64 portfolio = some state

/-- Both ways give back the proposal. -/
structure RoundTrips (text : FloatText) (portfolio : JsonTree) (proposal : TradeProposal) :
    Prop where
  payload : ∃ payload read, proposal.toJsonPayload text = some payload ∧
    Constitution.Serde.fromStr (Constitution.Serde.tradeProposal text.readF64) payload = some read ∧
    Same proposal read
  frame : ∃ envelope request,
    (Constitution.Serde.codec text.readF64).envelope (evaluateFrame text portfolio proposal) =
      some envelope ∧
    envelope.opcode = .evaluateProposal ∧
    (Constitution.Serde.codec text.readF64).evaluateProposal envelope.payload = some request ∧
    Same proposal request.proposal

/-- A number that is read back from both its texts. -/
def ReadBack (text : FloatText) (x : PyFloat) : Prop :=
  ∃ q, x = fin q ∧ text.readF64 (text.repr q) = some x ∧ text.readF64 (text.compact q) = some x

/-- What the validation does not ask for. -/
structure Sendable (text : FloatText) (proposal : TradeProposal) : Prop where
  proposalId : IsText proposal.proposalId
  assetId : IsText proposal.assetId
  targetNotional : ReadBack text proposal.targetNotional
  maxAcceptableSlippage : ReadBack text proposal.maxAcceptableSlippage

/-! ## What is read -/

section Read

variable {text : FloatText} {portfolio : JsonTree} {proposal : TradeProposal}

theorem orderDirection_value (direction : OrderDirection) :
    orderDirection (.str (PyStr.ofString direction.value)) = some (sameDirection direction) := by
  rw [orderDirection, asVariant_ofString, Option.bind_some]
  cases direction <;> decide

/-- What `serde_json` makes of a proposal's fields. -/
theorem tradeProposal_fields (readF64 : List Char → Option PyFloat) (float : PyFloat → JsonTree) :
    tradeProposal readF64 (proposal.fields float) =
      (asString (.str proposal.proposalId)).bind fun proposalId =>
        (asString (.str proposal.assetId)).bind fun assetId =>
          (asF64 readF64 (float proposal.targetNotional)).bind fun targetNotional =>
            (asF64 readF64 (float proposal.maxAcceptableSlippage)).bind
              fun maxAcceptableSlippage =>
                some ⟨proposalId, assetId, sameDirection proposal.direction, targetNotional,
                  maxAcceptableSlippage⟩ := by
  rw [TradeProposal.fields, tradeProposal_object, orderDirection_value]
  rfl

variable (proposal) in
/-- A proposal is read back as it was exactly when its strings are text and its numbers
are. -/
theorem read_same_iff (readF64 : List Char → Option PyFloat) (float : PyFloat → JsonTree) :
    (∃ read, tradeProposal readF64 (proposal.fields float) = some read ∧ Same proposal read) ↔
      (IsText proposal.proposalId ∧ IsText proposal.assetId) ∧
        asF64 readF64 (float proposal.targetNotional) = some proposal.targetNotional ∧
        asF64 readF64 (float proposal.maxAcceptableSlippage) =
          some proposal.maxAcceptableSlippage := by
  rw [tradeProposal_fields]
  constructor
  · rintro ⟨read, found, same⟩
    obtain ⟨proposalId, id_, found⟩ := Option.bind_eq_some_iff.mp found
    obtain ⟨assetId, asset, found⟩ := Option.bind_eq_some_iff.mp found
    obtain ⟨targetNotional, notional, found⟩ := Option.bind_eq_some_iff.mp found
    obtain ⟨maxAcceptableSlippage, slippage, found⟩ := Option.bind_eq_some_iff.mp found
    obtain rfl := Option.some.inj found
    refine ⟨⟨?_, ?_⟩, notional.trans (congrArg some same.targetNotional),
      slippage.trans (congrArg some same.maxAcceptableSlippage)⟩
    · exact same.proposalId ▸ isText_ofChars _
    · exact same.assetId ▸ isText_ofChars _
  · rintro ⟨⟨id_, asset⟩, notional, slippage⟩
    obtain ⟨proposalId, id_⟩ := exists_asString id_
    obtain ⟨assetId, asset⟩ := exists_asString asset
    rw [id_, asset, notional, slippage]
    exact ⟨_, rfl, asString_eq_some_iff.mp id_, asString_eq_some_iff.mp asset, rfl, rfl, rfl⟩

/-! ## The payload -/

theorem compactFloat_plain (text : FloatText) (x : PyFloat) : (compactFloat text x).Plain := by
  cases x with
  | fin q => exact text.compact_number q
  | posInf => trivial
  | negInf => trivial
  | nan => trivial

theorem fields_plain {float : PyFloat → JsonTree}
    (strings : IsText proposal.proposalId ∧ IsText proposal.assetId)
    (notional : (float proposal.targetNotional).Plain)
    (slippage : (float proposal.maxAcceptableSlippage).Plain) : (proposal.fields float).Plain := by
  refine plain_object.mpr ?_
  simp only [List.forall_mem_cons, List.not_mem_nil, false_implies, implies_true, and_true]
  exact ⟨strings.1, strings.2, isText_ofChars _, notional, slippage⟩

variable (proposal) in
theorem fields_shallow {float : PyFloat → JsonTree} (scalar : ∀ x, (float x).depth = 0) :
    (proposal.fields float).depth ≤ 1 := by
  refine depth_object_le ?_
  simp only [List.forall_mem_cons, List.not_mem_nil, false_implies, implies_true, and_true, scalar]
  exact ⟨le_rfl, le_rfl, le_rfl, le_rfl, le_rfl⟩

theorem asF64_compactFloat_iff {readF64 : List Char → Option PyFloat} {x : PyFloat} :
    asF64 readF64 (compactFloat text x) = some x ↔
      ∃ q, x = fin q ∧ readF64 (text.compact q) = some x := by
  cases x with
  | fin q =>
      constructor
      · exact fun read => ⟨q, rfl, read⟩
      · rintro ⟨_, same, read⟩
        obtain rfl := ExtNum.fin.inj same
        exact read
  | posInf => exact ⟨fun none_ => (by cases none_), fun ⟨_, same, _⟩ => (by cases same)⟩
  | negInf => exact ⟨fun none_ => (by cases none_), fun ⟨_, same, _⟩ => (by cases same)⟩
  | nan => exact ⟨fun none_ => (by cases none_), fun ⟨_, same, _⟩ => (by cases same)⟩

theorem compactFloat_depth (text : FloatText) (x : PyFloat) : (compactFloat text x).depth = 0 := by
  cases x <;> rfl

/-- What the payload is read as, if it can be written. -/
theorem payload_read (strings : IsText proposal.proposalId ∧ IsText proposal.assetId) :
    fromStr (tradeProposal text.readF64)
        ((proposal.fields (compactFloat text)).write textEscaping []) =
      tradeProposal text.readF64 (proposal.fields (compactFloat text)) := by
  have plain := fields_plain strings (compactFloat_plain text _) (compactFloat_plain text _)
  have shallow := (fields_shallow proposal (compactFloat_depth text)).trans
    (show 1 ≤ maxDepth by decide)
  rw [fromStr, read_write isGap_nil plain shallow]
  rfl

/-- The payload gives back the proposal exactly when its strings are text and its numbers
are finite and read back. -/
theorem payload_iff :
    (∃ payload read, proposal.toJsonPayload text = some payload ∧
      fromStr (tradeProposal text.readF64) payload = some read ∧ Same proposal read) ↔
    (IsText proposal.proposalId ∧ IsText proposal.assetId) ∧
      (∃ q, proposal.targetNotional = fin q ∧
        text.readF64 (text.compact q) = some proposal.targetNotional) ∧
      ∃ q, proposal.maxAcceptableSlippage = fin q ∧
        text.readF64 (text.compact q) = some proposal.maxAcceptableSlippage := by
  have iff := read_same_iff proposal text.readF64 (compactFloat text)
  rw [asF64_compactFloat_iff, asF64_compactFloat_iff] at iff
  rw [← iff]
  constructor
  · rintro ⟨payload, read, sent, found, same⟩
    rw [TradeProposal.toJsonPayload] at sent
    split_ifs at sent with strings
    obtain rfl := Option.some.inj sent
    exact ⟨read, (payload_read strings).symm.trans found, same⟩
  · rintro ⟨read, found, same⟩
    obtain ⟨strings, -⟩ := iff.mp ⟨read, found, same⟩
    exact ⟨_, read, if_pos strings, (payload_read strings).trans found, same⟩

/-- A notional that is not finite is written as `null`, which is no number. -/
theorem payload_refused (strings : IsText proposal.proposalId ∧ IsText proposal.assetId)
    (infinite : ¬ proposal.targetNotional.IsFinite) :
    ∃ payload, proposal.toJsonPayload text = some payload ∧
      fromStr (tradeProposal text.readF64) payload = none := by
  have null : asF64 text.readF64 (compactFloat text proposal.targetNotional) = none := by
    cases notional : proposal.targetNotional with
    | fin q => exact absurd (notional ▸ trivial) infinite
    | posInf => rfl
    | negInf => rfl
    | nan => rfl
  obtain ⟨proposalId, id_⟩ := exists_asString strings.1
  obtain ⟨assetId, asset⟩ := exists_asString strings.2
  refine ⟨_, if_pos strings, (payload_read strings).trans ?_⟩
  rw [tradeProposal_fields, id_, asset, null]
  rfl

/-! ## The frame -/

theorem asString_ofChars (chars : List Char) :
    asString (.str (PyStr.ofChars chars)) = some (String.ofList chars) := by
  rw [asString, PyStr.chars?_ofChars]
  rfl

theorem isGap_space : IsGap [' '] := fun _ member => by
  rw [List.mem_singleton.mp member]
  decide

/-- The envelope is read back, with its payload, whatever the payload is. -/
theorem envelope_read (readF64 : List Char → Option PyFloat) (payload : List Char) :
    (codec readF64).envelope (buildEnvelope "EvaluateProposal" payload) =
      some ⟨1, "cortex-0001", .evaluateProposal, String.ofList payload⟩ := by
  have opcode : ipcOpcode (.str (PyStr.ofString "EvaluateProposal")) = some .evaluateProposal := by
    rw [ipcOpcode, asVariant_ofString]
    decide
  have version : asUnsigned (2 ^ 32) (.number "1".toList) = some 1 := by decide
  have one : IsNumber ['1'] := by decide
  rw [codec_envelope, fromSlice, buildEnvelope, fromUtf8_utf8, Option.bind_some, fromStr, dumps,
    read_write isGap_space (plain_object.mpr ?_) ((depth_object_le (n := 0) ?_).trans (by decide)),
    Option.bind_some, ipcEnvelope_object, version, opcode, asString_ofString, asString_ofChars]
  · rfl
  · simp [one, isText_ofString, isText_ofChars]
  · simp

/-- The request as it is read, when its numbers are JSON's. -/
theorem request_read (readable : Readable text portfolio) {state : Constitution.PortfolioState}
    (known : portfolioState text.readF64 portfolio = some state)
    (plain : (proposal.fields (dumpsFloat text)).Plain) :
    (codec text.readF64).evaluateProposal (String.ofList (dumps (object
      [("portfolio", portfolio), ("proposal", proposal.fields (dumpsFloat text))]))) =
      (tradeProposal text.readF64 (proposal.fields (dumpsFloat text))).map
        (Constitution.EvaluateProposalRequest.mk state) := by
  have scalar (x : PyFloat) : (dumpsFloat text x).depth = 0 := by cases x <;> rfl
  have inside : (proposal.fields (dumpsFloat text)).depth ≤ 126 :=
    (fields_shallow proposal scalar).trans (by decide)
  have outside : portfolio.depth ≤ 126 := Nat.le_of_lt_succ readable.shallow
  rw [codec_evaluateProposal, String.toList_ofList, fromStr, dumps,
    read_write isGap_space (plain_object.mpr ?_) (depth_object_le (n := 126) ?_), Option.bind_some,
    evaluateProposalRequest_object, known]
  · rw [Option.bind_some]
    cases tradeProposal text.readF64 (proposal.fields (dumpsFloat text)) <;> rfl
  · simp [readable.plain, plain]
  · simp [inside, outside]

theorem dumped_plain (strings : IsText proposal.proposalId ∧ IsText proposal.assetId)
    {notional slippage : ℚ} (targetNotional : proposal.targetNotional = fin notional)
    (maxAcceptableSlippage : proposal.maxAcceptableSlippage = fin slippage) :
    (proposal.fields (dumpsFloat text)).Plain := by
  refine fields_plain strings ?_ ?_
  · rw [targetNotional]
    exact text.repr_number notional
  · rw [maxAcceptableSlippage]
    exact text.repr_number slippage

/-- What the frame is read as, for text and finite numbers. -/
theorem frame_iff (readable : Readable text portfolio)
    (strings : IsText proposal.proposalId ∧ IsText proposal.assetId) {notional slippage : ℚ}
    (targetNotional : proposal.targetNotional = fin notional)
    (maxAcceptableSlippage : proposal.maxAcceptableSlippage = fin slippage) :
    (∃ envelope request,
      (codec text.readF64).envelope (evaluateFrame text portfolio proposal) = some envelope ∧
      envelope.opcode = .evaluateProposal ∧
      (codec text.readF64).evaluateProposal envelope.payload = some request ∧
      Same proposal request.proposal) ↔
    text.readF64 (text.repr notional) = some (fin notional) ∧
      text.readF64 (text.repr slippage) = some (fin slippage) := by
  obtain ⟨state, known⟩ := readable.read
  have request := request_read readable known
    (dumped_plain strings targetNotional maxAcceptableSlippage)
  have iff := read_same_iff proposal text.readF64 (dumpsFloat text)
  rw [targetNotional, maxAcceptableSlippage] at iff
  have numbers : text.readF64 (text.repr notional) = some (fin notional) ∧
      text.readF64 (text.repr slippage) = some (fin slippage) ↔
      ∃ read, tradeProposal text.readF64 (proposal.fields (dumpsFloat text)) = some read ∧
        Same proposal read := by
    rw [iff]
    exact ⟨fun numbers => ⟨strings, numbers⟩, fun all => all.2⟩
  rw [numbers]
  constructor
  · rintro ⟨envelope, read, framed, -, found, same⟩
    rw [evaluateFrame, envelope_read] at framed
    obtain rfl := Option.some.inj framed
    rw [request] at found
    obtain ⟨proposal', inside, rfl⟩ := Option.map_eq_some_iff.mp found
    exact ⟨proposal', inside, same⟩
  · rintro ⟨read, found, same⟩
    exact ⟨_, _, envelope_read _ _, rfl, request.trans (by rw [found]; rfl), same⟩

/-- A sendable proposal in a frame that fits is put to the kernel as it was sent. -/
theorem handleFrame_evaluateFrame (server : Constitution.IpcServer)
    (readable : Readable text portfolio) (sendable : Sendable text proposal)
    (fits : (evaluateFrame text portfolio proposal).length ≤ Constitution.maxFrameBytes) :
    ∃ state read, portfolioState text.readF64 portfolio = some state ∧ Same proposal read ∧
      server.handleFrame (codec text.readF64) (evaluateFrame text portfolio proposal) =
        let answer := server.constitution.handleIncomingRequest state read
        (.ok (.evaluateProposal ⟨answer.1, answer.2.getStatus.debug⟩), ⟨answer.2⟩) := by
  obtain ⟨proposalId, assetId, ⟨q, notional, printed, -⟩, ⟨q', slippage, printed', -⟩⟩ := sendable
  have strings := And.intro proposalId assetId
  obtain ⟨state, known⟩ := readable.read
  have plain : (proposal.fields (dumpsFloat text)).Plain := dumped_plain strings notional slippage
  have request := request_read readable known plain
  obtain ⟨read, found, same⟩ :=
    (read_same_iff proposal text.readF64 (dumpsFloat text)).mpr
      ⟨strings, (by rw [notional] at printed ⊢; exact printed),
        (by rw [slippage] at printed' ⊢; exact printed')⟩
  rw [found] at request
  refine ⟨state, read, known, same, ?_⟩
  rw [Constitution.handleFrame_of_envelope fits (envelope_read _ _) rfl,
    Constitution.IpcServer.dispatch]
  simp only [request]
  rfl

/-- **The codec round trip.**  With a portfolio that is read, both ways give back the
proposal exactly when its strings are text and its numbers are finite and read back. -/
theorem roundTrips_iff (readable : Readable text portfolio) :
    RoundTrips text portfolio proposal ↔ Sendable text proposal := by
  constructor
  · rintro ⟨payload, frame⟩
    obtain ⟨strings, ⟨q, notional, compact⟩, ⟨q', slippage, compact'⟩⟩ := payload_iff.mp payload
    obtain ⟨printed, printed'⟩ := (frame_iff readable strings notional slippage).mp frame
    exact ⟨strings.1, strings.2, ⟨q, notional, notional ▸ printed, compact⟩,
      ⟨q', slippage, slippage ▸ printed', compact'⟩⟩
  · rintro ⟨proposalId, assetId, ⟨q, notional, printed, compact⟩, ⟨q', slippage, printed', compact'⟩⟩
    rw [notional] at printed
    rw [slippage] at printed'
    exact ⟨payload_iff.mpr ⟨⟨proposalId, assetId⟩, ⟨q, notional, compact⟩, ⟨q', slippage, compact'⟩⟩,
      (frame_iff readable ⟨proposalId, assetId⟩ notional slippage).mpr ⟨printed, printed'⟩⟩

end Read

/-! ## Poles -/

/-- The texts of two floats, read to the nearest. -/
def oneDecimal (x : ℚ) : List Char := if x = 100 then "100.0".toList else "0.5".toList

theorem isNumber_oneDecimal (x : ℚ) : IsNumber (oneDecimal x) := by
  rw [oneDecimal]
  split_ifs <;> decide

def oneDecimalText : FloatText where
  repr := oneDecimal
  compact := oneDecimal
  readF64 := parseFloat
  repr_number := isNumber_oneDecimal
  compact_number := isNumber_oneDecimal

theorem readBack_hundred : ReadBack oneDecimalText (fin 100) :=
  ⟨100, rfl, by decide +kernel, by decide +kernel⟩

theorem readBack_half : ReadBack oneDecimalText (fin (1 / 2)) :=
  ⟨1 / 2, rfl, by decide +kernel, by decide +kernel⟩

/-- A portfolio with nothing in it but cash. -/
def cashPortfolio : JsonTree :=
  object
    [("timestamp", .number "7".toList), ("total_equity", .number "100.0".toList),
      ("cash_balance", .number "100.0".toList), ("high_water_mark", .number "100.0".toList),
      ("open_positions", .arr [])]

theorem cashPortfolio_plain : cashPortfolio.Plain := by
  refine plain_object.mpr ?_
  simp only [List.forall_mem_cons, List.not_mem_nil, false_implies, implies_true, and_true,
    plain_number]
  exact ⟨by decide, by decide, by decide, by decide, trivial⟩

theorem cashPortfolio_shallow : cashPortfolio.depth < 127 := by
  refine Nat.lt_of_le_of_lt (depth_object_le (n := 1) ?_) (by decide)
  simp [depth, depthItems]

theorem cashPortfolio_readable : Readable oneDecimalText cashPortfolio := by
  have hundred : asF64 oneDecimalText.readF64 (.number "100.0".toList) = some (fin 100) := by
    show parseFloat "100.0".toList = some (fin 100)
    decide +kernel
  have timestamp : asUnsigned (2 ^ 64) (.number "7".toList) = some 7 := by decide
  refine ⟨cashPortfolio_plain, cashPortfolio_shallow, ⟨.ofNat 7, fin 100, fin 100, fin 100, []⟩, ?_⟩
  rw [cashPortfolio, portfolioState_object, timestamp, hundred]
  rfl

theorem half_ge : (fin 0 : PyFloat) ≤ fin (1 / 2) := show (0 : ℚ) ≤ 1 / 2 by norm_num

theorem hundred_gt : (fin 0 : PyFloat) < fin 100 := by decide

theorem infinite_gt : (fin 0 : PyFloat) < .posInf := by decide

/-- A purchase, for as much as it says. -/
def purchase (notional : PyFloat) (positive : fin 0 < notional) : TradeProposal where
  proposalId := PyStr.ofString "prop-π-001"
  assetId := PyStr.ofString "BTC-PERP"
  direction := .buy
  targetNotional := notional
  maxAcceptableSlippage := fin (1 / 2)
  notional_gt := positive
  slippage_ge := half_ge

/-- Satisfiable pole: a purchase for a hundred arrives as it was sent. -/
theorem hundred_roundTrips :
    RoundTrips oneDecimalText cashPortfolio (purchase (fin 100) hundred_gt) :=
  (roundTrips_iff cashPortfolio_readable).mpr
    ⟨isText_ofString _, isText_ofString _, readBack_hundred, readBack_half⟩

/-- Refuting pole: an infinite notional is accepted, and its payload is refused. -/
theorem infinite_notional_lost :
    Readable oneDecimalText cashPortfolio ∧
      (∃ payload, (purchase .posInf infinite_gt).toJsonPayload oneDecimalText = some payload ∧
        fromStr (tradeProposal oneDecimalText.readF64) payload = none) ∧
      ¬ RoundTrips oneDecimalText cashPortfolio (purchase .posInf infinite_gt) := by
  have strings : IsText (PyStr.ofString "prop-π-001") ∧ IsText (PyStr.ofString "BTC-PERP") :=
    ⟨isText_ofString _, isText_ofString _⟩
  refine ⟨cashPortfolio_readable, payload_refused strings fun finite => finite, fun both => ?_⟩
  obtain ⟨-, ⟨q, finite, -⟩, -⟩ := payload_iff.mp both.payload
  cases finite

end CentaurApex.Cortex.ProposalApi
