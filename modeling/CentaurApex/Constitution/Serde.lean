/-
# Constitution.Serde -- the requests as `serde_json` reads them

The three request types derive their readers from their fields.  A struct is an object
that has each field once, whatever else it has and in whatever order, or an array of its
fields; a unit variant is its name; a string is text; an unsigned number has digits and
no more.  What a number is worth as an `f64` is the reader's own (`readF64`), which does
not promise the nearest one.

`codec` puts the readers together for `handle_frame`.
-/
import CentaurApex.Theory.JsonReader
import CentaurApex.Constitution.Ipc

namespace CentaurApex.Constitution

open CentaurApex.Theory
open CentaurApex.Theory.JsonTree (fromUtf8)

set_option autoImplicit false

namespace Serde

/-! ## Values -/

def asString : JsonTree → Option String
  | .str s => s.chars?.map String.ofList
  | _ => none

/-- The digits of an unsigned number below `bound`. -/
def asUnsigned (bound : ℕ) : JsonTree → Option ℕ
  | .number token =>
      let n := token.foldl (fun n c => 10 * n + (c.toNat - 48)) 0
      if token.all JsonTree.NumberState.isDigit ∧ n < bound then some n else none
  | _ => none

def asBool : JsonTree → Option Bool
  | .bool value => some value
  | _ => none

/-- The name of a unit variant, bare or with no content. -/
def asVariant : JsonTree → Option String
  | .obj [(name, .null)] => name.chars?.map String.ofList
  | tree => asString tree

def asList {α : Type} (item : JsonTree → Option α) : JsonTree → Option (List α)
  | .arr items => items.mapM item
  | _ => none

/-- The one field of that name. -/
def field (fields : List (PyStr × JsonTree)) (name : String) : Option JsonTree :=
  match fields.filter fun entry => entry.1 = PyStr.ofString name with
  | [(_, value)] => some value
  | _ => none

/-- The fields of a struct, in the order of its declaration. -/
def asStruct (names : List String) : JsonTree → Option (List JsonTree)
  | .obj fields => names.mapM (field fields)
  | .arr items => if items.length = names.length then some items else none
  | _ => none

/-! ## Requests -/

def ipcOpcode (tree : JsonTree) : Option IpcOpcode :=
  (asVariant tree).bind fun name =>
    if name = "EvaluateProposal" then some .evaluateProposal
    else if name = "GetStatus" then some .getStatus
    else if name = "AttemptRecovery" then some .attemptRecovery
    else if name = "Heartbeat" then some .heartbeat
    else none

def orderDirection (tree : JsonTree) : Option OrderDirection :=
  (asVariant tree).bind fun name =>
    if name = "Buy" then some .buy else if name = "Sell" then some .sell else none

def ipcEnvelope (tree : JsonTree) : Option IpcEnvelope :=
  match asStruct ["protocol_version", "request_id", "opcode", "payload"] tree with
  | some [protocolVersion, requestId, opcode, payload] => do
      let protocolVersion ← asUnsigned (2 ^ 32) protocolVersion
      let requestId ← asString requestId
      let opcode ← ipcOpcode opcode
      let payload ← asString payload
      return ⟨.ofNat protocolVersion, requestId, opcode, payload⟩
  | _ => none

def attemptRecoveryRequest (tree : JsonTree) : Option AttemptRecoveryRequest :=
  match asStruct ["cryptographic_proof_valid"] tree with
  | some [cryptographicProofValid] => (asBool cryptographicProofValid).map .mk
  | _ => none

section Numbers

variable (readF64 : List Char → Option F64)

def asF64 : JsonTree → Option F64
  | .number token => readF64 token
  | _ => none

def position (tree : JsonTree) : Option Position :=
  match asStruct ["asset_id", "notional_value", "entry_price"] tree with
  | some [assetId, notionalValue, entryPrice] => do
      let assetId ← asString assetId
      let notionalValue ← asF64 readF64 notionalValue
      let entryPrice ← asF64 readF64 entryPrice
      return ⟨assetId, notionalValue, entryPrice⟩
  | _ => none

def portfolioState (tree : JsonTree) : Option PortfolioState :=
  match asStruct ["timestamp", "total_equity", "cash_balance", "high_water_mark", "open_positions"]
    tree with
  | some [timestamp, totalEquity, cashBalance, highWaterMark, openPositions] => do
      let timestamp ← asUnsigned (2 ^ 64) timestamp
      let totalEquity ← asF64 readF64 totalEquity
      let cashBalance ← asF64 readF64 cashBalance
      let highWaterMark ← asF64 readF64 highWaterMark
      let openPositions ← asList (position readF64) openPositions
      return ⟨.ofNat timestamp, totalEquity, cashBalance, highWaterMark, openPositions⟩
  | _ => none

def tradeProposal (tree : JsonTree) : Option TradeProposal :=
  match asStruct ["proposal_id", "asset_id", "direction", "target_notional",
    "max_acceptable_slippage"] tree with
  | some [proposalId, assetId, direction, targetNotional, maxAcceptableSlippage] => do
      let proposalId ← asString proposalId
      let assetId ← asString assetId
      let direction ← orderDirection direction
      let targetNotional ← asF64 readF64 targetNotional
      let maxAcceptableSlippage ← asF64 readF64 maxAcceptableSlippage
      return ⟨proposalId, assetId, direction, targetNotional, maxAcceptableSlippage⟩
  | _ => none

def evaluateProposalRequest (tree : JsonTree) : Option EvaluateProposalRequest :=
  match asStruct ["portfolio", "proposal"] tree with
  | some [portfolio, proposal] => do
      let portfolio ← portfolioState readF64 portfolio
      let proposal ← tradeProposal readF64 proposal
      return ⟨portfolio, proposal⟩
  | _ => none

/-- `serde_json::from_str`. -/
def fromStr {α : Type} (reader : JsonTree → Option α) (text : List Char) : Option α :=
  (JsonTree.read text).bind reader

/-- `serde_json::from_slice`. -/
def fromSlice {α : Type} (reader : JsonTree → Option α) (bytes : List UInt8) : Option α :=
  (fromUtf8 bytes).bind (fromStr reader)

def codec : Codec where
  envelope := fromSlice ipcEnvelope
  evaluateProposal text := fromStr (evaluateProposalRequest readF64) text.toList
  attemptRecovery text := fromStr attemptRecoveryRequest text.toList

theorem codec_envelope (bytes : List UInt8) :
    (codec readF64).envelope bytes = fromSlice ipcEnvelope bytes := rfl

theorem codec_evaluateProposal (text : String) :
    (codec readF64).evaluateProposal text = fromStr (evaluateProposalRequest readF64) text.toList :=
  rfl

end Numbers

/-! ## What the readers make of what was written -/

theorem asString_ofString (s : String) : asString (.str (PyStr.ofString s)) = some s := by
  rw [asString, PyStr.ofString, PyStr.chars?_ofChars, Option.map_some, String.ofList_toList]

/-- A string is read as the text it is, if it is one. -/
theorem asString_eq_some_iff {s : PyStr} {read : String} :
    asString (.str s) = some read ↔ PyStr.ofString read = s := by
  constructor
  · intro found
    obtain ⟨chars, text, rfl⟩ := Option.map_eq_some_iff.mp found
    rw [PyStr.ofString, String.toList_ofList, ← PyStr.eq_ofChars text]
  · rintro rfl
    exact asString_ofString read

theorem exists_asString {s : PyStr} (text : PyStr.IsText s) :
    ∃ read, asString (.str s) = some read := by
  obtain ⟨chars, found⟩ := PyStr.exists_chars? text
  exact ⟨_, by rw [asString, found]; rfl⟩

theorem ofString_injective {s t : String} (same : PyStr.ofString s = PyStr.ofString t) : s = t := by
  have read := asString_ofString s
  rw [same, asString_ofString] at read
  exact (Option.some.inj read).symm

/-- Among fields of different names, one has the name. -/
theorem filter_name {fields : List (String × JsonTree)} (distinct : (fields.map Prod.fst).Nodup)
    {entry : String × JsonTree} (member : entry ∈ fields) :
    fields.filter (fun other => PyStr.ofString other.1 = PyStr.ofString entry.1) = [entry] := by
  induction fields with
  | nil => cases member
  | cons first others ih =>
      rw [List.map_cons, List.nodup_cons] at distinct
      rcases List.mem_cons.mp member with rfl | member
      · have none_ : others.filter
            (fun other => PyStr.ofString other.1 = PyStr.ofString entry.1) = [] := by
          refine List.filter_eq_nil_iff.mpr fun other inside same => distinct.1 ?_
          exact List.mem_map.mpr ⟨other, inside, ofString_injective (of_decide_eq_true same)⟩
        rw [List.filter_cons_of_pos (by simp), none_]
      · have other : ¬ PyStr.ofString first.1 = PyStr.ofString entry.1 := fun same =>
          distinct.1 (List.mem_map.mpr ⟨entry, member, (ofString_injective same).symm⟩)
        rw [List.filter_cons_of_neg (by simpa using other), ih distinct.2 member]

/-- The fields of an object that has each once. -/
theorem asStruct_object {fields : List (String × JsonTree)}
    (distinct : (fields.map Prod.fst).Nodup) :
    asStruct (fields.map Prod.fst) (.object fields) = some (fields.map Prod.snd) := by
  have found : ∀ entry ∈ fields, field (fields.map fun entry => (PyStr.ofString entry.1, entry.2))
      entry.1 = some entry.2 := by
    intro entry member
    have only : (fields.map fun entry => (PyStr.ofString entry.1, entry.2)).filter
        (fun other => other.1 = PyStr.ofString entry.1) = [(PyStr.ofString entry.1, entry.2)] := by
      rw [List.filter_map]
      exact congrArg _ (filter_name distinct member)
    rw [field, only]
  have all : ∀ others : List (String × JsonTree), (∀ entry ∈ others, entry ∈ fields) →
      (others.map Prod.fst).mapM (field (fields.map fun entry => (PyStr.ofString entry.1, entry.2))) =
        some (others.map Prod.snd) := by
    intro others inside
    induction others with
    | nil => rfl
    | cons entry others ih =>
        obtain ⟨here, later⟩ := List.forall_mem_cons.mp inside
        rw [List.map_cons, List.mapM_cons, found entry here, ih later]
        rfl
  exact all fields fun _ member => member

theorem asVariant_ofString (name : String) :
    asVariant (.str (PyStr.ofString name)) = some name := by
  rw [asVariant, asString_ofString]
  simp

theorem ipcEnvelope_object (protocolVersion requestId opcode payload : JsonTree) :
    ipcEnvelope (.object [("protocol_version", protocolVersion), ("request_id", requestId),
        ("opcode", opcode), ("payload", payload)]) =
      (asUnsigned (2 ^ 32) protocolVersion).bind fun protocolVersion =>
        (asString requestId).bind fun requestId =>
          (ipcOpcode opcode).bind fun opcode =>
            (asString payload).bind fun payload =>
              some ⟨.ofNat protocolVersion, requestId, opcode, payload⟩ := by
  have found : asStruct ["protocol_version", "request_id", "opcode", "payload"]
      (.object [("protocol_version", protocolVersion), ("request_id", requestId),
        ("opcode", opcode), ("payload", payload)]) =
      some [protocolVersion, requestId, opcode, payload] :=
    asStruct_object (show ["protocol_version", "request_id", "opcode", "payload"].Nodup by decide)
  rw [ipcEnvelope, found]
  rfl

section Numbers

variable (readF64 : List Char → Option F64)

theorem portfolioState_object (timestamp totalEquity cashBalance highWaterMark
    openPositions : JsonTree) :
    portfolioState readF64 (.object [("timestamp", timestamp), ("total_equity", totalEquity),
        ("cash_balance", cashBalance), ("high_water_mark", highWaterMark),
        ("open_positions", openPositions)]) =
      (asUnsigned (2 ^ 64) timestamp).bind fun timestamp =>
        (asF64 readF64 totalEquity).bind fun totalEquity =>
          (asF64 readF64 cashBalance).bind fun cashBalance =>
            (asF64 readF64 highWaterMark).bind fun highWaterMark =>
              (asList (position readF64) openPositions).bind fun openPositions =>
                some ⟨.ofNat timestamp, totalEquity, cashBalance, highWaterMark, openPositions⟩ := by
  have found : asStruct ["timestamp", "total_equity", "cash_balance", "high_water_mark",
      "open_positions"] (.object [("timestamp", timestamp), ("total_equity", totalEquity),
        ("cash_balance", cashBalance), ("high_water_mark", highWaterMark),
        ("open_positions", openPositions)]) =
      some [timestamp, totalEquity, cashBalance, highWaterMark, openPositions] :=
    asStruct_object (show ["timestamp", "total_equity", "cash_balance", "high_water_mark",
      "open_positions"].Nodup by decide)
  rw [portfolioState, found]
  rfl

theorem tradeProposal_object (proposalId assetId direction targetNotional
    maxAcceptableSlippage : JsonTree) :
    tradeProposal readF64 (.object [("proposal_id", proposalId), ("asset_id", assetId),
        ("direction", direction), ("target_notional", targetNotional),
        ("max_acceptable_slippage", maxAcceptableSlippage)]) =
      (asString proposalId).bind fun proposalId =>
        (asString assetId).bind fun assetId =>
          (orderDirection direction).bind fun direction =>
            (asF64 readF64 targetNotional).bind fun targetNotional =>
              (asF64 readF64 maxAcceptableSlippage).bind fun maxAcceptableSlippage =>
                some ⟨proposalId, assetId, direction, targetNotional, maxAcceptableSlippage⟩ := by
  have found : asStruct ["proposal_id", "asset_id", "direction", "target_notional",
      "max_acceptable_slippage"] (.object [("proposal_id", proposalId), ("asset_id", assetId),
        ("direction", direction), ("target_notional", targetNotional),
        ("max_acceptable_slippage", maxAcceptableSlippage)]) =
      some [proposalId, assetId, direction, targetNotional, maxAcceptableSlippage] :=
    asStruct_object (show ["proposal_id", "asset_id", "direction", "target_notional",
      "max_acceptable_slippage"].Nodup by decide)
  rw [tradeProposal, found]
  rfl

theorem evaluateProposalRequest_object (portfolio proposal : JsonTree) :
    evaluateProposalRequest readF64 (.object [("portfolio", portfolio), ("proposal", proposal)]) =
      (portfolioState readF64 portfolio).bind fun portfolio =>
        (tradeProposal readF64 proposal).bind fun proposal => some ⟨portfolio, proposal⟩ := by
  have found : asStruct ["portfolio", "proposal"]
      (.object [("portfolio", portfolio), ("proposal", proposal)]) = some [portfolio, proposal] :=
    asStruct_object (show ["portfolio", "proposal"].Nodup by decide)
  rw [evaluateProposalRequest, found]
  rfl

end Numbers

end Serde

end CentaurApex.Constitution
