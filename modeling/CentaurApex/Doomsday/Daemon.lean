/-
# Doomsday.Daemon -- the dead-man switch

When heartbeats stop, the switch climbs a ladder: armed, watching, escalating
(where it works through a registered plan), liquidating, dormant.  `tick` moves
it for the current time, `beat` tells it that the system lives, `disarm` is the
governance path.  Without a governance key every `disarm` is refused
(`disarm_without_key`); unless the configuration wants signed beats, no `beat` is
(`beat_unsigned`).

What a tick meets outside the switch is its argument (`Outside`): how each step's
hook ends, what the conversion oracle answers to a submission, how a percentage
is printed.  The readings of the clock during one call are one instant.

The journal is a bounded one (`Theory.Bounded`): it keeps the newest
`max_journal_entries` entries.
-/
import CentaurApex.Theory.Bounded
import CentaurApex.Theory.Json

namespace CentaurApex.Doomsday

open CentaurApex.Theory
open CentaurApex.Theory.ExtNum (fin)
open CentaurApex.Theory.Python

set_option autoImplicit false

/-! ## Configuration -/

inductive StepType where
  | notify
  | haltPlacements
  | reduceExposure
  | acquireAssets
  | seal
  deriving DecidableEq, Repr

def StepType.value : StepType → String
  | .notify => "notify"
  | .haltPlacements => "halt_placements"
  | .reduceExposure => "reduce_exposure"
  | .acquireAssets => "acquire_assets"
  | .seal => "seal"

structure EscalationStep where
  step : StepType
  channels : List String
  targetPercentage : Option ℚ
  via : Option String
  assetOut : Option String
  target_bounded : ∀ p ∈ targetPercentage, 0 ≤ p ∧ p ≤ 100
  deriving DecidableEq, Repr

/-- A configuration that has passed its schema. -/
structure DeadManConfig where
  heartbeatInterval : ExtNum ℚ
  graceMultiplier : Nat
  escalationMultiplier : Nat
  escalationEnabled : Bool
  abortableUntilStep : Nat
  liquidationGraceMultiplier : Nat
  plan : List EscalationStep
  oracle : String
  strictHeartbeatSigning : Bool
  maxJournalEntries : Nat
  interval_pos : fin 0 < heartbeatInterval
  grace_pos : 1 ≤ graceMultiplier
  escalation_pos : 1 ≤ escalationMultiplier
  liquidation_pos : 1 ≤ liquidationGraceMultiplier
  journal_pos : 16 ≤ maxJournalEntries
  deriving DecidableEq, Repr

namespace DeadManConfig

def gracePeriod (config : DeadManConfig) : ExtNum ℚ :=
  config.heartbeatInterval * fin (config.graceMultiplier : ℚ)

def escalationPeriod (config : DeadManConfig) : ExtNum ℚ :=
  config.heartbeatInterval * fin (config.escalationMultiplier : ℚ)

/-- How long orders may stay unsettled. -/
def liquidationGrace (config : DeadManConfig) : ExtNum ℚ :=
  config.gracePeriod * fin (config.liquidationGraceMultiplier : ℚ)

/-- The steps of the plan with their numbers, from one. -/
def numbered (config : DeadManConfig) : List (EscalationStep × Nat) := config.plan.zipIdx 1

/-- The steps with numbers in `range(lo + 1, hi + 1)`. -/
def steps (config : DeadManConfig) (lo hi : Nat) : List (EscalationStep × Nat) :=
  (config.numbered.take hi).drop lo

end DeadManConfig

/-! ## States, orders, the daemon -/

inductive EscalationState where
  | armed
  | watching
  | escalating
  | liquidating
  | dormant
  deriving DecidableEq, Repr

def EscalationState.value : EscalationState → String
  | .armed => "ARMED"
  | .watching => "WATCHING"
  | .escalating => "ESCALATING"
  | .liquidating => "LIQUIDATING"
  | .dormant => "DORMANT"

/-- `_TRANSITIONS`. -/
def transitions : EscalationState → List EscalationState
  | .armed => [.watching]
  | .watching => [.escalating, .armed]
  | .escalating => [.armed, .liquidating]
  | .liquidating => [.dormant]
  | .dormant => []

structure Transition where
  frm : String
  target : String
  t : ℚ
  detail : String
  deriving DecidableEq, Repr

inductive ConversionStatus where
  | submitted
  | settled
  | failed
  deriving DecidableEq, Repr

structure ConversionOrder where
  orderId : String
  quoteRef : String
  assetIn : String
  assetOut : String
  quantityIn : ExtNum ℚ
  status : ConversionStatus
  deriving DecidableEq, Repr

structure DeadManSwitchDaemon (config : DeadManConfig) where
  governanceKey : Option String
  state : EscalationState
  lastBeat : Option ℚ
  stepIndex : Nat
  journal : Journal config.maxJournalEntries Transition
  lastError : Option String
  orders : List ConversionOrder
  liquidatingSince : Option ℚ

/-- What a tick meets outside, by the number of the step. -/
structure Outside where
  /-- How the hook of the step ends; a step without a hook ends well. -/
  hook : Nat → Except String Unit
  /-- The oracle's answer to the step's quote and submission. -/
  submit : Nat → Except String ConversionOrder
  formatFloat : ℚ → String

/-- A call of `_execute_step`: the order it recorded, the exception it ended in. -/
structure Attempt where
  step : EscalationStep
  number : Nat
  order : Option ConversionOrder
  raised : Option String

namespace DeadManSwitchDaemon

variable {config : DeadManConfig}

def new (config : DeadManConfig) (governanceKey : Option String) : DeadManSwitchDaemon config where
  governanceKey := governanceKey
  state := .armed
  lastBeat := none
  stepIndex := 0
  journal := .empty
  lastError := none
  orders := []
  liquidatingSince := none

def note (d : DeadManSwitchDaemon config) (now : ℚ) (detail : String) :
    DeadManSwitchDaemon config :=
  { d with journal := d.journal.push ⟨d.state.value, d.state.value, now, detail⟩ }

def move (d : DeadManSwitchDaemon config) (now : ℚ) (target : EscalationState) (detail : String) :
    Bool × DeadManSwitchDaemon config :=
  if target ∈ transitions d.state then
    (true, { d with
      journal := d.journal.push ⟨d.state.value, target.value, now, detail⟩
      state := target })
  else (false, d)

def beat (d : DeadManSwitchDaemon config) (now : ℚ) (signed : Bool) :
    Except PyError (DeadManSwitchDaemon config) :=
  if config.strictHeartbeatSigning && !signed then
    .error (.permissionError "unsigned heartbeat refused in strict mode")
  else
    let beaten := { d with lastBeat := some now }
    .ok (if d.state = .armed then beaten.note now "armed heartbeat" else beaten)

/-- Whether or not the move to `armed` is allowed, the ladder is reset. -/
def disarm (d : DeadManSwitchDaemon config) (now : ℚ) (governanceKey : String) :
    Except PyError (DeadManSwitchDaemon config) :=
  if d.governanceKey ≠ some governanceKey then
    .error (.permissionError "governance override rejected — key mismatch/unset")
  else
    let moved := (d.move now .armed "governance disarmed").2
    .ok { moved with stepIndex := 0, liquidatingSince := none, lastBeat := some now }

/-! ## The plan -/

def canAbort (d : DeadManSwitchDaemon config) : Bool := d.stepIndex < config.abortableUntilStep

def recordOrder (d : DeadManSwitchDaemon config) (order : ConversionOrder) :
    DeadManSwitchDaemon config :=
  { d with orders := d.orders ++ [order] }

/-- `_execute_step`: what it recorded stays when it raises. -/
def executeStep (d : DeadManSwitchDaemon config) (now : ℚ) (outside : Outside)
    (step : EscalationStep) (number : Nat) : Attempt × DeadManSwitchDaemon config :=
  let started := d.note now ("execute " ++ step.step.value)
  let hooked (order : Option ConversionOrder) (d : DeadManSwitchDaemon config) :=
    match outside.hook number with
    | .ok () => ((⟨step, number, order, none⟩ : Attempt), d)
    | .error exc => (⟨step, number, order, some exc⟩, d)
  match step.step with
  | .notify =>
      let channels := ",".intercalate step.channels
      hooked none (started.note now ("notify:" ++ if channels = "" then "none" else channels))
  | .haltPlacements => hooked none (started.note now "placements halted at gateway boundary")
  | .reduceExposure =>
      let target := (step.targetPercentage.map outside.formatFloat).getD "None"
      hooked none (started.note now ("reduce_exposure target=" ++ target ++ "%"))
  | .acquireAssets =>
      match outside.submit number with
      | .error exc => (⟨step, number, none, some exc⟩, started)
      | .ok order =>
          let via := match step.via with
            | some via => if via = "" then config.oracle else via
            | none => config.oracle
          hooked (some order) ((started.recordOrder order).note now
            ("acquire_assets order=" ++ order.orderId ++ " via=" ++ via))
  | .seal => hooked none (started.note now "journal sealed for audit")

/-- A step raised: the plan ends here. -/
def failPlan (d : DeadManSwitchDaemon config) (now : ℚ) (number : Nat) (exc : String) :
    DeadManSwitchDaemon config :=
  let failed := { d with lastError := some ("step " ++ toString number ++ " failed: " ++ exc) }
  (failed.move now .liquidating ("plan failed: " ++ exc)).2

/-- A step is done: after the last of the plan the switch liquidates. -/
def closeStep (d : DeadManSwitchDaemon config) (now : ℚ) (number : Nat) :
    DeadManSwitchDaemon config :=
  if number = config.plan.length then
    ({ d with liquidatingSince := some now }.move now .liquidating "plan complete").2
  else d

/-- The loop of `tick` over the steps that are due: it ends with the last of them,
or with the first that raises. -/
def runPlan (now : ℚ) (outside : Outside) :
    List (EscalationStep × Nat) → DeadManSwitchDaemon config →
      List Attempt × DeadManSwitchDaemon config
  | [], d => ([], d)
  | (step, number) :: rest, d =>
      let executed := { d with stepIndex := number }.executeStep now outside step number
      match executed.1.raised with
      | some exc => ([executed.1], executed.2.failPlan now number exc)
      | none =>
          let others := runPlan now outside rest (executed.2.closeStep now number)
          (executed.1 :: others.1, others.2)

/-! ## Ticks -/

/-- The time since the last heartbeat. -/
def elapsed (d : DeadManSwitchDaemon config) (now : ℚ) : ExtNum ℚ :=
  fin (now - d.lastBeat.getD now)

/-- Some order is neither settled nor failed. -/
def pending (d : DeadManSwitchDaemon config) : Bool :=
  d.orders.any fun order => order.status = .submitted

/-- `_liquidating_since`, where it is unset. -/
def startTimer (d : DeadManSwitchDaemon config) (now : ℚ) : DeadManSwitchDaemon config :=
  { d with liquidatingSince := some (d.liquidatingSince.getD now) }

/-- The liquidation grace has run out. -/
def graceElapsed (d : DeadManSwitchDaemon config) (now : ℚ) : Prop :=
  fin (now - d.liquidatingSince.getD now) > config.liquidationGrace

instance (d : DeadManSwitchDaemon config) (now : ℚ) : Decidable (d.graceElapsed now) :=
  inferInstanceAs (Decidable (_ < _))

end DeadManSwitchDaemon

/-- What a tick returns or raises, the steps it attempted, and the daemon after it. -/
structure Ticked (config : DeadManConfig) where
  result : Except PyError EscalationState
  attempts : List Attempt
  daemon : DeadManSwitchDaemon config

def Ticked.returned {config : DeadManConfig} (attempts : List Attempt)
    (d : DeadManSwitchDaemon config) : Ticked config :=
  ⟨.ok d.state, attempts, d⟩

namespace DeadManSwitchDaemon

variable {config : DeadManConfig}

/-- The arm of `tick` for `escalating`, behind the abort. -/
def tickPlan (d : DeadManSwitchDaemon config) (now : ℚ) (outside : Outside) : Ticked config :=
  match intFloorDiv (d.elapsed now - config.gracePeriod) config.escalationPeriod with
  | .error e => ⟨.error e, [], d⟩
  | .ok stepNo =>
      if stepNo ≤ d.stepIndex then .returned [] d
      else
        let ran := d.runPlan now outside
          (config.steps d.stepIndex (min stepNo.toNat config.plan.length))
        .returned ran.1 ran.2

def tick (d : DeadManSwitchDaemon config) (now : ℚ) (outside : Outside) : Ticked config :=
  if config.escalationEnabled = false then .returned [] { d with state := .armed }
  else
    match d.state with
    | .armed =>
        .returned [] (if d.elapsed now > config.gracePeriod then
          (d.move now .watching "heartbeat lost").2 else d)
    | .watching =>
        if d.elapsed now ≤ config.gracePeriod then
          let moved := d.move now .armed "heartbeat resumed"
          .returned [] (if moved.1 then { moved.2 with stepIndex := 0, liquidatingSince := none }
            else moved.2)
        else
          .returned [] (if d.elapsed now > config.gracePeriod + config.escalationPeriod then
            (d.move now .escalating "plan armed").2 else d)
    | .escalating =>
        if d.elapsed now ≤ config.gracePeriod ∧ d.canAbort then
          let moved := d.move now .armed "heartbeat resumed"
          .returned [] (if moved.1 then { moved.2 with stepIndex := 0 } else moved.2)
        else d.tickPlan now outside
    | .liquidating =>
        let timed := d.startTimer now
        .returned [] (if ¬ d.pending ∨ d.graceElapsed now then
          (timed.move now .dormant (if ¬ d.pending then "conversions settled or none required"
            else "liquidation grace elapsed (orders unsettled, evidence sealed)")).2
          else timed)
    | .dormant => .returned [] d

/-! ## Refused and accepted calls -/

theorem disarm_without_key {d : DeadManSwitchDaemon config} (unset : d.governanceKey = none)
    (now : ℚ) (key : String) :
    d.disarm now key = .error (.permissionError "governance override rejected — key mismatch/unset") := by
  rw [disarm, unset, if_pos (by simp)]

theorem beat_unsigned (lax : config.strictHeartbeatSigning = false)
    (d : DeadManSwitchDaemon config) (now : ℚ) (signed : Bool) :
    ∃ d', d.beat now signed = .ok d' := by
  rw [beat, lax]
  exact ⟨_, rfl⟩

end DeadManSwitchDaemon

end CentaurApex.Doomsday
