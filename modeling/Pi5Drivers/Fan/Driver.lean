import Pi5Drivers.Lib.Observed
import Pi5Drivers.Lib.Runs

/-! The fan driver (`hardware.c`, `driver.c`). Its callbacks hold one lock from beginning to end, the temperature query apart,
which waits outside it; they come in any order and at any time, and a register may read as anything. -/

namespace Pi5Drivers.Fan

open Effect Recorded

/-- `UINT64_MAX`. -/
def max64 : ℕ := 18446744073709551615

/-- `INT32_MIN`. -/
def noTemperature : ℤ := -2147483648

def mmioSize : BitVec 32 := 0x100

def regGlobal : BitVec 32 := 0x00
def regRpm : BitVec 32 := 0x3c
def regControl : BitVec 32 := 0x44
def regRange : BitVec 32 := 0x48
def regPhase : BitVec 32 := 0x4c
def regDuty : BitVec 32 := 0x50

def fanTicks : BitVec 32 := 2078
def periodNs : BitVec 32 := 41560
def maxLeaseMs : ℕ := 5000
def tempMaxAgeMs : ℕ := 2500
def spinupMs : ℕ := 2000

def policySpinup : BitVec 32 := 1
def policyNoTemperature : BitVec 32 := 2
def policyStaleTemperature : BitVec 32 := 4
def policyStalled : BitVec 32 := 8
def policyHot : BitVec 32 := 16

/-- `enum FAN_RESULT`. -/
inductive FanResult
  | ok
  | invalid
  | notReady
  | ioError
  deriving DecidableEq, Repr

abbrev Status := BitVec 32

def statusSuccess : Status := 0
def statusInvalidParameter : Status := 0xc000000d
def statusInvalidDeviceRequest : Status := 0xc0000010
def statusDeviceNotReady : Status := 0xc00000a3
def statusDeviceBusy : Status := 0x80000011
def statusDeviceDataError : Status := 0xc000009c
def statusDeviceConfigurationError : Status := 0xc0000182
def statusInsufficientResources : Status := 0xc000009a

/-- `NT_SUCCESS`. -/
def ntSuccess (status : Status) : Bool := !status.msb

def resultStatus : FanResult → Status
  | .ok => statusSuccess
  | .invalid => statusInvalidParameter
  | .notReady => statusDeviceNotReady
  | .ioError => statusDeviceDataError

structure FanState where
  deadline : ℕ
  percent : BitVec 32
  expirations : BitVec 32
  failed : BitVec 32

structure FanPolicy where
  fullUntil : ℕ
  temperatureTime : ℕ
  nextRpm : ℕ
  temperature : ℤ
  stalls : ℕ
  previous : BitVec 32
  flags : BitVec 32

/-- The device of a driver that names its files `F`. -/
structure DeviceContext (F : Type) where
  registers : Option (BitVec 64)
  owner : Option F
  running : Bool
  state : FanState
  policy : FanPolicy
  requested : BitVec 32
  temperatureStatus : Status
  /-- When the temperature query began that has not ended. -/
  sampleTime : Option ℕ

/-- What a record of the driver says. -/
inductive Entry (F : Type)
  /-- An access through a pointer that is null. -/
  | unmapped
  | read (base : BitVec 64) (offset value : BitVec 32)
  | wrote (base : BitVec 64) (offset value : BitVec 32)
  /-- A callback that has read the clock. -/
  | call (now : ℕ)
  | started
  | stopped
  /-- `fan_policy_full`. -/
  | boosted
  /-- The registers were not ready, or the duty did not read back. -/
  | failed
  | querying
  | sampled (temperature : ℤ)
  /-- The speed of the fan was judged. -/
  | counted (stalled : Bool)
  | asked (file : F) (percent : BitVec 32)
  | leased (file : F) (percent : BitVec 32) (ends : ℕ)
  /-- A lease is over, if there was one. -/
  | ended
  | closed (file : F)
  | completed (status : Status)

/-- What the registers read as, by what was read before. -/
structure World where
  read : ℕ → BitVec 32 → BitVec 32

abbrev Drive (F α : Type) := Effect (Recorded World (DeviceContext F) (Entry F)) Unit α

/-! ### `hardware.c` -/

def fanResourceValid (address : BitVec 64) (length : BitVec 32) : Bool :=
  length = mmioSize && 0x1f00000000 ≤ address && address < 0x2000000000 && address &&& 0x3fffff = 0x9c000

section Hardware

variable {F : Type}

def read32 (offset : BitVec 32) : Drive F (BitVec 32) := do
  let ctx ← look
  match ctx.registers with
  | none => do
    record .unmapped
    stop ()
  | some base => do
    let value ← ask fun w k => w.read k offset
    record (.read base offset value)
    pure value

def write32 (offset value : BitVec 32) : Drive F Unit := do
  let ctx ← look
  match ctx.registers with
  | none => do
    record .unmapped
    stop ()
  | some base => record (.wrote base offset value)

def fanReady : Drive F FanResult := do
  let global ← read32 regGlobal
  if global &&& ~~~0x80000000 ≠ 8 then pure .notReady else do
    let control ← read32 regControl
    if control ≠ 0x109 then pure .notReady else do
      let range ← read32 regRange
      if range ≠ fanTicks then pure .notReady else do
        let phase ← read32 regPhase
        if phase ≠ 0 then pure .notReady else do
          let duty ← read32 regDuty
          if duty > fanTicks then pure .notReady else pure .ok

/-- The duty of a speed. -/
def ticks (percent : BitVec 32) : BitVec 32 := (fanTicks * percent + 50) / 100

/-- A result that is not success goes on record. -/
def reported (result : FanResult) : Drive F FanResult := do
  Effect.when (result ≠ .ok) (record .failed)
  pure result

def apply (percent : BitVec 32) : Drive F FanResult := do
  let result ← fanReady
  if result ≠ .ok then reported result else do
    write32 regDuty (ticks percent)
    let duty ← read32 regDuty
    reported (if duty = ticks percent then .ok else .ioError)

def DeviceContext.setDeadline (ctx : DeviceContext F) (deadline : ℕ) : DeviceContext F :=
  { ctx with state := { ctx.state with deadline := deadline } }

def DeviceContext.setPercent (ctx : DeviceContext F) (percent : BitVec 32) : DeviceContext F :=
  { ctx with state := { ctx.state with percent := percent } }

def DeviceContext.fail (ctx : DeviceContext F) : DeviceContext F := { ctx with state := { ctx.state with failed := 1 } }

def fanFull : Drive F FanResult := do
  let result ← apply 100
  change fun ctx => ctx.setDeadline 0
  record .ended
  change fun ctx => if result = .ok then ctx.setPercent 100 else ctx.fail
  pure result

def fanAdjust (percent : BitVec 32) : Drive F FanResult := do
  if percent > 100 then pure .invalid else do
    let ctx ← look
    if ctx.state.failed ≠ 0 then pure .ioError else do
      let result ← apply percent
      if result ≠ .ok then do
        change DeviceContext.fail
        let _ ← fanFull
        pure result
      else do
        change fun ctx => ctx.setPercent percent
        pure .ok

def fanSet (percent : BitVec 32) (leaseMs now : ℕ) : Drive F FanResult := do
  if percent > 100 ∨ leaseMs < 500 ∨ leaseMs > maxLeaseMs ∨ now > max64 - leaseMs then pure .invalid else do
    let result ← fanAdjust percent
    if result = .ok then do
      change fun ctx => ctx.setDeadline (now + leaseMs)
      pure result
    else pure result

def fanTick (now : ℕ) : Drive F FanResult := do
  let ctx ← look
  if ctx.state.deadline = 0 ∨ now < ctx.state.deadline then pure .ok else do
    change fun ctx => { ctx with state := { ctx.state with expirations := ctx.state.expirations + 1 } }
    fanFull

def fanCurve (temperature : ℤ) (previous : BitVec 32) : BitVec 32 :=
  if temperature < -40000 ∨ temperature > 125000 then 100
  else if temperature ≥ 75000 ∨ previous = 100 ∧ temperature ≥ 72000 then 100
  else if temperature ≥ 65000 ∨ previous ≥ 70 ∧ temperature ≥ 62000 then 70
  else if temperature ≥ 55000 ∨ previous ≥ 50 ∧ temperature ≥ 52000 then 50
  else 35

/-- A time in a while, or the last one there is. -/
def after (now delay : ℕ) : ℕ := if now > max64 - delay then max64 else now + delay

def FanPolicy.full (policy : FanPolicy) (now : ℕ) : FanPolicy := { policy with fullUntil := after now spinupMs, previous := 100 }

def FanPolicy.start (policy : FanPolicy) (now : ℕ) : FanPolicy :=
  ({ policy with temperature := noTemperature, temperatureTime := 0, nextRpm := 0, stalls := 0
                 flags := policySpinup ||| policyNoTemperature } : FanPolicy).full now

def FanPolicy.sample (policy : FanPolicy) (temperature : ℤ) (now : ℕ) : FanPolicy :=
  { policy with temperature := temperature, temperatureTime := now }

/-- The speed of the fan says that it stands still. -/
def stalledAt (rpm : BitVec 32) : Bool := rpm = 0 || rpm > 30000

/-- `fan_policy_target`, as far as it judges the fan. -/
def FanPolicy.count (policy : FanPolicy) (now : ℕ) (rpm : BitVec 32) : FanPolicy :=
  { policy with
    stalls := if stalledAt rpm then (if policy.stalls < 3 then policy.stalls + 1 else policy.stalls) else 0
    nextRpm := after now 1000 }

/-- `fan_policy_target`, as far as it finds reasons for full speed. -/
def FanPolicy.flagsAt (policy : FanPolicy) (now : ℕ) : BitVec 32 :=
  (if now < policy.fullUntil then policySpinup else 0) |||
  (if policy.temperature < -40000 ∨ policy.temperature > 125000 then policyNoTemperature else 0) |||
  (if now < policy.temperatureTime ∨ now - policy.temperatureTime > tempMaxAgeMs then policyStaleTemperature else 0) |||
  (if policy.stalls ≥ 3 then policyStalled else 0) |||
  if policy.temperature ≥ 75000 then policyHot else 0

/-- What it would be without these reasons. -/
def FanPolicy.wish (policy : FanPolicy) (manual : Bool) (requested : BitVec 32) : BitVec 32 :=
  if manual then requested else fanCurve policy.temperature policy.previous

/-- The target of a policy whose reasons are known. -/
def FanPolicy.choose (policy : FanPolicy) (manual : Bool) (requested : BitVec 32) : BitVec 32 :=
  if policy.flags ≠ 0 ∨ policy.wish manual requested > 100 then 100 else policy.wish manual requested

def fanPolicyTarget (now : ℕ) (rpm : BitVec 32) (manual : Bool) (requested : BitVec 32) : Drive F (BitVec 32) := do
  let ctx ← look
  Effect.when (now ≥ ctx.policy.nextRpm) do
    change fun ctx => { ctx with policy := ctx.policy.count now rpm }
    record (.counted (stalledAt rpm))
  change fun ctx => { ctx with policy := { ctx.policy with flags := ctx.policy.flagsAt now } }
  let ctx ← look
  let target := ctx.policy.choose manual requested
  change fun ctx => { ctx with policy := { ctx.policy with previous := if manual then ctx.policy.previous else target } }
  pure target

end Hardware

/-! ### `driver.c` -/

/-- `CM_PARTIAL_RESOURCE_DESCRIPTOR`. -/
inductive Resource
  | memory (start : BitVec 64) (length : BitVec 32)
  /-- Nothing, device private data, or an interrupt. -/
  | harmless
  | other
  deriving DecidableEq, Repr

/-- `FAN_QUERY`. -/
structure FanQuery where
  size : BitVec 32
  version : BitVec 32
  percent : BitVec 32
  rpm : BitVec 32
  periodNs : BitVec 32
  dutyTicks : BitVec 32
  leaseRemainingMs : ℕ
  expirations : BitVec 32
  failed : BitVec 32
  global : BitVec 32
  control : BitVec 32
  range : BitVec 32
  phase : BitVec 32
  manual : Bool
  requestedPercent : BitVec 32
  temperatureMillicelsius : ℤ
  temperatureAgeMs : ℕ
  policyFlags : BitVec 32
  temperatureStatus : Status
  deriving DecidableEq, Repr

/-- `FAN_SET`. -/
structure FanSet where
  size : BitVec 32
  version : BitVec 32
  percent : BitVec 32
  leaseMs : ℕ

def abiVersion : BitVec 32 := 2

inductive IoCode
  | query
  | set
  | other

/-- A request with the file it came through; `retrieved` is what its buffer is got with. -/
structure Request (F : Type) where
  code : IoCode
  inputLength : ℕ
  outputLength : ℕ
  retrieved : Status
  buffer : FanSet
  file : Option F

section Driver

variable {F : Type}

/-- The walk over the resources of `FanPrepare`: nothing for an error. -/
def findMemory : Option (BitVec 64 × BitVec 32) → List Resource → Option (Option (BitVec 64 × BitVec 32))
  | memory, [] => some memory
  | none, .memory start length :: rest => findMemory (some (start, length)) rest
  | some _, .memory _ _ :: _ => none
  | memory, .harmless :: rest => findMemory memory rest
  | _, .other :: _ => none

/-- The memory `FanPrepare` accepts. -/
def fanMemory (resources : List Resource) : Option (BitVec 64) :=
  match findMemory none resources with
  | some (some (start, length)) => if fanResourceValid start length then some start else none
  | _ => none

def fanPrepare (resources : List Resource) (maps : Bool) : Drive F Status := do
  match fanMemory resources with
  | none => pure statusDeviceConfigurationError
  | some start => do
    change fun ctx => { ctx with registers := if maps then some start else none }
    pure (if maps then statusSuccess else statusInsufficientResources)

def fanRelease : Drive F Unit := do
  change fun ctx => { ctx with running := false, owner := none, registers := none }
  record .stopped

def fanD0Entry (now : ℕ) : Drive F Status := do
  change fun ctx => { ctx with
    state := ⟨0, 0, 0, 0⟩, policy := ctx.policy.start now
    temperatureStatus := statusDeviceNotReady, requested := 100 }
  record .started
  record .boosted
  let ctx ← look
  if ctx.registers = none then pure statusDeviceNotReady else do
    let _ ← read32 regGlobal
    let _ ← read32 regControl
    let _ ← read32 regRange
    let _ ← read32 regPhase
    let _ ← read32 regDuty
    let _ ← read32 regRpm
    let result ← fanFull
    change fun ctx => { ctx with running := if ntSuccess (resultStatus result) then true else ctx.running }
    pure (resultStatus result)

def fanD0Exit : Drive F Unit := do
  change fun ctx => { ctx with running := false }
  let ctx ← look
  Effect.when (ctx.registers ≠ none) do
    let _ ← fanFull
    pure ()
  change fun ctx => { ctx with owner := none }
  record .stopped

/-- `fan_policy_full` of the device. -/
def fanPolicyFull (now : ℕ) : Drive F Unit := do
  change fun ctx => { ctx with policy := ctx.policy.full now }
  record .boosted

def fanWatchdog (now : ℕ) : Drive F Unit := do
  let ctx ← look
  Effect.when ctx.running do
    let expired := ctx.state.deadline ≠ 0 ∧ now ≥ ctx.state.deadline
    let _ ← fanTick now
    Effect.when expired do
      change fun ctx => { ctx with owner := none }
      fanPolicyFull now
    let rpm ← read32 regRpm
    let ctx ← look
    let target ← fanPolicyTarget now rpm (ctx.state.deadline ≠ 0) ctx.requested
    let _ ← fanAdjust target
    pure ()

/-- `FanTemperature`, until it asks for the temperature. -/
def fanTemperatureBegin (now : ℕ) : Drive F Unit := do
  let ctx ← look
  Effect.when ctx.running do
    change fun ctx => { ctx with sampleTime := some now }
    record .querying

/-- `FanTemperature`, with the answer. -/
def fanTemperatureEnd (temperature : ℤ) (status : Status) : Drive F Unit := do
  let ctx ← look
  match ctx.sampleTime with
  | none => pure ()
  | some sampleTime => do
    change fun ctx => { ctx with sampleTime := none }
    Effect.when ctx.running do
      change fun ctx => { ctx with policy := ctx.policy.sample temperature sampleTime, temperatureStatus := status }
      record (.sampled temperature)

def fanQuery (now : ℕ) : Drive F FanQuery := do
  let ctx ← look
  let rpm ← read32 regRpm
  let dutyTicks ← read32 regDuty
  let global ← read32 regGlobal
  let control ← read32 regControl
  let range ← read32 regRange
  let phase ← read32 regPhase
  pure {
    size := 76
    version := abiVersion
    percent := ctx.state.percent
    rpm
    periodNs
    dutyTicks
    leaseRemainingMs := if ctx.state.deadline > now then ctx.state.deadline - now else 0
    expirations := ctx.state.expirations
    failed := ctx.state.failed
    global
    control
    range
    phase
    manual := ctx.state.deadline ≠ 0
    requestedPercent := if ctx.state.deadline ≠ 0 then ctx.requested else 0
    temperatureMillicelsius := ctx.policy.temperature
    temperatureAgeMs :=
      if now ≥ ctx.policy.temperatureTime ∧ now - ctx.policy.temperatureTime < 4294967295 then now - ctx.policy.temperatureTime
      else 4294967295
    policyFlags := ctx.policy.flags
    temperatureStatus := ctx.temperatureStatus }

/-- `IOCTL_FAN_SET`, once the request is known to be well formed and to come from a file. -/
def fanLease (now : ℕ) (file : F) (s : FanSet) : Drive F Status := do
  record (.asked file s.percent)
  let rpm ← read32 regRpm
  let target ← fanPolicyTarget now rpm true s.percent
  let result ← fanSet target s.leaseMs now
  Effect.when (ntSuccess (resultStatus result)) do
    change fun ctx => { ctx with owner := some file, requested := s.percent }
    record (.leased file s.percent (now + s.leaseMs))
  pure (resultStatus result)

variable [DecidableEq F]

def fanCleanup (file : F) (now : ℕ) : Drive F Unit := do
  let ctx ← look
  Effect.when (ctx.owner = some file) do
    Effect.when ctx.running do
      let _ ← fanFull
      fanPolicyFull now
    change fun ctx => { ctx with owner := none }
  record (.closed file)

/-- The status of a request, with what a query answers. -/
def fanControlBody (now : ℕ) (request : Request F) : Drive F (Status × Option FanQuery) := do
  let ctx ← look
  if ctx.running = false then pure (statusDeviceNotReady, none) else
    match request.code with
    | .query =>
      if request.inputLength ≠ 0 then pure (statusInvalidParameter, none)
      else if ntSuccess request.retrieved = false then pure (request.retrieved, none)
      else do
        let answer ← fanQuery now
        pure (request.retrieved, some answer)
    | .set =>
      if request.inputLength ≠ 16 ∨ request.outputLength ≠ 0 then pure (statusInvalidParameter, none)
      else if ntSuccess request.retrieved = false then pure (request.retrieved, none)
      else
        match request.file with
        | none => pure (statusInvalidParameter, none)
        | some file =>
          if request.buffer.size ≠ 16 ∨ request.buffer.version ≠ abiVersion ∨ request.buffer.percent > 100 ∨
              request.buffer.leaseMs < 500 ∨ request.buffer.leaseMs > maxLeaseMs then pure (statusInvalidParameter, none)
          else if ctx.owner ≠ none ∧ ctx.owner ≠ some file then pure (statusDeviceBusy, none)
          else do
            let status ← fanLease now file request.buffer
            pure (status, none)
    | .other => pure (statusInvalidDeviceRequest, none)

def fanControl (now : ℕ) (request : Request F) : Drive F Unit := do
  let answer ← fanControlBody now request
  record (.completed answer.1)

/-- A callback of the driver. -/
inductive Call (F : Type)
  | prepare (resources : List Resource) (maps : Bool)
  | release
  | d0Entry (now : ℕ)
  | d0Exit
  | watchdog (now : ℕ)
  | temperatureBegin (now : ℕ)
  | temperatureEnd (temperature : ℤ) (status : Status)
  | cleanup (file : F) (now : ℕ)
  | control (now : ℕ) (request : Request F)

def Call.body : Call F → Drive F Unit
  | .prepare resources maps => do
    let _ ← fanPrepare resources maps
    pure ()
  | .release => fanRelease
  | .d0Entry now => do
    record (.call now)
    let _ ← fanD0Entry now
    pure ()
  | .d0Exit => fanD0Exit
  | .watchdog now => do
    record (.call now)
    fanWatchdog now
  | .temperatureBegin now => do
    record (.call now)
    fanTemperatureBegin now
  | .temperatureEnd temperature status => fanTemperatureEnd temperature status
  | .cleanup file now => do
    record (.call now)
    fanCleanup file now
  | .control now request => do
    record (.call now)
    fanControl now request

/-- The device as the framework creates it. -/
def added : DeviceContext F where
  registers := none
  owner := none
  running := false
  state := ⟨0, 0, 0, 0⟩
  policy := ⟨0, 0, 0, 0, 0, 0, 0⟩
  requested := 0
  temperatureStatus := 0
  sampleTime := none

/-- The framework prepares a device only while it does not run. -/
def Call.possible (ctx : DeviceContext F) : Call F → Bool
  | .prepare _ _ => !ctx.running
  | _ => true

def system (world : World) : System (Recorded World (DeviceContext F) (Entry F)) (Call F) where
  init := ⟨world, 0, added, []⟩
  next c call := if call.possible c.state then some (call.body.run c).2 else none

end Driver

end Pi5Drivers.Fan
