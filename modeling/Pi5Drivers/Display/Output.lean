import Mathlib.Data.Nat.Notation
import Mathlib.Logic.Function.Basic
import Pi5Drivers.Display.Timing
import Pi5Drivers.Lib.Observed

/-! The two outputs of the display engine and how the mode of one of them is set. The
registers, how long a wait lasts and what the other threads do are the choice of a world. -/

namespace Pi5Drivers.Display

open Effect Recorded

/-! ### Outputs -/

inductive Status
  | invalidParameter | notSupported | deviceBusy | ioTimeout | deviceHardwareError | deviceConfigurationError
  | other (code : ℕ)
deriving DecidableEq, Repr

abbrev Port := Fin 2

/-- The other output. -/
def Port.peer (p : Port) : Port := 1 - p

inductive Register
  | native (f : NativeField)
  | hvsControl | displayList | displayFrame | displayActive
  | interruptEnable | interruptStatus
deriving DecidableEq, Repr

/-- A display list, without the words that are the same in each. -/
structure ScanList where
  width : BitVec 32
  height : BitVec 32
  upmDescriptor : BitVec 32
  address : BitVec 64
  pitch : BitVec 32
deriving DecidableEq, Repr

def ScanList.words (l : ScanList) : List (BitVec 32) :=
  [0x490cc007, 0, 0xfff0, (l.height - 1) <<< 16 ||| (l.width - 1), 0xc0c0c0c0,
    l.upmDescriptor ||| (l.address >>> 32).setWidth 32, l.address.setWidth 32, l.pitch, 0x80000000, 0x80000000]

/-- The fields that the mode of an output is about. The flips are a matter of their own. -/
structure Output where
  owned : Bool
  fullDisplay : Bool
  upmDescriptor : BitVec 32
  width : BitVec 32
  height : BitVec 32
  pitch : BitVec 32
  hTotal : BitVec 32
  vTotal : BitVec 32
  pixelRate : BitVec 32
  originalTiming : Timing
  currentTiming : Timing
  originalNative : NativeState
  nativeMaxClock : BitVec 32
  frameBytes : BitVec 32
  dma : BitVec 64
  front : ℕ
  visible : Bool
  timingChanged : Bool
  modeChanging : Bool
  fault : Bool

structure Outputs where
  output : Port → Output
  paired : Bool

def Outputs.set (d : Outputs) (p : Port) (f : Output → Output) : Outputs :=
  { d with output := Function.update d.output p (f (d.output p)) }

/-- What the driver does not decide. The first argument is the time. -/
structure World where
  register : ℕ → Port → Register → BitVec 32
  /-- How often a wait looks before its deadline, but for the first time. -/
  rounds : ℕ → ℕ
  /-- Whether the flips of an output came to an end. -/
  drainFlips : ℕ → Port → Except Status Unit
  /-- Whether the interrupt lock was given, and whether no flip was pending then. -/
  synchronizeMode : ℕ → Except Status Bool
  synchronizeMask : ℕ → Port → Except Status Unit
  /-- Whether anyone waits for the interrupt of an output. -/
  wanted : ℕ → Port → Bool

inductive Event
  | wrote (p : Port) (r : Register) (value : BitVec 32)
  | listed (p : Port) (frame : ℕ) (l : ScanList)
  /-- The registers of an output were seen to hold a timing, and frames to go by. -/
  | verified (p : Port) (t : Timing)
deriving DecidableEq, Repr

abbrev Context := Recorded World Outputs Event

abbrev Drive := Effect Context Status

/-! ### Registers -/

def read (p : Port) (r : Register) : Drive (BitVec 32) := ask (·.register · p r)

def write (p : Port) (r : Register) (value : BitVec 32) : Drive Unit := record (.wrote p r value)

def modeRead (p : Port) (f : NativeField) : Drive (BitVec 32) := read p (.native f)

def modeWrite (p : Port) (f : NativeField) (value : BitVec 32) : Drive Unit := write p (.native f) value

def set (p : Port) (f : Output → Output) : Drive Unit := change fun d => d.set p f

def lookAt (p : Port) : Drive Output := do
  let d ← look
  pure (d.output p)

def readFields (p : Port) : List NativeField → NativeState → Drive NativeState
  | [], v => pure v
  | f :: l, v => do
    let value ← modeRead p f
    readFields p l (Function.update v f value)

@[irreducible] def saveNative (p : Port) : Drive NativeState := readFields p NativeField.all fun _ => 0

/-- Writes fields with what a state has for them. -/
def writeFields (p : Port) (v : NativeState) (l : List NativeField) : Drive Unit := each (fun f => modeWrite p f (v f)) l

/-! ### Waiting -/

/-- Looks a number of times and once more. -/
def waitBitsFor (p : Port) (f : NativeField) (mask value : BitVec 32) : ℕ → Drive Unit
  | 0 => do
    let x ← modeRead p f
    require (x &&& mask = value) .ioTimeout
  | n + 1 => do
    let x ← modeRead p f
    if x &&& mask = value then pure () else waitBitsFor p f mask value n

def waitBits (p : Port) (f : NativeField) (mask value : BitVec 32) : Drive Unit := do
  let rounds ← ask (·.rounds)
  waitBitsFor p f mask value (rounds + 1)

/-- What the pixel valve and the clock say about the signal. -/
structure Signal where
  hA : BitVec 32
  hB : BitVec 32
  vA : BitVec 32
  vB : BitVec 32
  vertical : BitVec 32
  divider : BitVec 32
  rmOffset : BitVec 32
  hvsControl : BitVec 32

/-- The clock is right up to a thousandth. -/
def Signal.Clocked (s : Signal) (t : Timing) : Prop :=
  let div := (s.divider &&& 1023).toNat
  let clock := if div ≠ 0 then (s.rmOffset &&& 0x7fffffff).toNat * 54000000 / 2 ^ 21 / (div * 10) else 0
  let requested := t.clock.toNat * 1000
  (if requested < clock then clock - requested else requested - clock) ≤ max (requested / 1000) 1000

def Signal.Shows (s : Signal) (t : Timing) : Prop :=
  let pixels : BitVec 32 := if s.vertical &&& 0x20000000 ≠ 0 then 1 else 2
  (s.hB &&& 65535) * pixels = wide t.hDisplay ∧ s.vB &&& 65535 = wide t.vDisplay ∧
  (s.hB >>> 16) * pixels = wide t.hSyncStart - wide t.hDisplay ∧
  (s.hA &&& 65535) * pixels = wide t.hSyncEnd - wide t.hSyncStart ∧
  (s.hA >>> 16) * pixels = wide t.hTotal - wide t.hSyncEnd ∧
  s.vB >>> 16 = wide t.vSyncStart - wide t.vDisplay ∧ s.vA &&& 65535 = wide t.vSyncEnd - wide t.vSyncStart ∧
  s.vA >>> 16 = wide t.vTotal - wide t.vSyncEnd ∧ s.Clocked t ∧
  s.hvsControl = (0x80000000 ||| (wide t.hDisplay - 1) <<< 16 ||| (wide t.vDisplay - 1))

instance (s : Signal) (t : Timing) : Decidable (s.Clocked t) := inferInstanceAs (Decidable (_ ≤ _))

instance (s : Signal) (t : Timing) : Decidable (s.Shows t) := inferInstanceAs (Decidable (_ ∧ _))

def readSignal (p : Port) : Drive Signal := do
  let hA ← modeRead p .pvHa
  let hB ← modeRead p .pvHb
  let vA ← modeRead p .pvVa
  let vB ← modeRead p .pvVb
  let vertical ← modeRead p .pvVertical
  let divider ← modeRead p .vcoDivider
  let rmOffset ← modeRead p .rmOffset
  let hvsControl ← read p .hvsControl
  pure ⟨hA, hB, vA, vB, vertical, divider, rmOffset, hvsControl⟩

def frameOf (x : BitVec 32) : BitVec 32 := (x >>> 16) &&& 63

/-- Frames go by: the frame counter is two or more ahead of where it was. -/
def Passed (first frame : BitVec 32) : Prop := 2 ≤ (frame - first) &&& 63

instance (first frame : BitVec 32) : Decidable (Passed first frame) := inferInstanceAs (Decidable (_ ≤ _))

/-- Looks a number of times. What was seen before is the frame at which the timing was first there. -/
def waitTimingFor (p : Port) (t : Timing) : Option (BitVec 32) → ℕ → Drive Unit
  | _, 0 => stop .ioTimeout
  | first, n + 1 => do
    let x ← read p .displayFrame
    let s ← readSignal p
    if s.Shows t then
      match first with
      | none => waitTimingFor p t (some (frameOf x)) n
      | some f => if Passed f (frameOf x) then record (.verified p t) else waitTimingFor p t (some f) n
    else waitTimingFor p t none n

def waitTiming (p : Port) (t : Timing) : Drive Unit := do
  let rounds ← ask (·.rounds)
  waitTimingFor p t none (rounds + 1)

def waitHeadFor (p : Port) (head : BitVec 32) : Option (BitVec 32) → ℕ → Drive Unit
  | _, 0 => stop .ioTimeout
  | first, n + 1 => do
    let x ← read p .displayFrame
    let active ← read p .displayActive
    if active &&& 0xfff = head then
      match first with
      | none => waitHeadFor p head (some (frameOf x)) n
      | some f => if Passed f (frameOf x) then pure () else waitHeadFor p head (some f) n
    else waitHeadFor p head none n

def waitHead (p : Port) (head : BitVec 32) : Drive Unit := waitHeadFor p head none 200

/-! ### Programming a mode -/

def ownHead (p : Port) : ℕ := 0xf80 + p * 0x20

def headOf (p : Port) (front : ℕ) : BitVec 32 := BitVec.ofNat 32 (ownHead p + front * 10)

def framebufferCount (o : Output) : ℕ := if o.fullDisplay then 2 else 1

def disableNative (p : Port) : Drive Unit := do
  let vertical ← modeRead p .pvVertical
  modeWrite p .pvVertical (vertical &&& ~~~1)
  waitBits p .pvVertical 1 0
  modeWrite p .packetConfig 0x10000
  let video ← modeRead p .vidControl
  modeWrite p .vidControl (video ||| 0x00840000)
  let control ← modeRead p .pvControl
  modeWrite p .pvControl (control &&& ~~~1)
  let control ← modeRead p .pvControl
  modeWrite p .pvControl (control ||| 2)
  let hvs ← read p .hvsControl
  write p .hvsControl (hvs ||| 0x40000000)
  let hvs ← read p .hvsControl
  write p .hvsControl (hvs &&& ~~~0x80000000)

/-- The clock and the cable of an output, as the first part of a mode. -/
def applyPhy (p : Port) (v : NativeState) : Drive Unit := do
  modeWrite p .phyReset 0
  modeWrite p .phyPower 0
  modeWrite p .postDivider 0x10
  writeFields p v NativeField.miscs
  writeFields p v [.refClock, .phyReset, .rmOffset, .vcoDivider, .pllConfig, .postDivider]
  writeFields p v NativeField.lanes
  writeFields p v [.tmdsWord, .phyPower, .pllPower]
  modeWrite p .pllReset (v .pllReset &&& ~~~1)
  modeWrite p .pllReset (v .pllReset)

/-- The raster of an output, up to where the picture starts. -/
def applyRaster (p : Port) (t : Timing) (v : NativeState) (o : Output) : Drive Unit := do
  modeWrite p .scheduler (v .scheduler ||| 0x8020)
  writeFields p v NativeField.signal
  writeFields p v NativeField.colours
  modeWrite p .packetConfig 0x10000
  writeFields p v NativeField.avis
  modeWrite p .pvVertical (v .pvVertical &&& ~~~1)
  writeFields p v NativeField.pvTimings
  modeWrite p .pvControl ((v .pvControl &&& ~~~1) ||| 2)
  writeFields p v [.hvsControl1]
  write p .hvsControl 0x40000000
  write p .displayList (headOf p o.front)
  write p .hvsControl (0x80000000 ||| (wide t.hDisplay - 1) <<< 16 ||| (wide t.vDisplay - 1))
  modeWrite p .pvControl (v .pvControl ||| 1)
  modeWrite p .fifo 1
  modeWrite p .pvVertical (v .pvVertical ||| 1)
  modeWrite p .vidControl ((v .vidControl &&& ~~~0x00040000) ||| 0x80000000 ||| if o.visible then 0 else 0x00040000)
  modeWrite p .scheduler (v .scheduler ||| 0x8020)

/-- The packets and the buffer of the link are turned on again. -/
def applyLink (p : Port) (v : NativeState) : Drive Unit := do
  writeFields p v [.packetConfig]
  modeWrite p .fifo (v .fifo &&& 0xefff &&& ~~~0x40)
  modeWrite p .fifo (v .fifo &&& 0xefff ||| 0x40)
  modeWrite p .fifo (v .fifo &&& 0xefff &&& ~~~0x40)
  modeWrite p .fifo (v .fifo &&& 0xefff ||| 0x40)

def applyNative (p : Port) (t : Timing) (v : NativeState) : Drive Unit := do
  let o ← lookAt p
  applyPhy p v
  applyRaster p t v o
  waitBits p .scheduler 2 (if v .scheduler &&& 1 ≠ 0 then 2 else 0)
  applyLink p v
  waitBits p .fifo 0x4000 0x4000
  waitTiming p t
  waitHead p (headOf p o.front)

def frameAddress (o : Output) (frame : ℕ) : BitVec 64 :=
  o.dma + 4096 + BitVec.ofNat 64 frame * o.frameBytes.setWidth 64

def writeCurrentLists (p : Port) : Drive Unit := do
  let o ← lookAt p
  each (fun frame => record (.listed p frame ⟨o.width, o.height, o.upmDescriptor, frameAddress o frame, o.pitch⟩))
    (List.range (framebufferCount o))

/-- The flips of the output are forgotten. -/
def modeLists (p : Port) : Drive Unit := do
  set p fun o => { o with front := 0 }
  writeCurrentLists p

def handle (descriptor : BitVec 32) : BitVec 32 := (descriptor >>> 10) &&& 31

/-- The descriptor for another layout of the rows. -/
def nextDescriptor (descriptor : BitVec 32) : BitVec 32 :=
  (descriptor &&& ~~~((31 : BitVec 32) <<< 10)) ||| ((handle descriptor + 2) &&& 31) <<< 10

/-- The descriptor and the layout for a timing. -/
def Output.withTiming (o : Output) (t : Timing) : Output :=
  { o with
    upmDescriptor := if o.pitch ≠ t.pitch then nextDescriptor o.upmDescriptor else o.upmDescriptor
    currentTiming := t
    width := wide t.hDisplay
    height := wide t.vDisplay
    pitch := t.pitch
    hTotal := wide t.hTotal
    vTotal := wide t.vTotal
    pixelRate := t.clock * 1000 }

/-- Lays the lists out for a timing and puts the registers to work. -/
def applyTiming (p : Port) (t : Timing) (v : NativeState) : Drive Unit := do
  set p (·.withTiming t)
  modeLists p
  applyNative p t v

/-- The interrupts of an output, as anyone waits for them. -/
def synchronizeMask (p : Port) : Drive Unit := do
  let wanted ← ask (·.wanted · p)
  let o ← lookAt p
  let answer ← ask (·.synchronizeMask · p)
  match answer with
  | .error s => stop s
  | .ok _ => do
    write p .interruptEnable (if !o.modeChanging && wanted then 0x80 else 0)
    write p .interruptStatus 0x80

/-- Marks an output as about to change. -/
def beginMode (p : Port) : Drive Unit := do
  set p fun o => { o with modeChanging := true }
  write p .interruptEnable 0
  write p .interruptStatus 0x80

def synchronizeMode (p : Port) (peerActive : Bool) : Drive Unit := do
  let answer ← ask (·.synchronizeMode)
  match answer with
  | .error s => stop s
  | .ok false => stop .deviceBusy
  | .ok true => do
    beginMode p
    when (peerActive = true) (beginMode p.peer)

def desiredNative (o : Output) (t : Timing) (before : NativeState) : Except Status NativeState :=
  if t.Same o.originalTiming then .ok o.originalNative
  else if o.nativeMaxClock < t.clock then .error .notSupported
  else match nativeBuild t before with
    | none => .error .notSupported
    | some desired => .ok desired

/-- Goes back to a timing and to the registers as they were saved. -/
def rollBack (p : Port) (old : Timing) (before : NativeState) : Drive Bool := do
  let disabled ← ((disableNative p).attempt : Drive (Except Status Unit))
  let restored ← ((applyTiming p old before).attempt : Drive (Except Status Unit))
  pure (disabled matches .ok _ && restored matches .ok _)

/-- How a mode change ends, and whether it is undone where it failed. -/
def settle (p : Port) (old : Timing) (before : NativeState) : Except Status Unit → Drive (Except Status Unit)
  | .ok _ => pure (.ok ())
  | .error s => do
    let restored ← rollBack p old before
    if restored then pure (.error s)
    else do
      set p fun o => { o with fault := true }
      pure (.error .deviceHardwareError)

/-- An output whose mode was changed, or not. -/
def Output.resumed (o : Output) : Output :=
  { o with
    timingChanged := !decide (o.currentTiming.Same o.originalTiming) || o.currentTiming.flags != o.originalTiming.flags
    modeChanging := false }

/-- Lets the outputs go on. -/
def endMode (p : Port) (peerActive : Bool) (result : Except Status Unit) : Drive Unit := do
  set p Output.resumed
  when (peerActive = true) do
    set p.peer fun o => { o with modeChanging := false }
    let _ ← ((synchronizeMask p.peer).attempt : Drive (Except Status Unit))
  let mask ← (synchronizeMask p).attempt
  match result with
  | .error s => stop s
  | .ok _ => ofExcept mask

/-- Changes the mode of an output that is quiet. -/
def changeMode (p : Port) (t old : Timing) (before desired : NativeState) (peerActive : Bool) : Drive Unit := do
  let result ← (do
    disableNative p
    applyTiming p t desired : Drive Unit).attempt
  let result ← settle p old before result
  endMode p peerActive result

def drainFlips (p : Port) : Drive Unit := do
  let o ← lookAt p
  if o.owned && o.fullDisplay then do
    let drained ← ask (·.drainFlips · p)
    ofExcept drained
  else pure ()

def programMode (p : Port) (t : Timing) : Drive Unit := do
  let d ← look
  let o := d.output p
  require (o.owned = true ∧ t.Supported ∧ t.frameBytes ≤ o.frameBytes) .invalidParameter
  if t.Same o.currentTiming ∧ t.flags = o.currentTiming.flags then pure ()
  else do
    let before ← saveNative p
    let desired ← ofExcept (desiredNative o t before)
    let peerActive := d.paired && (d.output p.peer).owned
    drainFlips p
    when (peerActive = true) (drainFlips p.peer)
    synchronizeMode p peerActive
    changeMode p t o.currentTiming before desired peerActive

end Pi5Drivers.Display
