import Pi5Drivers.Display.Output

/-! How an output is taken over from the firmware. The registers are as the firmware left them. -/

namespace Pi5Drivers.Display

/-- What the firmware left, as the output sees it, and what others say about the output. -/
structure Firmware where
  read : ℕ → ℕ → BitVec 32
  width : BitVec 32
  height : BitVec 32
  pitch : BitVec 32
  physicAddress : BitVec 64
  hsmRate : BitVec 32
  bvbRate : BitVec 32
  /-- What the monitor says, if it says anything: whether it is on HDMI, and its modes. -/
  hdmi : Bool
  modes : List Timing
  native : NativeState
  dma : BitVec 64
  /-- The resources were found, and everyone else did what they were asked for. -/
  served : Bool

namespace Firmware

variable (fw : Firmware)

def oldHead : ℕ := (fw.read 0 0x110 &&& 0xfff).toNat

/-- A word of the list of the firmware. -/
def word (i : ℕ) : BitVec 32 := fw.read 0 (0x4000 + (fw.oldHead + i) * 4)

def hTotal : BitVec 32 :=
  2 * ((fw.read 1 0x0c >>> 16) + (fw.read 1 0x0c &&& 65535) + (fw.read 1 0x10 >>> 16) + (fw.read 1 0x10 &&& 65535))

def vTotal : BitVec 32 :=
  (fw.read 1 0x14 >>> 16) + (fw.read 1 0x14 &&& 65535) + (fw.read 1 0x18 >>> 16) + (fw.read 1 0x18 &&& 65535)

def rate : ℕ :=
  (fw.read 5 0x18 &&& 0x7fffffff).toNat * 54000000 / 2 ^ 21 / ((fw.read 4 0x2c &&& 1023).toNat * 10)

/-- The clock and the raster are ones the driver knows. -/
def Clocked : Prop :=
  fw.read 4 0x1c &&& 1023 = 54 ∧ fw.read 4 0x28 &&& 31 = 9 ∧ fw.read 4 0x2c &&& 1024 ≠ 0 ∧ fw.read 4 0x2c &&& 1023 ≠ 0 ∧
  fw.read 5 0x18 &&& 0x80000000 ≠ 0 ∧ (fw.read 1 0x10 &&& 65535) * 2 = fw.width ∧ fw.read 1 0x18 &&& 65535 = fw.height ∧
  fw.hTotal ≠ 0 ∧ fw.vTotal ≠ 0 ∧ 25000000 ≤ fw.rate ∧ fw.rate ≤ 600000000

/-- The scaler shows a raster of the right size. -/
def Scanned : Prop :=
  fw.read 0 0 = 0x2454 ∧ fw.read 0 4 = 4096 ∧ 1024 ≤ fw.read 0 0x0c ∧ ((fw.pitch + 62) / 32 * 64 + 255) / 256 ≤ 512 ∧
  fw.read 0 0x100 = (0x80000000 ||| (fw.width - 1) <<< 16 ||| (fw.height - 1)) ∧ fw.read 1 0 &&& 1 ≠ 0 ∧
  fw.read 1 4 = 3 ∧ fw.read 1 0x24 = 0 ∧ fw.read 0 0x180 = 0 ∧ fw.oldHead < 0x800 ∧
  (fw.read 0 0x11c &&& 0xfff).toNat = fw.oldHead ∧ fw.read 0 0x4000 = 0x80000000

/-- The list of the firmware is one of a raster. The list of the output that shows the boot
screen has the address of that. -/
def Listed (ownsPost : Bool) : Prop :=
  (ownsPost = false → fw.physicAddress = 0) ∧
  (ownsPost = true ∨ fw.word 0 = 0x600cc007 →
    fw.word 0 = 0x600cc007 ∧ fw.word 1 = 0 ∧ fw.word 2 = 0xfff0 ∧
    fw.word 3 = ((fw.height - 1) <<< 16 ||| (fw.width - 1)) ∧ fw.word 7 = fw.pitch ∧
    (ownsPost = true → fw.word 5 &&& 15 = 0 ∧ fw.word 6 = fw.physicAddress.setWidth 32 ∧ fw.physicAddress >>> 32 = 0))

/-- The list ends before the part that the driver uses. -/
def Ends : ℕ → ℕ → Prop
  | 0, _ => False
  | n + 1, i =>
    fw.oldHead + i < 0x800 ∧ (fw.word i = 0x80000000 ∨
      (fw.word i = 0x20000000 ∨ i = 0 ∧ fw.word i = 0x600cc007) ∧ Ends n (i + 32))

/-- The lists of the driver are where the firmware has none. -/
def Unused (p : Port) (count : ℕ) : Prop := ∀ i < 10 * count, fw.read 0 (0x4000 + (ownHead p + i) * 4) = 0xb0b0b0b0

instance : Decidable fw.Clocked := inferInstanceAs (Decidable (_ ∧ _))

instance : Decidable fw.Scanned := inferInstanceAs (Decidable (_ ∧ _))

instance (ownsPost : Bool) : Decidable (fw.Listed ownsPost) := inferInstanceAs (Decidable (_ ∧ _))

instance decidableEnds : ∀ n i, Decidable (fw.Ends n i)
  | 0, _ => inferInstanceAs (Decidable False)
  | n + 1, i =>
    have := decidableEnds n (i + 32)
    inferInstanceAs (Decidable (_ ∧ _))

instance (p : Port) (count : ℕ) : Decidable (fw.Unused p count) := inferInstanceAs (Decidable (∀ _ < _, _))

/-- The timing that the firmware shows. -/
def timing (p : Port) : Timing :=
  let rate := BitVec.ofNat 32 fw.rate
  let width := fw.width
  let height := fw.height
  let hSyncStart := (width + 2 * (fw.read 1 0x10 >>> 16)).setWidth 16
  let vSyncStart := (height + (fw.read 1 0x18 >>> 16)).setWidth 16
  { display := if p = 0 then 2 else 7
    videoId := 0
    clock := (rate + 500) / 1000
    hDisplay := width.setWidth 16
    hSyncStart := hSyncStart
    hSyncEnd := (wide hSyncStart + 2 * (fw.read 1 0x0c &&& 65535)).setWidth 16
    hTotal := fw.hTotal.setWidth 16
    hSkew := 0
    vDisplay := height.setWidth 16
    vSyncStart := vSyncStart
    vSyncEnd := (wide vSyncStart + (fw.read 1 0x14 &&& 65535)).setWidth 16
    vTotal := fw.vTotal.setWidth 16
    vScan := 0
    vRefresh := BitVec.ofNat 16 ((fw.rate + (fw.hTotal * fw.vTotal / 2).toNat) / (fw.hTotal * fw.vTotal).toNat)
    flags := (if fw.read (6 + p) 0xec &&& 0x4000 ≠ 0 then 1 else 0) |||
      if fw.read (6 + p) 0xec &&& 0x8000 ≠ 0 then 2 else 0 }

/-- The timing under the name that the monitor has for it. -/
def named (p : Port) : Timing :=
  let t := fw.timing p
  let t := if fw.hdmi then t else { t with flags := t.flags ||| 0x200 }
  match fw.modes.find? (Timing.Same · t) with
  | none => t
  | some m => { t with videoId := m.videoId, flags := m.flags }

def nativeMaxClock : BitVec 32 :=
  if fw.hsmRate < 120000000 ∨ fw.bvbRate < 75000000 then 0
  else
    let clock := min 222000 (fw.hsmRate.toNat * 100 / 101 / 1000)
    BitVec.ofNat 32 (if fw.bvbRate < 150000000 then min clock 148500 else clock)

/-! ### The descriptor -/

def postPointer : BitVec 32 := fw.word 5

def postBase : BitVec 32 := (fw.postPointer >>> 16) &&& 1023

def postHandle : BitVec 32 := (fw.postPointer >>> 10) &&& 31

def targetBase (p : Port) : BitVec 32 := if p = 0 then 0 else 512

/-- The handle for the layout that the driver uses. -/
def layoutHandle (p : Port) : BitVec 32 :=
  if fw.pitch ≠ fw.width * 4 ∨ fw.postBase ≠ targetBase p then (fw.postHandle + 2) &&& 31 else fw.postHandle

/-- It is not the one that the other output starts with. -/
def startHandle (p : Port) : BitVec 32 :=
  if fw.layoutHandle p = (if p = 0 then 1 else 0) then (fw.layoutHandle p + 2) &&& 31 else fw.layoutHandle p

def upmDescriptor (p : Port) (ownsPost : Bool) : BitVec 32 :=
  if ownsPost then targetBase p <<< 16 ||| fw.startHandle p <<< 10
  else if p = 0 then 0 else (512 : BitVec 32) <<< 16 ||| (1 : BitVec 32) <<< 10

def Accepted (p : Port) (ownsPost fullDisplay : Bool) : Prop :=
  (fullDisplay = false → p = 0) ∧ fw.served = true ∧ fw.Clocked ∧ fw.Scanned ∧ fw.Listed ownsPost ∧ fw.Ends 64 0 ∧
  fw.Unused p (if fullDisplay then 2 else 1)

instance (p : Port) (ownsPost fullDisplay : Bool) : Decidable (fw.Accepted p ownsPost fullDisplay) :=
  inferInstanceAs (Decidable (_ ∧ _))

/-- An output as it is when it starts to show pictures, if what the firmware left is accepted. -/
def start (p : Port) (ownsPost fullDisplay : Bool) : Option Output :=
  let pitch := if ownsPost then fw.width * 4 else fw.pitch
  let frame := (pitch * fw.height + 4095) &&& ~~~4095
  if fw.Accepted p ownsPost fullDisplay then
    some
      { owned := true
        fullDisplay := fullDisplay
        upmDescriptor := fw.upmDescriptor p ownsPost
        width := fw.width
        height := fw.height
        pitch := pitch
        hTotal := fw.hTotal
        vTotal := fw.vTotal
        pixelRate := BitVec.ofNat 32 fw.rate
        originalTiming := fw.timing p
        currentTiming := if fullDisplay then fw.named p else fw.timing p
        originalNative := fw.native
        nativeMaxClock := if fullDisplay then fw.nativeMaxClock else 0
        frameBytes :=
          if fullDisplay then 32 * 1024 * 1024
          else if (fw.timing p).Supported ∧ frame < (fw.timing p).frameBytes then (fw.timing p).frameBytes
          else frame
        dma := fw.dma
        front := 0
        visible := true
        timingChanged := false
        modeChanging := false
        fault := false }
  else none

end Firmware

open Effect Recorded

/-- Takes an output over from the firmware, if that was not done before. -/
def takeOver (p : Port) (ownsPost full : Bool) (fw : Firmware) : Drive Unit := do
  let o ← lookAt p
  if o.owned = true then pure ()
  else match fw.start p ownsPost full with
    | none => stop .deviceConfigurationError
    | some o => do
      set p fun _ => o
      writeCurrentLists p

end Pi5Drivers.Display
