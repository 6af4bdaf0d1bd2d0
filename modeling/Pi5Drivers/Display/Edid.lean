import Pi5Drivers.Display.Modes
import Pi5Drivers.Lib.Effect

/-! What a monitor says about itself, and the list of modes that the driver makes of it. Every byte is read
through a check that it lies in the buffer, so that a reader that leaves it stops with a fault. -/

namespace Pi5Drivers.Display

open Effect

/-! ### Reading -/

def maxModes : ℕ := 128

def maxEdidBlocks : ℕ := 8

/-- The first bytes of the array are the ones of the monitor. The number of modes is the length of their list. -/
structure Monitor where
  edid : ℕ → BitVec 8
  bytes : ℕ
  modes : List Timing
  preferred : ℕ
  hdmi : Bool

/-- What a reader must not do. -/
inductive Fault
  | outside (i : ℕ)
  | noMode (i : ℕ)
  | unfinished
deriving DecidableEq, Repr

abbrev Parser := Effect Monitor Fault

/-- The end of what may be read: of the bytes that are there, and of the array. -/
def Monitor.size (m : Monitor) : ℕ := min m.bytes (128 * maxEdidBlocks)

def byte (i : ℕ) : Parser (BitVec 8) := do
  let m ← get
  if i < m.size then pure (m.edid i) else stop (.outside i)

/-- The bytes of a field, from its place on. -/
def field (i n : ℕ) : Parser (ℕ → BitVec 8) := do
  let m ← get
  if i + n ≤ m.size then pure fun k => m.edid (i + k) else stop (.outside i)

def checksum (b : ℕ → BitVec 8) : Bool := ((List.range 128).map fun i => wide (b i)).sum &&& 255 = 0

def header (b : ℕ → BitVec 8) : Bool := (List.range 8).map b = [0, 255, 255, 255, 255, 255, 255, 0] ∧ b 18 = 1

def word (b : ℕ → BitVec 8) : BitVec 16 := (b 0).setWidth 16 ||| (b 1).setWidth 16 <<< 8

def Timing.zero : Timing := ⟨0, 0, 0, 0, 0, 0, 0, 0, 0, 0, 0, 0, 0, 0, 0⟩

/-- The clock over the area of the frame, rounded. -/
def refreshOf (clock hTotal vTotal : ℕ) : ℕ := (clock * 1000 + hTotal * vTotal / 2) / (hTotal * vTotal)

/-- Only progressive timings with digital separate sync are read. -/
def detailed (b : ℕ → BitVec 8) : Timing :=
  if word b = 0 ∨ b 17 &&& 0xf9 ≠ 0x18 then Timing.zero
  else
    let clock := wide (word b) * 10
    let hDisplay : BitVec 16 := (wide (b 2) ||| (wide (b 4) &&& 0xf0) <<< 4).setWidth 16
    let hTotal : BitVec 16 := (wide hDisplay + wide (b 3) + (wide (b 4) &&& 15) <<< 8).setWidth 16
    let vDisplay : BitVec 16 := (wide (b 5) ||| (wide (b 7) &&& 0xf0) <<< 4).setWidth 16
    let vTotal : BitVec 16 := (wide vDisplay + wide (b 6) + (wide (b 7) &&& 15) <<< 8).setWidth 16
    let hSyncStart : BitVec 16 := (wide hDisplay + wide (b 8) + (wide (b 11) &&& 0xc0) <<< 2).setWidth 16
    let hSyncEnd : BitVec 16 := (wide hSyncStart + wide (b 9) + (wide (b 11) &&& 0x30) <<< 4).setWidth 16
    let vSyncStart : BitVec 16 := (wide vDisplay + wide (b 10) >>> 4 + (wide (b 11) &&& 12) <<< 2).setWidth 16
    let vSyncEnd : BitVec 16 := (wide vSyncStart + (wide (b 10) &&& 15) + (wide (b 11) &&& 3) <<< 4).setWidth 16
    { display := 0
      videoId := 0
      clock := clock
      hDisplay := hDisplay
      hSyncStart := hSyncStart
      hSyncEnd := hSyncEnd
      hTotal := hTotal
      hSkew := 0
      vDisplay := vDisplay
      vSyncStart := vSyncStart
      vSyncEnd := vSyncEnd
      vTotal := vTotal
      vScan := 0
      vRefresh :=
        if hTotal ≠ 0 ∧ vTotal ≠ 0 then BitVec.ofNat 16 (refreshOf clock.toNat hTotal.toNat vTotal.toNat) else 0
      flags := (if b 17 &&& 2 ≠ 0 then 1 else 0) ||| if b 17 &&& 4 ≠ 0 then 2 else 0 }

/-! ### The list of modes -/

/-- A mode that is found again gets the video code if it has none. -/
def Timing.merged (t s : Timing) : Timing :=
  if t.videoId ≠ 0 ∧ s.videoId = 0 then { s with videoId := t.videoId, flags := s.flags ||| (t.flags &&& 0xf0) } else s

/-- A mode of a monitor without HDMI. -/
def Timing.asDvi (t : Timing) : Timing := { t with flags := t.flags ||| 0x200 }

namespace Monitor

def prefer (m : Monitor) (preferred : Bool) (i : ℕ) : Monitor :=
  if preferred ∧ m.preferred = maxModes then { m with preferred := i } else m

def add (m : Monitor) (t : Timing) (preferred : Bool) : Bool × Monitor :=
  if t.Supported then
    match m.modes.findIdx? fun s => decide (t.Same s) with
    | none =>
      if m.modes.length = maxModes then (false, m)
      else (true, { m with modes := m.modes ++ [t] }.prefer preferred m.modes.length)
    | some i => (true, { m with modes := m.modes.modify i t.merged }.prefer preferred i)
  else (false, m)

end Monitor

/-! ### The parser -/

/-- Nobody asks whether there was room. -/
def advertise (t : Timing) (preferred : Bool) : Parser Unit := modify fun m => (m.add t preferred).2

/-- The height that goes with a width. Before the third revision the first ratio was that of a square. -/
def heightOf (w : BitVec 32) (ratio revision : BitVec 8) : BitVec 32 :=
  if ratio = 0 then if revision < 3 then w else w * 10 / 16
  else if ratio = 1 then w * 3 / 4
  else if ratio = 2 then w * 4 / 5
  else w * 9 / 16

/-- The first timing of the size and the rate, or the first of them whose blanking is not reduced. -/
def standardMode (w h rate : BitVec 32) : Option Timing :=
  let found := dmtModes.filter fun t => wide t.hDisplay = w ∧ wide t.vDisplay = h ∧ wide t.vRefresh = rate ∧ t.Supported
  match found.find? fun t => wide t.hTotal - wide t.hDisplay ≠ 160 with
  | some t => some t
  | none => found.head?

def standard (p : ℕ) (revision : BitVec 8) : Parser Unit := do
  let first ← byte p
  if first ≤ 1 then pure ()
  else
    let second ← byte (p + 1)
    let w := (wide first + 31) * 8
    match standardMode w (heightOf w (second >>> 6) revision) ((wide second &&& 63) + 60) with
    | some t => advertise t false
    | none => pure ()

/-- A descriptor of the base block. The first one is the preferred one. -/
def descriptor (i : ℕ) : Parser Unit := do
  let clock ← field i 2
  if word clock ≠ 0 then do
    let b ← field i 18
    advertise (detailed b) (i = 54)
  else do
    let tag ← byte (i + 3)
    when (tag = 0xfa) do
      let revision ← byte 19
      each (fun k => standard (i + 5 + 2 * k) revision) (List.range 6)

def established (bits : BitVec 32) (i : ℕ) : Parser Unit :=
  when (bits &&& 1 <<< i ≠ 0) <|
    match establishedModes[i]? with
    | some t => advertise t false
    | none => stop (.noMode i)

/-- A short video descriptor. -/
def video (p : ℕ) : Parser Unit := do
  let svd ← byte p
  let native : Bool := 129 ≤ svd ∧ svd ≤ 192
  let vic := (if native then svd &&& 127 else svd).toNat
  when (vic ≠ 0 ∧ vic ≤ ctaModes.length) <|
    match ctaModes[vic - 1]? with
    | some t => advertise t native
    | none => stop (.noMode vic)

def vendor (p : ℕ) : Parser Unit := do
  let a ← byte p
  let b ← byte (p + 1)
  let c ← byte (p + 2)
  let oui := wide a ||| wide b <<< 8 ||| wide c <<< 16
  when (oui = 0xc03 ∨ oui = 0xc45dd8) (modify fun m => { m with hdmi := true })

/-- The data blocks of an extension from a place of it on, up to their end. -/
def dataBlocks (base last : ℕ) : ℕ → ℕ → Parser Unit
  | 0, i => if i < last then stop .unfinished else pure ()
  | fuel + 1, i =>
    if i < last then do
      let head ← byte (base + i)
      let n := (head &&& 31).toNat
      if last - (i + 1) < n then pure ()
      else do
        when (head >>> 5 = 2) (each (fun j => video (base + (i + 1 + j))) (List.range n))
        when (head >>> 5 = 3 ∧ 3 ≤ n) (vendor (base + (i + 1)))
        dataBlocks base last fuel (i + 1 + n)
    else pure ()

def extension (block : ℕ) : Parser Unit := do
  let base := block * 128
  let b ← field base 128
  when (checksum b ∧ b 0 = 2 ∧ 3 ≤ b 1 ∧ 4 ≤ b 2 ∧ b 2 ≤ 127) do
    let last := (b 2).toNat
    dataBlocks base last last 4
    -- as many as there is room for before the checksum
    each (fun k => do
      let d ← field (base + (last + 18 * k)) 18
      advertise (detailed d) (k < (b 3 &&& 15).toNat)) (List.range ((127 - last) / 18))

def parse : Parser Bool := do
  modify fun m => { m with modes := [], preferred := maxModes, hdmi := false }
  let m ← get
  if m.bytes < 128 ∨ 128 * maxEdidBlocks < m.bytes ∨ m.bytes % 128 ≠ 0 then pure false
  else do
    let b ← field 0 128
    if header b = false ∨ checksum b = false then pure false
    else do
      each descriptor [54, 72, 90, 108]
      each (established (wide (b 35) ||| wide (b 36) <<< 8 ||| (wide (b 37) &&& 128) <<< 9)) (List.range 17)
      each (fun k => standard (38 + 2 * k) (b 19)) (List.range 8)
      each extension (List.range' 1 (min (m.bytes / 128) ((b 126).toNat + 1) - 1))
      modify fun m => if m.hdmi then m else { m with modes := m.modes.map Timing.asDvi }
      modify fun m => if m.modes ≠ [] ∧ m.preferred = maxModes then { m with preferred := 0 } else m
      let m ← get
      pure (decide (m.modes ≠ []))

end Pi5Drivers.Display
