import Pi5Drivers.Lib.Common
import Mathlib.Data.Nat.Notation

/-! Display timings, and the values that the registers of an output get for one. -/

namespace Pi5Drivers.Display

/-! ### Timings -/

/-- The layout of the firmware. The clock is in kHz. -/
structure Timing where
  display : BitVec 8
  videoId : BitVec 16
  clock : BitVec 32
  hDisplay : BitVec 16
  hSyncStart : BitVec 16
  hSyncEnd : BitVec 16
  hTotal : BitVec 16
  hSkew : BitVec 16
  vDisplay : BitVec 16
  vSyncStart : BitVec 16
  vSyncEnd : BitVec 16
  vTotal : BitVec 16
  vScan : BitVec 16
  vRefresh : BitVec 16
  flags : BitVec 32
deriving DecidableEq, Repr

/-- An operand of a 32 bit operation. -/
abbrev wide {n : ℕ} (x : BitVec n) : BitVec 32 := x.setWidth 32

namespace Timing

variable (t : Timing)

def pitch : BitVec 32 := (wide t.hDisplay * 4 + 63) &&& ~~~63

def frameBytes : BitVec 32 := (t.pitch * wide t.vDisplay + 4095) &&& ~~~4095

def Supported : Prop :=
  (t.hDisplay ||| t.hSyncStart ||| t.hSyncEnd ||| t.hTotal) &&& 1 = 0 ∧ 25000 ≤ t.clock ∧ t.clock ≤ 600000 ∧
  640 ≤ t.hDisplay ∧ t.hDisplay ≤ 4096 ∧ 480 ≤ t.vDisplay ∧ t.vDisplay ≤ 2160 ∧ t.hDisplay ≤ t.hSyncStart ∧
  t.hSyncStart < t.hSyncEnd ∧ t.hSyncEnd < t.hTotal ∧ t.hTotal ≤ 8192 ∧ t.vDisplay ≤ t.vSyncStart ∧
  t.vSyncStart < t.vSyncEnd ∧ t.vSyncEnd < t.vTotal ∧ t.vTotal ≤ 8192 ∧ t.hSkew = 0 ∧ t.vScan ≤ 1 ∧
  20 ≤ t.vRefresh ∧ t.vRefresh ≤ 240 ∧ t.flags &&& ~~~0x3f3 = 0 ∧ (t.flags >>> 4) &&& 15 ≤ 4 ∧
  t.frameBytes ≤ 32 * 1024 * 1024

instance : Decidable t.Supported := inferInstanceAs (Decidable (_ ∧ _))

/-- The driver takes two timings for one if they differ in no more than their names. -/
def Same (a b : Timing) : Prop :=
  a.clock = b.clock ∧ a.hDisplay = b.hDisplay ∧ a.hSyncStart = b.hSyncStart ∧ a.hSyncEnd = b.hSyncEnd ∧
  a.hTotal = b.hTotal ∧ a.vDisplay = b.vDisplay ∧ a.vSyncStart = b.vSyncStart ∧ a.vSyncEnd = b.vSyncEnd ∧
  a.vTotal = b.vTotal ∧ a.flags &&& 7 = b.flags &&& 7

instance (a b : Timing) : Decidable (a.Same b) := inferInstanceAs (Decidable (_ ∧ _))

/-- The edges are in order by then, so that no difference is negative. -/
def NativeSupported : Prop :=
  t.Supported ∧ t.clock ≤ 222000 ∧ t.hTotal.toNat - t.hSyncEnd.toNat ≤ 2047 ∧
  t.hSyncEnd.toNat - t.hSyncStart.toNat ≤ 2047 ∧ t.vTotal.toNat - t.vSyncEnd.toNat ≤ 511 ∧
  t.vSyncEnd.toNat - t.vSyncStart.toNat ≤ 31 ∧ t.vSyncStart.toNat - t.vDisplay.toNat ≤ 127

instance : Decidable t.NativeSupported := inferInstanceAs (Decidable (_ ∧ _))

end Timing

/-! ### The registers of an output -/

inductive NativeField
  | pvControl | pvVertical | pvEvenDelay | pvHa | pvHb | pvVa | pvVb | pvMux | pvPipe
  | phyReset | phyPower | lane0 | lane1 | lane2 | laneClock | refClock | postDivider | vcoDivider
  | pllConfig | tmdsWord | misc0 | misc1 | misc2 | misc3 | misc4 | misc5 | misc6 | misc7 | misc8 | pllReset | pllPower
  | rmOffset | fifo | packetConfig | scheduler | ha | hb | va0 | vb0 | va1 | vb1 | miscControl | deepColor | gcpConfig
  | gcpWord | scrambler
  | clockStop | vectorConfig | vectorCrossbar | cscControl | csc11 | csc13 | csc21 | csc23 | csc31 | csc33 | cscChannel
  | avi0 | avi1 | avi2 | avi3 | avi4 | avi5 | avi6 | avi7 | avi8 | vidControl | hvsControl1
deriving DecidableEq, Repr

namespace NativeField

/-! The fields in their order, cut where the driver writes only a part of them. -/

def pvTimings : List NativeField := [pvEvenDelay, pvHa, pvHb, pvVa, pvVb, pvMux, pvPipe]

def lanes : List NativeField := [lane0, lane1, lane2, laneClock]

def miscs : List NativeField := [misc0, misc1, misc2, misc3, misc4, misc5, misc6, misc7, misc8]

def signal : List NativeField :=
  [ha, hb, va0, vb0, va1, vb1, miscControl, deepColor, gcpConfig, gcpWord, scrambler]

def colours : List NativeField :=
  [clockStop, vectorConfig, vectorCrossbar, cscControl, csc11, csc13, csc21, csc23, csc31, csc33, cscChannel]

def avis : List NativeField := [avi0, avi1, avi2, avi3, avi4, avi5, avi6, avi7, avi8]

def all : List NativeField :=
  [pvControl, pvVertical] ++ pvTimings ++ [phyReset, phyPower] ++ lanes ++
  [refClock, postDivider, vcoDivider, pllConfig, tmdsWord] ++ miscs ++
  [pllReset, pllPower, rmOffset, fifo, packetConfig, scheduler] ++ signal ++ colours ++ avis ++ [vidControl, hvsControl1]

theorem mem_all (f : NativeField) : f ∈ all := by cases f <;> decide

end NativeField

abbrev NativeState := NativeField → BitVec 32

/-! ### The registers for a timing -/

/-- The packet that tells the monitor about the picture, before its checksum. -/
def aviByte (t : Timing) (limited : Bool) : ℕ → BitVec 8
  | 0 => 0x82
  | 1 => 2
  | 2 => 13
  | 4 => 0x10
  | 5 =>
    let aspect := (t.flags >>> 4) &&& 15
    if aspect = 1 ∨ aspect = 2 then 8 ||| (aspect <<< 4).setWidth 8 else 8
  | 6 => if limited then 4 else 8
  | 7 => if t.videoId ≤ 127 then t.videoId.setWidth 8 else 0
  | _ => 0

def aviChecked (t : Timing) (limited : Bool) (i : ℕ) : BitVec 8 :=
  if i = 3 then 0 - ((List.range 17).map (aviByte t limited)).sum else aviByte t limited i

/-- Seven bytes go into two words. -/
def aviWord (t : Timing) (limited : Bool) (w : ℕ) : BitVec 32 :=
  let byte i := wide (aviChecked t limited i)
  let i := w / 2 * 7
  if w % 2 = 0 then byte i ||| byte (i + 1) <<< 8 ||| byte (i + 2) <<< 16
  else byte (i + 3) ||| byte (i + 4) <<< 8 ||| byte (i + 5) <<< 16 ||| byte (i + 6) <<< 24

/-- The limits of the divider of the clock, and the divider. -/
def dividers (t : Timing) : ℕ × ℕ × ℕ :=
  let bitRate := t.clock.toNat * 10000
  let lo := (8000000000 + bitRate - 1) / bitRate
  let hi := 11999999999 / bitRate
  (lo, hi, lo + (hi - lo) / 2)

def nativeBuild (t : Timing) (v : NativeState) : Option NativeState :=
  if t.NativeSupported then
    let (lo, hi, div) := dividers t
    if hi < lo ∨ 1023 < hi then none
    else
      let hf := wide t.hSyncStart - wide t.hDisplay
      let hs := wide t.hSyncEnd - wide t.hSyncStart
      let hb := wide t.hTotal - wide t.hSyncEnd
      let vf := wide t.vSyncStart - wide t.vDisplay
      let vs := wide t.vSyncEnd - wide t.vSyncStart
      let vb := wide t.vTotal - wide t.vSyncEnd
      let pixels : BitVec 32 := if v .pvVertical &&& 0x20000000 ≠ 0 then 1 else 2
      let hdmi : Bool := t.flags &&& 0x200 = 0
      let limited : Bool := hdmi && 1 < t.videoId
      some fun
        | .rmOffset => 0x80000000 ||| BitVec.ofNat 32 (t.clock.toNat * 10000 * div * 2 ^ 21 / 54000000)
        | .vcoDivider => 0x400 ||| BitVec.ofNat 32 div
        | .refClock => 0x2036
        | .postDivider => 9
        | .pllConfig => 0
        | .phyReset => 0x7f
        | .phyPower => 0x1cf
        | .pllPower => 1
        | .pllReset => v .pllReset ||| 1
        | .lane0 | .lane1 | .lane2 | .laneClock => 0x80828700
        | .tmdsWord => 0
        | .misc0 => 0x810c6000
        | .misc1 => 0x00b8c451
        | .misc2 => 0x46402e31
        | .misc3 => 0x00b8c005
        | .misc4 => 0x42410261
        | .misc5 => 0xcc021001
        | .misc6 => 0xc8301c80
        | .misc7 => 0xb0804444
        | .misc8 => 0xf80f8000
        | .pvHa => (hb / pixels) <<< 16 ||| hs / pixels
        | .pvHb => (hf / pixels) <<< 16 ||| wide t.hDisplay / pixels
        | .pvVa => vb <<< 16 ||| vs
        | .pvVb => vf <<< 16 ||| wide t.vDisplay
        | .ha => hf <<< 16 ||| (t.flags &&& 3) <<< 14 ||| wide t.hDisplay
        | .hb => hb <<< 16 ||| hs
        | .va0 | .va1 => vs <<< 24 ||| vf <<< 16 ||| wide t.vDisplay
        | .vb0 | .vb1 => vb
        | .scheduler => (v .scheduler &&& ~~~3) ||| if hdmi then 1 else 0
        | .avi0 => aviWord t limited 0
        | .avi1 => aviWord t limited 1
        | .avi2 => aviWord t limited 2
        | .avi3 => aviWord t limited 3
        | .avi4 => aviWord t limited 4
        | .avi5 => aviWord t limited 5
        | .avi6 | .avi7 | .avi8 => 0
        | .packetConfig => 0x10000 ||| if hdmi then 4 else 0
        | .vidControl =>
          (v .vidControl &&& ~~~0x18040000) ||| 0x80010000 ||| (if t.flags &&& 1 ≠ 0 then 0 else 0x08000000) |||
            if t.flags &&& 2 ≠ 0 then 0 else 0x10000000
        | f => v f
  else none

end Pi5Drivers.Display
