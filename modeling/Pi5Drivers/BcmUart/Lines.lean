import Pi5Drivers.BcmUart.Driver
import Pi5Drivers.Serial.Service

/-! The registers of the port as its writes leave them, and the two programs that set them. The
interrupt enable register shares its offset with a byte of the divisor, which a bit of the line
control register selects. -/

namespace Pi5Drivers.BcmUart

open Serial Effect Recorded

/-- What was last written to the registers that say what the port receives. -/
structure Lines where
  ier : BitVec 32
  mcr : BitVec 32
  lcr : BitVec 32

/-- The divisor is not selected. -/
def Lines.Plain (d : Lines) : Prop := d.lcr &&& 0x80 = 0

instance (d : Lines) : Decidable d.Plain := inferInstanceAs (Decidable (d.lcr &&& 0x80 = 0))

def Lines.wrote (d : Lines) (offset : ℕ) (value : BitVec 32) : Lines :=
  if offset = uartIer then (if d.Plain then { d with ier := value } else d)
  else if offset = uartMcr then { d with mcr := value }
  else if offset = uartLcr then { d with lcr := value }
  else d

/-- As many bytes may wait as the high-water mark says, and none is lost. -/
def contract : Contract Lines := ⟨highWater, false, ⟨0, 0, 0⟩, Lines.wrote⟩

abbrev reader : Observer Event (Watch Lines) := observer contract

/-- While the port is open and online, the receive interrupt is enabled exactly when nothing holds
receive back, and the peer may send only then. -/
def Wired (u : Uart) (d : Lines) : Prop :=
  u.isOpen = true → u.online = true → d.ier = u.mask ∧
    u.mask &&& uartRxIrq = (if u.own.holds then 0 else uartRxIrq) ∧ (d.mcr &&& uartRts ≠ 0 → u.own.holds = false)

/-- The registers are of no matter. -/
abbrev Raw (R : Uart → Prop) : Uart → Watch Lines → Prop := With fun u (_ : Lines) => R u

/-- The registers are addressed, but may not be set. -/
abbrev Plain (R : Uart → Prop) : Uart → Watch Lines → Prop := With fun u (d : Lines) => d.Plain ∧ R u

abbrev Ready (R : Uart → Prop) : Uart → Watch Lines → Prop := With fun u (d : Lines) => (d.Plain ∧ Wired u d) ∧ R u

section Lines

variable {R S : Uart → Prop} {E : Status → Context Own → Prop} {d : Lines} {u : Uart} {offset : ℕ} {value : BitVec 32}

theorem wrote_other (ier : offset ≠ uartIer) (mcr : offset ≠ uartMcr) (lcr : offset ≠ uartLcr) :
    d.wrote offset value = d := by
  rw [Lines.wrote, if_neg ier, if_neg mcr, if_neg lcr]

theorem plain_wrote (h : d.Plain) (lcr : offset ≠ uartLcr) : (d.wrote offset value).Plain := by
  unfold Lines.wrote
  by_cases ier : offset = uartIer
  · rw [if_pos ier, if_pos h]
    exact h
  by_cases mcr : offset = uartMcr
  · rw [if_neg ier, if_pos mcr]
    exact h
  · rw [if_neg ier, if_neg mcr, if_neg lcr]
    exact h

/-- The bits of the receive interrupt in the mask. -/
theorem mask_rx (holds armed : Bool) :
    (uartModemIrq ||| (if holds then 0 else uartRxIrq) ||| (if armed then uartTxIrq else 0)) &&& uartRxIrq =
      if holds then 0 else uartRxIrq := by
  cases holds <;> cases armed <;> decide

theorem modem_rts (control : BitVec 32) : control &&& ~~~uartRts &&& uartRts = 0 := by
  rw [BitVec.and_assoc, show ~~~uartRts &&& uartRts = 0 by decide]
  exact BitVec.and_zero

theorem wired_maskOf (h : d.Plain) :
    Wired { u with mask := maskOf u } ((d.wrote uartMcr (modemOf u)).wrote uartIer (maskOf u)) := by
  intro isOpen online
  have mcr : d.wrote uartMcr (modemOf u) = { d with mcr := modemOf u } := by
    rw [Lines.wrote, if_neg (by decide), if_pos rfl]
  have ier : ({ d with mcr := modemOf u } : Lines).wrote uartIer (maskOf u) = { d with mcr := modemOf u, ier := maskOf u } := by
    rw [Lines.wrote, if_pos rfl, if_pos (show ({ d with mcr := modemOf u } : Lines).Plain from h)]
  have on : (u.isOpen && u.online) = true := by
    rw [show u.isOpen = true from isOpen, show u.online = true from online]
    rfl
  rw [mcr, ier]
  refine ⟨rfl, ?_, fun some => ?_⟩
  · change maskOf u &&& uartRxIrq = _
    rw [maskOf, if_pos on]
    exact mask_rx _ _
  · by_contra holds
    refine some ?_
    change modemOf u &&& uartRts = 0
    rw [modemOf, if_pos (Bool.not_eq_false _ ▸ holds)]
    exact modem_rts _

/-- Whatever was programmed before, the mask says what the port receives. -/
theorem uartInterruptMask_rule (frame : ∀ u mask, R u → S { u with mask := mask }) :
    Triple (Assert reader (Plain R)) uartInterruptMask (fun _ => Assert reader (Ready S)) E := by
  refine Triple.bind (change_with (G := fun u (d : Lines) => ∃ before, u = { before with mask := maskOf before } ∧
    d.Plain ∧ R before) _ (fun _ => ⟨rfl, rfl, rfl, rfl⟩) fun u d h => ⟨u, rfl, h⟩) fun _ => look_rule fun v => ?_
  refine Triple.bind (record_rule (B := fun u w => Held u w ∧ u = v ∧ ∃ before d, u = { before with mask := maskOf before } ∧
    w.device = Lines.wrote d uartMcr (modemOf before) ∧ d.Plain ∧ R before) _ (fun _ _ _ => trivial) ?_) fun _ => ?_
  · rintro u w ⟨rfl, held, before, rfl, plain, hr⟩
    exact ⟨⟨held.fits, held.queue, held.lost, held.rx, held.tx⟩, rfl, before, w.device, rfl, rfl, plain, hr⟩
  refine Triple.bind (record_rule (B := Ready S) _ (fun _ _ _ => trivial) ?_) fun _ =>
    Triple.bind (read_rule _) fun _ => pure_rule
  rintro u w ⟨held, rfl, before, d, rfl, device, plain, hr⟩
  have final : (reader.saw w (.wrote uartIer (maskOf before))).device =
      (d.wrote uartMcr (modemOf before)).wrote uartIer (maskOf before) := congrArg (fun d => Lines.wrote d uartIer (maskOf before)) device
  refine ⟨⟨held.fits, held.queue, held.lost, held.rx, held.tx⟩, ?_⟩
  rw [final]
  exact ⟨⟨plain_wrote (plain_wrote plain (by decide)) (by decide), wired_maskOf plain⟩, frame before _ hr⟩

theorem write_raw (offset : ℕ) (value : BitVec 32) :
    Triple (Assert reader (Raw R)) (write offset value : Drive Unit) (fun _ => Assert reader (Raw R)) E :=
  write_with _ _ fun _ _ h => h

theorem write_plain (lcr : offset ≠ uartLcr) :
    Triple (Assert reader (Plain R)) (write offset value : Drive Unit) (fun _ => Assert reader (Plain R)) E :=
  write_with _ _ fun _ _ h => ⟨plain_wrote h.1 lcr, h.2⟩

theorem write_ready (ier : offset ≠ uartIer) (mcr : offset ≠ uartMcr) (lcr : offset ≠ uartLcr) :
    Triple (Assert reader (Ready R)) (write offset value : Drive Unit) (fun _ => Assert reader (Ready R)) E :=
  write_with _ _ fun _ _ h => by rwa [show contract.wrote _ offset value = _ from wrote_other ier mcr lcr]

/-- A line control without the bit that selects the divisor. -/
theorem write_lcr (h : value &&& 0x80 = 0) :
    Triple (Assert reader (Raw R)) (write uartLcr value : Drive Unit) (fun _ => Assert reader (Plain R)) E :=
  write_with _ _ fun u d hr => by
    refine ⟨?_, hr⟩
    rw [show contract.wrote d uartLcr value = { d with lcr := value } from rfl]
    exact h

/-- The divisor is set, and then the mask. -/
theorem uartProgram_rule (line : ∀ u, R u → u.line &&& 0x80 = 0) (frame : ∀ u mask, R u → S { u with mask := mask }) :
    Triple (Assert reader (Raw R)) uartProgram (fun _ => Assert reader (Ready S)) E := by
  refine look_rule fun u => Triple.mono (P := Assert reader fun v w => u.line &&& 0x80 = 0 ∧ Raw R v w)
    (assume_rule fun clear => ?_) (fun _ hc => hc.mono ?_) (fun _ _ hc => hc) fun _ _ hc => hc
  · refine Triple.bind (write_raw _ _) fun _ => Triple.bind (write_raw _ _) fun _ => Triple.bind (write_raw _ _) fun _ => ?_
    refine Triple.bind (write_raw _ _) fun _ => Triple.bind (write_lcr clear) fun _ => ?_
    exact uartInterruptMask_rule frame
  · rintro v w ⟨rfl, h⟩
    exact ⟨line v h.2, h⟩

end Lines

end Pi5Drivers.BcmUart
