import Mathlib.Data.List.Induction
import Pi5Drivers.Rp1Gpio.Requests

/-! Runs of the driver, from preparing on: requests in any order, also stops and starts, and registers that
change from outside between them. -/

namespace Pi5Drivers.Rp1Gpio

open Effect GpioClx

variable {r₀ r : Regs} {c : Context} {p : ℕ}

theorem gpioPrepare_run (idle : r.gpioRead .io rp1Inte = 0) : gpioPrepare.run ⟨blank, ⟨r, []⟩⟩ = (.ok (), prepared r) :=
  (run_bind_ok rfl).trans (run_bind_ok (run_require_of_pos idle))

theorem prepared_inv (r₀ : Regs) : Inv r₀ (prepared r₀).driver where
  boot := fun _ hp => if_pos ((mem_listed Set.Subset.rfl).mpr hp)
  resume := fun p => ⟨fun _ _ => 0, by simp [prepared, blank, gpioSnapshot, Regs.gpioRead]⟩
  resumed := fun _ hp => by simp [prepared, blank] at hp
  known := fun _ hp => by simp [prepared, blank] at hp
  sound := by
    have nobody : owners (prepared r₀).driver = Owners.none := by
      simp only [owners, prepared, blank, pins_zero, Owners.none]
    exact nobody ▸ Owners.sound_none

theorem step_inv (h : Inv r₀ c.driver) (e : Event) : Inv r₀ (step c e).driver := by
  cases e with
  | outside r => exact h
  | ask r =>
    have answers := serve_answers h r (s := c) rfl
    change Inv r₀ ((serve r).run c).2.driver
    rcases hr : (serve r).run c with ⟨status | ⟨⟩, c'⟩
    · rw [hr] at answers
      exact answers ▸ h
    · rw [hr] at answers
      exact answers.1.inv

theorem run_inv (r₀ : Regs) (events : List Event) : Inv r₀ (run r₀ events).driver := by
  induction events using List.reverseRecOn with
  | nil => exact prepared_inv r₀
  | append_singleton events e ih =>
    rw [run, List.foldl_append]
    exact step_inv ih e

/-! ### Power -/

/-- The register that enables interrupts belongs to no pin. -/
theorem inte_seen (hp : p < 54) (i : ℕ) : ⟨.io, rp1Inte, i⟩ ∉ seen p := by
  have aligned := bankOffset_aligned p
  have low := bankPin_lt hp
  rintro (same | same)
  · rw [mem_watched_io] at same
    unfold rp1Inte rp1Ctrl at same
    omega
  · cases same

/-- A stop that saves, registers that may have changed meanwhile, and a start that restores. -/
def cycled (c : Context) (r : Regs) : Context :=
  step (step (step c (.ask (.stop true))) (.outside r)) (.ask (.start true none))

/-- The registers when the driver has started again. -/
theorem cycled_machine (c : Context) (r : Regs) : (cycled c r).machine =
    Machine.gpioWrite (Journal.rounds (fun pin => gpioRestore (save c.machine.now c.driver.touched c.driver.resume pin) pin)
      (listed c.driver.touched) ⟨r, (stoppedMachine c.driver c.machine).past⟩)
      .io (rp1Set + rp1Inte) (c.machine.now.gpioRead .io rp1Inte &&& c.driver.irqOwned) :=
  rfl

theorem cycled_snapshot (inv : Inv r₀ c.driver) (r : Regs) (hp : p ∈ pins c.driver.touched) :
    gpioSnapshot (cycled c r).machine.now p = gpioSnapshot c.machine.now p := by
  have low : p < 54 := (allowed_lt (inv.known hp)).2
  rw [cycled_machine, (setInte_within _ _).snapshot low]
  · rw [restored_rounds (touched_bounds inv) (fun q _ => saved_save inv.resume q) ((mem_listed inv.known).mpr hp)]
    exact if_pos ((mem_listed inv.known).mpr hp)
  · rintro x hx ⟨q, -, rfl⟩
    exact inte_seen low q hx

theorem cycled_inte (inv : Inv r₀ c.driver) (r : Regs) (off : r.gpioRead .io rp1Inte &&& c.driver.irqOwned = 0) :
    (cycled c r).machine.now.gpioRead .io rp1Inte &&& c.driver.irqOwned = c.machine.now.gpioRead .io rp1Inte &&& c.driver.irqOwned := by
  have unchanged (m : Machine) (states : ℕ → PinState) :
      (m.rounds (fun pin => gpioRestore (states pin) pin) (listed c.driver.touched)).now .io rp1Inte = m.now .io rp1Inte := by
    refine word_congr fun i => ?_
    exact Journal.holds_rounds (q := fun r => r.cell ⟨.io, rp1Inte, i⟩ = m.now.cell ⟨.io, rp1Inte, i⟩) (fun p hp j same =>
      ((gpioRestore_within (touched_bounds inv p hp) (states p) j).1 _ (inte_seen (touched_bounds inv p hp) i)).trans same) rfl
  have here : home (rp1Set + rp1Inte) = rp1Inte := by decide
  have sets (old v : BitVec 32) : written (rp1Set + rp1Inte) old v = old ||| v := if_pos (by decide)
  rw [cycled_machine]
  simp only [Regs.gpioRead, Machine.gpioWrite, Journal.write_now, Regs.write, here, sets, and_self, if_true,
    show home rp1Inte = rp1Inte from by decide, unchanged]
  rw [Regs.gpioRead, show home rp1Inte = rp1Inte from by decide] at off
  rw [BitVec.and_or_distrib_right, off, BitVec.and_assoc, BitVec.and_self]
  simp

/-- Wherever a request comes in a run, the owners agree, one that is refused changes nothing, and one that is
not changes only bits of its own pins. Pins that nobody has any more are as they were at first, as are all
of them after a stop, and outputs of the board that are driven before and after are driven after every
write. After a stop that saves and a start that restores, pins and their interrupts are as they were. -/
theorem run_pins_steady (r₀ : Regs) (events : List Event) (q : Request) :
    let c := run r₀ events
    (owners c.driver).Sound ∧
      (match (serve q).run c with
      | (.error _, after) => after = c
      | (.ok _, after) =>
        Within (cells (q.pins c.driver)) c.machine after.machine ∧
          (q.leaves = true → Returned r₀ (q.pins c.driver) after) ∧
          (q.stops = true → ∀ p ∈ pins c.driver.touched, gpioSnapshot after.machine.now p = gpioSnapshot r₀ p) ∧
          ∀ p ∈ pins rp1BoardMask, Live p c.machine.now → Live p after.machine.now → c.machine.Passed (Live p) after.machine) ∧
      ∀ r, (∀ p ∈ pins c.driver.touched, gpioSnapshot (cycled c r).machine.now p = gpioSnapshot c.machine.now p) ∧
        (r.gpioRead .io rp1Inte &&& c.driver.irqOwned = 0 →
          (cycled c r).machine.now.gpioRead .io rp1Inte &&& c.driver.irqOwned = c.machine.now.gpioRead .io rp1Inte &&& c.driver.irqOwned) := by
  intro c
  have inv : Inv r₀ c.driver := run_inv r₀ events
  have answers := serve_answers inv q (s := c) rfl
  refine ⟨inv.sound, ?_, fun r => ⟨fun p hp => cycled_snapshot inv r hp, cycled_inte inv r⟩⟩
  rcases hr : (serve q).run c with ⟨status | ⟨⟩, after⟩
  · rw [hr] at answers
    exact answers
  · rw [hr] at answers
    exact ⟨answers.1.within, answers.2.1, answers.2.2, fun p board start finish => answers.1.steady p board start finish⟩

/-- Registers in which a pin of the board is driven, and its input is inverted. -/
def inverted : Regs := fun block offset =>
  if block = .io ∧ offset = 0x4000 + rp1Ctrl 4 then 5 ||| 1 <<< 16 else if block = .rio ∧ offset = 0x4000 + rp1Oe then 1 <<< 4 else 0

/-- The pin is an output that is driven, overridden or not. -/
def Driven (p : ℕ) (r : Regs) : Prop :=
  (gpioSnapshot r p).control &&& 31 = 5 ∧ (gpioSnapshot r p).enable ≠ 0 ∧ (gpioSnapshot r p).pad &&& rp1PadOd = 0

instance (p : ℕ) (r : Regs) : Decidable (Driven p r) := inferInstanceAs (Decidable (_ ∧ _))

/-- A pin with an override is let go of while it is connected as an output, which it is before and after. -/
theorem connect_floats :
    let c := run inverted [.ask (.start false none)]
    let after := step c (.ask (.connect ⟨0, some [32], .output, pullDefault, 0, 0⟩))
    Driven 32 c.machine.now ∧ Driven 32 after.machine.now ∧ ¬c.machine.Passed (Driven 32) after.machine := by
  intro c after
  refine ⟨by decide +kernel, by decide +kernel, ?_⟩
  rintro ⟨-, l, past, all⟩
  have none : c.machine.past = [] := rfl
  rw [none, List.append_nil] at past
  have floats : ¬∀ r ∈ after.machine.past, Driven 32 r := by decide +kernel
  exact floats (past ▸ all)

end Pi5Drivers.Rp1Gpio
