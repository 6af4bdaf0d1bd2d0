import Mathlib.Data.List.Induction
import Pi5Drivers.BcmGpio.Requests

/-! Runs of a controller, from its start on: requests in any order, and registers that change from
outside between them. -/

namespace Pi5Drivers.BcmGpio

open Effect GpioClx

/-- The settings of a pin. -/
def Machine.state (m : Machine) (revision aon : Bool) (pin : ℕ) : PinState :=
  m.snapshot ((bcmPinFields revision aon pin).getD ⟨0, none⟩) pin (m.data aon)

variable {revision aon : Bool} {m₀ : Machine}

theorem start_inv (world : World) (revision aon : Bool) (m₀ : Machine) : Inv revision aon m₀ (start world revision aon m₀).driver := by
  refine ⟨⟨⟨rfl, rfl⟩, ?_, fun p => ?_⟩, ?_⟩
  · simp only [start]
  · simp only [start, Driver.fields]
  have nobody : owners (start world revision aon m₀).driver = Owners.none := by
    simp only [owners, start, pins_zero, Owners.none]
  rw [nobody]
  exact Owners.sound_none

theorem step_inv {c : Context} (h : Inv revision aon m₀ c.driver) (e : Event) : Inv revision aon m₀ (step c e).driver := by
  cases e with
  | outside gio pinctrl aml => exact h
  | ask r =>
    have answers := serve_answers (m := c.machine) h r (s := c) ⟨rfl, rfl⟩
    change Inv revision aon m₀ ((serve r).run c).2.driver
    rcases hr : (serve r).run c with ⟨status | ⟨⟩, c'⟩
    · rw [hr] at answers
      exact answers.1.inv
    · rw [hr] at answers
      exact answers.1.inv

theorem run_inv (world : World) (revision aon : Bool) (m₀ : Machine) (events : List Event) :
    Inv revision aon m₀ (run world revision aon m₀ events).driver := by
  induction events using List.reverseRecOn with
  | nil => exact start_inv world revision aon m₀
  | append_singleton events e ih =>
    rw [run, List.foldl_append]
    exact step_inv ih e

/-- Wherever a request comes in a run, the owners agree, only bits of its own pins change, a request that
is refused changes nothing, and pins that nobody has any more after one that succeeds are as they were at
the start. Only a firmware that fails can end a disconnect that has begun. -/
theorem run_pins_returned (world : World) (revision aon : Bool) (m₀ : Machine) (events : List Event) (r : Request) :
    let c := run world revision aon m₀ events
    (owners c.driver).Sound ∧ Only (c.driver.cells r.pins) c.machine (step c (.ask r)).machine ∧
      match (serve r).run c with
      | (.ok _, after) => r.leaves = true → ∀ p ∈ r.pins, p ∉ (owners after.driver).owned →
          after.machine.state revision aon p = m₀.state revision aon p
      | (.error e, after) => Refused c.driver c.machine e after ∨ (e.Firmware ∧ aon = true) ∧ r.disconnects = true := by
  intro c
  have inv : Inv revision aon m₀ c.driver := run_inv world revision aon m₀ events
  obtain ⟨sameRevision, sameAon⟩ := inv.booted.controller
  have answers := serve_answers (m := c.machine) inv r (s := c) ⟨rfl, rfl⟩
  refine ⟨inv.sound, ?_⟩
  change Only _ _ ((serve r).run c).2.machine ∧ _
  rcases hr : (serve r).run c with ⟨status | ⟨⟩, after⟩
  · rw [hr, sameAon] at answers
    exact ⟨answers.1.only, answers.2⟩
  · rw [hr] at answers
    refine ⟨answers.1.only, fun leaves p hp unowned => ?_⟩
    obtain ⟨valid, restored⟩ := answers.2 leaves p hp unowned
    have same := restored.state inv.booted valid
    rw [inv.booted.boot, Driver.fields, sameRevision, sameAon] at same
    exact same

/-- Registers of an always-on controller that are all zero, and a firmware that fails. -/
def zeros : Machine := ⟨fun _ _ => 0, fun _ => 0, 0, 0, 0⟩

def failing : World := ⟨fun _ => some 1, fun _ => 0, fun _ => 0⟩

/-- The firmware fails when a pin is put back: the request is refused, but the pin has lost its owner, and
stays an input. -/
theorem disconnect_unfinished :
    let c := run failing false true zeros [.ask (.connect ⟨0, some [0], .input, 0, 0, 0⟩)]
    let after := step c (.ask (.disconnect 0 (some [0]) false))
    ((serve (.disconnect 0 (some [0]) false)).run c).1 = .error (.acpi 1) ∧ c.driver.ioOwned = 1 ∧ 
      after.driver.ioOwned ||| after.driver.irqOwned ||| after.driver.functionOwned = 0 ∧ c.machine.written < after.machine.written ∧
      (after.machine.state false true 0).input = true ∧ (zeros.state false true 0).input = false := by
  decide +kernel

end Pi5Drivers.BcmGpio
