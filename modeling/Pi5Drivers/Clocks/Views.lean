import Pi5Drivers.Clocks.Driver

/-! What the driver does to each of the two clocks. The handlers treat the clocks one after
the other and none of them looks at the other's registers or books, so what they do to one
clock is a function of the part of the device that is about it. -/

namespace Pi5Drivers.Clocks

/-! ### Registers -/

/-- The registers of a clock. -/
def Clock.Owns (c : Clock) (offset : ℕ) : Prop := offset = c.base ∨ offset = c.base + 4

theorem Clock.owns_apart {c c' : Clock} {offset : ℕ} (apart : c ≠ c') (h : c.Owns offset) : ¬c'.Owns offset := by
  rcases h with rfl | rfl <;> cases c <;> cases c' <;> simp [Owns, Clock.base] at *

namespace Device

variable {c c' : Clock} {d e : Device} {file : ℕ}

/-- From one device to another only registers of a clock were written, and nothing but
registers changed. -/
structure Writes (c : Clock) (d e : Device) : Prop where
  online : e.online = d.online
  lease : e.lease = d.lease
  holders : e.holders = d.holders
  registers : ∀ offset, ¬c.Owns offset → e.registers offset = d.registers offset
  written : ∃ w, e.written = w ++ d.written ∧ ∀ p ∈ w, c.Owns p.1

theorem Writes.refl : Writes c d d := ⟨rfl, rfl, rfl, fun _ _ => rfl, [], rfl, by simp⟩

theorem Writes.write (h : Writes c d e) {offset : ℕ} (owns : c.Owns offset) (value : BitVec 32) :
    Writes c d (e.write offset value) := by
  obtain ⟨w, eq, own⟩ := h.written
  refine ⟨h.online, h.lease, h.holders, fun o ho => ?_, (offset, value) :: w, by simp [Device.write, eq], ?_⟩
  · have : o ≠ offset := fun same => ho (same ▸ owns)
    simp [Device.write, Function.update_of_ne this, h.registers o ho]
  · exact List.forall_mem_cons.mpr ⟨owns, own⟩

theorem Writes.setting (h : Writes c d e) (apart : c ≠ c') : e.setting c' = d.setting c' := by
  have control := h.registers c'.base fun own => Clock.owns_apart apart own (.inl rfl)
  have divider := h.registers (c'.base + 4) fun own => Clock.owns_apart apart own (.inr rfl)
  simp [Device.setting, control, divider]

/-- The control register is written, the divider, and the control register again. -/
def rewrite (c : Clock) (first : BitVec 32) (s : Setting) (d : Device) : Device :=
  ((d.write c.base first).write (c.base + 4) s.divider).write c.base s.control

theorem writes_rewrite (first : BitVec 32) (s : Setting) : Writes c d (rewrite c first s d) :=
  ((Writes.refl.write (.inl rfl) _).write (.inr rfl) _).write (.inl rfl) _

theorem setting_rewrite (first : BitVec 32) (s : Setting) : (rewrite c first s d).setting c = s := by
  simp [rewrite, Device.setting, Device.write]

theorem writes_enable : Writes c d (enable c d) := writes_rewrite _ running

theorem setting_enable : (enable c d).setting c = running := setting_rewrite _ running

theorem restoreClock_eq : restoreClock c d =
    if (d.lease c).changed = true then rewrite c (d.registers c.base &&& ~~~clkEnable) (d.lease c).saved d else d := rfl

theorem writes_restoreClock : Writes c d (restoreClock c d) := by
  rw [restoreClock_eq]
  split
  · exact writes_rewrite _ _
  · exact Writes.refl

theorem setting_restoreClock :
    (restoreClock c d).setting c = if (d.lease c).changed = true then (d.lease c).saved else d.setting c := by
  rw [restoreClock_eq]
  split
  · exact setting_rewrite _ _
  · rfl

theorem writes_reenable : Writes c d (reenable c d) := by
  unfold reenable
  split
  · exact writes_enable
  · exact Writes.refl

/-! ### One clock -/

end Device

open Device

/-- What of a device is about one clock. -/
structure View where
  setting : Setting
  lease : Lease
  holders : Finset ℕ
  online : Bool

namespace View

variable (v : View) (file : ℕ)

def reenable : View := if v.lease.users ≠ 0 ∧ v.lease.changed = true then { v with setting := running } else v

def restore : View := if v.lease.changed = true then { v with setting := v.lease.saved } else v

def forget : View := { v with lease := { v.lease with changed := false } }

def retire : View := (if v.online = true then v.restore else v).forget

/-- A user less. -/
def drop : View :=
  { v with holders := v.holders.erase file, lease := { v.lease with users := countDown v.lease.users } }

def leave : View :=
  if file ∈ v.holders then
    if countDown v.lease.users = 0 then (v.drop file).retire else v.drop file
  else v

def firstUse : View :=
  if v.lease.users = 0 then
    { v with
      lease := { v.lease with saved := v.setting, changed := decide ¬v.setting.Enabled }
      setting := if v.setting.Enabled then v.setting else running }
  else v

def join : View :=
  { v with
    lease := { v.lease with users := countUp v.lease.users }
    holders := insert file v.holders }

def acquire (usable : Bool) : Status × View :=
  if v.online = false then (.deviceNotReady, v)
  else if file ∈ v.holders then (.success, v)
  else if usable = false then
    (.deviceConfigurationError, if v.lease.users = 0 then v.firstUse.restore.forget else v.firstUse)
  else (.success, v.firstUse.join file)

end View

namespace Device

variable {c c' : Clock} {d e : Device} {file : ℕ}

def view (d : Device) (c : Clock) : View := ⟨d.setting c, d.lease c, d.holders c, d.online⟩

theorem Writes.view_other (h : Writes c d e) (apart : c ≠ c') : e.view c' = d.view c' := by
  simp [view, h.setting apart, h.lease, h.holders, h.online]

theorem Writes.view_self (h : Writes c d e) : e.view c = { d.view c with setting := e.setting c } := by
  simp [view, h.lease, h.holders, h.online]

theorem view_setLease_self (l : Lease) : (d.setLease c l).view c = { d.view c with lease := l } := by
  simp [view, setLease, Device.setting]

theorem view_setLease_other (l : Lease) (apart : c ≠ c') : (d.setLease c l).view c' = d.view c' := by
  simp [view, setLease, Device.setting, apart.symm]

theorem view_setHolders_self (f : Finset ℕ) : (d.setHolders c f).view c = { d.view c with holders := f } := by
  simp [view, setHolders, Device.setting]

theorem view_setHolders_other (f : Finset ℕ) (apart : c ≠ c') : (d.setHolders c f).view c' = d.view c' := by
  simp [view, setHolders, Device.setting, apart.symm]

theorem view_forget_self : (forget c d).view c = (d.view c).forget := view_setLease_self _

theorem view_forget_other (apart : c ≠ c') : (forget c d).view c' = d.view c' := view_setLease_other _ apart

theorem view_reenable_self : (reenable c d).view c = (d.view c).reenable := by
  by_cases h : (d.lease c).users ≠ 0 ∧ (d.lease c).changed = true
  · rw [reenable, if_pos h, View.reenable, if_pos (by exact h), writes_enable.view_self, setting_enable]
  · rw [reenable, if_neg h, View.reenable, if_neg (by exact h)]

theorem view_restoreClock_self : (restoreClock c d).view c = (d.view c).restore := by
  rw [writes_restoreClock.view_self, setting_restoreClock]
  by_cases h : (d.lease c).changed = true <;> simp [View.restore, view, h]

theorem view_retire_self : (retire c d).view c = (d.view c).retire := by
  rw [retire, view_forget_self, View.retire]
  by_cases on : d.online = true
  · rw [if_pos on, view_restoreClock_self, if_pos (by exact on)]
  · rw [if_neg on, if_neg (by exact on)]

theorem view_retire_other (apart : c ≠ c') : (retire c d).view c' = d.view c' := by
  rw [retire, view_forget_other apart]
  split
  · exact writes_restoreClock.view_other apart
  · rfl

theorem view_leave_self : (leave c file d).view c = (d.view c).leave file := by
  by_cases held : file ∈ d.holders c
  · rw [leave, if_pos held, View.leave, if_pos (show file ∈ (d.view c).holders from held)]
    dsimp only
    by_cases last : countDown (d.lease c).users = 0
    · rw [if_pos last, if_pos (show countDown (d.view c).lease.users = 0 from last), view_retire_self, view_setLease_self, view_setHolders_self]
      rfl
    · rw [if_neg last, if_neg (show ¬countDown (d.view c).lease.users = 0 from last), view_setLease_self, view_setHolders_self]
      rfl
  · rw [leave, if_neg held, View.leave, if_neg (show file ∉ (d.view c).holders from held)]

theorem view_leave_other (apart : c ≠ c') : (leave c file d).view c' = d.view c' := by
  unfold leave
  split
  · dsimp only
    split
    · rw [view_retire_other apart, view_setLease_other _ apart, view_setHolders_other _ apart]
    · rw [view_setLease_other _ apart, view_setHolders_other _ apart]
  · rfl

theorem view_firstUse_self : (firstUse c d).view c = (d.view c).firstUse := by
  by_cases first : (d.lease c).users = 0
  · rw [firstUse, if_pos first, View.firstUse, if_pos (show (d.view c).lease.users = 0 from first)]
    dsimp only
    by_cases enabled : (d.setting c).Enabled
    · rw [if_neg (not_not.mpr enabled), view_setLease_self]
      simp [view, enabled]
    · rw [if_pos enabled, writes_enable.view_self, setting_enable, view_setLease_self]
      simp [view, enabled]
  · rw [firstUse, if_neg first, View.firstUse, if_neg (show ¬(d.view c).lease.users = 0 from first)]

theorem view_firstUse_other (apart : c ≠ c') : (firstUse c d).view c' = d.view c' := by
  unfold firstUse
  split
  · dsimp only
    split
    · rw [writes_enable.view_other apart, view_setLease_other _ apart]
    · rw [view_setLease_other _ apart]
  · rfl

theorem view_join_self : (join c file d).view c = (d.view c).join file := by
  rw [join, view_setHolders_self, view_setLease_self]
  rfl

theorem view_join_other (apart : c ≠ c') : (join c file d).view c' = d.view c' := by
  rw [join, view_setHolders_other _ apart, view_setLease_other _ apart]

theorem view_acquire_self (usable : Registers → Bool) :
    ((acquire c usable file d).1, (acquire c usable file d).2.view c) =
      (d.view c).acquire file (usable (firstUse c d).registers) := by
  by_cases on : d.online = false
  · rw [acquire, if_pos on, View.acquire, if_pos (show (d.view c).online = false from on)]
  rw [acquire, if_neg on, View.acquire, if_neg (show ¬(d.view c).online = false from on)]
  by_cases held : file ∈ d.holders c
  · rw [if_pos held, if_pos (show file ∈ (d.view c).holders from held)]
  rw [if_neg held, if_neg (show file ∉ (d.view c).holders from held)]
  dsimp only
  by_cases fine : usable (firstUse c d).registers = false
  · rw [if_pos fine, if_pos fine]
    by_cases first : (d.lease c).users = 0
    · rw [if_pos first, if_pos (show (d.view c).lease.users = 0 from first), view_forget_self, view_restoreClock_self, view_firstUse_self]
    · rw [if_neg first, if_neg (show ¬(d.view c).lease.users = 0 from first), view_firstUse_self]
  · rw [if_neg fine, if_neg fine, view_join_self, view_firstUse_self]

theorem view_acquire_other (usable : Registers → Bool) (apart : c ≠ c') :
    (acquire c usable file d).2.view c' = d.view c' := by
  unfold acquire
  split
  · rfl
  split
  · rfl
  dsimp only
  split
  · split
    · rw [view_forget_other apart, writes_restoreClock.view_other apart, view_firstUse_other apart]
    · exact view_firstUse_other apart
  · rw [view_join_other apart, view_firstUse_other apart]

/-! ### The handlers -/

theorem view_clockStart : d.clockStart.view c = { (d.view c).reenable with online := true } := by
  have online (x : Device) : view { x with online := true } c = { x.view c with online := true } := rfl
  rw [clockStart, online]
  cases c with
  | uart => rw [writes_reenable.view_other (by decide), view_reenable_self]
  | dma => rw [view_reenable_self, writes_reenable.view_other (by decide)]

theorem view_clockStop : d.clockStop.view c = { (d.view c).restore with online := false } := by
  have online (x : Device) : view { x with online := false } c = { x.view c with online := false } := rfl
  rw [clockStop, online]
  cases c with
  | uart => rw [restoreDma, writes_restoreClock.view_other (by decide), restore, view_restoreClock_self]
  | dma => rw [restoreDma, view_restoreClock_self, restore, writes_restoreClock.view_other (by decide)]

theorem view_clockCleanup : (d.clockCleanup file).view c = (d.view c).leave file := by
  rw [clockCleanup]
  cases c with
  | uart => rw [view_leave_other (by decide), view_leave_self]
  | dma => rw [view_leave_self, view_leave_other (by decide)]

end Device

end Pi5Drivers.Clocks
