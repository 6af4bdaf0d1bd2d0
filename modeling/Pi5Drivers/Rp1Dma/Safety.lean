import Pi5Drivers.Rp1Dma.Driver

/-! What the trace of the driver guarantees, whatever the registers hold and wherever interrupts come.
As long as the driver is not unsafe no callback leaves a channel that was not read as disabled after it
was last enabled. -/

namespace Pi5Drivers.Rp1Dma

open Effect Recorded

/-- What can be told from the accesses: whether the driver is online and not unsafe, whether the channel was
read as disabled since it was last enabled, whether an interrupt has seen the transfer complete
without an error, and whether the channel was read as disabled after that. -/
structure Watch where
  online : Bool
  isUnsafe : Bool
  disabled : Bool
  completed : Bool
  halted : Bool

/-- A status says that the transfer is complete, and nothing of an error. -/
def Good (status : BitVec 32) : Prop := status &&& dmaComplete ≠ 0 ∧ status &&& dmaErrors = 0

instance (status : BitVec 32) : Decidable (Good status) := inferInstanceAs (Decidable (_ ∧ _))

/-- A write that enables the channel. -/
def Enables (offset : ℕ) (value : BitVec 32) : Prop := offset = dmaChannels ∧ value &&& 0x101 = 0x101

instance (offset : ℕ) (value : BitVec 32) : Decidable (Enables offset value) := inferInstanceAs (Decidable (_ ∧ _))

def Watch.interrupted (w : Watch) (status : BitVec 32) : Watch := { w with completed := w.completed || decide (Good status) }

def Watch.readDisabled (w : Watch) : Watch := { w with disabled := true, halted := w.completed }

def Watch.sawRead (w : Watch) (offset : ℕ) (value : BitVec 32) : Watch :=
  if offset = dmaChannels ∧ value &&& 1 = 0 then w.readDisabled
  else if offset = dmaChIntStatus then w.interrupted value
  else w

def Watch.saw (w : Watch) : Event → Watch
  | .read offset value => w.sawRead offset value
  | .wrote offset value =>
    if Enables offset value then { w with disabled := false, completed := false, halted := false } else w
  | .descriptor .. => { w with completed := false, halted := false }
  | .online value => { w with online := value }
  | .isUnsafe value => { w with isUnsafe := value }
  | .freed | .copied => w

/-- The channel is enabled only online and not unsafe; the buffer is freed and a descriptor written only
when the channel was read as disabled, and a copy is successful only when its own transfer was seen
complete and the channel was read as disabled after that. -/
def Watch.Allows (w : Watch) : Event → Prop
  | .wrote offset value => Enables offset value → w.online = true ∧ w.isUnsafe = false
  | .descriptor d source destination length => w.disabled = true ∧ dmaDescriptor source destination length = .ok d
  | .freed => w.disabled = true
  | .copied => w.completed = true ∧ w.halted = true ∧ w.disabled = true
  | .read .. | .online _ | .isUnsafe _ => True

def reader : Observer Event Watch where
  init := ⟨false, false, true, false, false⟩
  saw := Watch.saw
  Allows := Watch.Allows

abbrev Rel := Controller → Watch → Prop

/-- The driver's flags are the ones that can be told from the trace. -/
def Agree : Rel := fun c w => w.online = c.online ∧ w.isUnsafe = c.isUnsafe

/-- What holds between callbacks. -/
def Rest : Rel := fun c w => Agree c w ∧ (c.isUnsafe = false → w.disabled = true)

/-- What interrupts keep. -/
def Interruptible (A : Rel) : Prop := ∀ c w bits, A c w → A c (w.interrupted bits) ∧ A (c.latch bits) (w.interrupted bits)

/-- What reading the channel as disabled keeps. -/
def Readable (A : Rel) : Prop := ∀ c w, A c w → A c w.readDisabled

section Rules

variable {A B : Rel} {E : Status → Context → Prop}

/-- A read that says nothing about the channel or an interrupt. -/
theorem read_rule {offset : ℕ} (plain : offset ≠ dmaChannels ∧ offset ≠ dmaChIntStatus) :
    Triple (Assert reader A) (read offset) (fun _ => Assert reader A) E := by
  refine Triple.bind (ask_rule _) fun value => Triple.bind (record_rule (B := A) _ (fun _ _ _ => trivial) fun c w h => ?_) fun _ => pure_rule
  change A c (w.sawRead offset value)
  rwa [Watch.sawRead, if_neg fun h => plain.1 h.1, if_neg plain.2]

/-- A write that does not enable the channel. -/
theorem write_rule {offset : ℕ} {value : BitVec 32} (other : ¬Enables offset value) :
    Triple (Assert reader A) (write offset value) (fun _ => Assert reader A) E := by
  refine Triple.bind (record_rule (B := A) _ (fun _ _ _ enables => absurd enables other) fun c w h => ?_) fun _ =>
    Triple.bind (read_rule (by decide)) fun _ => pure_rule
  change A c (if Enables offset value then _ else w)
  rwa [if_neg other]

/-! ### Interrupts -/

theorem dmaIsr_rule (keeps : Interruptible A) : Triple (Assert reader A) dmaIsr (fun _ => Assert reader A) E := by
  refine glance_rule fun c => Triple.when (fun _ => ?_) fun _ hc _ => hc
  refine Triple.bind (Q := fun bits => Assert reader fun c w => A c w ∧ A (c.latch bits) w) ?_ fun bits => ?_
  · refine Triple.bind (ask_rule _) fun value => Triple.bind (record_rule (B := fun c w => A c w ∧ A (c.latch value) w) _
      (fun _ _ _ => trivial) fun c w h => ?_) fun _ => Triple.pure fun _ hc => hc
    change A c (w.sawRead dmaChIntStatus value) ∧ A (c.latch value) (w.sawRead dmaChIntStatus value)
    rw [Watch.sawRead, if_neg (fun h => absurd h.1 (by decide)), if_pos rfl]
    exact keeps c w value h
  · refine Triple.when (fun _ => ?_) fun _ hc _ => hc.mono fun _ _ h => h.1
    refine Triple.bind (write_rule (by decide)) fun _ => Triple.bind (write_rule fun h => absurd h.1 (by decide)) fun _ =>
      change_rule _ fun _ _ h => h.2

theorem interrupts_rule (keeps : Interruptible A) (n : ℕ) :
    Triple (Assert reader A) (interrupts n) (fun _ => Assert reader A) E := by
  induction n with
  | zero => exact pure_rule
  | succ n ih => exact Triple.bind (dmaIsr_rule keeps) fun _ => ih

theorem gap_rule (keeps : Interruptible A) : Triple (Assert reader A) gap (fun _ => Assert reader A) E :=
  Triple.bind (ask_rule _) fun n => interrupts_rule keeps n

theorem openRead_rule {offset : ℕ} (keeps : Interruptible A) (plain : offset ≠ dmaChannels ∧ offset ≠ dmaChIntStatus) :
    Triple (Assert reader A) (openRead offset) (fun _ => Assert reader A) E :=
  Triple.bind (gap_rule keeps) fun _ => read_rule plain

theorem openWrite_rule {offset : ℕ} {value : BitVec 32} (keeps : Interruptible A) (other : ¬Enables offset value) :
    Triple (Assert reader A) (openWrite offset value) (fun _ => Assert reader A) E :=
  Triple.bind (gap_rule keeps) fun _ => write_rule other

/-! ### The channel -/

/-- A channel that is read either as disabled or not. -/
theorem read_channels (readable : Readable A) :
    Triple (Assert reader A) (read dmaChannels)
      (fun value => Assert reader fun c w => A c w ∧ (value &&& 1 = 0 → ∃ w', A c w' ∧ w = w'.readDisabled)) E := by
  refine Triple.bind (ask_rule _) fun value => Triple.bind (record_rule
    (B := fun c w => A c w ∧ (value &&& 1 = 0 → ∃ w', A c w' ∧ w = w'.readDisabled)) _ (fun _ _ _ => trivial) fun c w h => ?_)
    fun _ => Triple.pure fun _ hc => hc
  change A c (w.sawRead dmaChannels value) ∧ (_ → ∃ w', A c w' ∧ w.sawRead dmaChannels value = _)
  by_cases disabled : value &&& 1 = 0
  · rw [Watch.sawRead, if_pos ⟨rfl, disabled⟩]
    exact ⟨readable c w h, fun _ => ⟨w, h, rfl⟩⟩
  · rw [Watch.sawRead, if_neg fun h => disabled h.2, if_neg (by decide)]
    exact ⟨h, fun yes => absurd yes disabled⟩

theorem openRead_channels (keeps : Interruptible A) (readable : Readable A) :
    Triple (Assert reader A) (openRead dmaChannels)
      (fun value => Assert reader fun c w => A c w ∧ (value &&& 1 = 0 → ∃ w', A c w' ∧ w = w'.readDisabled)) E :=
  Triple.bind (gap_rule keeps) fun _ => read_channels readable

/-- Where the flags agree, and the transfer was seen complete if there is a reason to say so. -/
def Quiet (p : Prop) : Rel := fun c w => Agree c w ∧ (p → w.completed = true)

/-- Where the channel was read as disabled besides, and after the transfer was complete. -/
def Off (p : Prop) : Rel := fun c w => Quiet p c w ∧ w.disabled = true ∧ (p → w.halted = true)

variable {p : Prop}

theorem Quiet.keeps : Interruptible (Quiet p) := by
  rintro c w bits ⟨agree, seen⟩
  have later (hp : p) : (w.completed || decide (Good bits)) = true := by rw [seen hp, Bool.true_or]
  exact ⟨⟨agree, later⟩, agree, later⟩

theorem Quiet.readable : Readable (Quiet p) := fun _ _ h => h

theorem Off.keeps : Interruptible (Off p) := fun c w bits h =>
  ⟨⟨(Quiet.keeps c w bits h.1).1, h.2⟩, (Quiet.keeps c w bits h.1).2, h.2⟩

theorem Rest.keeps : Interruptible Rest := fun _ _ _ h => ⟨h, h⟩

theorem Rest.readable : Readable Rest := fun _ _ h => ⟨h.1, fun _ => rfl⟩

/-- What a poll leaves. -/
abbrev Polled (p : Prop) (off : Bool) : Rel := fun c w => Quiet p c w ∧ (off = true → Off p c w)

theorem polled_of_read (off : Bool) {value : BitVec 32} (disabled : off = true → value &&& 1 = 0) {c : Controller} {w : Watch}
    (h : Quiet p c w ∧ (value &&& 1 = 0 → ∃ w', Quiet p c w' ∧ w = w'.readDisabled)) : Polled p off c w := by
  refine ⟨h.1, fun yes => ?_⟩
  obtain ⟨w', quiet, rfl⟩ := h.2 (disabled yes)
  exact ⟨quiet, rfl, quiet.2⟩

theorem pollDisabled_rule (n : ℕ) :
    Triple (Assert reader (Quiet p)) (pollDisabled n) (fun off => Assert reader (Polled p off)) E := by
  induction n with
  | zero => exact Triple.pure fun _ hc => hc.mono fun _ _ h => ⟨h, nofun⟩
  | succ n ih =>
    refine Triple.bind (openRead_channels Quiet.keeps Quiet.readable) fun value => Triple.ite (fun disabled => ?_) fun _ => ?_
    · exact Triple.pure fun _ hc => hc.mono fun _ _ => polled_of_read true fun _ => disabled
    · exact ih.mono (fun _ hc => hc.mono fun _ _ h => h.1) (fun _ _ hc => hc) fun _ _ hc => hc

theorem low_bit {value : BitVec 32} (h : value &&& 0xff = 0) : value &&& 1 = 0 := by
  have : value &&& 1 = value &&& 0xff &&& 1 := by
    rw [BitVec.and_assoc]
    rfl
  rw [this, h]
  rfl

theorem resetDone_rule : Triple (Assert reader (Quiet p)) resetDone (fun off => Assert reader (Polled p off)) E := by
  refine Triple.bind (openRead_rule Quiet.keeps (by decide)) fun reset => Triple.ite (fun _ => ?_) fun _ => ?_
  · refine Triple.bind (openRead_channels Quiet.keeps Quiet.readable) fun value => Triple.pure fun _ hc => hc.mono fun _ _ => ?_
    exact polled_of_read _ fun yes => low_bit (of_decide_eq_true yes)
  · exact Triple.pure fun _ hc => hc.mono fun _ _ h => ⟨h, nofun⟩

theorem pollReset_rule (n : ℕ) :
    Triple (Assert reader (Quiet p)) (pollReset n) (fun off => Assert reader (Polled p off)) E := by
  induction n with
  | zero => exact Triple.pure fun _ hc => hc.mono fun _ _ h => ⟨h, nofun⟩
  | succ n ih =>
    refine Triple.bind resetDone_rule fun off => Triple.ite (fun yes => ?_) fun _ => ?_
    · exact Triple.pure fun _ hc => hc.mono fun _ _ h => ⟨h.1, fun _ => h.2 yes⟩
    · exact ih.mono (fun _ hc => hc.mono fun _ _ h => h.1) (fun _ _ hc => hc) fun _ _ hc => hc

/-- A halt that succeeds has read the channel as disabled. -/
theorem dmaHalt_rule : Triple (Assert reader (Quiet p)) dmaHalt (fun off => Assert reader (Polled p off)) E := by
  refine Triple.bind (openWrite_rule Quiet.keeps (by decide)) fun _ => Triple.bind (openWrite_rule Quiet.keeps (by decide)) fun _ => ?_
  refine Triple.bind (pollDisabled_rule _) fun disabled => Triple.ite (fun yes => ?_) fun _ => ?_
  · exact Triple.pure fun _ hc => hc.mono fun _ _ h => ⟨h.1, fun _ => h.2 yes⟩
  · refine Triple.bind (Triple.mono (openWrite_rule Quiet.keeps (by decide)) (fun _ hc => hc.mono fun _ _ h => h.1) (fun _ _ hc => hc)
      fun _ _ hc => hc) fun _ => pollReset_rule _

/-! ### The flags -/

theorem setOnline_rule {value : Bool} (h : ∀ c w, A c w → B { c with online := value } { w with online := value }) :
    Triple (Assert reader A) (setOnline value) (fun _ => Assert reader B) E :=
  Triple.bind (record_rule (B := fun c w => B { c with online := value } w) _ (fun _ _ _ => trivial) h) fun _ =>
    change_rule _ fun _ _ h => h

theorem setUnsafe_rule {value : Bool} (h : ∀ c w, A c w → B { c with isUnsafe := value } { w with isUnsafe := value }) :
    Triple (Assert reader A) (setUnsafe value) (fun _ => Assert reader B) E :=
  Triple.bind (record_rule (B := fun c w => B { c with isUnsafe := value } w) _ (fun _ _ _ => trivial) h) fun _ =>
    change_rule _ fun _ _ h => h

/-! ### Callbacks of the device -/

/-- A change of what the flags do not tell. -/
theorem Rest.change (f : Controller → Controller) (flags : ∀ c, (f c).online = c.online ∧ (f c).isUnsafe = c.isUnsafe) :
    Triple (Assert reader Rest) (Recorded.change f) (fun _ => Assert reader Rest) E :=
  change_rule _ fun c w h => by
    unfold Rest Agree
    rw [(flags c).1, (flags c).2]
    exact h

end Rules

/-- A callback that leaves what holds between callbacks, however it ends. -/
abbrev Keeps {α : Type} (x : Drive α) : Prop :=
  Triple (Assert reader Rest) x (fun _ => Assert reader Rest) fun _ => Assert reader Rest

section Callbacks

theorem Keeps.answer (f : World → ℕ → Except Status Unit) : Keeps (ask f >>= fun answer => ofExcept answer) :=
  Triple.bind (ask_rule _) fun _ => Triple.ofExcept (fun _ _ hc => hc) fun _ _ hc => hc

theorem dmaPrepare_keeps : Keeps dmaPrepare := by
  refine Triple.bind (ask_rule _) fun adapter => Triple.bind (Triple.ofExcept (fun _ _ hc => hc) fun _ _ hc => hc) fun _ => ?_
  refine Triple.bind (Rest.change _ fun _ => ⟨rfl, rfl⟩) fun _ => Triple.bind (ask_rule _) fun allocated => ?_
  refine Triple.bind (Triple.ofExcept (fun _ _ hc => hc) fun _ _ hc => hc) fun address => ?_
  refine Triple.bind (Rest.change _ fun _ => ⟨rfl, rfl⟩) fun _ => Triple.require (fun _ hc _ => hc) fun _ hc _ => hc

theorem dmaRelease_keeps : Keeps dmaRelease := by
  refine look_rule fun c => Triple.bind (Q := fun _ => Assert reader Rest) (Triple.when (fun safe => ?_) fun _ hc _ => hc.mono fun _ _ h => h.2)
    fun _ => Rest.change _ fun _ => ⟨rfl, rfl⟩
  refine record_rule _ ?_ fun _ _ h => h.2
  rintro _ w ⟨rfl, rest⟩
  exact rest.2 safe.1

theorem openClock_keeps : Keeps openClock :=
  Triple.bind (ask_rule _) fun _ => Triple.bind (Triple.ofExcept (fun _ _ hc => hc) fun _ _ hc => hc) fun _ =>
    Rest.change _ fun _ => ⟨rfl, rfl⟩

theorem openRoute_keeps : Keeps openRoute :=
  Triple.bind (ask_rule _) fun _ => Triple.bind (Triple.ofExcept (fun _ _ hc => hc) fun _ _ hc => hc) fun _ =>
    Rest.change _ fun _ => ⟨rfl, rfl⟩

theorem identify_keeps : Keeps identify := by
  refine Triple.bind (openRead_rule Rest.keeps (by decide)) fun version => Triple.ite (fun _ => ?_) fun _ => pure_rule
  exact Triple.bind (openRead_channels Rest.keeps Rest.readable) fun _ => Triple.pure fun _ hc => hc.mono fun _ _ h => h.1

/-- None of the saved registers enables a channel. -/
theorem plain_of_saved {offset : ℕ} (saved : offset ∈ savedOffsets) : offset ≠ dmaChannels ∧ offset ≠ dmaChIntStatus := by
  revert offset
  decide

theorem save_keeps : Keeps save :=
  Triple.bind (Rest.change _ fun _ => ⟨rfl, rfl⟩) fun _ => Triple.each fun _ saved =>
    Triple.bind (openRead_rule Rest.keeps (plain_of_saved saved)) fun _ => Rest.change _ fun _ => ⟨rfl, rfl⟩

theorem restore_keeps : Keeps restore :=
  glance_rule fun _ => Triple.each fun _ saved =>
    openWrite_rule Rest.keeps fun enables => (plain_of_saved (List.of_mem_zip saved).1).1 enables.1

theorem own_keeps : Keeps own := by
  refine Triple.bind save_keeps fun _ => Triple.bind (Rest.change _ fun _ => ⟨rfl, rfl⟩) fun _ => ?_
  refine Triple.bind (openWrite_rule Rest.keeps (by decide)) fun _ => Triple.bind (openWrite_rule Rest.keeps (by decide)) fun _ => ?_
  refine Triple.bind (openWrite_rule Rest.keeps (by decide)) fun _ => Triple.bind (openWrite_rule Rest.keeps (by decide)) fun _ => ?_
  refine Triple.bind (openWrite_rule Rest.keeps (by decide)) fun _ => Triple.orElse openRoute_keeps fun e => ?_
  refine Triple.bind restore_keeps fun _ => Triple.bind (Rest.change _ fun _ => ⟨rfl, rfl⟩) fun _ => ?_
  exact Triple.bind (Rest.change _ fun _ => ⟨rfl, rfl⟩) fun _ => Triple.stop fun _ hc => hc

theorem dmaStart_keeps : Keeps dmaStart := by
  refine glance_rule fun c => Triple.bind (Q := fun _ => Assert reader Rest) (Triple.require (fun _ hc _ => hc) fun _ hc _ => hc) fun _ => ?_
  refine Triple.bind openClock_keeps fun _ => Triple.bind identify_keeps fun expected => Triple.ite (fun _ => own_keeps) fun _ => ?_
  exact Triple.bind (Rest.change _ fun _ => ⟨rfl, rfl⟩) fun _ => Triple.stop fun _ hc => hc

theorem setUnsafe_polled {E : Status → Context → Prop} (off : Bool) :
    Triple (Assert reader (Polled False off)) (setUnsafe (!off)) (fun _ => Assert reader Rest) E := by
  refine setUnsafe_rule fun c w h => ⟨⟨h.1.1.1, rfl⟩, fun safe => ?_⟩
  exact (h.2 (by simpa using safe)).2.1

theorem dmaQuiesce_keeps : Keeps dmaQuiesce := by
  refine Triple.bind (dmaHalt_rule.mono (P := Assert reader (Quiet False)) (fun _ hc => hc.mono fun _ _ h => ⟨h.1, False.elim⟩)
    (fun _ _ hc => hc) fun _ _ hc => hc) fun off => Triple.bind (setUnsafe_polled off) fun _ => ?_
  refine Triple.bind (openWrite_rule Rest.keeps (by decide)) fun _ => ?_
  exact Triple.bind (Triple.when (fun _ => restore_keeps) fun _ hc _ => hc) fun _ => Rest.change _ fun _ => ⟨rfl, rfl⟩

theorem setOnline_keeps (value : Bool) : Keeps (setOnline value) := setOnline_rule fun _ _ h => ⟨⟨rfl, h.1.2⟩, h.2⟩

theorem dmaStop_keeps : Keeps dmaStop := by
  refine Triple.bind (setOnline_keeps false) fun _ => glance_rule fun c => ?_
  refine Triple.bind (Triple.when (fun _ => dmaQuiesce_keeps) fun _ hc _ => hc) fun _ => ?_
  refine Triple.bind (Rest.change _ fun _ => ⟨rfl, rfl⟩) fun _ => glance_rule fun c => ?_
  exact Triple.require (fun _ hc _ => hc) fun _ hc _ => hc

theorem dmaInterruptDisable_keeps : Keeps dmaInterruptDisable :=
  Triple.bind (setOnline_keeps false) fun _ => openWrite_rule Rest.keeps (by decide)

theorem query_keeps : Keeps query :=
  Triple.bind (openRead_channels Rest.keeps Rest.readable) fun _ => Triple.pure fun _ hc => hc.mono fun _ _ h => h.1

end Callbacks

/-! ### Requests -/

section Requests

/-- What the interrupt routine has noted since the start of the transfer, it has seen. -/
def Latched : Rel := fun c w => Agree c w ∧ (Good c.pending → w.completed = true)

/-- The same of what the copy has read of it. -/
def Seen : Rel := fun c w => Agree c w ∧ (Good c.lastInterrupt → w.completed = true)

/-- Something good in several statuses is in one of them, as none of them has an error. -/
theorem good_or {a b : BitVec 32} (h : Good (a ||| b)) : Good a ∨ Good b := by
  obtain ⟨complete, errors⟩ := h
  rw [BitVec.and_or_distrib_right] at complete errors
  obtain ⟨none, none'⟩ := BitVec.or_eq_zero_iff.mp errors
  by_cases first : a &&& dmaComplete = 0
  · exact .inr ⟨fun second => complete (BitVec.or_eq_zero_iff.mpr ⟨first, second⟩), none'⟩
  · exact .inl ⟨first, none⟩

theorem Latched.keeps : Interruptible Latched := by
  rintro c w bits ⟨agree, seen⟩
  refine ⟨⟨agree, fun good => ?_⟩, agree, fun good => ?_⟩
  · exact Bool.or_eq_true_iff.mpr (.inl (seen good))
  · exact Bool.or_eq_true_iff.mpr ((good_or good).imp seen decide_eq_true)

theorem Seen.keeps : Interruptible Seen := by
  rintro c w bits ⟨agree, seen⟩
  have later (good : Good c.lastInterrupt) := Bool.or_eq_true_iff.mpr (.inl (seen good) : _ ∨ decide (Good bits) = true)
  exact ⟨⟨agree, later⟩, agree, later⟩

/-- Nothing is noted, and the channel may be enabled. -/
def Ready : Rel := fun c w => Agree c w ∧ (c.online = true ∧ c.isUnsafe = false) ∧ c.pending = 0

theorem dmaBegin_rule (address : ℕ) : Triple (Assert reader Ready) (dmaBegin address) (fun _ => Assert reader Latched)
    fun _ => Assert reader (Quiet False) := by
  have weak : ∀ c : Context, Assert reader Ready c → Assert reader (Quiet False) c := fun _ hc => hc.mono fun _ _ h => ⟨h.1, False.elim⟩
  refine Triple.bind (Q := fun _ => Assert reader Ready) (Triple.require (fun _ hc _ => hc) fun _ hc _ => weak _ hc) fun _ => ?_
  refine Triple.bind (Triple.mono (read_channels fun _ _ h => h) (fun _ hc => hc) (fun _ _ hc => hc.mono fun _ _ h => h.1)
    fun _ _ hc => hc) fun value => ?_
  refine Triple.bind (Q := fun _ => Assert reader Ready) (Triple.require (fun _ hc _ => hc) fun _ hc _ => weak _ hc) fun _ => ?_
  refine Triple.bind (write_rule (by decide)) fun _ => Triple.bind (write_rule (by decide)) fun _ => ?_
  refine Triple.bind (write_rule (by decide)) fun _ => Triple.bind (write_rule (by decide)) fun _ => ?_
  refine Triple.bind (Triple.bind (write_rule fun h => absurd h.1 (by decide)) fun _ => write_rule fun h => absurd h.1 (by decide)) fun _ => ?_
  refine Triple.bind (write_rule (by decide)) fun _ => Triple.bind (write_rule (by decide)) fun _ => ?_
  refine Triple.bind (record_rule (B := Latched) _ ?_ ?_) fun _ => Triple.bind (read_rule (by decide)) fun _ => pure_rule
  · rintro c w ⟨⟨online, safe⟩, may, -⟩ -
    exact ⟨online.trans may.1, safe.trans may.2⟩
  · rintro c w ⟨agree, -, none⟩
    refine ⟨agree, fun good => ?_⟩
    rw [none] at good
    exact absurd good (by decide)

theorem lastInterrupt_rule {E : Status → Context → Prop} : Triple (Assert reader Latched) lastInterrupt
    (fun _ => Assert reader fun c w => Latched c w ∧ Seen c w) E := by
  refine Triple.bind (gap_rule Latched.keeps) fun _ => Triple.bind (change_rule
    (B := fun c w => Latched c w ∧ Seen c w) _ fun c w h => ⟨h, h⟩) fun _ => ?_
  exact glance_rule fun c => pure_rule

theorem await_rule (n : ℕ) : Triple (Assert reader Latched) (await n) (fun _ => Assert reader Seen)
    fun _ => Assert reader (Quiet False) := by
  have weak : ∀ c : Context, Assert reader Latched c → Assert reader (Quiet False) c := fun _ hc => hc.mono fun _ _ h => ⟨h.1, False.elim⟩
  induction n with
  | zero =>
    exact Triple.bind lastInterrupt_rule fun last => Triple.require (fun _ hc _ => hc.mono fun _ _ h => h.2) fun _ hc _ =>
      weak _ (hc.mono fun _ _ h => h.1)
  | succ n ih =>
    refine Triple.bind lastInterrupt_rule fun last => Triple.when (fun _ => ?_) fun _ hc _ => hc.mono fun _ _ h => h.2
    refine Triple.bind (ask_rule _) fun answer => Triple.bind (Q := fun _ => Assert reader Latched) ?_ fun _ => ih
    exact Triple.ofExcept (fun _ _ hc => hc.mono fun _ _ h => h.1) fun _ _ hc => weak _ (hc.mono fun _ _ h => h.1)

/-- A descriptor may be written, and the channel enabled. -/
def Permitted : Rel := fun c w => Agree c w ∧ c.online = true ∧ c.isUnsafe = false

theorem Permitted.keeps : Interruptible Permitted := fun _ _ _ h => ⟨h, h⟩

theorem transfer_rule : Triple (Assert reader Permitted) transfer (fun _ => Assert reader (Quiet True))
    fun _ => Assert reader (Quiet False) := by
  refine Triple.bind (gap_rule Permitted.keeps) fun _ => glance_rule fun c => ?_
  refine Triple.bind (change_rule (B := Ready) _ fun c w h => ⟨h.1, h.2, rfl⟩) fun _ => Triple.bind (dmaBegin_rule _) fun _ => ?_
  refine Triple.bind (ask_rule _) fun wakes => Triple.bind (await_rule wakes) fun _ => look_rule fun c => ?_
  refine Triple.require (fun _ hc good => hc.mono ?_) fun _ hc _ => hc.mono fun _ _ h => ⟨h.2.1, False.elim⟩
  rintro _ w ⟨rfl, agree, seen⟩
  exact ⟨agree, fun _ => seen ⟨good.2, good.1⟩⟩

/-- After a halt, or when it failed. -/
def Settled (p : Prop) (halted : Bool) : Rel := fun c w => Rest c w ∧ (halted = true → Off p c w)

theorem Settled.keeps (p : Prop) (halted : Bool) : Interruptible (Settled p halted) := fun c w bits h =>
  ⟨⟨h.1, fun yes => (Off.keeps c w bits (h.2 yes)).1⟩, h.1, fun yes => (Off.keeps c w bits (h.2 yes)).2⟩

theorem retire_rule (result : Except Status Unit) :
    Triple (Assert reader (Quiet (result = .ok ()))) (retire result) (fun _ => Assert reader fun c w => Rest c w ∧ Off True c w)
      fun _ => Assert reader Rest := by
  refine Triple.bind (openWrite_rule Quiet.keeps (by decide)) fun _ => Triple.bind dmaHalt_rule fun halted => ?_
  refine Triple.bind (Q := fun _ => Assert reader (Settled (result = .ok ()) halted)) (Triple.when (fun no => ?_) fun _ hc yes => ?_)
    fun _ => glance_rule fun c => ?_
  · refine setUnsafe_rule fun c w h => ⟨⟨⟨h.1.1.1, rfl⟩, nofun⟩, fun yes => ?_⟩
    exact absurd (no.symm.trans yes) Bool.false_ne_true
  · have yes : halted = true := by simpa using yes
    exact hc.mono fun c w h => ⟨⟨h.1.1, fun _ => (h.2 yes).2.1⟩, fun _ => h.2 yes⟩
  · refine Triple.bind (Q := fun _ => Assert reader (Settled (result = .ok ()) halted))
      (Triple.when (fun _ => openWrite_rule (Settled.keeps _ _) (by decide)) fun _ hc _ => hc) fun _ => ?_
    refine Triple.bind (Q := fun _ => Assert reader fun c w => Rest c w ∧ Off (result = .ok ()) c w)
      (Triple.require (fun _ hc yes => hc.mono fun _ _ h => ⟨h.1, h.2 yes⟩) fun _ hc _ => hc.mono fun _ _ h => h.1) fun _ => ?_
    cases result with
    | error e => exact Triple.bind (Q := fun _ _ => False) (Triple.stop fun _ hc => hc.mono fun _ _ h => h.1) fun _ _ none => none.elim
    | ok =>
      refine Triple.bind (Triple.pure fun _ hc => hc) fun _ => record_rule _ ?_ ?_
      · rintro c w ⟨-, quiet, disabled, halted⟩
        exact ⟨quiet.2 rfl, halted rfl, disabled⟩
      · rintro c w ⟨rest, quiet, disabled, halted⟩
        exact ⟨rest, ⟨quiet.1, fun _ => quiet.2 rfl⟩, disabled, fun _ => halted rfl⟩

theorem copy_rule (sourceOffset destinationOffset length : ℕ) :
    Triple (Assert reader Rest) (copy sourceOffset destinationOffset length) (fun _ => Assert reader fun c w => Rest c w ∧ Off True c w)
      fun _ => Assert reader Rest := by
  refine look_rule fun s => Triple.bind (require_rule fun _ _ _ h => h.2) fun _ => assume_rule fun may => ?_
  refine Triple.bind (Triple.ofExcept_ok fun _ _ hc => hc.mono fun _ _ h => h.2) fun d => Triple.assume fun described => ?_
  refine Triple.bind (record_rule (B := Permitted) _ ?_ ?_) fun _ => ?_
  · rintro _ w ⟨rfl, rest⟩
    exact ⟨rest.2 may.2, described⟩
  · rintro _ w ⟨rfl, rest⟩
    exact ⟨rest.1, may⟩
  · refine Triple.bind (Triple.attempt (R := fun result => Assert reader (Quiet (result = .ok ()))) (transfer_rule.mono
      (fun _ hc => hc) (fun _ _ hc => hc.mono fun _ _ h => ⟨h.1, fun _ => h.2 trivial⟩) fun _ _ hc => hc.mono fun _ _ h => ⟨h.1, nofun⟩))
      fun result => retire_rule result

theorem copy_keeps (sourceOffset destinationOffset length : ℕ) : Keeps (copy sourceOffset destinationOffset length) :=
  (copy_rule _ _ _).mono (fun _ hc => hc) (fun _ _ hc => hc.mono fun _ _ h => h.1) fun _ _ hc => hc

theorem selfTest_keeps : Keeps selfTest := by
  refine Triple.each fun t _ => Triple.bind (ask_rule _) fun cancelled => ?_
  refine Triple.bind (Q := fun _ => Assert reader Rest) (Triple.require (fun _ hc _ => hc) fun _ hc _ => hc) fun _ => ?_
  refine Triple.bind (copy_keeps _ _ _) fun _ => Triple.bind (ask_rule _) fun found => ?_
  exact Triple.require (fun _ hc _ => hc) fun _ hc _ => hc

theorem copyRequest_keeps (version length sent : ℕ) : Keeps (copyRequest version length sent) :=
  Triple.bind (Q := fun _ => Assert reader Rest) (Triple.require (fun _ hc _ => hc) fun _ hc _ => hc) fun _ => copy_keeps _ _ _

theorem drive_keeps (callback : Callback) : Keeps callback.drive := by
  cases callback with
  | prepare => exact dmaPrepare_keeps
  | release => exact dmaRelease_keeps
  | start => exact dmaStart_keeps
  | stop => exact dmaStop_keeps
  | interruptEnable => exact setOnline_keeps true
  | interruptDisable => exact dmaInterruptDisable_keeps
  | interrupt => exact gap_rule Rest.keeps
  | query => exact query_keeps
  | selfTest => exact selfTest_keeps
  | copy version length sent => exact copyRequest_keeps version length sent

end Requests

/-! ### Descriptors -/

section Descriptors

variable {alignment source destination length : ℕ} {d : Descriptor}

theorem widen_le (alignment left width : ℕ) : widen alignment left width ≤ width + left := by
  induction left generalizing width with
  | zero => exact Nat.le_refl _
  | succ left ih =>
    unfold widen
    split
    · omega
    · exact Nat.le_trans (ih _) (by omega)

theorem testBit_widen {left width : ℕ} (below : ∀ j < width, alignment.testBit j = false) :
    ∀ j < widen alignment left width, alignment.testBit j = false := by
  induction left generalizing width with
  | zero => exact below
  | succ left ih =>
    unfold widen
    split
    · exact below
    · rename_i zero
      refine ih fun j hj => ?_
      rcases Nat.lt_succ_iff_lt_or_eq.mp hj with lt | rfl
      · exact below j lt
      · exact Bool.eq_false_iff.mpr zero

theorem dvd_of_testBit {x w : ℕ} (zeros : ∀ j < w, x.testBit j = false) : 2 ^ w ∣ x := by
  refine Nat.dvd_of_mod_eq_zero (Nat.eq_of_testBit_eq fun j => ?_)
  rw [Nat.testBit_mod_two_pow, Nat.zero_testBit]
  by_cases below : j < w
  · rw [zeros j below, Bool.and_false]
  · rw [decide_eq_false below, Bool.false_and]

/-- The chosen width divides the addresses and the length. -/
theorem dvd_width (source destination length : ℕ) : 2 ^ widen (source ||| destination ||| length) 4 0 ∣ source ∧
    2 ^ widen (source ||| destination ||| length) 4 0 ∣ destination ∧ 2 ^ widen (source ||| destination ||| length) 4 0 ∣ length := by
  have zeros : ∀ j < widen (source ||| destination ||| length) 4 0, (source ||| destination ||| length).testBit j = false :=
    testBit_widen nofun
  have each (j : ℕ) (hj : j < widen (source ||| destination ||| length) 4 0) :
      (source.testBit j = false ∧ destination.testBit j = false) ∧ length.testBit j = false := by
    have := zeros j hj
    rwa [Nat.testBit_or, Nat.testBit_or, Bool.or_eq_false_iff, Bool.or_eq_false_iff] at this
  exact ⟨dvd_of_testBit fun j hj => (each j hj).1.1, dvd_of_testBit fun j hj => (each j hj).1.2, dvd_of_testBit fun j hj => (each j hj).2⟩

/-- Beats of some bytes each are the bytes one after the other. -/
theorem flatMap_beats {α : Type} (f : ℕ → α) (beats size : ℕ) :
    ((List.range beats).flatMap fun beat => (List.range size).map fun byte => f (beat * size + byte)) =
      (List.range (beats * size)).map f := by
  induction beats with
  | zero => rw [Nat.zero_mul]; rfl
  | succ beats ih =>
    rw [List.range_succ, List.flatMap_append, ih, Nat.succ_mul, List.range_add, List.map_append, List.map_map]
    simp only [List.flatMap_cons, List.flatMap_nil, List.append_nil]
    rfl

/-- What the fields of the control word say. -/
theorem control_fields : ∀ width ≤ 4,
    let control : BitVec 32 := (1 <<< 18) ||| (1 <<< 14) ||| (BitVec.ofNat 32 width <<< 11) ||| (BitVec.ofNat 32 width <<< 8)
    ((control >>> 8) &&& 7).toNat = width ∧ ((control >>> 11) &&& 7).toNat = width ∧ control.getLsbD 4 = false ∧
      control.getLsbD 6 = false := by
  decide

theorem of_descriptor (h : dmaDescriptor source destination length = .ok d) :
    d.moves = (List.range length).map (fun i => (source + i, destination + i)) ∧
      (d.destinationWidth = d.sourceWidth ∧ 2 ^ d.sourceWidth ∣ source ∧ 2 ^ d.sourceWidth ∣ destination) ∧
      source + length ≤ 2 ^ 32 ∧ destination + length ≤ 2 ^ 32 := by
  unfold dmaDescriptor at h
  split at h
  · cases h
  · rename_i ok
    cases h
    obtain ⟨first, second, third⟩ := dvd_width source destination length
    have fields := control_fields _ (widen_le (source ||| destination ||| length) 4 0)
    generalize widen (source ||| destination ||| length) 4 0 = width at first second third fields ⊢
    obtain ⟨sourceWidth, destinationWidth, sourceMoves, destinationMoves⟩ := fields
    have beats : (length >>> width - 1 + 1) * 2 ^ width = length := by
      rw [Nat.shiftRight_eq_div_pow]
      have := Nat.div_mul_cancel third
      have := Nat.div_pos (Nat.le_of_dvd (by omega) third) (Nat.two_pow_pos width)
      rwa [Nat.sub_add_cancel this]
    refine ⟨?_, ⟨destinationWidth.trans sourceWidth.symm, ?_, ?_⟩, ?_, ?_⟩
    · simp only [Descriptor.moves, Descriptor.sourceWidth, Descriptor.destinationWidth, Descriptor.place, sourceWidth, destinationWidth,
        sourceMoves, destinationMoves, Bool.false_eq_true, if_false, Nat.add_assoc]
      rw [flatMap_beats fun i => (source + i, destination + i), beats]
    · rw [Descriptor.sourceWidth, sourceWidth]
      exact first
    · rw [Descriptor.sourceWidth, sourceWidth]
      exact second
    · unfold dmaBufferLength at ok
      omega
    · unfold dmaBufferLength at ok
      omega

end Descriptors

/-! ### Runs -/

section Runs

variable {world : World} {c : Context}

theorem rest_of_reachable (h : (system world).Reachable c) : Assert reader Rest c := by
  have init : Assert reader Rest (system world).init := ⟨trivial, ⟨rfl, rfl⟩, fun _ => rfl⟩
  refine h.invariant (I := Assert reader Rest) init ?_
  intro c c' callback hc _ next
  cases next
  have := drive_keeps callback hc
  rcases run : callback.drive.run c with ⟨_ | _, c'⟩ <;> rw [run] at this <;> exact this

/-- In every run, whatever the registers hold and wherever interrupts come: the channel is enabled only while
the driver is online and not unsafe, the common buffer is freed and a descriptor is written only when
the channel was read as disabled after it was last enabled, and a copy is successful only when the
interrupt routine has read, after the start of this copy, that it is complete and without an error,
and the channel was read as disabled after that. A descriptor that is accepted describes the bytes
of the source going to those of the destination, with both aligned to the width of the transfers, and
below the limit of 32 bits. -/
theorem dma_safe (h : (system world).Reachable c) :
    reader.InOrder c.trace ∧
    (c.state.isUnsafe = false → (reader.watch c.trace).disabled = true) ∧
    (∀ source destination length c', (copy source destination length).run c = (.ok (), c') →
      reader.InOrder c'.trace ∧ (reader.watch c'.trace).completed = true ∧ (reader.watch c'.trace).halted = true ∧
        (reader.watch c'.trace).disabled = true) ∧
    ∀ source destination length d, dmaDescriptor source destination length = .ok d →
      d.moves = (List.range length).map (fun i => (source + i, destination + i)) ∧
        (d.destinationWidth = d.sourceWidth ∧ 2 ^ d.sourceWidth ∣ source ∧ 2 ^ d.sourceWidth ∣ destination) ∧
        source + length ≤ 2 ^ 32 ∧ destination + length ≤ 2 ^ 32 := by
  have rest := rest_of_reachable h
  refine ⟨rest.1, rest.2.2, fun source destination length c' run => ?_, fun _ _ _ _ => of_descriptor⟩
  obtain ⟨ordered, -, quiet, disabled, halted⟩ := (copy_rule source destination length).of_ok rest run
  exact ⟨ordered, quiet.2 trivial, halted trivial, disabled⟩

/-- Nothing fails, and no interrupt comes. -/
def calm : World where
  register _ _ := 0
  interrupts _ := 0
  service _ := .ok ()
  allocated _ := some 0x100000
  wakes _ := 0
  wait _ := .ok ()
  cancelled _ := false
  copied _ := true

theorem prepared_safe : ∃ c d, (system calm).Reachable c ∧ c.state.online = true ∧ reader.InOrder c.trace ∧
    dmaDescriptor 0x101002 0x112006 12 = .ok d ∧ d.sourceWidth = 1 ∧
    d.moves = (List.range 12).map fun i => (0x101002 + i, 0x112006 + i) := by
  have run : ((system calm).runFrom (system calm).init [.prepare, .interruptEnable]).any (fun c => c.state.online) = true := by decide
  obtain ⟨c, run, online⟩ := (Option.any_eq_true _ _).mp run
  have reach := System.reachable_of_run run
  obtain ⟨ordered, -, -, described⟩ := dma_safe reach
  exact ⟨c, _, reach, online, ordered, rfl, rfl, (described 0x101002 0x112006 12 _ rfl).1⟩

end Runs

end Pi5Drivers.Rp1Dma
