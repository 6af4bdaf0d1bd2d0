import Pi5Drivers.Display.Start
import Pi5Drivers.Display.Transaction
import Pi5Drivers.Lib.Runs

/-! The buffers of the scaler that the outputs use. Each output has its half of the memory, and
handles of its parity where the firmware left it one of that parity. -/

namespace Pi5Drivers.Display

open Effect Recorded

/-! ### Descriptors -/

/-- The half of the memory. -/
def half (descriptor : BitVec 32) : BitVec 32 := (descriptor >>> 16) &&& 1023

theorem low_bit (i : ℕ) (h : i < 32) : (31#32).getLsbD i = decide (i < 5) := by
  revert i; decide

theorem other_bit (i : ℕ) (h : i < 32) : (~~~(31#32 <<< 10)).getLsbD i = decide (i < 10 ∨ 15 ≤ i) := by
  revert i; decide

/-- A handle that is put into a descriptor. -/
theorem handle_put (x y : BitVec 32) : handle ((x &&& ~~~(31#32 <<< 10)) ||| (y &&& 31#32) <<< 10) = y &&& 31#32 := by
  refine BitVec.eq_of_getLsbD_eq fun i hi => ?_
  simp only [handle, BitVec.getLsbD_and, BitVec.getLsbD_ushiftRight, BitVec.getLsbD_or, BitVec.getLsbD_shiftLeft,
    low_bit i hi]
  by_cases small : i < 5
  · rw [other_bit _ (by omega)]
    have inside : 10 + i < 32 := by omega
    have above : ¬10 + i < 10 := by omega
    have below : ¬15 ≤ 10 + i := by omega
    simp [inside, above, below, small, low_bit i hi]
  · simp [small, low_bit i hi]

/-- It leaves the half of the memory. -/
theorem half_put (x y : BitVec 32) : half ((x &&& ~~~(31#32 <<< 10)) ||| (y &&& 31#32) <<< 10) = half x := by
  refine congrArg (· &&& 1023) (BitVec.eq_of_getLsbD_eq fun i hi => ?_)
  simp only [BitVec.getLsbD_and, BitVec.getLsbD_ushiftRight, BitVec.getLsbD_or, BitVec.getLsbD_shiftLeft]
  by_cases inside : 16 + i < 32
  · rw [other_bit _ inside, low_bit _ (by omega)]
    have high : ¬16 + i - 10 < 5 := by omega
    have above : 15 ≤ 16 + i := by omega
    simp [high, above]
  · rw [BitVec.getLsbD_of_ge x (16 + i) (by omega)]
    simp [inside]

theorem handle_next (x : BitVec 32) : handle (nextDescriptor x) = (handle x + 2) &&& 31 := handle_put _ _

theorem half_next (x : BitVec 32) : half (nextDescriptor x) = half x := half_put _ _

theorem toNat_low (x : BitVec 32) : (x &&& 31).toNat = x.toNat % 32 := Nat.and_two_pow_sub_one_eq_mod _ 5

theorem toNat_parity (x : BitVec 32) : (x &&& 1).toNat = x.toNat % 2 := Nat.and_two_pow_sub_one_eq_mod _ 1

theorem handle_lt (x : BitVec 32) : (handle x).toNat < 32 := by
  rw [handle, toNat_low]
  exact Nat.mod_lt _ (by decide)

theorem advance_ne (x : BitVec 32) : (x + 2) &&& 31 ≠ x := by
  intro same
  have := congrArg BitVec.toNat same
  rw [toNat_low, BitVec.toNat_add] at this
  have two : (2 : BitVec 32).toNat = 2 := rfl
  omega

theorem advance_parity (x : BitVec 32) : ((x + 2) &&& 31) &&& 1 = x &&& 1 := by
  refine BitVec.eq_of_toNat_eq ?_
  rw [toNat_parity, toNat_parity, toNat_low, BitVec.toNat_add]
  have two : (2 : BitVec 32).toNat = 2 := rfl
  omega

/-- The descriptor is in the half of an output and has a handle of its parity. -/
structure Mine (p : Port) (descriptor : BitVec 32) : Prop where
  half : half descriptor = Firmware.targetBase p
  parity : handle descriptor &&& 1 = if p = 0 then 0 else 1

/-- Two descriptors that differ in the handle and in the half of the memory. -/
def Apart (a b : BitVec 32) : Prop := handle a ≠ handle b ∧ half a ≠ half b

theorem Mine.apart {p : Port} {a b : BitVec 32} (ha : Mine p a) (hb : Mine p.peer b) : Apart a b := by
  have parity : (if p = 0 then 0 else 1 : BitVec 32) ≠ if p.peer = 0 then 0 else 1 := by clear ha hb; revert p; decide
  have halves : Firmware.targetBase p ≠ Firmware.targetBase p.peer := by clear ha hb; revert p; decide
  refine ⟨fun same => parity ?_, fun same => halves ?_⟩
  · rw [← ha.parity, ← hb.parity, same]
  · rw [← ha.half, ← hb.half, same]

theorem Mine.next {p : Port} {x : BitVec 32} (h : Mine p x) : Mine p (nextDescriptor x) :=
  ⟨(half_next x).trans h.half, by rw [handle_next, advance_parity, h.parity]⟩

/-! ### The firmware's handle -/

namespace Firmware

variable {fw : Firmware} {p : Port} {ownsPost fullDisplay : Bool} {o : Output}

/-- The output that shows the boot screen was left a handle of its parity. -/
def Fit (fw : Firmware) (p : Port) (ownsPost : Bool) : Prop :=
  ownsPost = true → fw.postHandle &&& 1 = if p = 0 then 0 else 1

theorem start_eq (started : fw.start p ownsPost fullDisplay = some o) :
    o.owned = true ∧ o.upmDescriptor = fw.upmDescriptor p ownsPost ∧
      o.pitch = if ownsPost = true then fw.width * 4 else fw.pitch := by
  by_cases accepted : fw.Accepted p ownsPost fullDisplay
  · rw [start, if_pos accepted] at started
    cases started
    exact ⟨rfl, rfl, rfl⟩
  · rw [start, if_neg accepted] at started
    cases started

theorem low_idem (x : BitVec 32) : (x &&& 31) &&& 31 = x &&& 31 := by rw [BitVec.and_assoc, BitVec.and_self]

theorem layoutHandle_low : fw.layoutHandle p &&& 31 = fw.layoutHandle p := by
  unfold layoutHandle
  split
  · exact low_idem _
  · exact low_idem _

theorem startHandle_low : fw.startHandle p &&& 31 = fw.startHandle p := by
  by_cases taken : fw.layoutHandle p = if p = 0 then 1 else 0
  · rw [startHandle, if_pos taken, low_idem]
  · rw [startHandle, if_neg taken, layoutHandle_low]

theorem startHandle_parity : fw.startHandle p &&& 1 = fw.postHandle &&& 1 := by
  have layout : fw.layoutHandle p &&& 1 = fw.postHandle &&& 1 := by
    unfold layoutHandle
    split
    · exact advance_parity _
    · rfl
  by_cases taken : fw.layoutHandle p = if p = 0 then 1 else 0
  · rw [startHandle, if_pos taken, advance_parity, layout]
  · rw [startHandle, if_neg taken, layout]

/-- Another layout of the rows gets another handle than the firmware's, whether it is moved once or twice. -/
theorem startHandle_ne (other : fw.pitch ≠ fw.width * 4) : fw.startHandle p ≠ fw.postHandle := by
  have layout : fw.layoutHandle p = (fw.postHandle + 2) &&& 31 := if_pos (.inl other)
  have post : fw.postHandle &&& 31 = fw.postHandle := low_idem _
  by_cases taken : fw.layoutHandle p = if p = 0 then 1 else 0
  · rw [startHandle, if_pos taken, layout]
    intro same
    have twice := congrArg BitVec.toNat same
    have small := congrArg BitVec.toNat post
    have two : (2 : BitVec 32).toNat = 2 := rfl
    rw [toNat_low, BitVec.toNat_add, toNat_low, BitVec.toNat_add] at twice
    rw [toNat_low] at small
    omega
  · rw [startHandle, if_neg taken, layout]
    exact advance_ne _

theorem upmDescriptor_post : fw.upmDescriptor p true =
    (targetBase p <<< 16 &&& ~~~(31#32 <<< 10)) ||| (fw.startHandle p &&& 31#32) <<< 10 := by
  have base : targetBase p <<< 16 &&& ~~~(31#32 <<< 10) = targetBase p <<< 16 := by revert p; decide
  rw [base, show (31#32) = 31 from rfl, startHandle_low]
  rfl

/-- The first descriptor of an output. -/
theorem mine_start (fit : fw.Fit p ownsPost) : Mine p (fw.upmDescriptor p ownsPost) := by
  cases ownsPost with
  | false =>
    unfold upmDescriptor
    rw [if_neg (by simp)]
    clear fit
    refine ⟨?_, ?_⟩
    · revert p
      decide
    · revert p
      decide
  | true =>
    rw [upmDescriptor_post]
    refine ⟨?_, ?_⟩
    · rw [half_put]
      clear fit
      revert p
      decide
    · rw [handle_put, show (31#32) = 31 from rfl, startHandle_low, startHandle_parity]
      exact fit rfl

/-- A change of the layout at start moves the handle away from the firmware's. -/
theorem handle_start (started : fw.start p true fullDisplay = some o) (other : o.pitch ≠ fw.pitch) :
    handle o.upmDescriptor ≠ fw.postHandle := by
  obtain ⟨-, descriptor, pitch⟩ := start_eq started
  rw [descriptor, upmDescriptor_post, handle_put, show (31#32) = 31 from rfl, startHandle_low]
  refine startHandle_ne fun same => other ?_
  rw [pitch, same]
  rfl

end Firmware

/-! ### The observer -/

/-- Reads the display lists that are written, and knows the last one of each output. -/
structure Lists where
  last : Port → Option ScanList

def Lists.saw (w : Lists) : Event → Lists
  | .listed p _ l => ⟨Function.update w.last p (some l)⟩
  | _ => w

/-- A list has another handle and is in another half than that of the other output, and has another
handle than the list before where the rows are laid out in another way. -/
def Lists.Allows (w : Lists) : Event → Prop
  | .listed p _ l =>
    (∀ other, w.last p.peer = some other → Apart l.upmDescriptor other.upmDescriptor) ∧
    ∀ before, w.last p = some before → before.pitch ≠ l.pitch → handle l.upmDescriptor ≠ handle before.upmDescriptor
  | _ => True

def observer : Observer Event Lists := ⟨⟨fun _ => none⟩, Lists.saw, Lists.Allows⟩

/-- What is said about an output and its last list: they say the same. -/
structure Told (p : Port) (o : Output) (last : Option ScanList) : Prop where
  lists : ∀ l, last = some l → Mine p l.upmDescriptor
  owned : o.owned = true → Mine p o.upmDescriptor ∧ ∃ l, last = some l ∧ l.upmDescriptor = o.upmDescriptor ∧ l.pitch = o.pitch
  fresh : o.owned = false → last = none

/-- The output is laid out in another way and has not listed that yet. -/
structure Laid (p : Port) (o : Output) (last : Option ScanList) : Prop where
  lists : ∀ l, last = some l → Mine p l.upmDescriptor
  mine : Mine p o.upmDescriptor
  moved : ∀ l, last = some l → l.pitch ≠ o.pitch → handle o.upmDescriptor ≠ handle l.upmDescriptor

/-- Both outputs are listed as they are. -/
def Good (d : Outputs) (w : Lists) : Prop := ∀ p, Told p (d.output p) (w.last p)

/-- One of them shows pictures. -/
structure Ready (p : Port) (d : Outputs) (w : Lists) : Prop where
  good : Good d w
  owned : (d.output p).owned = true

/-- One of them is laid out in another way. -/
structure Changing (p : Port) (d : Outputs) (w : Lists) : Prop where
  self : Laid p (d.output p) (w.last p)
  peer : Told p.peer (d.output p.peer) (w.last p.peer)
  owned : (d.output p).owned = true

section Rules

variable {p q : Port} {d : Outputs} {w : Lists} {α : Type} {t old : Timing} {v before : NativeState}
  {A B : Outputs → Lists → Prop} {E : Status → Context → Prop}

/-- The observer takes no notice of plain events. -/
theorem observer_plain {newer older : List Event} (plain : ∀ e ∈ newer, e.Plain) :
    observer.watch (newer ++ older) = observer.watch older ∧
      (observer.InOrder older → observer.InOrder (newer ++ older)) := by
  induction newer with
  | nil => exact ⟨rfl, id⟩
  | cons e newer ih =>
    obtain ⟨here, rest⟩ := List.forall_mem_cons.mp plain
    obtain ⟨same, order⟩ := ih rest
    cases e with
    | listed => exact here.elim
    | wrote p r value => exact ⟨same, fun h => ⟨trivial, order h⟩⟩
    | verified p t => exact ⟨same, fun h => ⟨trivial, order h⟩⟩

theorem Plain.keeps {x : Drive α} (h : Plain x) :
    Triple (Assert observer A) x (fun _ => Assert observer A) fun _ => Assert observer A := by
  have back {l : List Event} {d : Outputs} (order : observer.InOrder l) (good : A d (observer.watch l)) (c : Context)
      (hc : Since d l c) : Assert observer A c := by
    obtain ⟨rfl, newer, eq, plain⟩ := hc
    obtain ⟨same, ordered⟩ : observer.watch (newer ++ l) = observer.watch l ∧ _ := observer_plain plain
    rw [Assert, eq, same]
    exact ⟨ordered order, good⟩
  intro c ⟨order, good⟩
  have := h c.state c.trace (since_self c)
  rcases run : x.run c with ⟨_ | _, c'⟩ <;> rw [run] at this <;> exact back order good c' this

theorem set_keeps {f : Output → Output} (h : ∀ d w, A d w → B (d.set p f) w) :
    Triple (Assert observer A) (set p f) (fun _ => Assert observer B) E :=
  change_rule _ h

theorem Told.congr {o o' : Output} {last : Option ScanList} (h : Told p o last) (owned : o'.owned = o.owned)
    (descriptor : o'.upmDescriptor = o.upmDescriptor) (pitch : o'.pitch = o.pitch) : Told p o' last :=
  ⟨h.lists, fun yes => by rw [descriptor, pitch]; exact h.owned (owned ▸ yes), fun no => h.fresh (owned ▸ no)⟩

/-- What is said of an output does not depend on its other fields. -/
theorem Ready.set {f : Output → Output} (h : Ready p d w) (owned : ∀ o, (f o).owned = o.owned)
    (descriptor : ∀ o, (f o).upmDescriptor = o.upmDescriptor) (pitch : ∀ o, (f o).pitch = o.pitch) :
    Ready p (d.set q f) w := by
  refine ⟨fun r => ?_, ?_⟩
  · rcases q.eq_or r with rfl | rfl
    · rw [Outputs.set_self]
      exact (h.good r).congr (owned _) (descriptor _) (pitch _)
    · rw [Outputs.set_peer]
      exact h.good _
  · rcases q.eq_or p with rfl | rfl
    · rw [Outputs.set_self, owned]
      exact h.owned
    · rw [Outputs.set_peer]
      exact h.owned

/-- The layout for a timing. -/
theorem Ready.changing (h : Ready p d w) (t : Timing) : Changing p (d.set p (·.withTiming t)) w := by
  obtain ⟨mine, last, eq, descriptor, pitch⟩ := (h.good p).owned h.owned
  refine ⟨?_, by rw [Outputs.set_peer]; exact h.good _, by rw [Outputs.set_self]; exact h.owned⟩
  rw [Outputs.set_self]
  refine ⟨(h.good p).lists, ?_, fun l same other => ?_⟩
  · change Mine p (if _ then nextDescriptor _ else _)
    split
    · exact mine.next
    · exact mine
  · rw [eq] at same
    cases same
    change handle (if (d.output p).pitch ≠ t.pitch then _ else _) ≠ _
    rw [if_pos (pitch ▸ other), descriptor, handle_next]
    exact advance_ne _

/-- The list of an output as it is now. -/
theorem Changing.allows (h : Changing p d w) (frame : ℕ) {l : ScanList}
    (descriptor : l.upmDescriptor = (d.output p).upmDescriptor) (pitch : l.pitch = (d.output p).pitch) :
    w.Allows (.listed p frame l) :=
  ⟨fun other eq => (descriptor ▸ h.self.mine).apart (h.peer.lists other eq),
    fun last eq moved => descriptor ▸ h.self.moved last eq (pitch ▸ moved)⟩

theorem Changing.listed (h : Changing p d w) (frame : ℕ) {l : ScanList}
    (descriptor : l.upmDescriptor = (d.output p).upmDescriptor) (pitch : l.pitch = (d.output p).pitch) :
    Ready p d (w.saw (.listed p frame l)) := by
  refine ⟨fun r => ?_, h.owned⟩
  change Told r _ (Function.update w.last p (some l) r)
  rcases p.eq_or r with rfl | rfl
  · rw [Function.update_self]
    refine ⟨fun l' eq => ?_, fun _ => ⟨h.self.mine, l, rfl, descriptor, pitch⟩, fun no => by simp [h.owned] at no⟩
    cases eq
    exact descriptor ▸ h.self.mine
  · rw [Function.update_of_ne p.peer_ne]
    exact h.peer

/-- An output that is listed as it is may be listed again. -/
theorem Ready.again (h : Ready p d w) : Changing p d w := by
  obtain ⟨mine, last, eq, -, pitch⟩ := (h.good p).owned h.owned
  refine ⟨⟨(h.good p).lists, mine, fun l same other => ?_⟩, h.good _, h.owned⟩
  rw [eq] at same
  cases same
  exact absurd pitch other

theorem lists_keeps (frames : List ℕ) (o : Output) :
    Triple (Assert observer fun d w => d.output p = o ∧ Ready p d w)
      (each (fun frame => record (.listed p frame ⟨o.width, o.height, o.upmDescriptor, frameAddress o frame, o.pitch⟩)) frames)
      (fun _ => Assert observer fun d w => d.output p = o ∧ Ready p d w) E := by
  refine Triple.each fun frame _ => record_rule _ (fun d w h => ?_) fun d w h => ?_
  · exact h.2.again.allows frame (by rw [h.1]) (by rw [h.1])
  · exact ⟨h.1, h.2.again.listed frame (by rw [h.1]) (by rw [h.1])⟩

/-- At least one list is written. -/
theorem writeCurrentLists_keeps :
    Triple (Assert observer (Changing p)) (writeCurrentLists p) (fun _ => Assert observer (Ready p)) E := by
  refine Triple.bind (Q := fun o => Assert observer fun d w => d.output p = o ∧ Changing p d w)
    (fun c h => ⟨h.1, rfl, h.2⟩) fun o => ?_
  have frames : ∃ rest, List.range (framebufferCount o) = 0 :: rest := by
    unfold framebufferCount
    split
    · exact ⟨[1], rfl⟩
    · exact ⟨[], rfl⟩
  obtain ⟨rest, eq⟩ := frames
  rw [eq]
  refine Triple.bind (record_rule (B := fun d w => d.output p = o ∧ Ready p d w) _ (fun d w h => ?_) fun d w h => ?_) fun _ =>
    (lists_keeps rest o).mono (fun _ => id) (fun _ _ hc => hc.mono fun _ _ h => h.2) fun _ _ => id
  · exact h.2.allows 0 (by rw [h.1]) (by rw [h.1])
  · exact ⟨h.1, h.2.listed 0 (by rw [h.1]) (by rw [h.1])⟩

/-- A program that keeps both outputs listed as they are. -/
abbrev Keeps {α : Type} (p : Port) (x : Drive α) : Prop :=
  Triple (Assert observer (Ready p)) x (fun _ => Assert observer (Ready p)) fun _ => Assert observer (Ready p)

theorem setOther_keeps (q : Port) {f : Output → Output} (owned : ∀ o, (f o).owned = o.owned)
    (descriptor : ∀ o, (f o).upmDescriptor = o.upmDescriptor) (pitch : ∀ o, (f o).pitch = o.pitch) : Keeps p (set q f) :=
  set_keeps fun _ _ h => h.set owned descriptor pitch

theorem applyTiming_keeps : Keeps p (applyTiming p t v) := by
  refine Triple.bind (set_keeps (B := Changing p) fun d w h => h.changing t) fun _ => ?_
  refine Triple.bind (Triple.bind (set_keeps (B := Changing p) fun d w h => ?_) fun _ => writeCurrentLists_keeps) fun _ =>
    (plain_applyNative t v).keeps
  refine ⟨?_, by rw [Outputs.set_peer]; exact h.peer, by rw [Outputs.set_self]; exact h.owned⟩
  rw [Outputs.set_self]
  exact ⟨h.self.lists, h.self.mine, h.self.moved⟩

theorem Triple.attempted {x : Drive α} (h : Keeps p x) : Keeps p (x.attempt : Drive (Except Status α)) :=
  Triple.attempt (R := fun _ => Assert observer (Ready p)) h

theorem settle_keeps (r : Except Status Unit) : Keeps p (settle p old before r) := by
  cases r with
  | ok _ => exact pure_rule
  | error e =>
    refine Triple.bind (Triple.bind (Triple.attempted plain_disableNative.keeps) fun _ =>
      Triple.bind (Triple.attempted applyTiming_keeps) fun _ => pure_rule) fun restored => ?_
    refine Triple.ite (fun _ => pure_rule) fun _ => Triple.bind ?_ fun _ => pure_rule
    exact setOther_keeps p (fun _ => rfl) (fun _ => rfl) fun _ => rfl

theorem endMode_keeps (peerActive : Bool) (r : Except Status Unit) : Keeps p (endMode p peerActive r) := by
  refine Triple.bind (setOther_keeps p (fun _ => rfl) (fun _ => rfl) fun _ => rfl) fun _ => ?_
  refine Triple.bind (Triple.when (fun _ => Triple.bind (setOther_keeps p.peer (fun _ => rfl) (fun _ => rfl) fun _ => rfl)
    fun _ => Triple.bind (Triple.attempted plain_synchronizeMask.keeps) fun _ => pure_rule) fun _ h _ => h) fun _ => ?_
  refine Triple.bind (Triple.attempted plain_synchronizeMask.keeps) fun mask => ?_
  cases r with
  | error s => exact Triple.stop fun _ h => h
  | ok _ => exact (idle_ofExcept mask).plain.keeps

theorem synchronizeMode_keeps (peerActive : Bool) : Keeps p (synchronizeMode p peerActive) := by
  have marks (q : Port) : Keeps p (beginMode q) :=
    Triple.bind (setOther_keeps q (fun _ => rfl) (fun _ => rfl) fun _ => rfl) fun _ =>
      ((plain_write _ _).bind fun _ => plain_write _ _).keeps
  refine Triple.bind (idle_ask _).plain.keeps fun answer => ?_
  match answer with
  | .error s => exact Triple.stop fun _ h => h
  | .ok false => exact Triple.stop fun _ h => h
  | .ok true => exact Triple.bind (marks p) fun _ => Triple.when (fun _ => marks p.peer) fun _ h _ => h

theorem programMode_keeps (p : Port) (t : Timing) :
    Triple (Assert observer Good) (programMode p t) (fun _ => Assert observer Good) fun _ => Assert observer Good := by
  refine look_rule fun d => Triple.bind (require_rule fun _ _ _ h => h.2) fun _ => assume_rule fun ⟨owned, _⟩ => ?_
  have ready : Keeps p (if t.Same (d.output p).currentTiming ∧ t.flags = (d.output p).currentTiming.flags then pure ()
      else do
        let before ← saveNative p
        let desired ← ofExcept (desiredNative (d.output p) t before)
        let peerActive := d.paired && (d.output p.peer).owned
        drainFlips p
        when (peerActive = true) (drainFlips p.peer)
        synchronizeMode p peerActive
        changeMode p t (d.output p).currentTiming before desired peerActive) := by
    refine Triple.ite (fun _ => pure_rule) fun _ => Triple.bind idle_saveNative.plain.keeps fun before => ?_
    refine Triple.bind (idle_ofExcept _).plain.keeps fun desired => Triple.bind idle_drainFlips.plain.keeps fun _ => ?_
    refine Triple.bind (Triple.when (fun _ => idle_drainFlips.plain.keeps) fun _ h _ => h) fun _ => ?_
    refine Triple.bind (synchronizeMode_keeps _) fun _ => ?_
    refine Triple.bind (Triple.attempted (Triple.bind plain_disableNative.keeps fun _ => applyTiming_keeps)) fun r => ?_
    exact Triple.bind (settle_keeps r) fun r => endMode_keeps _ r
  refine ready.mono (fun c hc => hc.mono ?_) (fun _ _ hc => hc.mono fun _ _ h => h.good) fun _ _ hc =>
    hc.mono fun _ _ h => h.good
  rintro d' w ⟨rfl, good⟩
  exact ⟨good, owned⟩

/-- An output that is taken over. -/
theorem takeOver_keeps {ownsPost full : Bool} {fw : Firmware} (fit : fw.Fit p ownsPost) :
    Triple (Assert observer Good) (takeOver p ownsPost full fw) (fun _ => Assert observer Good)
      fun _ => Assert observer Good := by
  refine Triple.bind (Q := fun o => Assert observer fun d w => d.output p = o ∧ Good d w) (fun c h => ⟨h.1, rfl, h.2⟩)
    fun old => Triple.ite (fun _ => Triple.pure fun _ hc => hc.mono fun _ _ h => h.2) fun free => ?_
  rcases started : fw.start p ownsPost full with _ | o
  · exact Triple.stop fun _ hc => hc.mono fun _ _ h => h.2
  obtain ⟨owned, descriptor, -⟩ := Firmware.start_eq started
  refine Triple.bind (set_keeps (B := Changing p) fun d w h => ?_) fun _ =>
    writeCurrentLists_keeps.mono (fun _ => id) (fun _ _ hc => hc.mono fun _ _ h => h.good) fun _ _ => id
  have none_ : w.last p = none := (h.2 p).fresh (by rw [h.1]; simpa using free)
  refine ⟨?_, by rw [Outputs.set_peer]; exact h.2 _, by rw [Outputs.set_self]; exact owned⟩
  rw [Outputs.set_self, none_]
  exact ⟨fun l no => (nomatch no), descriptor ▸ Firmware.mine_start fit, fun l no => (nomatch no)⟩

end Rules

/-! ### Runs -/

inductive Action
  | start (p : Port) (ownsPost : Bool) (fw : Firmware)
  | pair
  | mode (p : Port) (t : Timing)

def Action.effect (full : Bool) : Action → Drive Unit
  | .start p ownsPost fw => takeOver p ownsPost full fw
  | .pair => change fun d => { d with paired := true }
  | .mode p t => programMode p t

/-- Neither output is in use. -/
def unused : Outputs where
  output _ :=
    { owned := false, fullDisplay := false, upmDescriptor := 0, width := 0, height := 0, pitch := 0, hTotal := 0, vTotal := 0
      pixelRate := 0, originalTiming := ⟨0, 0, 0, 0, 0, 0, 0, 0, 0, 0, 0, 0, 0, 0, 0⟩
      currentTiming := ⟨0, 0, 0, 0, 0, 0, 0, 0, 0, 0, 0, 0, 0, 0, 0⟩, originalNative := fun _ => 0, nativeMaxClock := 0
      frameBytes := 0, dma := 0, front := 0, visible := true, timingChanged := false, modeChanging := false, fault := false }
  paired := false

def system (world : World) (full : Bool) : System Context Action where
  init := ⟨world, 0, unused, []⟩
  next c e := some ((e.effect full).run c).2

/-- An output that shows the boot screen is taken over with a handle of its parity. -/
def Action.Fit : Action → Prop
  | .start p ownsPost fw => fw.Fit p ownsPost
  | _ => True

theorem Action.keeps {e : Action} {full : Bool} (fit : e.Fit) :
    Triple (Assert observer Good) (e.effect full) (fun _ => Assert observer Good) fun _ => Assert observer Good := by
  cases e with
  | start p ownsPost fw => exact takeOver_keeps fit
  | pair => exact fun _ h => h
  | mode p t => exact programMode_keeps p t

theorem good_of_reaches {world : World} {full : Bool} {c : Context}
    (h : (system world full).Reaches (fun _ e => e.Fit) c) : Assert observer Good c := by
  have init : Assert observer Good (system world full).init :=
    ⟨trivial, fun p => ⟨fun l no => (nomatch no), fun no => (nomatch no), fun _ => rfl⟩⟩
  refine h.invariant init fun {c c'} e good fit next => ?_
  have keeps : Triple (Assert observer Good) (e.effect full) _ _ := Action.keeps fit
  have := keeps good
  cases next
  rcases run : (e.effect full).run c with ⟨_ | _, c'⟩ <;> rw [run] at this <;> exact this

/-! ### The main result -/

/-- While every output that shows the boot screen was left a handle of its parity, no list is ever
written with the handle or the half of the other output, and a new layout of the rows always
gets another handle. -/
theorem handles_apart {world : World} {full : Bool} {c : Context}
    (h : (system world full).Reaches (fun _ e => e.Fit) c) :
    (observer.InOrder c.trace ∧ ((c.state.output 0).owned = true → (c.state.output 1).owned = true →
      Apart (c.state.output 0).upmDescriptor (c.state.output 1).upmDescriptor)) ∧
    ∀ p fw full o, Firmware.start fw p true full = some o → o.pitch ≠ fw.pitch → handle o.upmDescriptor ≠ fw.postHandle := by
  obtain ⟨order, good⟩ := good_of_reaches h
  refine ⟨⟨order, fun zero one => ?_⟩, fun p fw full o started => Firmware.handle_start started⟩
  exact ((good 0).owned zero).1.apart (p := 0) ((good 1).owned one).1

/-! ### A handle of the wrong parity -/

/-- 1920 by 1080 at 60 Hz on both outputs, with a handle for the output of the boot screen. -/
def booted (handle : BitVec 32) (address : BitVec 64) : Firmware where
  read
    | 0, 0 => 0x2454
    | 0, 4 => 4096
    | 0, 0xc => 1024
    | 0, 0x100 => 0x877f0437
    | 0, 0x180 => 0
    | 0, 0x110 => 0x100
    | 0, 0x11c => 0x100
    | 0, 0x4000 => 0x80000000
    | 0, 0x4400 => 0x600cc007
    | 0, 0x4404 => 0
    | 0, 0x4408 => 0xfff0
    | 0, 0x440c => 0x437077f
    | 0, 0x4414 => handle <<< 10
    | 0, 0x4418 => address.setWidth 32
    | 0, 0x441c => 7680
    | 0, 0x4480 => 0x80000000
    | 1, 0 => 1
    | 1, 4 => 3
    | 1, 0xc => 0x4a0016
    | 1, 0x10 => 0x2c03c0
    | 1, 0x14 => 0x240005
    | 1, 0x18 => 0x40438
    | 1, 0x24 => 0
    | 4, 0x1c => 54
    | 4, 0x28 => 9
    | 4, 0x2c => 0x407
    | 5, 0x18 => 0x80000000 ||| 403701760
    | _, _ => 0xb0b0b0b0
  width := 1920
  height := 1080
  pitch := 7680
  physicAddress := address
  hsmRate := 600000000
  bvbRate := 300000000
  hdmi := true
  modes := []
  native := fun _ => 0
  dma := 0x10000000
  served := true

/-- 1280 by 720 at 60 Hz. -/
def hd : Timing where
  display := 7
  videoId := 4
  clock := 74250
  hDisplay := 1280
  hSyncStart := 1390
  hSyncEnd := 1430
  hTotal := 1650
  hSkew := 0
  vDisplay := 720
  vSyncStart := 725
  vSyncEnd := 730
  vTotal := 750
  vScan := 0
  vRefresh := 60
  flags := 3

/-- Registers as they are when the second output shows that timing. -/
def showingHd : World where
  register time _
    | .native .pvHa => 0x6e0014
    | .native .pvHb => 0x370280
    | .native .pvVa => 0x140005
    | .native .pvVb => 0x502d0
    | .native .vcoDivider => 0x40d
    | .native .rmOffset => 0x80000000 ||| 374865920
    | .native .scheduler => 2
    | .native .fifo => 0x4000
    | .hvsControl => 0x84ff02cf
    | .displayFrame => BitVec.ofNat 32 time <<< 16
    | .displayActive => 0xfa0
    | _ => 0
  rounds _ := 3
  drainFlips _ _ := .ok ()
  synchronizeMode _ := .ok true
  synchronizeMask _ _ := .ok ()
  wanted _ _ := false

/-- Both outputs are taken over, and the mode of the second is changed. -/
def changeRun (handle : BitVec 32) : List Action :=
  [.start 0 true (booted handle 0x3e000000), .start 1 false (booted 0 0), .pair, .mode 1 hd]

/-- The firmware left the handle 3 for the first output. The second one has it after a change of the mode. -/
theorem handles_meet : ((system showingHd true).runFrom (system showingHd true).init (changeRun 3)).any fun c =>
    (c.state.output 0).owned ∧ (c.state.output 1).owned ∧ (c.state.output 1).currentTiming = hd ∧
      (c.state.output 1).fault = false ∧
      handle (c.state.output 0).upmDescriptor = handle (c.state.output 1).upmDescriptor := by
  decide +kernel

theorem changeRun_apart : ∃ c, (system showingHd true).runFrom (system showingHd true).init (changeRun 2) = some c ∧
    ((c.state.output 1).currentTiming = hd ∧ (c.state.output 1).fault = false) ∧ observer.InOrder c.trace ∧
    Apart (c.state.output 0).upmDescriptor (c.state.output 1).upmDescriptor := by
  have run : ((system showingHd true).runFrom (system showingHd true).init (changeRun 2)).any fun c =>
      ((c.state.output 1).currentTiming = hd ∧ (c.state.output 1).fault = false) ∧ (c.state.output 0).owned = true ∧
        (c.state.output 1).owned = true := by
    decide +kernel
  have fit : ∀ e ∈ changeRun 2, e.Fit := by
    simp [changeRun, Action.Fit, Firmware.Fit]
    decide
  obtain ⟨c, result, holds⟩ := (Option.any_eq_true _ _).mp run
  obtain ⟨shown, zero, one⟩ := of_decide_eq_true holds
  obtain ⟨⟨order, apart⟩, -⟩ := handles_apart (System.reaches_of_run fit result)
  exact ⟨c, result, shown, order, apart zero one⟩

end Pi5Drivers.Display
