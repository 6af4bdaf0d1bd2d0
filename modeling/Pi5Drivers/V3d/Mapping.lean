import Pi5Drivers.Lib.BitField
import Pi5Drivers.V3d.Containment

/-! What the page table and the handles of a memory session are worth, and what a
refused request leaves behind. -/

namespace Pi5Drivers.V3d

open Effect AddressSpace

/-! ### The page table -/

namespace AddressSpace

variable {a : AddressSpace} {i : Fin 256} {k : ℕ}

/-- The GPU can reach the page. -/
def Mapped (a : AddressSpace) (k : ℕ) : Prop := a.table k &&& pteValid ≠ 0

/-- The GPU can write the page. -/
def Writes (a : AddressSpace) (k : ℕ) : Prop := a.table k &&& pteWrite ≠ 0

/-- The address in memory the page leads to. -/
def target (a : AddressSpace) (k : ℕ) : ℕ := (a.table k &&& 0xffffff).toNat * page

/-- The table maps the live objects and nothing else, and the counts are theirs. -/
structure Exact (a : AddressSpace) : Prop where
  mapped : ∀ k, a.Mapped k ↔ ∃ i, (a.objects i).Live ∧ (a.objects i).Covers k
  cleared : ∀ k, ¬a.Mapped k → a.table k = 0
  permission : ∀ i, (a.objects i).Live → (a.objects i).flags = 0 ∨ (a.objects i).flags = writable
  writes : ∀ i, (a.objects i).Live → ∀ k, (a.objects i).Covers k →
    (a.Writes k ↔ (a.objects i).flags = writable)
  target : ∀ i, (a.objects i).Live → ∀ k < (a.objects i).bytes / page,
    a.target ((a.objects i).address / page + k) = (a.objects i).frame k
  disjoint : ∀ i j, i ≠ j → (a.objects i).Live → (a.objects j).Live → ∀ k, (a.objects i).Covers k → ¬(a.objects j).Covers k
  guarded : ∀ i j, (a.objects i).Live → (a.objects j).Live → (a.objects i).address < (a.objects j).address →
    ∃ k, ((a.objects i).address + (a.objects i).bytes) / page ≤ k ∧ k < (a.objects j).address / page ∧ ¬a.Mapped k
  aligned : ∀ i, (a.objects i).Live → (a.objects i).address % page = 0 ∧ (a.objects i).bytes % page = 0
  inside : ∀ i, (a.objects i).Live → firstAddress ≤ (a.objects i).address ∧ 0 < (a.objects i).bytes ∧
    (a.objects i).address + (a.objects i).bytes + page ≤ addressLimit
  unique : ∀ i j, (a.objects i).Live → (a.objects i).handle = (a.objects j).handle → i = j
  objectBytes : a.objectBytes = ∑ i, ownBytes (a.objects i)
  importedBytes : a.importedBytes = ∑ i, foreignBytes (a.objects i)

/-- The three parts of a table entry under a mask. -/
theorem parts_and (x m : BitVec 32) (w : Bool) :
    (x ||| pteValid ||| (if w then pteWrite else 0)) &&& m =
      (x &&& m) ||| (pteValid &&& m) ||| ((if w then pteWrite else 0) &&& m) := by
  ext j
  simp only [BitVec.getElem_and, BitVec.getElem_or, Bool.and_or_distrib_right]

/-- A frame number does not reach the bits above it. -/
theorem frame_and {n j : ℕ} (h : n < 2 ^ 24) (hj : 24 ≤ j) : BitVec.ofNat 32 n &&& BitVec.twoPow 32 j = 0 := by
  have clear : n.testBit j = false := Nat.testBit_lt_two_pow (h.trans_le (Nat.pow_le_pow_right (by decide) hj))
  rw [BitVec.and_twoPow, BitVec.getLsbD_ofNat, clear]
  simp

theorem frame_mask {n : ℕ} (h : n < 2 ^ 24) : BitVec.ofNat 32 n &&& 0xffffff = BitVec.ofNat 32 n := by
  apply BitVec.eq_of_toNat_eq
  rw [BitVec.toNat_and, BitVec.toNat_ofNat, Nat.mod_eq_of_lt (by omega)]
  exact (Nat.and_two_pow_sub_one_eq_mod n 24).trans (Nat.mod_eq_of_lt h)

/-- What a table entry says: the page is mapped, whether it may be written, and its frame. -/
theorem entry_parts {n : ℕ} (h : n < 2 ^ 24) (w : Bool) {e : BitVec 32}
    (he : e = BitVec.ofNat 32 n ||| pteValid ||| (if w then pteWrite else 0)) :
    e &&& pteValid ≠ 0 ∧ (e &&& pteWrite ≠ 0 ↔ w = true) ∧ e &&& 0xffffff = BitVec.ofNat 32 n := by
  have valid : BitVec.ofNat 32 n &&& pteValid = 0 := frame_and h (show 24 ≤ 28 by decide)
  have write : BitVec.ofNat 32 n &&& pteWrite = 0 := frame_and h (show 24 ≤ 29 by decide)
  subst he
  rw [parts_and, parts_and, parts_and, valid, write, frame_mask h]
  refine ⟨?_, ?_, ?_⟩
  · cases w <;> decide
  · cases w <;> decide
  · cases w <;> simp [pteValid, pteWrite]

theorem flags_cases {f : BitVec 32} (h : f &&& ~~~1 = 0) : f = 0 ∨ f = writable := by
  have bound : f.toNat ≤ 1 := by
    have := BitField.toNat_and_add_and_not f 1
    rw [h, BitVec.toNat_and] at this
    have := Nat.and_le_right (n := f.toNat) (m := (1 : BitVec 32).toNat)
    simp at *
    omega
  unfold writable
  rcases Nat.le_one_iff_eq_zero_or_eq_one.mp bound with h | h
  · exact .inl (BitVec.eq_of_toNat_eq h)
  · exact .inr (BitVec.eq_of_toNat_eq h)

variable (valid : a.Valid)

include valid

theorem Valid.entry (live : (a.objects i).Live) {k : ℕ} (hk : k < (a.objects i).bytes / page) :
    (a.objects i).frame k / page < 2 ^ 24 ∧
      a.table ((a.objects i).address / page + k) = BitVec.ofNat 32 ((a.objects i).frame k / page) ||| pteValid |||
        (if decide ((a.objects i).flags ≠ 0) then pteWrite else 0) := by
  obtain ⟨aligned, bound⟩ := (valid.placed i live).frames k hk
  rw [valid.mapped i live k hk, Object.entry, v3dPte, if_neg (by omega)]
  exact ⟨by unfold page; omega, rfl⟩

/-- Where a page lies in the object that covers it. -/
theorem Valid.covered (live : (a.objects i).Live) {k : ℕ} (h : (a.objects i).Covers k) :
    a.Mapped k ∧ (a.Writes k ↔ (a.objects i).flags = writable) := by
  obtain ⟨first, last⟩ := h
  have inside : k - (a.objects i).address / page < (a.objects i).bytes / page := by omega
  obtain ⟨frame, entry⟩ := valid.entry live inside
  rw [Nat.add_sub_cancel' first] at entry
  obtain ⟨mapped, writes, -⟩ := entry_parts frame _ entry
  refine ⟨mapped, writes.trans ?_⟩
  rcases flags_cases (valid.placed i live).permission with flags | flags <;> simp [flags, writable]

theorem Valid.not_mapped (h : ∀ i, (a.objects i).Live → ¬(a.objects i).Covers k) : ¬a.Mapped k := by
  simp [Mapped, valid.unmapped k h]

theorem Valid.mapped_iff : a.Mapped k ↔ ∃ i, (a.objects i).Live ∧ (a.objects i).Covers k := by
  refine ⟨fun h => ?_, fun ⟨i, live, covers⟩ => (valid.covered live covers).1⟩
  by_contra none
  exact valid.not_mapped (fun i live covers => none ⟨i, live, covers⟩) h

/-- The page behind an object is nobody's. -/
theorem Valid.guard {j : Fin 256} (live : (a.objects i).Live) (other : (a.objects j).Live) :
    ¬(a.objects j).Covers (((a.objects i).address + (a.objects i).bytes) / page) := by
  rintro ⟨first, last⟩
  obtain ⟨address, bytes⟩ := (valid.placed i live).aligned
  obtain ⟨address', bytes'⟩ := (valid.placed j other).aligned
  have size := (valid.placed i live).size
  by_cases h : i = j
  · subst h
    unfold page at *
    omega
  · have := valid.apart i j h live other
    unfold page at *
    omega

theorem Valid.exact : a.Exact where
  mapped _ := valid.mapped_iff
  cleared k h := valid.unmapped k fun i live covers => h (valid.covered live covers).1
  permission i live := flags_cases (valid.placed i live).permission
  writes i live k covers := (valid.covered live covers).2
  target i live k hk := by
    obtain ⟨frame, entry⟩ := valid.entry live hk
    rw [target, (entry_parts frame _ entry).2.2, BitVec.toNat_ofNat, Nat.mod_eq_of_lt (by omega)]
    exact Nat.div_mul_cancel (Nat.dvd_of_mod_eq_zero ((valid.placed i live).frames k hk).1)
  disjoint i j ne live other k covers :=
    not_covers (valid.placed i live) (valid.placed j other) (valid.apart i j ne live other) covers
  guarded i j live other before := by
    have ne : i ≠ j := fun h => by simp [h] at before
    refine ⟨_, le_rfl, ?_, valid.not_mapped fun l hl => valid.guard live hl⟩
    have := valid.apart i j ne live other
    have := (valid.placed j other).aligned.1
    have := (valid.placed i live).aligned
    have := (valid.placed j other).size
    unfold page at *
    omega
  aligned i live := (valid.placed i live).aligned
  inside i live := ⟨(valid.placed i live).first, (valid.placed i live).size, (valid.placed i live).bound⟩
  unique := valid.unique
  objectBytes := valid.objectBytes
  importedBytes := valid.importedBytes

end AddressSpace

/-! ### Handles -/

/-- The handles that were given out, the newest first. -/
def handles : List Event → List ℕ
  | [] => []
  | .created n :: older => n :: handles older
  | _ :: older => handles older

/-- Only a creation moves the last handle. -/
theorem Watch.handle_saw (older : List Event) (w : Watch) (e : Event) (h : ∀ n, e ≠ .created n) :
    (w.saw older e).handle = w.handle := by
  cases e with
  | read b off v => rcases w.saw_read older b off v with eq | eq <;> simp only [eq, Watch.sawMmu]
  | write b off v => rcases w.saw_write older b off v with ⟨q, eq⟩ | ⟨j, eq⟩ <;> simp only [eq, Watch.launched]
  | flushed => exact w.handle_flush
  | invalidated => exact w.handle_invalidate
  | created n => exact absurd rfl (h n)
  | _ => rfl

theorem handles_cons {older : List Event} {e : Event} (h : ∀ n, e ≠ .created n) : handles (e :: older) = handles older := by
  cases e with
  | created n => exact absurd rfl (h n)
  | _ => rfl

theorem handles_sound {trace : List Event} (contained : Contained trace) :
    (handles trace).Pairwise (· > ·) ∧ ∀ n ∈ handles trace, n ≤ (watch trace).handle := by
  induction trace with
  | nil => exact ⟨.nil, fun n hn => absurd hn List.not_mem_nil⟩
  | cons e older ih =>
    obtain ⟨allowed, contained⟩ := contained
    obtain ⟨increasing, most⟩ := ih contained
    by_cases h : ∃ n, e = .created n
    · obtain ⟨n, rfl⟩ := h
      have next : (watch older).handle < n := allowed.2
      refine ⟨List.pairwise_cons.mpr ⟨fun m hm => (most m hm).trans_lt next, increasing⟩, fun m hm => ?_⟩
      rcases List.mem_cons.mp hm with rfl | hm
      · exact le_rfl
      · exact ((most m hm).trans_lt next).le
    · have h' : ∀ n, e ≠ .created n := fun n eq => h ⟨n, eq⟩
      rw [handles_cons h']
      exact ⟨increasing, fun n hn => (most n hn).trans_eq (Watch.handle_saw older _ e h').symm⟩

/-! ### Refusals -/

section Refusal

variable {α β : Type} {c : Context}

/-- The request stops, and everything is as before. -/
def Refused (c : Context) (x : Drive α) : Prop := ∃ e, x.run c = (.error e, c)

theorem Refused.bind {x : Drive α} (h : Refused c x) (f : α → Drive β) : Refused c (x >>= f) := by
  obtain ⟨e, h⟩ := h
  exact ⟨e, run_bind_error h⟩

/-- A step that changes nothing goes on in the same state. -/
theorem Refused.of_ok {x : Drive α} {a : α} {f : α → Drive β} (run : x.run c = (.ok a, c)) (h : Refused c (f a)) :
    Refused c (x >>= f) := by
  obtain ⟨e, h⟩ := h
  exact ⟨e, (run_bind_ok run).trans h⟩

theorem refused_stop (e : Status) : Refused c (stop e : Drive α) := ⟨e, rfl⟩

/-- A check either fails or is passed in the same state. -/
theorem Refused.require {p : Prop} [Decidable p] {e : Status} {f : Unit → Drive β} (h : p → Refused c (f ())) :
    Refused c (Effect.require p e >>= f) := by
  by_cases hp : p
  · exact .of_ok (run_require_of_pos hp) (h hp)
  · exact .bind ⟨e, run_require_of_neg hp⟩ _

theorem Refused.driver {f : Driver → Drive β} (h : Refused c (f c.driver)) : Refused c (V3d.driver >>= f) :=
  .of_ok (a := c.driver) rfl h

theorem refused_placement {size : ℕ} (h : c.driver.space.objectPlacement size = none) :
    Refused c (V3d.objectPlacement size) := by
  refine .driver ?_
  rw [h]
  exact refused_stop _

/-- A creation that is not well formed, or for which there is no room. -/
def BufferRequest.NoCreation (q : BufferRequest) (a : AddressSpace) : Prop :=
  ¬q.Creates ∨ memoryMaxBytes - a.objectBytes < q.bytes.toNat ∨ a.objectPlacement q.bytes.toNat = none

theorem objectCreate_refused {q : BufferRequest} (h : q.NoCreation c.driver.space) : Refused c (objectCreate q) := by
  refine .require fun creates => .driver (.require fun quota => .bind (refused_placement ?_) _)
  rcases h with h | h | h
  · exact absurd creates h
  · omega
  · exact h

/-- An import that is not well formed, or for which there is no room. -/
def BufferImport.NoImport (q : BufferImport) (a : AddressSpace) : Prop :=
  ∀ m, q.mdl = some m → ¬q.Imports m ∨ importTotalBytes - a.importedBytes < m.byteCount ∨ ¬m.InReach ∨
    a.objectPlacement m.byteCount = none

theorem objectImport_refused {q : BufferImport} (h : q.NoImport c.driver.space) : Refused c (objectImport q) := by
  unfold objectImport
  rcases list : q.mdl with _ | m
  · exact refused_stop _
  · refine .require fun imports => .driver (.require fun quota => .require fun reach => .bind (refused_placement ?_) _)
    rcases h m list with h | h | h | h
    · exact absurd imports h
    · omega
    · exact absurd reach h
    · exact h

/-- A destruction that names no object, or something besides it. -/
def BufferRequest.NoDestruction (q : BufferRequest) (a : AddressSpace) : Prop :=
  a.object q.handle.toNat = none ∨ ¬(q.address = 0 ∧ q.bytes = 0 ∧ q.flags = 0 ∧ q.reserved = 0)

theorem objectDestroy_refused {q : BufferRequest} (h : q.NoDestruction c.driver.space) : Refused c (objectDestroy q) := by
  refine .bind (.driver ?_) _
  rcases named : c.driver.space.object q.handle.toNat with _ | i
  · exact refused_stop _
  · refine .require fun plain => ?_
    rcases h with h | h
    · simp [named] at h
    · exact absurd plain h

/-- The version and the work of a request about objects. -/
def Body.onObjects : Body → Option (BitVec 32 × Drive Reply)
  | .bufferCreate q => some (q.version, objectCreate q)
  | .bufferImport q => some (q.version, objectImport q)
  | .bufferDestroy q => some (q.version, objectDestroy q)
  | _ => none

/-- The objects do not allow the request. -/
def Body.Unfit (a : AddressSpace) : Body → Prop
  | .bufferCreate q => q.NoCreation a
  | .bufferImport q => q.NoImport a
  | .bufferDestroy q => q.NoDestruction a
  | _ => False

theorem unfit_refused {b : Body} {v : BitVec 32} {x : Drive Reply} (h : b.onObjects = some (v, x))
    (unfit : b.Unfit c.driver.space) : Refused c x := by
  cases b with
  | bufferCreate q => cases h; exact objectCreate_refused unfit
  | bufferImport q => cases h; exact objectImport_refused unfit
  | bufferDestroy q => cases h; exact objectDestroy_refused unfit
  | _ => exact unfit.elim

/-- The request comes from the owner of the memory session of a device in order, and is whole. -/
structure Request.Admitted (r : Request) (d : Driver) (version : BitVec 32) : Prop where
  locked : r.locked = true
  kernelMode : r.kernelMode = true
  file : r.file ≠ none
  online : d.online = true
  unfaulted : d.bootFault = false
  session : d.owner = r.file ∧ d.memorySession = true
  formed : r.sized = true ∧ version = 1

theorem control_onObjects {r : Request} {v : BitVec 32} {x : Drive Reply} (h : r.body.onObjects = some (v, x)) :
    control r = (do
      require (r.locked = true) .ioTimeout
      require (r.kernelMode = true) .accessDenied
      match r.file with
      | none => stop .deviceNotReady
      | some _ => do
        let d ← driver
        require (d.online = true) .deviceNotReady
        require (d.bootFault = false) .deviceHardwareError
        inSession r (v = 1) x) := by
  cases hb : r.body <;> rw [hb] at h <;> cases h <;> cases hf : r.file <;> simp only [control, hb, hf, serve]

/-- The work stops and changes nothing but the note of how the last request ended. -/
def Noted (c : Context) (x : Drive Reply) : Prop :=
  ∃ e s, x.run c = (.error e, { c with driver := { c.driver with lastStatus := s } })

theorem Refused.noted {x : Drive Reply} (h : Refused c x) : Noted c x := by
  obtain ⟨e, h⟩ := h
  exact ⟨e, c.driver.lastStatus, h⟩

theorem Noted.of_ok {x : Drive α} {a : α} {f : α → Drive Reply} (run : x.run c = (.ok a, c)) (h : Noted c (f a)) :
    Noted c (x >>= f) := by
  obtain ⟨e, s, h⟩ := h
  exact ⟨e, s, (run_bind_ok run).trans h⟩

theorem Noted.require {p : Prop} [Decidable p] {e : Status} {f : Unit → Drive Reply} (h : p → Noted c (f ())) :
    Noted c (Effect.require p e >>= f) := by
  by_cases hp : p
  · exact .of_ok (run_require_of_pos hp) (h hp)
  · exact (Refused.bind ⟨e, run_require_of_neg hp⟩ _).noted

theorem recordStatus_noted {x : Drive Reply} (h : Refused c x) : Noted c (recordStatus x) := by
  obtain ⟨e, h⟩ := h
  refine ⟨e, some e, ?_⟩
  have tried : (attempt x : Drive (Except Status Reply)).run c = (.ok (.error e), c) := by
    change (Except.ok (x.run c).1, (x.run c).2) = _
    rw [h]
  exact (run_bind_ok tried).trans rfl

/-- A request about objects that is not admitted changes nothing; one that the objects
do not allow changes the note of the last status only. -/
theorem control_rejected {r : Request} {v : BitVec 32} {x : Drive Reply} (h : r.body.onObjects = some (v, x)) :
    (¬r.Admitted c.driver v → Refused c (control r)) ∧ (r.body.Unfit c.driver.space → Noted c (control r)) := by
  rw [control_onObjects h]
  constructor
  · intro out
    refine .require fun locked => .require fun kernel => ?_
    cases file : r.file with
    | none => exact refused_stop _
    | some f =>
      refine .driver (.require fun online => .require fun unfaulted => .driver (.require fun session => .require fun formed => ?_))
      exact absurd ⟨locked, kernel, by simp [file], online, unfaulted, session, formed⟩ out
  · intro unfit
    refine .require fun _ => .require fun _ => ?_
    cases r.file with
    | none => exact (refused_stop _).noted
    | some f =>
      refine .of_ok (a := c.driver) rfl (.require fun _ => .require fun _ => ?_)
      exact .of_ok (a := c.driver) rfl (.require fun _ => .require fun _ => recordStatus_noted (unfit_refused h unfit))

end Refusal

/-! ### Sessions -/

/-- What a placement is worth, and what it means that there is none. -/
def AddressSpace.Searched (a : AddressSpace) (size : ℕ) : Prop :=
  match a.objectPlacement size with
  | some (i, address) => a.Room size i address
  | none =>
    a.objectSerial = 2 ^ 32 - 1 ∨ (∀ i, (a.objects i).Live) ∨
      ∀ address, firstAddress ≤ address → address % page = 0 → ¬a.Fits size address

theorem AddressSpace.Valid.searched {a : AddressSpace} (valid : a.Valid) (size : ℕ) : a.Searched size := by
  unfold Searched
  rcases placed : a.objectPlacement size with _ | ⟨i, address⟩
  · exact (objectPlacement_none placed).imp id (Or.imp id fun none x first _ => none x first)
  · exact objectPlacement_some valid placed

theorem Good.valid {d : Driver} {w : Watch} (h : Good d w) (session : d.memorySession = true) (unfaulted : d.bootFault = false) :
    d.space.Valid := by
  rcases h with ⟨boot, -⟩ | calm
  · simp [unfaulted] at boot
  · exact calm.session session

/-- In every memory session without a fault the table and the counts are those of the live
objects and a placement finds what room there is; no handle is given out twice; and a
request about objects that is refused changes nothing. -/
theorem objects_exact (world : World) (calls : List Call) :
    ((run world calls).driver.memorySession = true → (run world calls).driver.bootFault = false →
      (run world calls).driver.space.Exact ∧ ∀ size, (run world calls).driver.space.Searched size) ∧
    (handles (run world calls).machine.trace).Pairwise (· > ·) ∧
    (∀ call h address bytes flags, reply (run world calls) call = .ok (.object h address bytes flags) →
      ∃ older, (step (run world calls) call).machine.trace = .created h :: older) ∧
    ∀ r v x, r.body.onObjects = some (v, x) →
      (¬r.Admitted (run world calls).driver v → Refused (run world calls) (control r)) ∧
        (r.body.Unfit (run world calls).driver.space →
          Refused (run world calls) x ∧ Noted (run world calls) (control r)) := by
  obtain ⟨contained, good⟩ := run_good world calls
  refine ⟨fun session unfaulted => ?_, (handles_sound contained).1, fun call h address bytes flags eq => ?_, fun r v x h => ?_⟩
  · have valid := good.valid session unfaulted
    exact ⟨valid.exact, valid.searched⟩
  · have := serveCall_rule call (run_good world calls)
    unfold reply at eq
    unfold step
    rcases hr : (serveCall call).run (run world calls) with ⟨e | a, c⟩ <;> rw [hr] at this eq
    · cases eq
    · cases eq
      exact this.2
  · obtain ⟨out, unfit⟩ := control_rejected (c := run world calls) h
    exact ⟨out, fun h' => ⟨unfit_refused h h', unfit h'⟩⟩

end Pi5Drivers.V3d
