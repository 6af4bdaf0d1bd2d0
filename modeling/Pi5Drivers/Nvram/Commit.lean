import Pi5Drivers.Lib.Effect

/-! Saving the firmware variables (`pi5-nvram/driver.c`). The firmware hands out snapshots of its variables; the driver
finds the boot volume, which has two files for them, and replaces the file that is not selected. What can be read back
is on the disk, since the files are written through; a write may break off at any point, and so may the machine. -/

namespace Pi5Drivers.Nvram.Commit

open Effect

/-- An image of a file: its header, and its data. -/
structure FileImage (H D : Type) where
  header : H
  data : D
  deriving DecidableEq

/-- A file of the disk: its bytes, and whether they are only a part of the image that was written last. -/
@[ext]
structure File (H D : Type) where
  image : FileImage H D
  partly : Bool

section Library

variable {H D : Type}

/-- The library of the firmware for such files. It judges no image valid that is only partly written, and selects the
valid one with the highest sequence. -/
structure FileLibrary (H D : Type) where
  infoSize : ℕ
  imageSize : ℕ
  version : ℕ
  sequence : H → ℕ
  storeId : H → BitVec 128
  firmwareSize : H → ℕ
  sameStore : H → H → Bool
  /-- Whether `NvFileName` has a name for a slot. -/
  fileName : H → Bool → Bool
  valid : FileImage H D → Bool
  blank : FileImage H D
  select : File H D → File H D → Option Bool
  select_valid : ∀ pair : Bool → File H D, ∀ i, select (pair false) (pair true) = some i →
    ((pair i).partly = false ∧ valid (pair i).image = true) ∧
      ((pair !i).partly = false → valid (pair !i).image = true → sequence (pair !i).image.header ≤ sequence (pair i).image.header)
  select_none : ∀ pair : Bool → File H D, select (pair false) (pair true) = none → ∀ i, (pair i).partly = false → valid (pair i).image = true →
    ((pair !i).partly = false ∧ valid (pair !i).image = true) ∧ sequence (pair !i).image.header = sequence (pair i).image.header

/-- `NvFileValid`, of a file. -/
def FileLibrary.Judged (lib : FileLibrary H D) (f : File H D) : Prop := f.partly = false ∧ lib.valid f.image = true

instance (lib : FileLibrary H D) (f : File H D) : Decidable (lib.Judged f) := inferInstanceAs (Decidable (_ ∧ _))

end Library

/-- Errors of the driver, and of what it calls. -/
inductive Status
  | dataError
  | deviceDataError
  | notReady
  | fileCorrupt
  | reparsePoint
  | objectNameNotFound
  | duplicateObjectId
  | nameTooLong
  | revisionMismatch
  | other (code : ℕ)
  deriving DecidableEq, Repr

inductive Ended
  | status (e : Status)
  /-- The machine stops. -/
  | crashed
  deriving DecidableEq, Repr

/-- `NV_FILE_INFO`. -/
structure Info where
  size : ℕ
  version : ℕ
  active : ℕ
  sequence : ℕ
  bootSequence : ℕ
  storeId : BitVec 128

/-- What is found out about a file that was opened. -/
structure FileFacts where
  directory : Bool
  deletePending : Bool
  endOfFile : ℕ
  reparse : Bool
  id : ℕ

/-- What a write leaves that does not succeed. -/
inductive Left (H D : Type)
  | unchanged
  | partly (image : FileImage H D)
  | whole

inductive WriteEnd (H D : Type)
  | done
  | failed (left : Left H D) (status : Status)
  | crashed (left : Left H D)

/-- What the rest of the system answers, by the number of the question. -/
structure World (H D : Type) where
  /-- The machine stops before it answers. -/
  stops : ℕ → Bool
  info : ℕ → Except Status (Info × ℕ × ℕ)
  snapshot : ℕ → Except Status (FileImage H D × ℕ × ℕ)
  interfaces : ℕ → Except Status (List String)
  opens : ℕ → Except Status FileFacts
  /-- Whether all bytes were read. -/
  reads : ℕ → Except Status Bool
  writes : ℕ → WriteEnd H D

/-- `NV_DRIVER_QUERY`. -/
structure Query where
  active : Bool := false
  matchingVolumes : ℕ := 0
  currentSequence : ℕ := 0
  savedSequence : ℕ := 0
  saves : ℕ := 0
  failures : ℕ := 0
  lastStatus : Option Status := none
  volume : String := ""

/-- `NV_CONTEXT`. -/
structure Context where
  info : Option Info := none
  query : Query := {}

/-- The driver and the volumes, each with two files. -/
structure State (H D : Type) where
  disk : String → Bool → File H D
  context : Context := {}
  asked : ℕ := 0

section

variable {H D α : Type} [DecidableEq H] [DecidableEq D] (lib : FileLibrary H D) (world : World H D)

abbrev Driver (H D : Type) := Effect (State H D) Ended

def ask : Driver H D ℕ := do
  let s ← get
  require (world.stops s.asked = false) .crashed
  modify fun s => { s with asked := s.asked + 1 }
  pure s.asked

def answer : Except Status α → Driver H D α
  | .ok a => pure a
  | .error e => stop (.status e)

/-- Goes on where the program fails, but not where the machine stops. -/
def tolerate (x : Driver H D α) : Driver H D (Except Status α) := do
  let r ← x.attempt
  match r with
  | .ok a => pure (.ok a)
  | .error (.status e) => pure (.error e)
  | .error .crashed => stop .crashed

def query (f : Query → Query) : Driver H D Unit := modify fun s => { s with context := { s.context with query := f s.context.query } }

/-- `FirmwareGet`. -/
def firmwareGet (variable_ : ℕ → Except Status (α × ℕ × ℕ)) (size : ℕ) : Driver H D α := do
  let t ← ask world
  let (value, used, attributes) ← answer (variable_ t)
  require (used = size ∧ attributes = 6) (.status .dataError)
  pure value

/-- `ReadInfo`. -/
def readInfo : Driver H D Info := do
  query fun q => { q with active := false }
  let info ← firmwareGet world world.info lib.infoSize
  require (info.size = lib.infoSize ∧ info.version = lib.version ∧ info.active ≠ 0 ∧ info.sequence ≠ 0 ∧ info.bootSequence ≤ info.sequence)
    (.status .notReady)
  let s ← get
  require (s.context.info.all fun old => old.storeId = info.storeId) (.status .dataError)
  modify fun s => { s with context := ⟨some info, { s.context.query with active := true, currentSequence := info.sequence }⟩ }
  pure info

/-- `OpenExisting`; what comes back tells files apart. -/
def openExisting (size : ℕ) : Driver H D ℕ := do
  let t ← ask world
  let facts ← answer (world.opens t)
  require (facts.directory = false ∧ facts.deletePending = false ∧ facts.endOfFile = size) (.status .fileCorrupt)
  require (facts.reparse = false) (.status .reparsePoint)
  pure facts.id

/-- `ReadImage`. -/
def readImage (volume : String) (slot : Bool) : Driver H D (File H D) := do
  let t ← ask world
  let whole ← answer (world.reads t)
  require (whole = true) (.status .deviceDataError)
  let s ← get
  pure (s.disk volume slot)

/-- A copy of a slot, and what tells its file apart. -/
def readCopy (volume : String) (header : H) (slot : Bool) : Driver H D (ℕ × File H D) := do
  require (lib.fileName header slot = true) (.status .dataError)
  let id ← openExisting world lib.imageSize
  let copy ← readImage world volume slot
  pure (id, copy)

/-- `ReadPair`. -/
def readPair (volume : String) (header : H) : Driver H D (Option (File H D × File H D)) := do
  let first ← tolerate (readCopy lib world volume header false)
  let second ← tolerate (readCopy lib world volume header true)
  let blank : File H D := ⟨lib.blank, false⟩
  match first, second with
  | .error _, .error _ => pure none
  | .ok a, .error _ => pure (some (a.2, blank))
  | .error _, .ok b => pure (some (blank, b.2))
  | .ok a, .ok b => pure (some (a.2, b.2))

/-- Whether a volume has the store of a snapshot and its firmware file. -/
def matchesVolume (volume : String) (header : H) : Driver H D Bool := do
  let pair ← readPair lib world volume header
  match pair with
  | none => pure false
  | some (a, b) =>
    match lib.select a b with
    | none => pure false
    | some selected =>
      if lib.sameStore header (if selected then b else a).image.header then do
        let present ← tolerate (openExisting world (lib.firmwareSize header))
        pure present.toBool
      else pure false

/-- The loop of `Discover` over the volumes, with the number of those that match and the first of them. -/
def discoverLoop (header : H) : List String → ℕ × String → Driver H D (ℕ × String)
  | [], found => pure found
  | link :: links, found => do
    require (link.length < 512) (.status .nameTooLong)
    let yes ← matchesVolume lib world link header
    when (yes = true) (query fun q => { q with matchingVolumes := q.matchingVolumes + 1 })
    discoverLoop header links (if yes then (found.1 + 1, if found.1 = 0 then link else found.2) else found)

/-- `Discover`. -/
def discover (header : H) : Driver H D String := do
  query fun q => { q with matchingVolumes := 0 }
  let t ← ask world
  let links ← answer (world.interfaces t)
  let found ← discoverLoop lib world header links (0, "")
  require (found.1 ≠ 0) (.status .objectNameNotFound)
  require (found.1 = 1) (.status .duplicateObjectId)
  pure found.2

def setFile (volume : String) (slot : Bool) (f : File H D) : Driver H D Unit :=
  modify fun s => { s with disk := Function.update s.disk volume (Function.update (s.disk volume) slot f) }

/-- What a write leaves of a file. -/
def Left.file (left : Left H D) (old written : File H D) : File H D :=
  match left with
  | .unchanged => old
  | .partly image => ⟨image, true⟩
  | .whole => written

/-- `WritePart`: a write and a flush. The image is written when no part of it is missing. -/
def writePart (volume : String) (slot : Bool) (new : FileImage H D) (part : FileImage H D → FileImage H D) : Driver H D Unit := do
  let t ← ask world
  let s ← get
  let old := s.disk volume slot
  let written : File H D := ⟨part old.image, part old.image ≠ new⟩
  match world.writes t with
  | .done => setFile volume slot written
  | .failed left e => do
    setFile volume slot (left.file old written)
    stop (.status e)
  | .crashed left => do
    setFile volume slot (left.file old written)
    stop .crashed

/-- `Commit`. -/
def commit (snapshot : FileImage H D) (volume : String) : Driver H D Unit := do
  let first ← readCopy lib world volume snapshot.header false
  let second ← readCopy lib world volume snapshot.header true
  require (first.1 ≠ second.1) (.status .duplicateObjectId)
  match lib.select first.2 second.2 with
  | none => stop (.status .fileCorrupt)
  | some selected => do
    let current := (if selected then second.2 else first.2).image
    require (lib.sameStore snapshot.header current.header = true) (.status .fileCorrupt)
    require (lib.sequence current.header ≤ lib.sequence snapshot.header) (.status .revisionMismatch)
    if lib.sequence current.header = lib.sequence snapshot.header then require (current = snapshot) (.status .dataError)
    else do
      let target := !selected
      writePart world volume target snapshot fun old => ⟨old.header, snapshot.data⟩
      writePart world volume target snapshot fun old => ⟨snapshot.header, old.data⟩
      let copy ← readImage world volume target
      require (lib.Judged copy ∧ copy.image = snapshot) (.status .deviceDataError)
      query fun q => { q with saves := q.saves + 1 }

/-- What `Save` does before it notes its status; it notes none where there is nothing to do. -/
def saveSnapshot (force : Bool) : Driver H D Bool := do
  let info ← readInfo lib world
  let s ← get
  if force = false ∧ s.context.query.savedSequence = info.sequence then pure false
  else do
    let snapshot ← firmwareGet world world.snapshot lib.imageSize
    require (lib.valid snapshot = true ∧ lib.storeId snapshot.header = info.storeId ∧ info.sequence ≤ lib.sequence snapshot.header) (.status .dataError)
    query fun q => { q with currentSequence := lib.sequence snapshot.header }
    let volume ← discover lib world snapshot.header
    commit lib world snapshot volume
    query fun q => { q with savedSequence := lib.sequence snapshot.header, volume := volume }
    pure true

/-- `Save`; no status is a success. -/
def save (force : Bool) : Driver H D (Option Status) := do
  let r ← tolerate (saveSnapshot lib world force)
  match r with
  | .ok false => pure none
  | .ok true => do
    query fun q => { q with lastStatus := none }
    pure none
  | .error e => do
    query fun q => { q with lastStatus := some e, failures := q.failures + 1 }
    pure (some e)

/-! ### Attempts -/

/-- A call of `Save`, and what the rest of the system does meanwhile. -/
structure Attempt (H D : Type) where
  force : Bool
  world : World H D

/-- A call of `Save`: its status, or none where the machine stops. The driver then starts anew. -/
def attempt (s : State H D) (a : Attempt H D) : Option (Option Status) × State H D :=
  match (save lib a.world a.force).run { s with asked := 0 } with
  | (.ok r, t) => (some r, t)
  | (.error _, t) => (none, { t with context := {} })

/-- Any number of them, with restarts in between. -/
def attempts (s : State H D) (l : List (Attempt H D)) : State H D := l.foldl (fun s a => (attempt lib s a).2) s

/-- The image that is selected of two files. -/
def selected (pair : Bool → File H D) : Option (FileImage H D) := (lib.select (pair false) (pair true)).map fun i => (pair i).image

/-- A snapshot that the firmware hands out. -/
def Offered (snapshot : FileImage H D) : Prop := ∃ n used attributes, world.snapshot n = .ok (snapshot, used, attributes)

end

/-! ### Pairs of files -/

section Pairs

variable {H D : Type} {lib : FileLibrary H D} {p q : Bool → File H D} {i : Bool} {new : FileImage H D}

theorem select_of_newest (judged : lib.Judged (p i))
    (newest : lib.Judged (p !i) → lib.sequence (p !i).image.header < lib.sequence (p i).image.header) :
    lib.select (p false) (p true) = some i := by
  rcases picked : lib.select (p false) (p true) with _ | j
  · obtain ⟨other, same⟩ := lib.select_none p picked i judged.1 judged.2
    exact absurd same (newest other).ne
  · obtain ⟨valid, highest⟩ := lib.select_valid p j picked
    by_cases same : j = i
    · rw [same]
    · obtain rfl : j = !i := Bool.eq_not_of_ne same
      rw [Bool.not_not] at highest
      exact absurd (newest valid) (Nat.not_lt_of_le (highest judged.1 judged.2))

/-- The file that is not selected may have been replaced, by a part of an image or by all of it. -/
structure Replaced (lib : FileLibrary H D) (new : FileImage H D) (p q : Bool → File H D) (i : Bool) : Prop where
  picked : lib.select (p false) (p true) = some i
  kept : q i = p i
  newer : lib.sequence (p i).image.header < lib.sequence new.header
  valid : lib.valid new = true
  other : q (!i) = p (!i) ∨ (q !i).partly = true ∨ q (!i) = ⟨new, false⟩

theorem Replaced.refl (picked : lib.select (p false) (p true) = some i) (newer : lib.sequence (p i).image.header < lib.sequence new.header)
    (valid : lib.valid new = true) : Replaced lib new p p i := ⟨picked, rfl, newer, valid, .inl rfl⟩

/-- All of it is then selected. -/
theorem Replaced.whole (h : Replaced lib new p q i) (all : q (!i) = ⟨new, false⟩) : lib.select (q false) (q true) = some !i := by
  refine select_of_newest ⟨by rw [all], by rw [all]; exact h.valid⟩ fun _ => ?_
  rw [Bool.not_not, h.kept, all]
  exact h.newer

/-- Otherwise what was selected is selected still. -/
theorem Replaced.select (h : Replaced lib new p q i) :
    lib.select (q false) (q true) = some i ∨ lib.select (q false) (q true) = some (!i) ∧ q (!i) = ⟨new, false⟩ := by
  rcases h.other with same | part | all
  · refine .inl ?_
    have both : q = p := by
      funext j
      by_cases this : j = i
      · rw [this, h.kept]
      · rw [Bool.eq_not_of_ne this, same]
    rw [both, h.picked]
  · refine .inl (select_of_newest ?_ fun judged => absurd judged.1 (by rw [part]; decide))
    rw [h.kept]
    exact (lib.select_valid p i h.picked).1
  · exact .inr ⟨h.whole all, all⟩

end Pairs

/-! ### What the steps of a save leave alone -/

section Quiet

variable {H D α β : Type} {lib : FileLibrary H D} {world : World H D} {x : Driver H D α} {d : String → Bool → File H D} {n : ℕ} {info : Option Info}

/-- The volumes, the sequence that was saved last, and the store that is served. -/
structure At (d : String → Bool → File H D) (n : ℕ) (info : Option Info) (s : State H D) : Prop where
  disk : s.disk = d
  saved : s.context.query.savedSequence = n
  info : s.context.info = info

/-- A program that changes none of these, and what it returns. -/
def Quiet (x : Driver H D α) (Q : α → Prop) : Prop :=
  ∀ d n info, Triple (At d n info) x (fun a s => Q a ∧ At d n info s) fun _ => At d n info

variable {Q : α → Prop} {R : β → Prop}

theorem Quiet.bind {f : α → Driver H D β} (hx : Quiet x Q) (hf : ∀ a, Q a → Quiet (f a) R) : Quiet (x >>= f) R :=
  fun d n info => (hx d n info).bind fun a => Triple.assume fun ha => hf a ha d n info

theorem Quiet.pure {a : α} (h : Q a) : Quiet (Pure.pure a : Driver H D α) Q := fun _ _ _ => Triple.pure fun _ at_ => ⟨h, at_⟩

theorem Quiet.stop {e : Ended} : Quiet (Effect.stop e : Driver H D α) Q := fun _ _ _ => Triple.stop fun _ at_ => at_

theorem Quiet.require {c : Prop} [Decidable c] {e : Ended} : Quiet (Effect.require c e : Driver H D Unit) fun _ => c :=
  fun _ _ _ => Triple.require (fun _ at_ yes => ⟨yes, at_⟩) fun _ at_ _ => at_

theorem Quiet.mono {Q' : α → Prop} (h : Quiet x Q) (imp : ∀ a, Q a → Q' a) : Quiet x Q' :=
  fun d n info => (h d n info).mono (fun _ => id) (fun a _ both => ⟨imp a both.1, both.2⟩) fun _ _ => id

theorem Quiet.ite {c : Prop} [Decidable c] {y : Driver H D α} (hx : c → Quiet x Q) (hy : ¬c → Quiet y Q) : Quiet (if c then x else y) Q := by
  split
  · exact hx ‹_›
  · exact hy ‹_›

theorem quiet_ask (world : World H D) : Quiet (ask world) fun _ => True := by
  refine fun d n info => Triple.get_bind fun s at_ => ?_
  refine (Triple.require (Q := fun _ => (· = s)) (fun _ same _ => same) fun _ same _ => same ▸ at_).bind fun _ => ?_
  refine (Triple.modify (Q := fun _ => At d n info) fun _ same => ?_).bind fun _ => Triple.pure fun _ at_ => ⟨trivial, at_⟩
  rw [same]
  exact ⟨at_.disk, at_.saved, at_.info⟩

theorem quiet_answer {r : Except Status α} : Quiet (answer r : Driver H D α) fun a => r = .ok a := by
  cases r with
  | ok a => exact Quiet.pure rfl
  | error e => exact Quiet.stop

theorem quiet_query {f : Query → Query} (same : ∀ q, (f q).savedSequence = q.savedSequence) : Quiet (query f : Driver H D Unit) fun _ => True :=
  fun _ _ _ => Triple.modify fun s at_ => ⟨trivial, at_.disk, (same s.context.query).trans at_.saved, at_.info⟩

/-- What is tolerated is where the program fails. -/
theorem tolerated {P : State H D → Prop} {Q : α → State H D → Prop} {E : Ended → State H D → Prop} (h : Triple P x Q E) :
    Triple P (tolerate x) (fun r s => (∀ a, r = .ok a → Q a s) ∧ ∀ e, r = .error e → E (.status e) s) fun e s => E e s ∧ e = .crashed := by
  refine Triple.attempt_bind h (fun a => Triple.pure fun _ had => ⟨fun b same => Except.ok.inj same ▸ had, fun e no => (by cases no)⟩) fun e => ?_
  rcases e with e | _
  · exact Triple.pure fun _ had => ⟨fun a no => (by cases no), fun f same => Except.error.inj same ▸ had⟩
  · exact Triple.stop fun _ had => ⟨had, rfl⟩

theorem Quiet.tolerate (h : Quiet x Q) : Quiet (tolerate x) fun _ => True := by
  refine fun d n info => (tolerated (h d n info)).mono (fun _ => id) (fun r s ended => ⟨trivial, ?_⟩) fun _ _ => And.left
  rcases r with e | a
  · exact ended.2 e rfl
  · exact (ended.1 a rfl).2

theorem quiet_firmwareGet {variable_ : ℕ → Except Status (α × ℕ × ℕ)} {size : ℕ} :
    Quiet (firmwareGet world variable_ size) fun a => ∃ t used attributes, variable_ t = .ok (a, used, attributes) := by
  refine (quiet_ask world).bind fun t _ => quiet_answer.bind fun r same => ?_
  obtain ⟨a, used, attributes⟩ := r
  exact Quiet.require.bind fun _ _ => Quiet.pure ⟨t, used, attributes, same⟩

theorem quiet_openExisting {size : ℕ} : Quiet (openExisting world size) fun _ => True :=
  (quiet_ask world).bind fun _ _ => quiet_answer.bind fun _ _ => Quiet.require.bind fun _ _ => Quiet.require.bind fun _ _ => Quiet.pure trivial

/-- What is read of a file is what it has. -/
theorem readImage_reads (volume : String) (slot : Bool) : Triple (At d n info) (readImage world volume slot)
    (fun f s => f = d volume slot ∧ At d n info s) fun _ => At d n info := by
  refine (quiet_ask world d n info).bind fun t => Triple.assume fun _ => ?_
  refine (quiet_answer d n info).bind fun whole => Triple.assume fun _ => ?_
  refine (Quiet.require d n info).bind fun _ => Triple.assume fun _ => ?_
  refine Triple.get_bind fun s at_ => Triple.pure fun _ same => ?_
  rw [same, at_.disk]
  exact ⟨rfl, at_⟩

theorem readCopy_reads (volume : String) (header : H) (slot : Bool) : Triple (At d n info) (readCopy lib world volume header slot)
    (fun r s => r.2 = d volume slot ∧ At d n info s) fun _ => At d n info := by
  refine (Quiet.require d n info).bind fun _ => Triple.assume fun _ => ?_
  refine (quiet_openExisting d n info).bind fun id => Triple.assume fun _ => ?_
  exact (readImage_reads volume slot).bind fun f => Triple.pure fun _ both => both

theorem quiet_readCopy {volume : String} {header : H} {slot : Bool} : Quiet (readCopy lib world volume header slot) fun _ => True :=
  fun _ _ _ => (readCopy_reads volume header slot).mono (fun _ => id) (fun _ _ both => ⟨trivial, both.2⟩) fun _ _ => id

theorem quiet_readPair {volume : String} {header : H} : Quiet (readPair lib world volume header) fun _ => True := by
  refine quiet_readCopy.tolerate.bind fun first _ => quiet_readCopy.tolerate.bind fun second _ => ?_
  rcases first with _ | _ <;> rcases second with _ | _
  · exact Quiet.pure trivial
  · exact Quiet.pure trivial
  · exact Quiet.pure trivial
  · exact Quiet.pure trivial

theorem quiet_matchesVolume {volume : String} {header : H} : Quiet (matchesVolume lib world volume header) fun _ => True := by
  refine quiet_readPair.bind fun pair _ => ?_
  rcases pair with _ | ⟨a, b⟩
  · exact Quiet.pure trivial
  dsimp only
  rcases lib.select a b with _ | selected
  · exact Quiet.pure trivial
  · exact Quiet.ite (fun _ => quiet_openExisting.tolerate.bind fun _ _ => Quiet.pure trivial) fun _ => Quiet.pure trivial

theorem quiet_discoverLoop {header : H} (links : List String) (found : ℕ × String) : Quiet (discoverLoop lib world header links found) fun _ => True := by
  induction links generalizing found with
  | nil => exact Quiet.pure trivial
  | cons link links ih =>
    refine Quiet.require.bind fun _ _ => quiet_matchesVolume.bind fun yes _ => ?_
    refine Quiet.bind (Q := fun _ => True) ?_ fun _ _ => ih _
    exact Quiet.ite (fun _ => quiet_query fun _ => rfl) fun _ => Quiet.pure trivial

theorem quiet_discover {header : H} : Quiet (discover lib world header) fun _ => True := by
  refine (quiet_query (f := fun q => { q with matchingVolumes := 0 }) fun _ => rfl).bind fun _ _ => (quiet_ask world).bind fun t _ => quiet_answer.bind fun links _ => ?_
  exact (quiet_discoverLoop links _).bind fun found _ => Quiet.require.bind fun _ _ => Quiet.require.bind fun _ _ => Quiet.pure trivial

end Quiet

/-! ### A commit -/

section Commits

variable {H D : Type} {lib : FileLibrary H D} {world : World H D} {d : String → Bool → File H D} {n : ℕ}
  {info : Option Info} {new : FileImage H D} {volume : String} {i : Bool}

/-- One volume has a file replaced, maybe in part. -/
def Replacing (lib : FileLibrary H D) (d : String → Bool → File H D) (n : ℕ) (info : Option Info) (new : FileImage H D) (volume : String) (i : Bool)
    (s : State H D) : Prop :=
  ∃ q, Replaced lib new (d volume) q i ∧ At (Function.update d volume q) n info s

theorem Replacing.set {s : State H D} {f : File H D} (replacing : Replacing lib d n info new volume i s)
    (part : f = s.disk volume (!i) ∨ f.partly = true ∨ f = ⟨new, false⟩) :
    Replacing lib d n info new volume i { s with disk := Function.update s.disk volume (Function.update (s.disk volume) (!i) f) } := by
  obtain ⟨q, replaced, at_⟩ := replacing
  rw [at_.disk, Function.update_self] at part ⊢
  refine ⟨Function.update q (!i) f, ⟨replaced.picked, ?_, replaced.newer, replaced.valid, ?_⟩, ⟨Function.update_idem .., at_.saved, at_.info⟩⟩
  · rw [Function.update_of_ne (by simp), replaced.kept]
  · rw [Function.update_self]
    rcases part with same | part
    · rw [same]
      exact replaced.other
    · exact .inr part

variable [DecidableEq H] [DecidableEq D]

/-- Writing a part of the image leaves a file that is only partly written, or all of the image. -/
theorem writePart_replaces (part : FileImage H D → FileImage H D) : Triple (Replacing lib d n info new volume i) (writePart world volume (!i) new part)
    (fun _ => Replacing lib d n info new volume i) (fun _ => Replacing lib d n info new volume i) := by
  have asked : Triple (Replacing lib d n info new volume i) (ask world : Driver H D ℕ) (fun _ => Replacing lib d n info new volume i)
      (fun _ => Replacing lib d n info new volume i) := by
    intro s replacing
    obtain ⟨q, replaced, at_⟩ := replacing
    exact ((quiet_ask world _ n info).mono (fun _ => id) (fun _ _ both => ⟨q, replaced, both.2⟩) fun _ _ at_ => ⟨q, replaced, at_⟩) at_
  refine asked.bind fun t => Triple.get_bind fun s replacing => ?_
  dsimp only
  have written : (⟨part (s.disk volume !i).image, part (s.disk volume !i).image ≠ new⟩ : File H D).partly = true ∨
      (⟨part (s.disk volume !i).image, part (s.disk volume !i).image ≠ new⟩ : File H D) = ⟨new, false⟩ := by
    by_cases whole : part (s.disk volume !i).image = new
    · exact .inr (by simp [whole])
    · exact .inl (by simp [whole])
  generalize (⟨part (s.disk volume !i).image, part (s.disk volume !i).image ≠ new⟩ : File H D) = f at written
  have left (l : Left H D) (e : Ended) : Triple (· = s) (setFile volume (!i) (l.file (s.disk volume !i) f) >>= fun _ => (stop e : Driver H D Unit))
      (fun _ => Replacing lib d n info new volume i) (fun _ => Replacing lib d n info new volume i) := by
    refine (Triple.modify (Q := fun _ => Replacing lib d n info new volume i) fun t same => ?_).bind fun _ => Triple.stop fun _ => id
    rw [same]
    refine replacing.set ?_
    cases l with
    | unchanged => exact .inl rfl
    | partly image => exact .inr (.inl rfl)
    | whole => exact .inr written
  rcases world.writes t with _ | ⟨l, e⟩ | l
  · exact Triple.modify fun t same => same ▸ replacing.set (.inr written)
  · exact left l (.status e)
  · exact left l .crashed

/-- What a commit leaves behind when it breaks off. -/
def Broken (lib : FileLibrary H D) (d : String → Bool → File H D) (n : ℕ) (info : Option Info) (new : FileImage H D) (volume : String) (s : State H D) : Prop :=
  At d n info s ∨ ∃ i, Replacing lib d n info new volume i s

/-- A commit that returns has left the new image selected. -/
theorem commit_commits (valid : lib.valid new = true) : Triple (At d n info) (commit lib world new volume)
    (fun _ s => Broken lib d n info new volume s ∧ selected lib (s.disk volume) = some new) (fun _ => Broken lib d n info new volume) := by
  have early {α : Type} {x : Driver H D α} {Q : α → State H D → Prop} (h : Triple (At d n info) x Q fun _ => At d n info) :
      Triple (At d n info) x Q fun _ => Broken lib d n info new volume := h.mono (fun _ => id) (fun _ _ => id) fun _ _ => .inl
  refine (early (readCopy_reads volume new.header false)).bind fun first => Triple.assume fun one => ?_
  refine (early (readCopy_reads volume new.header true)).bind fun second => Triple.assume fun two => ?_
  refine (early (Quiet.require d n info)).bind fun _ => Triple.assume fun _ => ?_
  rw [one, two]
  rcases picked : lib.select (d volume false) (d volume true) with _ | i
  · exact early (Triple.stop fun _ at_ => at_)
  have current : (if i then d volume true else d volume false).image = (d volume i).image := by cases i <;> rfl
  dsimp only
  rw [current]
  refine (early (Quiet.require d n info)).bind fun _ => Triple.assume fun _ => ?_
  refine (early (Quiet.require d n info)).bind fun _ => Triple.assume fun le => ?_
  refine Triple.ite (fun _ => ?_) fun differ => ?_
  · refine early ((Quiet.require d n info).mono (fun _ => id) (fun _ s both => ?_) fun _ _ => id)
    refine ⟨.inl both.2, ?_⟩
    rw [both.2.disk, selected, picked, ← both.1]
    rfl
  have newer := Nat.lt_of_le_of_ne le differ
  have start : ∀ s, At d n info s → Replacing lib d n info new volume i s := fun s at_ =>
    ⟨d volume, Replaced.refl picked newer valid, ⟨by rw [Function.update_eq_self]; exact at_.disk, at_.saved, at_.info⟩⟩
  refine Triple.mono (P := Replacing lib d n info new volume i)
    (Q := fun _ s => Replacing lib d n info new volume i s ∧ selected lib (s.disk volume) = some new) (E := fun _ => Replacing lib d n info new volume i)
    ?_ start (fun _ s both => ⟨.inr ⟨i, both.1⟩, both.2⟩) fun _ _ replacing => .inr ⟨i, replacing⟩
  refine (writePart_replaces _).bind fun _ => (writePart_replaces _).bind fun _ => ?_
  intro s replacing
  obtain ⟨q, replaced, at_⟩ := replacing
  have back {t : State H D} (there : At (Function.update d volume q) n info t) : Replacing lib d n info new volume i t := ⟨q, replaced, there⟩
  refine Triple.bind (P := At (Function.update d volume q) n info) ((readImage_reads volume !i).mono (fun _ => id) (fun _ _ => id) fun _ _ => back) (fun copy => ?_) at_
  refine Triple.assume fun read => ?_
  rw [Function.update_self] at read
  refine ((Quiet.require _ n info).mono (fun _ => id) (fun _ _ => id) fun _ _ => back).bind fun _ => Triple.assume fun good => ?_
  refine Triple.modify fun t there => ⟨⟨q, replaced, there.disk, there.saved, there.info⟩, ?_⟩
  have all : q (!i) = ⟨new, false⟩ := by
    rw [← read]
    exact File.ext good.2 good.1.1
  change selected lib (t.disk volume) = some new
  rw [there.disk, Function.update_self, selected, replaced.whole all, Option.map_some, all]

end Commits

/-! ### Saves -/

section Saves

variable {H D : Type} {lib : FileLibrary H D} {world : World H D} {d : String → Bool → File H D} {n : ℕ} {info : Option Info}

/-- What may become of the volumes in a save: nothing, or one of them has a file replaced by a snapshot, maybe in part. -/
def Saves (lib : FileLibrary H D) (world : World H D) (d d' : String → Bool → File H D) : Prop :=
  d' = d ∨ ∃ new, Offered world new ∧ ∃ volume q i, Replaced lib new (d volume) q i ∧ d' = Function.update d volume q

theorem Broken.saves {new : FileImage H D} {volume : String} {s : State H D} (broken : Broken lib d n info new volume s) (offered : Offered world new) :
    Saves lib world d s.disk ∧ s.context.query.savedSequence = n ∧ s.context.info = info := by
  rcases broken with at_ | ⟨i, q, replaced, at_⟩
  · exact ⟨.inl at_.disk, at_.saved, at_.info⟩
  · exact ⟨.inr ⟨new, offered, volume, q, i, replaced, at_.disk⟩, at_.saved, at_.info⟩

/-- A volume keeps the image that it has selected, or gets a newer one that was offered. -/
theorem Saves.selected {d' : String → Bool → File H D} (saves : Saves lib world d d') {v : String} {g : FileImage H D}
    (had : selected lib (d v) = some g) :
    ∃ g', selected lib (d' v) = some g' ∧ (g' = g ∨ Offered world g' ∧ lib.sequence g.header < lib.sequence g'.header) := by
  rcases saves with rfl | ⟨new, offered, volume, q, i, replaced, rfl⟩
  · exact ⟨g, had, .inl rfl⟩
  by_cases here : v = volume
  · subst here
    rw [Function.update_self]
    rw [Commit.selected, replaced.picked, Option.map_some, Option.some.injEq] at had
    rcases replaced.select with still | ⟨now, all⟩
    · refine ⟨g, ?_, .inl rfl⟩
      rw [Commit.selected, still, Option.map_some, replaced.kept, had]
    · refine ⟨new, ?_, .inr ⟨offered, had ▸ replaced.newer⟩⟩
      rw [Commit.selected, now, Option.map_some, all]
  · rw [Function.update_of_ne here]
    exact ⟨g, had, .inl rfl⟩

/-- A volume without an image that is selected is never written. -/
theorem Saves.unselected {d' : String → Bool → File H D} (saves : Saves lib world d d') {v : String} (none : Commit.selected lib (d v) = none) :
    d' v = d v := by
  rcases saves with rfl | ⟨new, offered, volume, q, i, replaced, rfl⟩
  · rfl
  refine Function.update_of_ne (fun here => ?_) _ _
  rw [here, Commit.selected, replaced.picked] at none
  cases none

/-- What a save that returns has done: there was nothing to do, or the snapshot is selected now. -/
def Saved (lib : FileLibrary H D) (n : ℕ) (did : Bool) (s : State H D) : Prop :=
  ∃ info, s.context.info = some info ∧
    if did then ∃ volume new, selected lib (s.disk volume) = some new ∧ info.sequence ≤ lib.sequence new.header ∧
      s.context.query.savedSequence = lib.sequence new.header
    else s.context.query.savedSequence = n ∧ n = info.sequence ∧ info.sequence ≠ 0

theorem readInfo_reads : Triple (At d n info) (readInfo lib world) (fun i s => i.sequence ≠ 0 ∧ At d n (some i) s) (fun _ => At d n info) := by
  refine (quiet_query (f := fun q => { q with active := false }) (fun _ => rfl) d n info).bind fun _ => Triple.assume fun _ => ?_
  refine (quiet_firmwareGet d n info).bind fun i => Triple.assume fun _ => ?_
  refine (Quiet.require d n info).bind fun _ => Triple.assume fun good => ?_
  refine Triple.get_bind fun s at_ => ?_
  refine (Triple.require (Q := fun _ => (· = s)) (fun _ same _ => same) fun _ same _ => same ▸ at_).bind fun _ => ?_
  refine (Triple.modify (Q := fun _ => At d n (some i)) fun t same => ?_).bind fun _ => Triple.pure fun _ at_ => ⟨good.2.2.2.1, at_⟩
  rw [same]
  exact ⟨at_.disk, at_.saved, rfl⟩

/-- Every acknowledged sequence is still selected somewhere, or a newer one is. -/
def Acknowledged (lib : FileLibrary H D) (s : State H D) : Prop :=
  s.context.query.savedSequence = 0 ∨ ∃ v g, selected lib (s.disk v) = some g ∧ s.context.query.savedSequence ≤ lib.sequence g.header

theorem Acknowledged.saves {s t : State H D} (ack : Acknowledged lib s) (saves : Saves lib world s.disk t.disk)
    (same : t.context.query.savedSequence = s.context.query.savedSequence) : Acknowledged lib t := by
  rcases ack with zero | ⟨v, g, had, le⟩
  · exact .inl (same.trans zero)
  · obtain ⟨g', now, newer⟩ := saves.selected had
    refine .inr ⟨v, g', now, same.le.trans (le.trans ?_)⟩
    rcases newer with rfl | ⟨-, lt⟩
    · exact le_rfl
    · exact lt.le

/-- A save that succeeds leaves the image selected that the firmware has announced, or a newer one. -/
def Durable (lib : FileLibrary H D) (t : State H D) : Prop :=
  ∃ info v g, t.context.info = some info ∧ selected lib (t.disk v) = some g ∧ info.sequence ≤ lib.sequence g.header

variable [DecidableEq H] [DecidableEq D]

theorem saveSnapshot_saves (force : Bool) : Triple (At d n info) (saveSnapshot lib world force)
    (fun did s => Saves lib world d s.disk ∧ Saved lib n did s)
    (fun _ s => Saves lib world d s.disk ∧ s.context.query.savedSequence = n) := by
  refine (readInfo_reads.mono (fun _ => id) (fun _ _ => id) fun _ s at_ => ⟨.inl at_.disk, at_.saved⟩).bind fun i => Triple.assume fun nonzero => ?_
  have early {α : Type} {x : Driver H D α} {Q : α → State H D → Prop} (h : Triple (At d n (some i)) x Q fun _ => At d n (some i)) :
      Triple (At d n (some i)) x Q fun _ s => Saves lib world d s.disk ∧ s.context.query.savedSequence = n :=
    h.mono (fun _ => id) (fun _ _ => id) fun _ _ at_ => ⟨.inl at_.disk, at_.saved⟩
  refine Triple.get_bind fun s at_ => Triple.ite (fun idle => Triple.pure fun t same => ?_) fun _ => ?_
  · rw [same]
    exact ⟨.inl at_.disk, i, at_.info, at_.saved, at_.saved.symm.trans idle.2, nonzero⟩
  refine Triple.mono (P := At d n (some i)) ?_ (fun t same => same ▸ at_) (fun _ _ => id) fun _ _ => id
  refine (early (quiet_firmwareGet d n (some i))).bind fun new => Triple.assume fun offered => ?_
  refine (early (Quiet.require d n (some i))).bind fun _ => Triple.assume fun good => ?_
  refine (early (quiet_query (f := fun q => { q with currentSequence := lib.sequence new.header }) (fun _ => rfl) d n (some i))).bind fun _ => Triple.assume fun _ => ?_
  refine (early (quiet_discover d n (some i))).bind fun volume => Triple.assume fun _ => ?_
  refine ((commit_commits good.1).mono (fun _ => id) (fun _ _ => id) fun _ t broken =>
    ⟨(broken.saves offered).1, (broken.saves offered).2.1⟩).bind fun _ => ?_
  refine (Triple.modify (Q := fun _ t => Saves lib world d t.disk ∧ Saved lib n true t) fun t both => ?_).bind fun _ => Triple.pure fun _ => id
  obtain ⟨broken, now⟩ := both
  obtain ⟨saves, -, same⟩ := broken.saves offered
  exact ⟨saves, i, same, volume, new, now, good.2.2, rfl⟩

theorem save_saves (force : Bool) {s : State H D} (ack : Acknowledged lib s) :
    Triple (At s.disk s.context.query.savedSequence s.context.info) (save lib world force)
      (fun r t => Saves lib world s.disk t.disk ∧ Acknowledged lib t ∧ (r = none → Durable lib t))
      (fun _ t => Saves lib world s.disk t.disk) := by
  have done : Triple (At s.disk s.context.query.savedSequence s.context.info) (saveSnapshot lib world force) _ _ := saveSnapshot_saves force
  refine ((tolerated done).mono (fun _ => id) (fun _ _ => id) fun _ _ both => both.1.1).bind fun r => ?_
  rcases r with e | _ | _
  · refine (Triple.modify (Q := fun _ t => Saves lib world s.disk t.disk ∧ Acknowledged lib t) fun t ended => ?_).bind fun _ => Triple.pure fun t both => ⟨both.1, both.2, fun no => (by cases no)⟩
    obtain ⟨saves, same⟩ := ended.2 e rfl
    exact ⟨saves, Acknowledged.saves (t := { t with context := _ }) ack saves same⟩
  · refine Triple.pure fun t ended => ?_
    obtain ⟨saves, i, served, same, idle, nonzero⟩ := ended.1 false rfl
    have still := ack.saves saves same
    refine ⟨saves, still, fun _ => ?_⟩
    rcases still with zero | ⟨v, g, had, le⟩
    · exact absurd (idle.symm.trans (same.symm.trans zero)) nonzero
    · exact ⟨i, v, g, served, had, idle ▸ same ▸ le⟩
  · refine (Triple.modify (Q := fun _ t => Saves lib world s.disk t.disk ∧ Acknowledged lib t ∧ (none = (none : Option Status) → Durable lib t))
      fun t ended => ?_).bind fun _ => Triple.pure fun t all => all
    obtain ⟨saves, i, served, volume, new, now, newer, same⟩ := ended.1 true rfl
    exact ⟨saves, .inr ⟨volume, new, now, same.le⟩, fun _ => ⟨i, volume, new, served, now, newer⟩⟩

theorem attempt_saves (a : Attempt H D) (s : State H D) (ack : Acknowledged lib s) :
    Saves lib a.world s.disk (attempt lib s a).2.disk ∧ Acknowledged lib (attempt lib s a).2 ∧
      ((attempt lib s a).1 = some none → Durable lib (attempt lib s a).2) := by
  have run : Triple _ (save lib a.world a.force) _ _ := save_saves a.force ack
  specialize run (show At s.disk s.context.query.savedSequence s.context.info { s with asked := 0 } from ⟨rfl, rfl, rfl⟩)
  rw [attempt]
  rcases ended : (save lib a.world a.force).run { s with asked := 0 } with ⟨e | r, t⟩ <;> rw [ended] at run
  · exact ⟨run, .inl rfl, fun no => (by cases no)⟩
  · exact ⟨run.1, run.2.1, fun yes => run.2.2 (Option.some.inj yes)⟩

/-- **Saving is crash safe.** Over any number of saves, each of which may fail or stop the machine at any point, with a
write half done: a volume that has an image selected goes on having one, the same or a newer one that the firmware
offered meanwhile; a volume that has none is never written; and a save that succeeds leaves an image selected that is as
new as the one the firmware has announced. -/
theorem attempts_crashSafe (lib : FileLibrary H D) (disk : String → Bool → File H D) (l : List (Attempt H D)) :
    (∀ v g, selected lib (disk v) = some g → ∃ g', selected lib ((attempts lib { disk } l).disk v) = some g' ∧
      (g' = g ∨ (∃ a ∈ l, Offered a.world g') ∧ lib.sequence g.header < lib.sequence g'.header)) ∧
      (∀ v, selected lib (disk v) = none → (attempts lib { disk } l).disk v = disk v) ∧
      ∀ a, (attempt lib (attempts lib { disk } l) a).1 = some none → Durable lib (attempt lib (attempts lib { disk } l) a).2 := by
  have all : Acknowledged lib (attempts lib { disk } l) ∧
      (∀ v g, selected lib (disk v) = some g → ∃ g', selected lib ((attempts lib { disk } l).disk v) = some g' ∧
        (g' = g ∨ (∃ a ∈ l, Offered a.world g') ∧ lib.sequence g.header < lib.sequence g'.header)) ∧
      ∀ v, selected lib (disk v) = none → (attempts lib { disk } l).disk v = disk v := by
    induction l using List.reverseRecOn with
    | nil => exact ⟨.inl rfl, fun v g had => ⟨g, had, .inl rfl⟩, fun _ _ => rfl⟩
    | append_singleton l a ih =>
      obtain ⟨ack, kept, unwritten⟩ := ih
      obtain ⟨saves, next, -⟩ := attempt_saves a (attempts lib { disk } l) ack
      rw [attempts, List.foldl_append, List.foldl_cons, List.foldl_nil]
      change Acknowledged lib (attempt lib (attempts lib { disk } l) a).2 ∧ _
      refine ⟨next, fun v g had => ?_, fun v none => ?_⟩
      · obtain ⟨g₁, now, newer⟩ := kept v g had
        obtain ⟨g₂, later, newest⟩ := saves.selected now
        refine ⟨g₂, later, ?_⟩
        rcases newest with rfl | ⟨offered, lt⟩
        · exact newer.imp id fun both => ⟨both.1.imp fun b hb => ⟨List.mem_append_left _ hb.1, hb.2⟩, both.2⟩
        · refine .inr ⟨⟨a, List.mem_append_right _ (List.mem_singleton_self a), offered⟩, ?_⟩
          rcases newer with rfl | ⟨-, before⟩
          · exact lt
          · exact before.trans lt
      · have same := unwritten v none
        exact (saves.unselected (same ▸ none)).trans same
  exact ⟨all.2.1, all.2.2, fun a => (attempt_saves a _ all.1).2.2⟩

end Saves

/-- A library for which numbers are headers, and every image is valid. -/
def plain : FileLibrary ℕ ℕ where
  infoSize := 40
  imageSize := 8192
  version := 1
  sequence := id
  storeId _ := 0
  firmwareSize _ := 100
  sameStore _ _ := true
  fileName _ _ := true
  valid _ := true
  blank := ⟨0, 0⟩
  select a b := if a.partly = false ∧ (b.partly = true ∨ b.image.header < a.image.header) then some false
    else if b.partly = false ∧ (a.partly = true ∨ a.image.header < b.image.header) then some true
    else none
  select_valid := by
    intro pair i picked
    cases i <;> grind
  select_none := by
    intro pair none i whole _
    cases i <;> grind

/-- The first write to the second file stops the machine. -/
def stopping : World ℕ ℕ where
  stops _ := false
  info _ := .ok (⟨40, 1, 1, 7, 7, 0⟩, 40, 6)
  snapshot _ := .ok (⟨7, 70⟩, 8192, 6)
  interfaces _ := .ok ["boot"]
  opens t := .ok ⟨false, false, if t = 7 then 100 else 8192, false, t⟩
  reads _ := .ok true
  writes _ := .crashed (.partly ⟨3, 5⟩)

example : selected plain ((attempt plain { disk := fun _ slot => ⟨if slot then ⟨4, 40⟩ else ⟨5, 50⟩, false⟩ } ⟨false, stopping⟩).2.disk "boot") =
    some ⟨5, 50⟩ := by decide +kernel

end Pi5Drivers.Nvram.Commit
