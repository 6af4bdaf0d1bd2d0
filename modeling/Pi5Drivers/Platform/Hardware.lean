import Pi5Drivers.Lib.Common
import Mathlib.Data.Nat.Notation
import Mathlib.Data.List.Basic

/-! The reads of the random number generator: the health state that outlives a read, and the
loop that waits for words until the buffer is full. -/

namespace Pi5Drivers.Platform

def rngEnableMask : BitVec 32 := 0x1fff
def rngFailureMask : BitVec 32 := 0x80000020
def rngMaxBytes : ℕ := 4096
def rngTimeoutMs : BitVec 64 := 250

inductive Result
  | ok | invalid | notReady | timeout | healthFailed | cancelled
deriving DecidableEq, Repr

/-- The health state. It is zeroed when the device starts. -/
structure RngState where
  lastWord : BitVec 32
  repetitions : ℕ
  failed : Bool
deriving DecidableEq, Repr

/-- What one round of the loop is told, as far as it asks. -/
structure Round where
  cancelled : Bool
  now : BitVec 64
  control : BitVec 32
  status : BitVec 32
  bitCount : BitVec 32
  fifoCount : BitVec 32
  fifoData : BitVec 32

/-- A read under way. `words` are those it took from the FIFO so far; the code does not keep them. -/
structure Progress where
  state : RngState
  done : ℕ
  bytes : List (BitVec 8)
  words : List (BitVec 32)

/-- A word that was read counts before it is used. Four in a row latch the failure. -/
def RngState.saw (s : RngState) (word : BitVec 32) : RngState :=
  let repetitions := if s.repetitions ≠ 0 ∧ s.lastWord = word then s.repetitions + 1 else 1
  ⟨word, repetitions, s.failed || decide (4 ≤ repetitions)⟩

def RngState.fail (s : RngState) : RngState := { s with failed := true }

/-- The bytes of a word in the order they are stored. -/
def littleEndian (word : BitVec 32) : List (BitVec 8) := (List.range 4).map fun i => (word >>> (i * 8)).setWidth 8

/-- Stores bytes one after the other while there is room. -/
def put : List (BitVec 8) → ℕ → List (BitVec 8) → ℕ × List (BitVec 8)
  | [], done, bytes => (done, bytes)
  | b :: l, done, bytes => if done < bytes.length then put l (done + 1) (bytes.set done b) else (done, bytes)

/-- A word from the FIFO, and whether the read goes on. -/
def Progress.take (p : Progress) (word : BitVec 32) : Progress × Option Result :=
  let state := p.state.saw word
  let p := { p with state := state, words := p.words ++ [word] }
  if 4 ≤ state.repetitions then (p, some .healthFailed)
  else
    let stored := put (littleEndian word) p.done p.bytes
    ({ p with done := stored.1, bytes := stored.2 }, none)

/-- One round of the loop, and the result if it is the last. -/
def Progress.round (p : Progress) (start : BitVec 64) (r : Round) : Progress × Option Result :=
  if r.cancelled then (p, some .cancelled)
  else if p.state.failed then (p, some .healthFailed)
  else if rngTimeoutMs ≤ r.now - start then (p, some .timeout)
  else if r.control = BitVec.allOnes 32 ∨ r.status = BitVec.allOnes 32 then (p, some .notReady)
  else if r.status &&& rngFailureMask ≠ 0 then ({ p with state := p.state.fail }, some .healthFailed)
  else if r.control &&& rngEnableMask = 0 then (p, some .notReady)
  else if r.fifoCount = BitVec.allOnes 32 then (p, some .notReady)
  else if r.bitCount ≤ 16 ∨ r.fifoCount &&& 0xff = 0 then (p, none)
  else p.take r.fifoData

/-- The loop. It does not return while it is told of no more rounds. -/
def loop (start : BitVec 64) : List Round → Progress → Option (Progress × Result)
  | [], p => if p.done < p.bytes.length then none else some (p, .ok)
  | r :: rounds, p =>
    if p.done < p.bytes.length then
      match p.round start r with
      | (p, some result) => some (p, result)
      | (p, none) => loop start rounds p
    else some (p, .ok)

/-- A call: whether all pointers are given, the buffer as it is found, and what the call is told: the time
at its start, the rounds, and the status register after the last word. -/
structure Call where
  given : Bool
  bytes : List (BitVec 8)
  start : BitVec 64
  rounds : List Round
  status : BitVec 32

/-- What a call leaves. -/
structure Outcome where
  result : Result
  state : RngState
  bytes : List (BitVec 8)
  words : List (BitVec 32)

/-- A fault raised during the final FIFO read also invalidates the sample. -/
def recheck (status : BitVec 32) : Progress × Result → Progress × Result
  | (p, .ok) =>
    if status = BitVec.allOnes 32 then (p, .notReady)
    else if status &&& rngFailureMask ≠ 0 then ({ p with state := p.state.fail }, .healthFailed)
    else (p, .ok)
  | (p, result) => (p, result)

/-- Nothing of a sample is left unless the read succeeds. -/
def wipe (p : Progress) (result : Result) : Outcome :=
  ⟨result, p.state, if result = .ok then p.bytes else List.replicate p.bytes.length 0, p.words⟩

def Call.Accepted (c : Call) : Prop := c.given = true ∧ 0 < c.bytes.length ∧ c.bytes.length ≤ rngMaxBytes

instance (c : Call) : Decidable c.Accepted := inferInstanceAs (Decidable (_ ∧ _))

def rngRead (s : RngState) (c : Call) : Option Outcome :=
  if ¬c.Accepted then some ⟨.invalid, s, c.bytes, []⟩
  else (loop c.start c.rounds ⟨s, 0, c.bytes, []⟩).map fun (p, result) =>
    let (p, result) := recheck c.status (p, result)
    wipe p result

/-- Calls one after the other, until one does not return. -/
def serve : RngState → List Call → List (Call × Outcome)
  | _, [] => []
  | s, c :: calls =>
    match rngRead s c with
    | none => []
    | some o => (c, o) :: serve o.state calls

/-- The state of a device that was just started. -/
def RngState.start : RngState := ⟨0, 0, false⟩

end Pi5Drivers.Platform
