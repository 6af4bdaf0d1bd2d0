import Pi5Drivers.Lib.Footprint
import Pi5Drivers.Qpu.Alu

/-! Execution of instruction words with values. What the operations compute is left
open: an `Interpretation` supplies every operation, the condition flags and the
values the units deliver, and nothing is assumed of it. The registers are those
of one thread; results of the special-function unit, of vertex inputs and the
coefficient of a varying arrive after the next instruction. -/

namespace Pi5Drivers.Qpu

/-- Who took a word of the uniform stream. -/
inductive Consumer where
  | register (reg : ℕ)
  | signal (signal : ℕ)
  | unit (address : ℕ)
  deriving DecidableEq, Repr

/-- What the units see of a thread, in order. -/
inductive Event (V : Type) where
  | signal (signal : ℕ)
  | write (address : ℕ) (value : V)
  | store (index value : V)
  deriving DecidableEq, Repr

/-- The meaning of the operations. Units answer a load by what they have seen so far. -/
structure Interpretation (V F : Type) where
  immediate : ℕ → V
  binary : (op : ℕ) → V → V → V
  unary : (op selector : ℕ) → V → V
  product : (op : ℕ) → V → V → V
  copy : (selector : ℕ) → V → V
  multop : V → V → V
  umul24 : V → V → V → V
  flags : (op condition : ℕ) → V → V → F
  choose : (condition : ℕ) → F → V → V → V
  load : (signal : ℕ) → List (Event V) → V
  coefficient : List (Event V) → V
  vertexInput : ℕ → V

@[ext] structure Machine (V F : Type) where
  file : ℕ → V
  /-- Results that arrive after the next instruction. -/
  late : List (ℕ × V)
  /-- The latch between `multop` and `umul24`. -/
  rtop : V
  flags : F
  consumers : List Consumer
  events : List (Event V)

section Execution

variable {V F : Type} (sem : Interpretation V F) (uniforms : ℕ → V)

namespace Machine

def set (m : Machine V F) (reg : ℕ) (value : V) : Machine V F :=
  { m with file := Function.update m.file reg value }

/-- Results that were on their way arrive. -/
def land (m : Machine V F) : Machine V F :=
  { m.late.foldl (fun m p => m.set p.1 p.2) m with late := [] }

def consume (m : Machine V F) (c : Consumer) : Machine V F := { m with consumers := m.consumers ++ [c] }

def emit (m : Machine V F) (e : Event V) : Machine V F := { m with events := m.events ++ [e] }

/-- A write to a unit; the first one of a pixel colour takes its format from the uniforms. -/
def magic (m : Machine V F) (address : ℕ) (value : V) : Machine V F :=
  if address = 6 then m
  else
    let m := m.emit (.write address value)
    if address = 8 then m.consume (.unit 8) else m

end Machine

namespace Fields

variable (f : Fields) (m : Machine V F)

/-- The load signals put their register in the condition field. -/
def loads : Prop := f.signal ∈ [4, 8, 12, 16, 17]

instance : Decidable f.loads := inferInstanceAs (Decidable (_ ∈ _))

def condition : ℕ := if f.loads then 0 else f.flags

/-- The operands, from the file or a small immediate. -/
def valueA : V := if f.signal = 14 then sem.immediate f.a else m.file f.a
def valueB : V := if f.signal = 15 then sem.immediate f.b else m.file f.b
def valueC : V := if f.signal = 30 then sem.immediate f.c else m.file f.c
def valueD : V := if f.signal = 31 then sem.immediate f.d else m.file f.d

def addResult : V :=
  if binary f.opAdd then sem.binary f.opAdd (f.valueA sem m) (f.valueB sem m)
  else sem.unary f.opAdd f.b (f.valueA sem m)

def mulResult : V :=
  if f.opMul = 3 then sem.umul24 m.rtop (f.valueC sem m) (f.valueD sem m)
  else if f.opMul = 14 then sem.copy f.d (f.valueC sem m)
  else sem.product f.opMul (f.valueC sem m) (f.valueD sem m)

/-- Where the result of the add ALU goes. -/
def addStore (s : Machine V F) : Machine V F :=
  if f.opAdd = 190 then s.emit (.store (f.valueA sem m) (f.valueB sem m))
  else if f.magicAdd = 1 then s.magic f.dstAdd (f.addResult sem m)
  else if f.opAdd = 188 then
    { s with late := s.late ++ [(f.dstAdd, if f.b = 0 then sem.vertexInput f.a else f.addResult sem m)] }
  else if f.condition ∈ [0x20, 0x28] then
    s.set f.dstAdd (sem.choose f.condition m.flags (f.addResult sem m) (m.file f.dstAdd))
  else s.set f.dstAdd (f.addResult sem m)

/-- The add ALU, working from `m` and leaving its results in `s`. -/
def addPart (s : Machine V F) : Machine V F :=
  if f.addIdle then s
  else
    let s := if f.condition ∈ [1, 2, 3] then
      { s with flags := sem.flags f.opAdd f.condition (f.valueA sem m) (f.valueB sem m) } else s
    f.addStore sem m s

/-- The multiply ALU. -/
def mulPart (s : Machine V F) : Machine V F :=
  if f.mulIdle then s
  else if f.opMul = 10 then { s with rtop := sem.multop (f.valueC sem m) (f.valueD sem m) }
  else if f.magicMul = 1 then s.magic f.dstMul (f.mulResult sem m)
  else s.set f.dstMul (f.mulResult sem m)

/-- The signal. -/
def signalPart (s : Machine V F) : Machine V F :=
  if f.signal = 12 then (s.set f.flags (uniforms m.consumers.length)).consume (.register f.flags)
  else if f.signal = 4 ∨ f.signal = 16 then
    (s.set f.flags (sem.load f.signal m.events)).emit (.signal f.signal)
  else if f.signal = 17 then
    ((s.set f.flags (sem.load 17 m.events)).emit (.signal 17)).consume (.signal 17)
  else if f.signal = 8 then
    { (s.set f.flags (sem.load 8 m.events)).emit (.signal 8) with
      late := s.late ++ [(0, sem.coefficient m.events)] }
  else if f.signal = 18 then (s.emit (.signal 18)).consume (.signal 18)
  else if f.signal = 1 then s.emit (.signal 1)
  else s

end Fields

/-- One instruction: everything reads the state before it. -/
def advance (m : Machine V F) (word : Word) : Machine V F :=
  let f := fields word
  f.signalPart sem uniforms m (f.mulPart sem m (f.addPart sem m m.land))

def run (code : List Word) (m : Machine V F) : Machine V F := code.foldl (advance sem uniforms) m

end Execution

end Pi5Drivers.Qpu
