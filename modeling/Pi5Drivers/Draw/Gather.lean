import Pi5Drivers.Draw.Formats
import Pi5Drivers.Lib.Filling
import Pi5Drivers.Lib.Outcome

/-! Gathering of vertices (`native/umd.cpp`, `GatherVertices`). The GPU fetches no vertices by itself: the user-mode driver
walks the vertices of a draw in the order they are used, reads their elements from the bound vertex buffers, and packs
one word for each component that the vertex shader declares. -/

namespace Pi5Drivers.Draw

open Abi Compiler Effect

/-- How a draw ends early: with an error code, `elsewhere` for one of a part that is not modelled, or with what the
language leaves undefined. -/
inductive Stop
  | invalid
  | unsupported
  | elsewhere
  | outside
  | endless
  deriving DecidableEq, Repr

/-- Errors the driver reports. -/
def Stop.Reported (e : Stop) : Prop := e = .invalid ∨ e = .unsupported ∨ e = .elsewhere

/-- `D3D10DDIRESOURCE_BUFFER`. -/
def dimensionBuffer : ℕ := 1

/-- A resource as the CPU maps it; a buffer has as many bytes as it is wide. -/
structure Resource where
  dimension : ℕ
  data : List (BitVec 8)
  width_lt : data.length < 2 ^ 32

def Resource.width (r : Resource) : ℕ := r.data.length

structure VertexBinding where
  resource : Option Resource
  stride : BitVec 32
  offset : BitVec 32

/-- An element of an input layout (`D3D10DDIARG_INPUT_ELEMENT_DESC`). -/
structure InputElement where
  inputSlot : Fin 32
  inputRegister : ℕ
  format : Format
  alignedByteOffset : BitVec 32
  perInstance : Bool
  instanceDataStepRate : BitVec 32

/-- What drawing reads of a device: the inputs of the vertex shader, and what is bound. -/
structure Device where
  inputs : ShaderSignature
  systemInputs : ℕ → ℕ → ℕ
  layout : Option (List InputElement)
  vertices : Fin 32 → VertexBinding
  indexBuffer : Option Resource
  /-- `DXGI_FORMAT_R16_UINT` indices, otherwise of four bytes. -/
  shortIndices : Bool
  indexOffset : BitVec 32

/-- The vertices of a call of `DrawVertices`. -/
structure DrawCall where
  order : List (BitVec 32)
  instances : BitVec 32
  firstInstance : BitVec 32
  instanceBase : BitVec 32
  vertexIdBias : BitVec 32
  deriving DecidableEq, Repr

/-- Arithmetic of `uint64_t`. -/
def u64 (n : ℕ) : ℕ := n % 2 ^ 64

/-- Reads `n` bytes of a mapped resource. -/
def fetch (data : List (BitVec 8)) (place n : ℕ) : Except Stop (List (BitVec 8)) :=
  if place + n ≤ data.length then .ok ((data.drop place).take n) else .error .outside

section

variable (d : Device) (call : DrawCall)

abbrev Gather := Effect (ℕ → UWord) Stop

/-- Writes a word of the `size` gathered ones. -/
def put (size i : ℕ) (v : UWord) : Gather Unit :=
  if i < size then modify fun m => Function.update m i v else stop .outside

/-- Declared components, counted one by one. -/
def countScalars (masks : ShaderSignature) : ℕ :=
  (List.range shaderRegisters).foldl (fun n reg => (List.range 4).foldl (fun n c => n + ((masks reg).getLsbD c).toNat) n) 0

def DrawCall.outputCount : ℕ := call.order.length * call.instances.toNat

/-- The components of a register with a system value: writes them for all vertices, and returns the number of declared
components and the mask of the ordinary ones. -/
def gatherSystem (scalars size field reg : ℕ) : Gather (ℕ × BitVec 4) :=
  forUpTo (fun c (fields, ordinary) => do
    if (d.inputs reg).getLsbD c then
      let system := d.systemInputs reg c
      if system = 0 then pure (fields + 1, ordinary)
      else do
        require (system = 6 ∨ system = 8) .invalid
        forUpTo (fun vertex _ => put size (vertex * scalars + field + fields)
          (if system = 6 then call.order.getD (vertex % call.order.length) 0 - call.vertexIdBias
           else call.instanceBase + BitVec.ofNat 32 (vertex / call.order.length))) call.outputCount ()
        pure (fields + 1, ordinary &&& ~~~(1#4 <<< c))
    else pure (fields, ordinary)) 4 (0, d.inputs reg)

/-- The record an instance reads, of an element that advances once in a number of instances. -/
def instanceRecord (e : InputElement) (k : ℕ) : ℕ :=
  u64 (call.firstInstance.toNat + if e.instanceDataStepRate ≠ 0 then k / e.instanceDataStepRate.toNat else 0)

/-- The last record that is read. -/
def lastRecord (e : InputElement) : ℕ :=
  if e.perInstance then instanceRecord call e (call.instanceBase.toNat + call.instances.toNat - 1)
  else (call.order.map BitVec.toNat).foldl max 0

/-- The components of a register that come from a vertex buffer. -/
def gatherElement (scalars size field reg : ℕ) (ordinary : BitVec 4) : Gather Unit := do
  require d.layout.isSome .unsupported
  match (d.layout.getD []).foldl (fun found e => if e.inputRegister = reg then some e else found) none with
  | none => stop .unsupported
  | some element =>
    let binding := d.vertices element.inputSlot
    match binding.resource with
    | none => stop .invalid
    | some r =>
      require (r.dimension = dimensionBuffer ∧ binding.stride.toNat ≤ 4096) .invalid
      let s := shape element.format
      let offset := u64 (binding.offset.toNat + element.alignedByteOffset.toNat)
      let last := lastRecord call element
      require (s.components ≠ 0 ∧ offset ≤ r.width ∧ u64 (last * binding.stride.toNat + s.elementBytes) ≤ r.width - offset) .invalid
      forUpTo (fun i _ => do
        let record := instanceRecord call element (call.instanceBase.toNat + i)
        forUpTo (fun vertex _ => do
          let record := if element.perInstance then record else (call.order.getD vertex 0).toNat
          let source := offset + u64 (record * binding.stride.toNat)
          let _ ← forUpTo (fun component lane => do
            if (d.inputs reg).getLsbD component then
              if ordinary.getLsbD component then
                let value ←
                  if component < s.components then do
                    let bytes ← ofExcept (fetch r.data (source + component * s.componentBytes) s.componentBytes)
                    pure (convert s bytes)
                  else pure (missing s component)
                put size (i * call.order.length * scalars + vertex * scalars + lane) value
                pure (lane + 1)
              else pure (lane + 1)
            else pure lane) 4 field
          pure ()) call.order.length ()) call.instances.toNat ()

/-- The inputs of a register; what comes back is the place of the next register. -/
def gatherRegister (scalars size reg field : ℕ) : Gather ℕ := do
  if d.inputs reg = 0 then pure field
  else do
    let (fields, ordinary) ← gatherSystem d call scalars size field reg
    if ordinary = 0 then pure (field + fields)
    else do
      gatherElement d call scalars size field reg ordinary
      pure (field + fields)

/-- The gathered words, all of them zero at first. -/
def gatherRegisters (scalars size : ℕ) : Except Stop (List UWord) :=
  match (forUpTo (fun reg field => gatherRegister d call scalars size reg field) shaderRegisters 0).run fun _ => 0 with
  | (.error e, _) => .error e
  | (.ok _, m) => .ok ((List.range size).map m)

/-- `GatherVertices`: the number of words of a vertex, and the words of all vertices. -/
def gatherVertices : Except Stop (ℕ × List UWord) :=
  if call.order = [] ∨ call.instances = 0 ∨ 4095 < u64 (call.order.length * call.instances.toNat) then .error .unsupported
  else if 16 < countScalars d.inputs then .error .unsupported
  else
    let scalars := max (countScalars d.inputs) 1
    (gatherRegisters d call scalars (call.outputCount * scalars)).map fun words => (scalars, words)

end

/-! ### What a vertex shader gets -/

/-- A vertex of a draw: the record it is fetched from, the number the shader sees for it, and its instance. -/
structure Corner where
  vertex : BitVec 32
  vertexId : BitVec 32
  copy : ℕ
  deriving DecidableEq, Repr

/-- The vertex of a row of the gathered words. -/
def DrawCall.corner (call : DrawCall) (row : ℕ) : Corner :=
  let vertex := call.order.getD (row % call.order.length) 0
  ⟨vertex, vertex - call.vertexIdBias, call.instanceBase.toNat + row / call.order.length⟩

/-- The last element of a register. -/
def Latest (elements : List InputElement) (reg : ℕ) (e : InputElement) : Prop :=
  ∃ front back, elements = front ++ e :: back ∧ e.inputRegister = reg ∧ ∀ x ∈ back, x.inputRegister ≠ reg

/-- The record that a corner reads of an element. -/
def record (firstInstance : BitVec 32) (e : InputElement) (k : Corner) : ℕ :=
  if e.perInstance then firstInstance.toNat + if e.instanceDataStepRate ≠ 0 then k.copy / e.instanceDataStepRate.toNat else 0
  else k.vertex.toNat

/-- A component that a corner reads from a vertex buffer, all of whose bytes are inside. -/
def Fetched (d : Device) (firstInstance : BitVec 32) (e : InputElement) (k : Corner) (c : ℕ) (v : UWord) : Prop :=
  ∃ r, (d.vertices e.inputSlot).resource = some r ∧ r.dimension = dimensionBuffer ∧
    let s := shape e.format
    let place := (d.vertices e.inputSlot).offset.toNat + e.alignedByteOffset.toNat +
      record firstInstance e k * (d.vertices e.inputSlot).stride.toNat
    place + s.elementBytes ≤ r.width ∧
      if c < s.components then Converted e.format ((r.data.drop (place + c * s.componentBytes)).take s.componentBytes) v
      else v = missing s c

/-- The word that a component of a register has for a corner. -/
def Supplies (d : Device) (firstInstance : BitVec 32) (k : Corner) (reg c : ℕ) (v : UWord) : Prop :=
  if d.systemInputs reg c = 6 then v = k.vertexId
  else if d.systemInputs reg c = 8 then v = BitVec.ofNat 32 k.copy
  else d.systemInputs reg c = 0 ∧ ∃ elements e, d.layout = some elements ∧ Latest elements reg e ∧ Fetched d firstInstance e k c v

/-- The vertex buffer of a register is there, with all records that a call reads. -/
def Present (d : Device) (call : DrawCall) (reg : ℕ) : Prop :=
  ∃ elements e r, d.layout = some elements ∧ Latest elements reg e ∧ (d.vertices e.inputSlot).resource = some r ∧ r.dimension = dimensionBuffer ∧
    (d.vertices e.inputSlot).stride.toNat ≤ 4096 ∧ (shape e.format).components ≠ 0 ∧
      ∀ row < call.outputCount, (d.vertices e.inputSlot).offset.toNat + e.alignedByteOffset.toNat +
        record call.firstInstance e (call.corner row) * (d.vertices e.inputSlot).stride.toNat + (shape e.format).elementBytes ≤ r.width

/-- A call that can be gathered. -/
structure Acceptable (d : Device) (call : DrawCall) : Prop where
  some : 0 < call.outputCount
  few : call.outputCount ≤ 4095
  lanes : inputScalar d.inputs shaderRegisters 0 ≤ 16
  system : ∀ reg < shaderRegisters, ∀ c < 4, (d.inputs reg).getLsbD c = true → d.systemInputs reg c = 0 ∨ d.systemInputs reg c = 6 ∨ d.systemInputs reg c = 8
  present : ∀ reg < shaderRegisters, ∀ c < 4, (d.inputs reg).getLsbD c = true → d.systemInputs reg c = 0 → Present d call reg

/-- Why gathering stops. -/
def Refused (d : Device) (call : DrawCall) (e : Stop) : Prop := e.Reported ∧ ¬Acceptable d call

/-! ### Places of components -/

section Places

variable {masks : ShaderSignature} {reg c k l : ℕ}

theorem inputScalar_succ (masks : ShaderSignature) (reg c : ℕ) :
    inputScalar masks reg (c + 1) = inputScalar masks reg c + ((masks reg).getLsbD c).toNat := by
  have count : maskCount (masks reg) (c + 1) = maskCount (masks reg) c + ((masks reg).getLsbD c).toNat := by
    rw [maskCount, maskCount, List.range_succ, List.filter_append, List.length_append]
    cases declared : (masks reg).getLsbD c <;> simp [declared]
  rw [inputScalar, inputScalar, count, Nat.add_assoc]

theorem inputScalar_next (masks : ShaderSignature) (reg : ℕ) : inputScalar masks (reg + 1) 0 = inputScalar masks reg 4 := by
  have none : maskCount (masks (reg + 1)) 0 = 0 := rfl
  rw [inputScalar, inputScalar, List.range_succ, List.map_append, List.sum_append, none]
  simp

/-- The place of a component, by its number among those of all registers. -/
def place (masks : ShaderSignature) (k : ℕ) : ℕ := inputScalar masks (k / 4) (k % 4)

def Declared (masks : ShaderSignature) (k : ℕ) : Prop := (masks (k / 4)).getLsbD (k % 4) = true

theorem place_succ (masks : ShaderSignature) (k : ℕ) :
    place masks (k + 1) = place masks k + ((masks (k / 4)).getLsbD (k % 4)).toNat := by
  rw [place, place, ← inputScalar_succ]
  by_cases last : k % 4 = 3
  · rw [show (k + 1) / 4 = k / 4 + 1 by omega, show (k + 1) % 4 = 0 by omega, inputScalar_next, last]
  · rw [show (k + 1) / 4 = k / 4 by omega, show (k + 1) % 4 = k % 4 + 1 by omega]

theorem place_mono (masks : ShaderSignature) : Monotone (place masks) :=
  monotone_nat_of_le_succ fun k => place_succ masks k ▸ Nat.le_add_right _ _

theorem Declared.place_lt (h : Declared masks k) (later : k < l) : place masks k < place masks l := by
  have step := place_succ masks k
  rw [show (masks (k / 4)).getLsbD (k % 4) = true from h] at step
  exact (step ▸ Nat.lt_succ_self (place masks k) : place masks k < place masks (k + 1)).trans_le (place_mono masks later)

theorem Declared.place_inj (hk : Declared masks k) (hl : Declared masks l) (same : place masks k = place masks l) : k = l := by
  rcases lt_trichotomy k l with lt | eq | lt
  · exact absurd same (hk.place_lt lt).ne
  · exact eq
  · exact absurd same (hl.place_lt lt).ne'

theorem place_four (masks : ShaderSignature) (reg : ℕ) {c : ℕ} (small : c < 4) : place masks (4 * reg + c) = inputScalar masks reg c := by
  rw [place, show (4 * reg + c) / 4 = reg by omega, show (4 * reg + c) % 4 = c by omega]

theorem declared_four (masks : ShaderSignature) (reg : ℕ) {c : ℕ} (small : c < 4) :
    Declared masks (4 * reg + c) ↔ (masks reg).getLsbD c = true := by
  rw [Declared, show (4 * reg + c) / 4 = reg by omega, show (4 * reg + c) % 4 = c by omega]

/-- Declared components have their own places. -/
theorem inputScalar_inj {reg' c' : ℕ} (hc : c < 4) (hc' : c' < 4) (h : (masks reg).getLsbD c = true)
    (h' : (masks reg').getLsbD c' = true) (same : inputScalar masks reg c = inputScalar masks reg' c') : reg = reg' ∧ c = c' := by
  have := Declared.place_inj ((declared_four masks reg hc).mpr h) ((declared_four masks reg' hc').mpr h')
    ((place_four masks reg hc).trans (same.trans (place_four masks reg' hc').symm))
  omega

theorem inputScalar_lt {n : ℕ} (hc : c < 4) (h : (masks reg).getLsbD c = true) (hr : reg < n) :
    inputScalar masks reg c < inputScalar masks n 0 := by
  rw [← place_four masks reg hc, ← place_four masks n (by decide : 0 < 4)]
  exact ((declared_four masks reg hc).mpr h).place_lt (by omega)

theorem countScalars_eq (masks : ShaderSignature) : countScalars masks = inputScalar masks shaderRegisters 0 := by
  have within : ∀ (mask : BitVec 4) (n : ℕ), (List.range 4).foldl (fun n c => n + (mask.getLsbD c).toNat) n = n + maskCount mask 4 := by
    intro mask n
    have counted : ∀ mask : BitVec 4, maskCount mask 4 =
        (mask.getLsbD 0).toNat + (mask.getLsbD 1).toNat + (mask.getLsbD 2).toNat + (mask.getLsbD 3).toNat := by decide
    rw [counted, show List.range 4 = [0, 1, 2, 3] from rfl]
    simp only [List.foldl_cons, List.foldl_nil]
    omega
  have across (l : List ℕ) (n : ℕ) : l.foldl (fun n reg => (List.range 4).foldl (fun n c => n + ((masks reg).getLsbD c).toNat) n) n =
      n + (l.map fun reg => maskCount (masks reg) 4).sum := by
    induction l generalizing n with
    | nil => rfl
    | cons reg l ih => rw [List.foldl_cons, within, ih, List.map_cons, List.sum_cons, Nat.add_assoc]
  have none : maskCount (masks shaderRegisters) 0 = 0 := rfl
  rw [countScalars, across, inputScalar, none, Nat.zero_add, Nat.add_zero]

end Places

/-! ### Reading a vertex buffer -/

section Records

variable {d : Device} {call : DrawCall} {e : InputElement}

theorem u64_of_lt {n : ℕ} (h : n < 2 ^ 64) : u64 n = n := Nat.mod_eq_of_lt h

theorem latest_of_foldl {elements : List InputElement} {reg : ℕ}
    (h : elements.foldl (fun found e => if e.inputRegister = reg then some e else found) none = some e) : Latest elements reg e := by
  induction elements using List.reverseRecOn with
  | nil => cases h
  | append_singleton front x ih =>
    rw [List.foldl_append, List.foldl_cons, List.foldl_nil] at h
    by_cases here : x.inputRegister = reg
    · rw [if_pos here] at h
      obtain rfl := Option.some.inj h
      exact ⟨front, [], rfl, here, fun _ none => absurd none List.not_mem_nil⟩
    · rw [if_neg here] at h
      obtain ⟨before, after, same, own, others⟩ := ih h
      refine ⟨before, after ++ [x], by rw [same, List.append_assoc, List.cons_append], own, fun y mem => ?_⟩
      rcases List.mem_append.mp mem with mem | mem
      · exact others y mem
      · exact List.mem_singleton.mp mem ▸ here

theorem foldl_of_latest {elements : List InputElement} {reg : ℕ} (h : Latest elements reg e) :
    elements.foldl (fun found e => if e.inputRegister = reg then some e else found) none = some e := by
  obtain ⟨front, back, rfl, own, others⟩ := h
  have passed (l : List InputElement) (none : ∀ x ∈ l, x.inputRegister ≠ reg) (found : Option InputElement) :
      l.foldl (fun found e => if e.inputRegister = reg then some e else found) found = found := by
    induction l generalizing found with
    | nil => rfl
    | cons x l ih => rw [List.foldl_cons, if_neg (none x List.mem_cons_self), ih fun y mem => none y (List.mem_cons_of_mem x mem)]
  rw [List.foldl_append, List.foldl_cons, if_pos own, passed back others]

theorem instanceRecord_eq (call : DrawCall) (e : InputElement) {k : ℕ} (small : k < 2 ^ 33) :
    instanceRecord call e k =
      call.firstInstance.toNat + if e.instanceDataStepRate ≠ 0 then k / e.instanceDataStepRate.toNat else 0 := by
  have := call.firstInstance.isLt
  have divided := Nat.div_le_self k e.instanceDataStepRate.toNat
  refine u64_of_lt ?_
  split <;> omega

theorem instanceRecord_mono (call : DrawCall) (e : InputElement) {k l : ℕ} (le : k ≤ l) (small : l < 2 ^ 33) :
    instanceRecord call e k ≤ instanceRecord call e l := by
  rw [instanceRecord_eq call e (le.trans_lt small), instanceRecord_eq call e small]
  split
  · exact Nat.add_le_add_left (Nat.div_le_div_right le) _
  · exact le_rfl

theorem instanceRecord_lt (call : DrawCall) (e : InputElement) {k : ℕ} (small : k < 2 ^ 33) : instanceRecord call e k < 2 ^ 34 := by
  rw [instanceRecord_eq call e small]
  have := call.firstInstance.isLt
  have divided := Nat.div_le_self k e.instanceDataStepRate.toNat
  split <;> omega

theorem le_foldl_max (l : List ℕ) (n : ℕ) : n ≤ l.foldl max n ∧ ∀ x ∈ l, x ≤ l.foldl max n := by
  induction l generalizing n with
  | nil => exact ⟨le_rfl, fun _ no => absurd no List.not_mem_nil⟩
  | cons y l ih =>
    obtain ⟨first, rest⟩ := ih (max n y)
    refine ⟨(le_max_left n y).trans first, fun x mem => ?_⟩
    rcases List.mem_cons.mp mem with rfl | mem
    · exact (le_max_right n x).trans first
    · exact rest x mem

theorem foldl_max_lt {l : List ℕ} {n b : ℕ} (hn : n < b) (h : ∀ x ∈ l, x < b) : l.foldl max n < b := by
  induction l generalizing n with
  | nil => exact hn
  | cons y l ih => exact ih (max_lt hn (h y List.mem_cons_self)) fun x mem => h x (List.mem_cons_of_mem _ mem)

theorem corner_at (call : DrawCall) {i vertex : ℕ} (hv : vertex < call.order.length) : call.corner (i * call.order.length + vertex) =
    ⟨call.order.getD vertex 0, call.order.getD vertex 0 - call.vertexIdBias, call.instanceBase.toNat + i⟩ := by
  have row : (i * call.order.length + vertex) % call.order.length = vertex := by
    rw [Nat.mul_comm, Nat.mul_add_mod, Nat.mod_eq_of_lt hv]
  have number : (i * call.order.length + vertex) / call.order.length = i := by
    rw [Nat.mul_comm, Nat.mul_add_div (by omega), Nat.div_eq_of_lt hv, Nat.add_zero]
  rw [DrawCall.corner, row, number]

/-- The record of a vertex of an instance, and its place among the records that are read. -/
theorem record_corner (call : DrawCall) (e : InputElement) {i vertex : ℕ} (hi : i < call.instances.toNat) (hv : vertex < call.order.length) :
    (if e.perInstance then instanceRecord call e (call.instanceBase.toNat + i) else (call.order.getD vertex 0).toNat) =
        record call.firstInstance e (call.corner (i * call.order.length + vertex)) ∧
      record call.firstInstance e (call.corner (i * call.order.length + vertex)) ≤ lastRecord call e ∧ lastRecord call e < 2 ^ 34 := by
  have base := call.instanceBase.isLt
  have count := call.instances.isLt
  rw [record, corner_at call hv, lastRecord]
  by_cases per : e.perInstance = true
  · rw [if_pos per, if_pos per, if_pos per]
    have read := instanceRecord_eq call e (k := call.instanceBase.toNat + i) (by omega)
    exact ⟨read, read.ge.trans (instanceRecord_mono call e (by omega) (by omega)), instanceRecord_lt call e (by omega)⟩
  · rw [if_neg per, if_neg per, if_neg per]
    have mem : (call.order.getD vertex 0).toNat ∈ call.order.map BitVec.toNat := by
      rw [List.getD_eq_getElem _ _ hv]
      exact List.mem_map_of_mem (List.getElem_mem hv)
    refine ⟨rfl, (le_foldl_max _ 0).2 _ mem, foldl_max_lt (by decide) fun x mem => ?_⟩
    obtain ⟨v, -, rfl⟩ := List.mem_map.mp mem
    have := v.isLt
    omega

theorem foldl_max_mem {l : List ℕ} (n : ℕ) : l.foldl max n = n ∨ l.foldl max n ∈ l := by
  induction l generalizing n with
  | nil => exact .inl rfl
  | cons y l ih =>
    rcases ih (max n y) with same | mem
    · rcases max_choice n y with first | second
      · exact .inl (same.trans first)
      · exact .inr (List.mem_cons.mpr (.inl (same.trans second)))
    · exact .inr (List.mem_cons_of_mem y mem)

/-- The last record is one of those that are read. -/
theorem exists_lastRecord (call : DrawCall) (e : InputElement) (some : 0 < call.outputCount) :
    ∃ row < call.outputCount, record call.firstInstance e (call.corner row) = lastRecord call e := by
  have vertices : 0 < call.order.length := Nat.pos_of_mul_pos_right some
  have instances : 0 < call.instances.toNat := Nat.pos_of_mul_pos_left some
  have inside {i v : ℕ} (hi : i < call.instances.toNat) (hv : v < call.order.length) : i * call.order.length + v < call.outputCount := by
    calc i * call.order.length + v < (i + 1) * call.order.length := by rw [Nat.succ_mul]; omega
      _ ≤ call.outputCount := by rw [DrawCall.outputCount, Nat.mul_comm]; exact Nat.mul_le_mul_left _ hi
  by_cases per : e.perInstance = true
  · refine ⟨(call.instances.toNat - 1) * call.order.length + 0, inside (by omega) vertices, ?_⟩
    have count := call.instances.isLt
    have base := call.instanceBase.isLt
    rw [record, corner_at call vertices, lastRecord, if_pos per, if_pos per, instanceRecord_eq call e (by omega), Nat.add_sub_assoc instances]
  · rw [lastRecord, if_neg per]
    obtain ⟨v, hv, same⟩ : ∃ v, ∃ hv : v < call.order.length, call.order[v].toNat = (call.order.map BitVec.toNat).foldl max 0 := by
      rcases foldl_max_mem (l := call.order.map BitVec.toNat) 0 with zero | mem
      · refine ⟨0, vertices, ?_⟩
        have le := (le_foldl_max (call.order.map BitVec.toNat) 0).2 _ (List.mem_map_of_mem (List.getElem_mem vertices))
        omega
      · obtain ⟨x, mem, same⟩ := List.mem_map.mp mem
        obtain ⟨v, hv, rfl⟩ := List.mem_iff_getElem.mp mem
        exact ⟨v, hv, same⟩
    refine ⟨0 * call.order.length + v, inside instances hv, ?_⟩
    rw [record, corner_at call hv, if_neg per, ← same, List.getD_eq_getElem _ _ hv]

end Records

/-! ### Filling the gathered words -/

section Fills

variable {d : Device} {call : DrawCall} {scalars size field reg : ℕ}

/-- A cell of the gathered words has what the component it belongs to supplies. -/
def Supplied (d : Device) (call : DrawCall) (scalars i : ℕ) (v : UWord) : Prop :=
  ∀ row, ∀ reg < shaderRegisters, ∀ c < 4, (d.inputs reg).getLsbD c → i = row * scalars + inputScalar d.inputs reg c →
    Supplies d call.firstInstance (call.corner row) reg c v

/-- The cells of a component, for all vertices of a call. -/
def cells (d : Device) (call : DrawCall) (scalars reg c : ℕ) : Set ℕ :=
  {i | ∃ row < call.outputCount, i = row * scalars + inputScalar d.inputs reg c}

/-- Room for all components. -/
structure Roomy (d : Device) (call : DrawCall) (scalars size : ℕ) : Prop where
  lanes : inputScalar d.inputs shaderRegisters 0 ≤ scalars
  rows : size = call.outputCount * scalars

theorem Roomy.lane_lt (room : Roomy d call scalars size) {c : ℕ} (hr : reg < shaderRegisters) (hc : c < 4)
    (declared : (d.inputs reg).getLsbD c = true) : inputScalar d.inputs reg c < scalars :=
  (inputScalar_lt hc declared hr).trans_le room.lanes

/-- A cell belongs to one component of one vertex. -/
theorem Roomy.supplied (room : Roomy d call scalars size) {row c : ℕ} {v : UWord} (hr : reg < shaderRegisters) (hc : c < 4)
    (declared : (d.inputs reg).getLsbD c = true) (h : Supplies d call.firstInstance (call.corner row) reg c v) :
    Supplied d call scalars (row * scalars + inputScalar d.inputs reg c) v := by
  intro row' reg' hr' c' hc' declared' same
  have lane := room.lane_lt hr hc declared
  have lane' := room.lane_lt hr' hc' declared'
  have rows : row = row' := by
    have left : (row * scalars + inputScalar d.inputs reg c) / scalars = row := by
      rw [Nat.mul_comm, Nat.mul_add_div (by omega), Nat.div_eq_of_lt lane, Nat.add_zero]
    have right : (row' * scalars + inputScalar d.inputs reg' c') / scalars = row' := by
      rw [Nat.mul_comm, Nat.mul_add_div (by omega), Nat.div_eq_of_lt lane', Nat.add_zero]
    rw [← left, same, right]
  subst rows
  obtain ⟨rfl, rfl⟩ := inputScalar_inj hc hc' declared declared' (Nat.add_left_cancel same)
  exact h

theorem Roomy.inside (room : Roomy d call scalars size) {row c : ℕ} (hr : reg < shaderRegisters) (hc : c < 4)
    (declared : (d.inputs reg).getLsbD c = true) (hrow : row < call.outputCount) :
    row * scalars + inputScalar d.inputs reg c < size := by
  have lane := room.lane_lt hr hc declared
  rw [room.rows]
  calc row * scalars + inputScalar d.inputs reg c < row * scalars + scalars := Nat.add_lt_add_left lane _
    _ = (row + 1) * scalars := (Nat.succ_mul row scalars).symm
    _ ≤ call.outputCount * scalars := Nat.mul_le_mul_right _ hrow

theorem put_fills (room : Roomy d call scalars size) {row c i : ℕ} {v : UWord} (hr : reg < shaderRegisters) (hc : c < 4)
    (declared : (d.inputs reg).getLsbD c = true) (hrow : row < call.outputCount)
    (same : i = row * scalars + inputScalar d.inputs reg c) (h : Supplies d call.firstInstance (call.corner row) reg c v) :
    Fills (Refused d call) (Supplied d call scalars) {row * scalars + inputScalar d.inputs reg c} (put size i v) fun _ => True := by
  subst same
  rw [put, if_pos (room.inside hr hc declared hrow)]
  exact Fills.put (room.supplied hr hc declared h)

theorem inputScalar_add (masks : ShaderSignature) (reg c : ℕ) : inputScalar masks reg c = inputScalar masks reg 0 + maskCount (masks reg) c :=
  rfl

theorem maskCount_succ (mask : BitVec 4) (c : ℕ) : maskCount mask (c + 1) = maskCount mask c + (mask.getLsbD c).toNat := by
  have := inputScalar_succ (fun _ => mask) 0 c
  rw [inputScalar_add, inputScalar_add _ 0 c] at this
  omega

/-- Which components are left to the vertex buffers after the first `n` ones. -/
def Ordinary (d : Device) (reg n : ℕ) (ordinary : BitVec 4) : Prop :=
  ∀ c < 4, ordinary.getLsbD c = true ↔ (d.inputs reg).getLsbD c = true ∧ (c < n → d.systemInputs reg c = 0)

theorem getLsbD_cleared : ∀ o : BitVec 4, ∀ n < 4, ∀ c < 4, (o &&& ~~~(1#4 <<< n)).getLsbD c = (o.getLsbD c && !decide (c = n)) := by
  decide

/-- System values are written to the cells of their components. -/
theorem gatherSystem_fills (room : Roomy d call scalars size) (hr : reg < shaderRegisters) (hfield : field = inputScalar d.inputs reg 0) :
    Fills (Refused d call) (Supplied d call scalars)
      {i | ∃ c < 4, (d.inputs reg).getLsbD c = true ∧ d.systemInputs reg c ≠ 0 ∧ i ∈ cells d call scalars reg c}
      (gatherSystem d call scalars size field reg)
      fun r => r.1 = maskCount (d.inputs reg) 4 ∧ Ordinary d reg 4 r.2 := by
  refine (Fills.forUpTo (J := fun n (r : ℕ × BitVec 4) => r.1 = maskCount (d.inputs reg) n ∧ Ordinary d reg n r.2)
    (S := fun c => {i | (d.inputs reg).getLsbD c = true ∧ d.systemInputs reg c ≠ 0 ∧ i ∈ cells d call scalars reg c})
    (fun n hn r at_ => ?_) ⟨rfl, fun c _ => by simp⟩).subset (fun i mem => ?_) fun _ => id
  · obtain ⟨fields, ordinary⟩ := r
    obtain ⟨counted, left⟩ := at_
    dsimp only at counted left ⊢
    have next := maskCount_succ (d.inputs reg) n
    refine Fills.ite (fun declared => ?_) fun undeclared => ?_
    · rw [declared] at next
      refine Fills.ite (fun ordinarily => ?_) fun system => ?_
      · refine (Fills.pure ⟨by rw [counted, next]; rfl, fun c hc => ?_⟩).subset (fun i mem => absurd ordinarily mem.2.1) fun _ => id
        rw [left c hc]
        refine and_congr_right fun _ => ⟨fun h small => ?_, fun h small => h (Nat.lt_succ_of_lt small)⟩
        rcases Nat.lt_succ_iff_lt_or_eq.mp small with earlier | rfl
        · exact h earlier
        · exact ordinarily
      · refine Fills.after (Fills.require fun unknown => ⟨.inl rfl, fun acceptable =>
          unknown ((acceptable.system reg hr n hn declared).resolve_left system)⟩) fun _ known => ?_
        refine ((Fills.forUpTo (J := fun _ _ => True) (S := fun row => {row * scalars + inputScalar d.inputs reg n})
          (fun row hrow _ _ => ?_) trivial).bind fun _ _ => Fills.pure (Q := fun (r : ℕ × BitVec 4) => r.1 = maskCount (d.inputs reg) (n + 1) ∧
            Ordinary d reg (n + 1) r.2) ⟨by rw [counted, next]; rfl, fun c hc => ?_⟩).subset (fun i mem => .inl ?_) fun _ => id
        · refine put_fills room hr hn declared hrow ?_ ?_
          · rw [hfield, counted, Nat.add_assoc, ← inputScalar_add]
          rw [Supplies]
          by_cases six : d.systemInputs reg n = 6
          · rw [if_pos six, if_pos six]
            rfl
          · rw [if_neg six, if_neg six, if_pos (known.resolve_left six), DrawCall.corner]
            change _ = BitVec.ofNat 32 (call.instanceBase.toNat + row / call.order.length)
            rw [BitVec.ofNat_add, BitVec.ofNat_toNat, BitVec.setWidth_eq]
        · rw [getLsbD_cleared ordinary n hn c hc, Bool.and_eq_true, left c hc, and_assoc]
          refine and_congr_right fun _ => ⟨fun h small => ?_, fun h => ⟨fun small => h (Nat.lt_succ_of_lt small), ?_⟩⟩
          · rcases Nat.lt_succ_iff_lt_or_eq.mp small with earlier | rfl
            · exact h.1 earlier
            · simp at h
          · by_cases same : c = n
            · exact absurd (h (by omega)) (same ▸ system)
            · simp [same]
        · obtain ⟨-, -, row, hrow, same⟩ := mem
          exact ⟨row, hrow, same⟩
    · have off : (d.inputs reg).getLsbD n = false := Bool.eq_false_iff.mpr undeclared
      rw [off] at next
      refine (Fills.pure ⟨by rw [counted, next]; rfl, fun c hc => ?_⟩).subset (fun i mem => absurd mem.1 undeclared) fun _ => id
      rw [left c hc]
      refine and_congr_right fun declared => ⟨fun h small => ?_, fun h small => h (Nat.lt_succ_of_lt small)⟩
      rcases Nat.lt_succ_iff_lt_or_eq.mp small with earlier | rfl
      · exact h earlier
      · exact absurd declared undeclared
  · obtain ⟨c, hc, declared, system, mem⟩ := mem
    exact ⟨c, hc, declared, system, mem⟩

/-- What a record has, each byte of it read inside the buffer. -/
theorem fetch_fills {P : ℕ → UWord → Prop} {data : List (BitVec 8)} {place n : ℕ} (inside : place + n ≤ data.length) :
    Fills (Refused d call) P ∅ (ofExcept (fetch data place n)) fun bytes => bytes = (data.drop place).take n := by
  refine Fills.ofExcept (fun bytes same => ?_) fun e no => ?_ <;> rw [fetch, if_pos inside] at *
  · exact (Except.ok.inj same).symm
  · cases no

/-- The cells of the ordinary components are filled from the buffer of their element. -/
theorem gatherElement_fills (room : Roomy d call scalars size) {ordinary : BitVec 4} (hr : reg < shaderRegisters)
    (hfield : field = inputScalar d.inputs reg 0) (left : Ordinary d reg 4 ordinary)
    (needed : ∃ c < 4, (d.inputs reg).getLsbD c = true ∧ d.systemInputs reg c = 0) :
    Fills (Refused d call) (Supplied d call scalars)
      {i | ∃ c < 4, (d.inputs reg).getLsbD c = true ∧ d.systemInputs reg c = 0 ∧ i ∈ cells d call scalars reg c}
      (gatherElement d call scalars size field reg ordinary) fun _ => True := by
  obtain ⟨component, small, used, ordinarily⟩ := needed
  refine Fills.after (Fills.require fun none => ⟨.inr (.inl rfl), fun acceptable => ?_⟩) fun _ given => ?_
  · obtain ⟨elements, -, -, layout, -⟩ := acceptable.present reg hr component small used ordinarily
    exact none (layout ▸ rfl)
  obtain ⟨elements, layout⟩ := Option.isSome_iff_exists.mp given
  rw [layout, Option.getD_some]
  -- an acceptable call has the element that is looked up, and what is checked of it
  have there (acceptable : Acceptable d call) {found : Option InputElement}
      (same : elements.foldl (fun found e => if e.inputRegister = reg then some e else found) none = found) :
      ∃ e r, found = some e ∧ (d.vertices e.inputSlot).resource = some r ∧ r.dimension = dimensionBuffer ∧
        (d.vertices e.inputSlot).stride.toNat ≤ 4096 ∧ (shape e.format).components ≠ 0 ∧
        (d.vertices e.inputSlot).offset.toNat + e.alignedByteOffset.toNat +
          lastRecord call e * (d.vertices e.inputSlot).stride.toNat + (shape e.format).elementBytes ≤ r.width := by
    obtain ⟨elements', e, r, layout', latest, resource, buffer, stride, some_, inside⟩ := acceptable.present reg hr component small used ordinarily
    obtain rfl := Option.some.inj (layout.symm.trans layout')
    obtain ⟨row, hrow, last⟩ := exists_lastRecord call e acceptable.some
    exact ⟨e, r, same.symm.trans (foldl_of_latest latest), resource, buffer, stride, some_, last ▸ inside row hrow⟩
  split
  · rename_i found
    refine Fills.stop ⟨.inr (.inl rfl), fun acceptable => ?_⟩
    obtain ⟨e, -, same, -⟩ := there acceptable found
    cases same
  rename_i element found
  dsimp only
  split
  · rename_i none
    refine Fills.stop ⟨.inl rfl, fun acceptable => ?_⟩
    obtain ⟨e, r, same, resource, -⟩ := there acceptable found
    obtain rfl := Option.some.inj same
    exact Option.some_ne_none r (resource.symm.trans none)
  rename_i r bound
  refine Fills.after (Fills.require fun bad => ⟨.inl rfl, fun acceptable => ?_⟩) fun _ buffer => ?_
  · obtain ⟨e, r', same, resource, isBuffer, stride, -⟩ := there acceptable found
    obtain rfl := Option.some.inj same
    obtain rfl := Option.some.inj (bound.symm.trans resource)
    exact bad ⟨isBuffer, stride⟩
  refine Fills.after (Fills.require fun bad => ⟨.inl rfl, fun acceptable => ?_⟩) fun _ inside => ?_
  · obtain ⟨e, r', same, resource, -, -, some_, last⟩ := there acceptable found
    obtain rfl := Option.some.inj same
    obtain rfl := Option.some.inj (bound.symm.trans resource)
    have width := r.width_lt
    change r.width < 2 ^ 32 at width
    refine bad ⟨some_, ?_, ?_⟩
    · rw [u64_of_lt (by omega)]
      omega
    · rw [u64_of_lt (by omega), u64_of_lt (by omega)]
      omega
  obtain ⟨-, within, last⟩ := inside
  have offset := (d.vertices element.inputSlot).offset.isLt
  have aligned := element.alignedByteOffset.isLt
  have width := r.width_lt
  have stride := buffer.2
  have start : u64 ((d.vertices element.inputSlot).offset.toNat + element.alignedByteOffset.toNat) =
      (d.vertices element.inputSlot).offset.toNat + element.alignedByteOffset.toNat := u64_of_lt (by omega)
  rw [start] at within last ⊢
  refine (Fills.forUpTo (J := fun _ _ => True) (S := fun i => {x | ∃ vertex < call.order.length, ∃ c < 4, (d.inputs reg).getLsbD c = true ∧
    d.systemInputs reg c = 0 ∧ x = (i * call.order.length + vertex) * scalars + inputScalar d.inputs reg c})
    (fun i hi _ _ => ?_) trivial).subset (fun x mem => ?_) fun _ => id
  · refine (Fills.forUpTo (J := fun _ _ => True) (S := fun vertex => {x | ∃ c < 4, (d.inputs reg).getLsbD c = true ∧
      d.systemInputs reg c = 0 ∧ x = (i * call.order.length + vertex) * scalars + inputScalar d.inputs reg c})
      (fun vertex hv _ _ => ?_) trivial).subset (fun x mem => mem) fun _ => id
    have row : i * call.order.length + vertex < call.outputCount := by
      calc i * call.order.length + vertex < (i + 1) * call.order.length := by rw [Nat.succ_mul]; omega
        _ ≤ call.outputCount := by rw [DrawCall.outputCount, Nat.mul_comm]; exact Nat.mul_le_mul_left _ hi
    obtain ⟨read, le, small⟩ := record_corner call element hi hv
    rw [read]
    -- the record is inside because the last one is, and nothing wraps around
    have product : lastRecord call element * (d.vertices element.inputSlot).stride.toNat ≤ 2 ^ 34 * 4096 := Nat.mul_le_mul small.le stride
    have before := Nat.mul_le_mul_right (d.vertices element.inputSlot).stride.toNat le
    have bytes : (shape element.format).elementBytes ≤ 16 := by cases element.format <;> decide
    rw [u64_of_lt (by omega)] at last
    rw [u64_of_lt (by omega)]
    refine (Fills.bind (Fills.forUpTo (J := fun c lane => lane = inputScalar d.inputs reg c) (S := fun c => {x | (d.inputs reg).getLsbD c = true ∧
      d.systemInputs reg c = 0 ∧ x = (i * call.order.length + vertex) * scalars + inputScalar d.inputs reg c})
      (fun c hc lane place => ?_) hfield) fun _ _ => Fills.pure trivial).subset (fun x mem => ?_) fun _ => id
    · have next := inputScalar_succ d.inputs reg c
      refine Fills.ite (fun declared => ?_) fun undeclared => ?_
      · rw [declared] at next
        refine Fills.ite (fun ordinarily => ?_) fun system => ?_
        · have plain := ((left c hc).mp ordinarily).2 hc
          have supplied {v : UWord} (h : Fetched d call.firstInstance element (call.corner (i * call.order.length + vertex)) c v) :
              Supplies d call.firstInstance (call.corner (i * call.order.length + vertex)) reg c v := by
            rw [Supplies, plain, if_neg (by decide), if_neg (by decide)]
            exact ⟨rfl, elements, element, layout, latest_of_foldl found, h⟩
          have finish {v : UWord} (h : Fetched d call.firstInstance element (call.corner (i * call.order.length + vertex)) c v) :
              Fills (Refused d call) (Supplied d call scalars) {x | (d.inputs reg).getLsbD c = true ∧ d.systemInputs reg c = 0 ∧
                x = (i * call.order.length + vertex) * scalars + inputScalar d.inputs reg c} (do
                let value ← Pure.pure v
                put size (i * call.order.length * scalars + vertex * scalars + lane) value
                Pure.pure (lane + 1)) fun lane => lane = inputScalar d.inputs reg (c + 1) := by
            refine Fills.after (Fills.pure (Q := (· = v)) rfl) fun value same => ?_
            refine ((put_fills room hr hc declared row ?_ (supplied (same ▸ h))).bind fun _ _ => Fills.pure ?_).subset
              (fun x mem => .inl mem.2.2) fun _ => id
            · rw [place, Nat.add_mul]
            · rw [next, place]
              rfl
          refine Fills.ite (fun some => ?_) fun lacks => finish ⟨r, bound, buffer.1, ?_, ?_⟩
          · have whole : c * (shape element.format).componentBytes + (shape element.format).componentBytes ≤
                (shape element.format).elementBytes := by
              rw [← Nat.succ_mul]
              exact Nat.mul_le_mul_right _ some
            refine Fills.after (fetch_fills ?_) fun bytes same => finish ⟨r, bound, buffer.1, ?_, ?_⟩
            · change _ ≤ r.width
              omega
            · omega
            · rw [if_pos some, ← same]
              refine convert_converted ?_
              rw [same, List.length_take, List.length_drop]
              have size : r.data.length = r.width := rfl
              omega
          · omega
          · rw [if_neg lacks]
        · refine (Fills.pure (by rw [next, place]; rfl)).subset (fun x mem => ?_) fun _ => id
          exact absurd ((left c hc).mpr ⟨declared, fun _ => mem.2.1⟩) system
      · rw [Bool.eq_false_iff.mpr undeclared] at next
        exact (Fills.pure (by rw [next, place]; rfl)).subset (fun x mem => absurd mem.1 undeclared) fun _ => id
    · exact .inl mem
  · obtain ⟨c, hc, declared, ordinarily, row, hrow, same⟩ := mem
    have pos : 0 < call.order.length := Nat.pos_of_mul_pos_right (Nat.zero_lt_of_lt hrow)
    refine ⟨row / call.order.length, Nat.div_lt_of_lt_mul hrow, row % call.order.length, Nat.mod_lt _ pos, c, hc, declared, ordinarily, ?_⟩
    rw [same, Nat.div_add_mod']

/-- The cells of a register. -/
theorem gatherRegister_fills (room : Roomy d call scalars size) (hr : reg < shaderRegisters) (hfield : field = inputScalar d.inputs reg 0) :
    Fills (Refused d call) (Supplied d call scalars) {i | ∃ c < 4, (d.inputs reg).getLsbD c = true ∧ i ∈ cells d call scalars reg c}
      (gatherRegister d call scalars size reg field) fun field => field = inputScalar d.inputs (reg + 1) 0 := by
  refine Fills.ite (fun none => ?_) fun _ => ?_
  · refine (Fills.pure ?_).subset (fun i mem => ?_) fun _ => id
    · have zero : maskCount (0 : BitVec 4) 4 = 0 := by decide
      rw [hfield, inputScalar_next, inputScalar_add _ _ 4, none, zero, Nat.add_zero]
    · obtain ⟨c, -, declared, -⟩ := mem
      rw [none] at declared
      simp at declared
  · refine ((gatherSystem_fills room hr hfield).bind (T := {i | ∃ c < 4, (d.inputs reg).getLsbD c = true ∧ d.systemInputs reg c = 0 ∧
      i ∈ cells d call scalars reg c}) (R := fun field => field = inputScalar d.inputs (reg + 1) 0) fun r got => ?_).subset
      (fun i mem => ?_) fun _ => id
    · obtain ⟨fields, ordinary⟩ := r
      obtain ⟨counted, left⟩ := got
      have next : field + fields = inputScalar d.inputs (reg + 1) 0 := by
        rw [inputScalar_next, inputScalar_add _ _ 4, ← hfield]
        exact congrArg (field + ·) counted
      dsimp only at left ⊢
      refine Fills.ite (fun none => ?_) fun some_ => ?_
      · refine (Fills.pure (Q := fun field => field = inputScalar d.inputs (reg + 1) 0) next).subset (fun i mem => ?_) fun _ => id
        obtain ⟨c, hc, declared, ordinarily, -⟩ := mem
        have kept := (left c hc).mpr ⟨declared, fun _ => ordinarily⟩
        rw [show ordinary = 0 from none] at kept
        simp at kept
      · have needed : ∃ c < 4, (d.inputs reg).getLsbD c = true ∧ d.systemInputs reg c = 0 := by
          by_contra none
          refine some_ (BitVec.eq_of_getLsbD_eq fun c hc => ?_)
          rw [show BitVec.getLsbD (0 : BitVec 4) c = false from BitVec.getLsbD_zero, Bool.eq_false_iff]
          exact fun set => none ⟨c, hc, ((left c hc).mp set).1, ((left c hc).mp set).2 hc⟩
        exact ((gatherElement_fills room hr hfield left needed).bind fun _ _ =>
          Fills.pure (Q := fun field => field = inputScalar d.inputs (reg + 1) 0) next).subset (fun i mem => .inl mem) fun _ => id
    · obtain ⟨c, hc, declared, mem⟩ := mem
      by_cases ordinarily : d.systemInputs reg c = 0
      · exact .inr ⟨c, hc, declared, ordinarily, mem⟩
      · exact .inl ⟨c, hc, declared, ordinarily, mem⟩

/-- The cells of the first registers are filled. -/
theorem forUpTo_fills (room : Roomy d call scalars size) {n : ℕ} (small : n ≤ shaderRegisters) :
    Fills (Refused d call) (Supplied d call scalars)
      {i | ∃ reg < n, ∃ c < 4, (d.inputs reg).getLsbD c = true ∧ i ∈ cells d call scalars reg c}
      (forUpTo (fun reg field => gatherRegister d call scalars size reg field) n 0) fun field => field = inputScalar d.inputs n 0 :=
  Fills.forUpTo (J := fun reg field => field = inputScalar d.inputs reg 0)
    (S := fun reg => {i | ∃ c < 4, (d.inputs reg).getLsbD c = true ∧ i ∈ cells d call scalars reg c})
    (fun _ hr _ place => gatherRegister_fills room (hr.trans_le small) place) rfl

theorem gatherRegisters_error {e : Stop} (room : Roomy d call scalars size) (h : gatherRegisters d call scalars size = .error e) :
    Refused d call e := by
  have run := forUpTo_fills room le_rfl (fun _ => 0) rfl
  rw [gatherRegisters] at h
  rcases ended : (forUpTo (fun reg field => gatherRegister d call scalars size reg field) shaderRegisters 0).run fun _ => 0 with ⟨f | place, m⟩ <;>
    rw [ended] at run h
  · exact Except.error.inj h ▸ run
  · cases h

theorem gatherRegisters_ok {words : List UWord} (room : Roomy d call scalars size) (h : gatherRegisters d call scalars size = .ok words) :
    words.length = size ∧ ∀ row < call.outputCount, ∀ reg < shaderRegisters, ∀ c < 4, (d.inputs reg).getLsbD c = true →
      ∃ v, words[row * scalars + inputScalar d.inputs reg c]? = some v ∧ Supplies d call.firstInstance (call.corner row) reg c v := by
  have run := forUpTo_fills room le_rfl (fun _ => 0) rfl
  rw [gatherRegisters] at h
  rcases ended : (forUpTo (fun reg field => gatherRegister d call scalars size reg field) shaderRegisters 0).run fun _ => 0 with ⟨f | place, m⟩ <;>
    rw [ended] at run h
  · cases h
  obtain rfl := Except.ok.inj h
  obtain ⟨-, filled, -⟩ := run
  refine ⟨by rw [List.length_map, List.length_range], fun row hrow reg hr c hc own =>
    ⟨m (row * scalars + inputScalar d.inputs reg c), ?_, ?_⟩⟩
  · rw [List.getElem?_map, List.getElem?_range (room.inside hr hc own hrow)]
    rfl
  · exact filled _ ⟨reg, hr, c, hc, own, row, hrow, rfl⟩ row reg hr c hc own rfl

end Fills

/-- What gathering gives: as many words for each vertex as the shader declares components, and each of them what its
component supplies. -/
structure Gathered (d : Device) (call : DrawCall) (scalars : ℕ) (words : List UWord) : Prop where
  lanes : scalars = max (inputScalar d.inputs shaderRegisters 0) 1 ∧ scalars ≤ 16
  fits : call.order.length < 2 ^ 32 → call.outputCount ≤ 4095
  length : words.length = call.outputCount * scalars
  word : ∀ row < call.outputCount, ∀ reg < shaderRegisters, ∀ c < 4, (d.inputs reg).getLsbD c = true →
    ∃ v, words[row * scalars + inputScalar d.inputs reg c]? = some v ∧ Supplies d call.firstInstance (call.corner row) reg c v

theorem gatherVertices_gathers (d : Device) (call : DrawCall) :
    Outcome (Refused d call) (gatherVertices d call) fun gathered => Gathered d call gathered.1 gathered.2 := by
  rw [gatherVertices]
  by_cases drawn : call.order = [] ∨ call.instances = 0 ∨ 4095 < u64 (call.order.length * call.instances.toNat)
  · rw [if_pos drawn]
    refine ⟨.inr (.inl rfl), fun acceptable => ?_⟩
    obtain ⟨some, few, -⟩ := acceptable
    rw [DrawCall.outputCount] at some few
    rcases drawn with none | none | many
    · rw [none] at some
      simp at some
    · rw [none] at some
      simp at some
    · exact absurd (many.trans_le (Nat.mod_le _ _)) (Nat.not_lt_of_le few)
  rw [if_neg drawn]
  have few : ¬4095 < u64 (call.order.length * call.instances.toNat) := fun many => drawn (.inr (.inr many))
  by_cases declared : 16 < countScalars d.inputs
  · rw [if_pos declared]
    refine ⟨.inr (.inl rfl), fun acceptable => ?_⟩
    rw [countScalars_eq] at declared
    exact absurd declared (Nat.not_lt_of_le acceptable.lanes)
  rw [if_neg declared, countScalars_eq]
  rw [countScalars_eq] at declared
  have room : Roomy d call (max (inputScalar d.inputs shaderRegisters 0) 1) (call.outputCount * max (inputScalar d.inputs shaderRegisters 0) 1) :=
    ⟨le_max_left _ _, rfl⟩
  dsimp only
  rcases gathered : gatherRegisters d call (max (inputScalar d.inputs shaderRegisters 0) 1)
    (call.outputCount * max (inputScalar d.inputs shaderRegisters 0) 1) with e | words
  · exact gatherRegisters_error room gathered
  obtain ⟨length, word⟩ := gatherRegisters_ok room gathered
  have lanes : max (inputScalar d.inputs shaderRegisters 0) 1 ≤ 16 := by omega
  refine ⟨⟨rfl, lanes⟩, fun short => ?_, length, word⟩
  have product : call.order.length * call.instances.toNat < 2 ^ 32 * 2 ^ 32 := Nat.mul_lt_mul'' short call.instances.isLt
  rw [u64_of_lt (by omega)] at few
  exact Nat.le_of_not_lt few

end Pi5Drivers.Draw
