import Pi5Drivers.Draw.Gather
import Pi5Drivers.Lib.Transducer

/-! Draws of any size (`native/umd.cpp`, `VertexOrder`, `DrawVertices` and `DrawBody`). A command has room for 4095
expanded vertices: a larger draw is split on triangles, and a strip goes on in the next command where the last one
left it. -/

namespace Pi5Drivers.Draw

open Abi Compiler Effect Transducer

inductive Topology
  | triangleList
  | triangleStrip
  | other
  deriving DecidableEq, Repr

/-- The arguments of a draw. -/
structure DrawArgs where
  count : BitVec 32
  first : BitVec 32
  indexed : Bool
  /-- `INT`. -/
  base : BitVec 32
  instances : BitVec 32
  firstInstance : BitVec 32

/-- What else a draw reads of the device, and how the parts of it end that build a command: the pipeline may be refused
or mask everything, the shaders may not compile, and a command may not be submitted. -/
structure Stage where
  ready : Bool
  topology : Topology
  emptyViewport : Bool
  pipeline : Option Bool
  compiles : Bool

/-- A vertex draw that was submitted, with its gathered words. -/
structure Drawn where
  call : DrawCall
  scalars : ℕ
  words : List UWord

/-- How the submission of a draw ends, after some other draws. -/
abbrev Submission := List Drawn → Drawn → Bool

structure VertexOrderState where
  previous : BitVec 32 × BitVec 32
  seen : ℕ
  deriving DecidableEq, Repr

section

variable (d : Device) (p : Stage) (submits : Submission) (a : DrawArgs)

def indexBytes : ℕ := if d.shortIndices then 2 else 4

def cutIndex : BitVec 32 := if d.shortIndices then 0xffff else 0xffffffff

/-- The indices of a block, from the index buffer or one after the other. -/
def readIndices (count : ℕ) (first : BitVec 32) : Except Stop (List (BitVec 32)) :=
  if a.indexed then
    match d.indexBuffer with
    | none => .error .invalid
    | some r =>
      if r.dimension ≠ dimensionBuffer then .error .invalid
      else
        let start := u64 (d.indexOffset.toNat + first.toNat * indexBytes d)
        if start ≤ r.width ∧ u64 (count * indexBytes d) ≤ r.width - start then
          (List.range count).mapM fun i => (fetch r.data (start + i * indexBytes d) (indexBytes d)).map loaded
        else .error .invalid
  else if first.toNat + count ≤ 2 ^ 32 then .ok ((List.range count).map fun i => first + BitVec.ofNat 32 i)
  else .error .invalid

/-- A vertex of the loop of `VertexOrder`. -/
def pushVertex (strip : Bool) (r : List (BitVec 32) × VertexOrderState) (raw : BitVec 32) : Except Stop (List (BitVec 32) × VertexOrderState) :=
  let (order, state) := r
  if strip ∧ a.indexed ∧ raw = cutIndex d then .ok (order, { state with seen := 0 })
  else
    let adjusted : ℤ := raw.toNat + if a.indexed then a.base.toInt else 0
    if ¬(0 ≤ adjusted ∧ adjusted ≤ 2 ^ 32 - 1) then .error .invalid
    else
      let vertex := BitVec.ofInt 32 adjusted
      if ¬strip then .ok (order ++ [vertex], state)
      else
        let next : VertexOrderState := ⟨(state.previous.2, vertex), state.seen + 1⟩
        if 2 ≤ state.seen then
          if 4092 < order.length then .error .unsupported
          else
            -- odd triangles are rotated, so that the newest vertex but two stays first
            let odd := (state.seen - 2) % 2 = 1
            .ok (order ++ [state.previous.1, if odd then vertex else state.previous.2, if odd then state.previous.2 else vertex], next)
        else .ok (order, next)

def vertexOrder (count : ℕ) (first : BitVec 32) (strip : Bool) (state : VertexOrderState) :
    Except Stop (List (BitVec 32) × VertexOrderState) :=
  if 4095 < count then .error .unsupported
  else do
    let indices ← readIndices d a count first
    (indices.take (if strip then count else count / 3 * 3)).foldlM (pushVertex d a strip) ([], state)

abbrev Drawing := Effect (List Drawn) Stop

def drawVertices (call : DrawCall) : Drawing Unit := do
  require (call.order ≠ [] ∧ u64 (call.order.length * call.instances.toNat) ≤ 4095) .invalid
  match p.pipeline with
  | none => stop .elsewhere
  | some false => pure ()
  | some true => do
    require p.compiles .elsewhere
    let gathered ← ofExcept (gatherVertices d call)
    let drawn ← get
    require (submits drawn ⟨call, gathered.1, gathered.2⟩) .elsewhere
    modify (· ++ [⟨call, gathered.1, gathered.2⟩])

def vertexIdBias : BitVec 32 := if a.indexed then a.base else a.first

/-- The loop over batches of instances of one order. -/
def drawBatches (order : List (BitVec 32)) : ℕ → ℕ → Drawing Unit
  | 0, instance_ => if instance_ < a.instances.toNat then stop .endless else pure ()
  | fuel + 1, instance_ =>
    if instance_ < a.instances.toNat then do
      let batch := min (4095 / order.length) (a.instances.toNat - instance_)
      drawVertices d p submits ⟨order, BitVec.ofNat 32 batch, a.firstInstance, BitVec.ofNat 32 instance_, vertexIdBias a⟩
      drawBatches order fuel (instance_ + batch)
    else pure ()

/-- The loop over the blocks of an instance. -/
def drawBlocks (strip : Bool) (block instance_ : ℕ) : ℕ → ℕ → VertexOrderState → Drawing Unit
  | 0, cursor, _ => if cursor < a.count.toNat then stop .endless else pure ()
  | fuel + 1, cursor, state =>
    if cursor < a.count.toNat then do
      let take := min block (a.count.toNat - cursor)
      let (order, state) ← ofExcept (vertexOrder d a take (a.first + BitVec.ofNat 32 cursor) strip state)
      when (order ≠ []) (drawVertices d p submits ⟨order, 1, a.firstInstance, BitVec.ofNat 32 instance_, vertexIdBias a⟩)
      drawBlocks strip block instance_ fuel (cursor + take) state
    else pure ()

/-- `DrawBody`. -/
def drawBody : Drawing Unit := do
  let strip := p.topology = .triangleStrip
  require (p.ready ∧ (strip ∨ p.topology = .triangleList)) .unsupported
  if a.count.toNat < 3 ∨ a.instances = 0 ∨ p.emptyViewport then pure ()
  else do
    require (a.first.toNat + a.count.toNat ≤ 2 ^ 32) .invalid
    let block := if strip then 1365 else 4095
    if a.count.toNat ≤ block then do
      let (order, _) ← ofExcept (vertexOrder d a a.count.toNat a.first strip ⟨(0, 0), 0⟩)
      if order = [] then pure () else drawBatches d p submits a order a.instances.toNat 0
    else
      forUpTo (fun instance_ _ => drawBlocks d p submits a strip block instance_ a.count.toNat 0 ⟨(0, 0), 0⟩) a.instances.toNat ()

end

/-! ### What a draw is -/

section Triangles

variable {α β : Type}

/-- A triangle of a strip, from its vertices on: odd ones turn the other way around, and each keeps its first vertex. -/
def stripTriangle (k : ℕ) : List α → List α
  | first :: second :: third :: _ => if k % 2 = 0 then [first, second, third] else [first, third, second]
  | _ => []

/-- The triangles of a strip without cuts. -/
def stripTriangles (run : List α) : List α := (List.range (run.length - 2)).flatMap fun k => stripTriangle k (run.drop k)

/-- The vertices of the triangles of a draw. -/
def assemble (strip : Bool) (cut : α → Bool) (stream : List α) : List α :=
  if strip then (stream.splitOnP cut).flatMap stripTriangles else stream.take (stream.length / 3 * 3)

end Triangles

/-- The index at a position of a draw. -/
def rawIndex (d : Device) (indexed : Bool) (position : ℕ) : BitVec 32 :=
  if indexed then loaded (((d.indexBuffer.elim [] Resource.data).drop (d.indexOffset.toNat + position * indexBytes d)).take (indexBytes d))
  else BitVec.ofNat 32 position

def cuts (d : Device) (indexed : Bool) (raw : BitVec 32) : Bool := indexed && raw == cutIndex d

/-- The indices of a draw. -/
def indexStream (d : Device) (a : DrawArgs) : List (BitVec 32) :=
  (List.range a.count.toNat).map fun i => rawIndex d a.indexed (a.first.toNat + i)

/-- The indices of its triangles. -/
def assembled (d : Device) (a : DrawArgs) (strip : Bool) : List (BitVec 32) := assemble strip (cuts d a.indexed) (indexStream d a)

/-- The corner of an index. The shader sees the index itself, or the number of the vertex in the draw. -/
def cornerOf (a : DrawArgs) (copy : ℕ) (raw : BitVec 32) : Corner :=
  if a.indexed then ⟨raw + a.base, raw, copy⟩ else ⟨raw, raw - a.first, copy⟩

/-- The corners of all triangles of the first instances of a draw, instance by instance. -/
def copies (d : Device) (a : DrawArgs) (strip : Bool) (n : ℕ) : List Corner :=
  (List.range n).flatMap fun copy => (assembled d a strip).map (cornerOf a copy)

def reference (d : Device) (a : DrawArgs) (strip : Bool) : List Corner := copies d a strip a.instances.toNat

def DrawCall.corners (call : DrawCall) : List Corner := (List.range call.outputCount).map call.corner

/-- The corners of the triangles that were drawn. -/
def corners (drawn : List Drawn) : List Corner := drawn.flatMap fun x => x.call.corners

/-! ### Strips -/

section Strips

variable {α : Type}

/-- The triangle that a vertex completes, after the vertices of its run, the newest one first. -/
def newest : List α → α → List α
  | last :: before :: older, v => if older.length % 2 = 0 then [before, last, v] else [before, v, last]
  | _, _ => []

theorem stripTriangle_append (k : ℕ) {l m : List α} (h : 3 ≤ l.length) : stripTriangle k (l ++ m) = stripTriangle k l := by
  rcases l with _ | ⟨first, _ | ⟨second, _ | ⟨third, rest⟩⟩⟩
  · exact absurd h (by simp)
  · exact absurd h (by simp)
  · exact absurd h (by simp)
  · rfl

theorem stripTriangles_concat (run : List α) (v : α) : stripTriangles (run.reverse ++ [v]) = stripTriangles run.reverse ++ newest run v := by
  rcases run with _ | ⟨last, _ | ⟨before, older⟩⟩
  · rfl
  · rfl
  · have turned : (last :: before :: older).reverse = older.reverse ++ [before, last] := by simp
    have length : (older.reverse ++ [before, last]).length - 2 = older.length := by simp
    have longer : (older.reverse ++ [before, last] ++ [v]).length - 2 = older.length + 1 := by simp
    have tail : (older.reverse ++ [before, last] ++ [v]).drop older.length = [before, last, v] := by
      rw [List.append_assoc, List.drop_left' (by simp)]
      rfl
    rw [turned, stripTriangles, stripTriangles, length, longer, List.range_succ, List.flatMap_append, List.flatMap_singleton, tail]
    congr 1
    refine List.flatMap_congr fun k small => ?_
    have earlier := List.mem_range.mp small
    have enough : 3 ≤ ((older.reverse ++ [before, last]).drop k).length := by
      rw [List.length_drop, List.length_append, List.length_reverse]
      change 3 ≤ older.length + 2 - k
      omega
    rw [List.drop_append_of_le_length (by rw [List.length_append, List.length_reverse]; omega), stripTriangle_append k enough]

/-- A strip vertex by vertex. -/
def stripStep (cut : α → Bool) (run : List α) (v : α) : List α × List α := if cut v then ([], []) else (newest run v, v :: run)

theorem written_stripStep (cut : α → Bool) (run stream : List α) :
    stripTriangles run.reverse ++ written (stripStep cut) run stream =
      ((stream.splitOnP cut).modifyHead (run.reverse ++ ·)).flatMap stripTriangles := by
  induction stream generalizing run with
  | nil => simp [written, List.splitOnP_nil]
  | cons v rest ih =>
    rw [written, List.splitOnP_cons_eq_if_modifyHead, stripStep]
    by_cases ends : cut v = true
    · rw [if_pos ends, if_pos ends, List.modifyHead_cons, List.flatMap_cons, List.append_nil, List.nil_append]
      have fresh := ih []
      rw [show (([] : List α).reverse ++ ·) = id from rfl, List.modifyHead_id, id] at fresh
      rw [← fresh]
      rfl
    · rw [if_neg ends, if_neg ends, ← List.append_assoc, ← stripTriangles_concat, List.modifyHead_modifyHead]
      have longer := ih (v :: run)
      rw [List.reverse_cons] at longer
      rw [longer]
      congr 2
      funext l
      simp

end Strips

/-! ### The order of vertices -/

section Orders

variable {d : Device} {a : DrawArgs} {strip : Bool} {count : ℕ} {first : BitVec 32} {state : VertexOrderState} {run : List (BitVec 32)}
  {raw : BitVec 32} {order : List (BitVec 32)}

/-- The indices before a position are inside the index buffer. -/
def Inside (d : Device) (a : DrawArgs) (position : ℕ) : Prop :=
  a.indexed = true → ∃ r, d.indexBuffer = some r ∧ r.dimension = dimensionBuffer ∧ d.indexOffset.toNat + position * indexBytes d ≤ r.width

theorem indexBytes_cases (d : Device) : indexBytes d = 2 ∨ indexBytes d = 4 := by
  rw [indexBytes]
  split
  · exact .inl rfl
  · exact .inr rfl

/-- The indices of a block are those of the draw. -/
theorem readIndices_reads (d : Device) (a : DrawArgs) (first : BitVec 32) (small : count ≤ 4095) :
    Outcome Stop.Reported (readIndices d a count first) fun indices =>
      indices = (List.range count).map (fun i => rawIndex d a.indexed (first.toNat + i)) ∧ Inside d a (first.toNat + count) := by
  have bytes := indexBytes_cases d
  refine Outcome.ite (fun indexed => ?_) fun direct => Outcome.ite (fun _ => ⟨List.map_congr_left fun i _ => ?_, ?_⟩) fun _ => .inl rfl
  · rcases buffer : d.indexBuffer with _ | r
    · exact .inl rfl
    refine Outcome.ite (fun _ => .inl rfl) fun isBuffer => Outcome.ite (fun inside => ?_) fun _ => .inl rfl
    have offset := d.indexOffset.isLt
    have place := first.isLt
    have product : first.toNat * indexBytes d ≤ 2 ^ 34 := by rcases bytes with two | four <;> simp only [*] <;> omega
    have length : count * indexBytes d ≤ 2 ^ 14 := by rcases bytes with two | four <;> simp only [*] <;> omega
    rw [u64_of_lt (by omega), u64_of_lt (by omega)] at inside
    rw [u64_of_lt (by omega)]
    refine (Outcome.mapM (g := fun i => rawIndex d a.indexed (first.toNat + i)) fun i mem => Outcome.map ?_).mono fun indices same => ⟨same, fun _ => ?_⟩
    · have within : (i + 1) * indexBytes d ≤ count * indexBytes d := Nat.mul_le_mul_right _ (List.mem_range.mp mem)
      rw [Nat.succ_mul] at within
      have there : d.indexOffset.toNat + first.toNat * indexBytes d + i * indexBytes d + indexBytes d ≤ r.data.length := by
        change _ ≤ r.width
        omega
      rw [fetch, if_pos there, rawIndex, if_pos indexed, buffer, Nat.add_mul, ← Nat.add_assoc]
      exact rfl
    · refine ⟨r, buffer, not_not.mp isBuffer, ?_⟩
      rw [Nat.add_mul]
      omega
  · rw [rawIndex, if_neg direct, BitVec.ofNat_add, BitVec.ofNat_toNat, BitVec.setWidth_eq]
  · exact fun indexed => absurd indexed direct

/-- The vertex of an index. -/
def vertexOf (a : DrawArgs) (raw : BitVec 32) : BitVec 32 := if a.indexed then raw + a.base else raw

/-- The vertex of an index does not wrap around. -/
def Fits (a : DrawArgs) (raw : BitVec 32) : Prop := ((vertexOf a raw).toNat : ℤ) = raw.toNat + if a.indexed then a.base.toInt else 0

/-- A draw vertex by vertex. -/
def drawStep (d : Device) (a : DrawArgs) (strip : Bool) (run : List (BitVec 32)) (raw : BitVec 32) : List (BitVec 32) × List (BitVec 32) :=
  if strip then stripStep (cuts d a.indexed) run raw else ([raw], run)

/-- What the code carries along of a run of a strip. -/
structure Carries (a : DrawArgs) (state : VertexOrderState) (run : List (BitVec 32)) : Prop where
  seen : state.seen = run.length
  last : ∀ raw, run[0]? = some raw → state.previous.2 = vertexOf a raw
  before : ∀ raw, run[1]? = some raw → state.previous.1 = vertexOf a raw
  fits : ∀ raw ∈ run, Fits a raw

theorem Carries.start (a : DrawArgs) : Carries a ⟨(0, 0), 0⟩ [] :=
  ⟨rfl, fun _ no => (Option.some_ne_none _ no.symm).elim, fun _ no => (Option.some_ne_none _ no.symm).elim, fun _ no => absurd no List.not_mem_nil⟩

theorem vertexOf_adjusted (inside : 0 ≤ (raw.toNat : ℤ) + (if a.indexed then a.base.toInt else 0) ∧
    (raw.toNat : ℤ) + (if a.indexed then a.base.toInt else 0) ≤ 2 ^ 32 - 1) :
    BitVec.ofInt 32 (raw.toNat + if a.indexed then a.base.toInt else 0) = vertexOf a raw ∧ Fits a raw := by
  have same : BitVec.ofInt 32 (raw.toNat + if a.indexed then a.base.toInt else 0) = vertexOf a raw := by
    rw [vertexOf]
    split
    · rw [BitVec.ofInt_add, BitVec.ofInt_toInt, BitVec.ofInt_natCast, BitVec.ofNat_toNat, BitVec.setWidth_eq]
    · rw [Int.add_zero, BitVec.ofInt_natCast, BitVec.ofNat_toNat, BitVec.setWidth_eq]
  refine ⟨same, ?_⟩
  rw [Fits, ← same, BitVec.toNat_ofInt]
  generalize (raw.toNat : ℤ) + (if a.indexed then a.base.toInt else 0) = n at inside
  omega

theorem Carries.push (carries : Carries a state run) (fits : Fits a raw) :
    Carries a ⟨(state.previous.2, vertexOf a raw), state.seen + 1⟩ (raw :: run) := by
  refine ⟨by rw [carries.seen, List.length_cons], fun x same => ?_, fun x same => carries.last x same, fun x mem => ?_⟩
  · obtain rfl := Option.some.inj same
    rfl
  · rcases List.mem_cons.mp mem with rfl | mem
    · exact fits
    · exact carries.fits x mem

/-- One vertex: what is added to the order, and what is carried on. -/
theorem pushVertex_pushes (carries : Carries a state run) (few : order.length ≤ 4095) :
    Outcome Stop.Reported (pushVertex d a strip (order, state) raw) fun r =>
      r.1 = order ++ (drawStep d a strip run raw).1.map (vertexOf a) ∧ Carries a r.2 (drawStep d a strip run raw).2 ∧
        (∀ x ∈ (drawStep d a strip run raw).1, Fits a x) ∧ (strip = true → r.1.length ≤ 4095) := by
  refine Outcome.ite (fun cut => ?_) fun uncut => ?_
  · obtain ⟨isStrip, indexed, same⟩ := cut
    have step : drawStep d a strip run raw = ([], []) := by
      rw [drawStep, if_pos isStrip, stripStep, if_pos (by rw [cuts, indexed, same]; simp)]
    rw [step]
    refine ⟨(List.append_nil order).symm, ⟨rfl, fun _ no => ?_, fun _ no => ?_, fun _ no => ?_⟩, fun _ no => ?_, fun _ => few⟩
    · cases no
    · cases no
    · cases no
    · cases no
  refine Outcome.ite (fun _ => .inl rfl) fun inside => ?_
  obtain ⟨vertex, fits⟩ := vertexOf_adjusted (not_not.mp inside)
  dsimp only
  rw [vertex]
  refine Outcome.ite (fun list => ?_) fun isStrip => ?_
  · have step : drawStep d a strip run raw = ([raw], run) := by rw [drawStep, if_neg list]
    rw [step]
    exact ⟨rfl, carries, fun x mem => List.mem_singleton.mp mem ▸ fits, fun isStrip => absurd isStrip list⟩
  have isStrip := not_not.mp isStrip
  have step : drawStep d a strip run raw = (newest run raw, raw :: run) := by
    rw [drawStep, if_pos isStrip, stripStep, if_neg fun cut => uncut ?_]
    rw [cuts, Bool.and_eq_true, beq_iff_eq] at cut
    exact ⟨isStrip, cut⟩
  rw [step]
  have on := carries.push fits
  refine Outcome.ite (fun enough => Outcome.ite (fun _ => .inr (.inl rfl)) fun room => ?_) fun short => ?_
  · obtain ⟨last, before, older, same⟩ : ∃ last before older, run = last :: before :: older := by
      rcases run with _ | ⟨last, _ | ⟨before, older⟩⟩
      · exact absurd (carries.seen ▸ enough) (by simp)
      · exact absurd (carries.seen ▸ enough) (by simp)
      · exact ⟨last, before, older, rfl⟩
    subst same
    have seen : (state.seen - 2) % 2 = older.length % 2 := by rw [carries.seen]; rfl
    have fresh : [state.previous.1, if (state.seen - 2) % 2 = 1 then vertexOf a raw else state.previous.2,
        if (state.seen - 2) % 2 = 1 then state.previous.2 else vertexOf a raw] = (newest (last :: before :: older) raw).map (vertexOf a) := by
      rw [seen, carries.before before rfl, carries.last last rfl, newest]
      rcases Nat.mod_two_eq_zero_or_one older.length with even | odd
      · rw [even]
        rfl
      · rw [odd]
        rfl
    refine ⟨by rw [fresh], on, fun x mem => ?_, fun _ => ?_⟩
    · have among : x ∈ raw :: last :: before :: older := by
        rw [newest] at mem
        split at mem <;> simp only [List.mem_cons, List.not_mem_nil, or_false] at mem ⊢ <;> tauto
      exact on.fits x among
    · rw [List.length_append]
      change order.length + 3 ≤ 4095
      omega
  · have none : newest run raw = [] := by
      rcases run with _ | ⟨last, _ | ⟨before, older⟩⟩
      · rfl
      · rfl
      · exact absurd (carries.seen ▸ Nat.le_add_left 2 older.length) short
    rw [none]
    exact ⟨(List.append_nil order).symm, on, fun _ no => absurd no List.not_mem_nil, fun _ => few⟩

theorem indexStream_block (d : Device) (a : DrawArgs) {cursor take n : ℕ} (inside : cursor + take ≤ a.count.toNat) (part : n ≤ take) :
    ((List.range take).map fun i => rawIndex d a.indexed (a.first.toNat + cursor + i)).take n = ((indexStream d a).drop cursor).take n := by
  refine List.ext_getElem ?_ fun i left right => ?_
  · simp [indexStream]
    omega
  · simp [indexStream, Nat.add_assoc]

/-- How many of the indices of a block make triangles. -/
def usedOf (strip : Bool) (n : ℕ) : ℕ := if strip then n else n / 3 * 3

theorem usedOf_le (strip : Bool) (n : ℕ) : usedOf strip n ≤ n := by
  rw [usedOf]
  split <;> omega

/-- What a block adds to a draw, and what it leaves to the next one. -/
structure Ordered (d : Device) (a : DrawArgs) (strip : Bool) (run part : List (BitVec 32)) (position : ℕ)
    (r : List (BitVec 32) × VertexOrderState) : Prop where
  order : r.1 = (written (drawStep d a strip) run part).map (vertexOf a)
  carries : Carries a r.2 (carried (drawStep d a strip) run part)
  fits : ∀ x ∈ written (drawStep d a strip) run part, Fits a x
  length : r.1.length ≤ 4095
  inside : Inside d a position

theorem vertexOrder_exact (d : Device) (a : DrawArgs) (strip : Bool) (cursor take : ℕ) (whole : cursor + take ≤ a.count.toNat)
    (place : first.toNat = a.first.toNat + cursor) (carries : Carries a state run) :
    Outcome Stop.Reported (vertexOrder d a take first strip state)
      (Ordered d a strip run (((indexStream d a).drop cursor).take (usedOf strip take)) (a.first.toNat + cursor + take)) := by
  refine Outcome.ite (fun _ => .inr (.inl rfl)) fun small => ?_
  refine (readIndices_reads d a first (Nat.le_of_not_lt small)).bind fun indices read => ?_
  obtain ⟨same, inside⟩ := read
  rw [place] at same inside
  rw [show (if strip then take else take / 3 * 3) = usedOf strip take from rfl, same, indexStream_block d a whole (usedOf_le strip take)]
  have used := usedOf_le strip take
  refine (Outcome.foldlM (I := fun front (r : List (BitVec 32) × VertexOrderState) =>
      r.1 = (written (drawStep d a strip) run front).map (vertexOf a) ∧ Carries a r.2 (carried (drawStep d a strip) run front) ∧
        (∀ x ∈ written (drawStep d a strip) run front, Fits a x) ∧ (strip = true → r.1.length ≤ 4095) ∧ (strip ≠ true → r.1.length = front.length))
    ⟨rfl, carries, fun _ no => absurd no List.not_mem_nil, fun _ => Nat.zero_le _, fun _ => rfl⟩ fun front x r within had => ?_).mono fun r all => ?_
  · obtain ⟨order, state⟩ := r
    obtain ⟨order_eq, carries, fits, ofStrip, ofList⟩ := had
    have short := within.length_le
    rw [List.length_append, List.length_singleton, List.length_take] at short
    have few : order.length ≤ 4095 := by
      by_cases isStrip : strip = true
      · exact ofStrip isStrip
      · have := ofList isStrip
        dsimp only at this
        omega
    refine (pushVertex_pushes carries few).mono fun r now => ?_
    obtain ⟨pushed, on, fresh, still⟩ := now
    refine ⟨?_, carried_concat (drawStep d a strip) run front x ▸ on, fun y mem => ?_, still, fun list => ?_⟩
    · rw [pushed, show order = _ from order_eq, written_concat, List.map_append]
    · rw [written_concat] at mem
      exact (List.mem_append.mp mem).elim (fits y) (fresh y)
    · rw [pushed, List.length_append, List.length_append, List.length_map, drawStep, if_neg list]
      exact congrArg (· + 1) (ofList list)
  · obtain ⟨order, carries, fits, ofStrip, ofList⟩ := all
    refine ⟨order, carries, fits, ?_, inside⟩
    by_cases isStrip : strip = true
    · exact ofStrip isStrip
    · rw [ofList isStrip, List.length_take]
      omega

/-- Vertex by vertex, a draw gives the triangles it stands for. -/
theorem written_drawStep (d : Device) (a : DrawArgs) (strip : Bool) :
    written (drawStep d a strip) [] ((indexStream d a).take (usedOf strip a.count.toNat)) = assembled d a strip := by
  have length : (indexStream d a).length = a.count.toNat := by rw [indexStream, List.length_map, List.length_range]
  cases strip with
  | false =>
    have copied (l : List (BitVec 32)) : written (drawStep d a false) [] l = l := by
      induction l with
      | nil => rfl
      | cons x l ih => exact congrArg (x :: ·) ih
    rw [copied, assembled, assemble, length]
    rfl
  | true =>
    have step : drawStep d a true = stripStep (cuts d a.indexed) := funext fun _ => funext fun _ => if_pos rfl
    have all := written_stripStep (cuts d a.indexed) [] (indexStream d a)
    rw [show (([] : List (BitVec 32)).reverse ++ ·) = id from rfl, List.modifyHead_id, id] at all
    rw [step, show usedOf true a.count.toNat = (indexStream d a).length from length.symm, List.take_length, assembled, assemble, if_pos rfl, ← all]
    rfl

theorem cornerOf_eq (a : DrawArgs) (copy : ℕ) (raw : BitVec 32) :
    cornerOf a copy raw = ⟨vertexOf a raw, vertexOf a raw - vertexIdBias a, copy⟩ := by
  rw [cornerOf, vertexOf, vertexIdBias]
  split
  · rw [BitVec.add_sub_cancel]
  · rfl

end Orders

/-! ### Draws -/

section Draws

variable {d : Device} {p : Stage} {submits : Submission} {a : DrawArgs} {strip : Bool} {expected : List Corner} {order : List (BitVec 32)}

theorem range_mul (k n : ℕ) : List.range (k * n) = (List.range k).flatMap fun i => (List.range n).map (i * n + ·) := by
  induction k with
  | zero => rw [Nat.zero_mul]; rfl
  | succ k ih => rw [Nat.succ_mul, List.range_add, ih, List.range_succ, List.flatMap_append, List.flatMap_singleton]

/-- The corners of a call, instance by instance. -/
theorem DrawCall.corners_eq (call : DrawCall) : call.corners =
    (List.range call.instances.toNat).flatMap fun i => call.order.map fun v => ⟨v, v - call.vertexIdBias, call.instanceBase.toNat + i⟩ := by
  rw [DrawCall.corners, DrawCall.outputCount, Nat.mul_comm, range_mul, List.map_flatMap]
  refine List.flatMap_congr fun i _ => ?_
  refine List.ext_getElem (by simp) fun v left right => ?_
  have small : v < call.order.length := by simpa using right
  rw [List.getElem_map, List.getElem_map, List.getElem_map, List.getElem_range, corner_at call small, List.getD_eq_getElem _ _ small]

/-- What is submitted has room in a command, and has what the vertex shader expects. -/
structure Sound (d : Device) (a : DrawArgs) (x : Drawn) : Prop where
  room : x.call.outputCount ≤ 4095
  gathered : Gathered d x.call x.scalars x.words
  firstInstance : x.call.firstInstance = a.firstInstance

/-- The triangles that are drawn so far; none where nothing is drawn at all. -/
structure At (d : Device) (p : Stage) (a : DrawArgs) (expected : List Corner) (drawn : List Drawn) : Prop where
  sound : ∀ x ∈ drawn, Sound d a x
  same : p.pipeline = some true → corners drawn = expected
  none : p.pipeline ≠ some true → drawn = []

/-- A draw that stops has reported an error, and has drawn some of its first triangles. -/
def Stopped (d : Device) (p : Stage) (a : DrawArgs) (strip : Bool) (e : Stop) (drawn : List Drawn) : Prop :=
  e.Reported ∧ ∃ expected, expected <+: reference d a strip ∧ At d p a expected drawn

theorem drawVertices_draws {call : DrawCall} (few : call.order.length ≤ 4095) (first : call.firstInstance = a.firstInstance)
    (before : expected <+: reference d a strip) : Triple (At d p a expected) (drawVertices d p submits call)
      (fun _ => At d p a (expected ++ call.corners)) (Stopped d p a strip) := by
  refine (Triple.require (Q := fun _ drawn => At d p a expected drawn ∧ u64 (call.order.length * call.instances.toNat) ≤ 4095)
    (fun drawn at_ yes => ⟨at_, yes.2⟩) fun drawn at_ _ => ⟨.inl rfl, expected, before, at_⟩).bind fun _ => ?_
  rcases pipeline : p.pipeline with _ | _ | _
  · exact Triple.stop fun drawn at_ => ⟨.inr (.inr rfl), expected, before, at_.1⟩
  · refine Triple.pure fun drawn at_ => ⟨at_.1.sound, fun go => ?_, at_.1.none⟩
    rw [pipeline] at go
    cases go
  refine (Triple.require (Q := fun _ drawn => At d p a expected drawn ∧ u64 (call.order.length * call.instances.toNat) ≤ 4095)
    (fun drawn at_ _ => at_) fun drawn at_ _ => ⟨.inr (.inr rfl), expected, before, at_.1⟩).bind fun _ => ?_
  refine ((Triple.ofOutcome (gatherVertices_gathers d call)).mono (fun _ => id) (fun _ _ => id) fun e drawn both =>
    ⟨both.1.1, expected, before, both.2.1⟩).bind fun gathered => ?_
  refine Triple.get_bind fun drawn at_ => ?_
  refine (Triple.require (Q := fun _ => (· = drawn)) (fun _ same _ => same) fun _ same _ =>
    ⟨.inr (.inr rfl), expected, before, same ▸ at_.2.1⟩).bind fun _ => Triple.modify fun _ same => ?_
  obtain ⟨exact_, at_, room⟩ := at_
  have product : call.order.length * call.instances.toNat ≤ 4095 * 2 ^ 32 := Nat.mul_le_mul few call.instances.isLt.le
  rw [u64_of_lt (by omega)] at room
  rw [same]
  refine ⟨fun x mem => ?_, fun go => ?_, fun no => absurd pipeline no⟩
  · rcases List.mem_append.mp mem with mem | mem
    · exact at_.sound x mem
    · rw [List.mem_singleton.mp mem]
      exact ⟨room, exact_, first⟩
  · rw [corners, List.flatMap_append, List.flatMap_singleton, ← at_.same go]
    rfl

/-- The copies of an order. -/
theorem copies_add (d : Device) (a : DrawArgs) (strip : Bool) (n k : ℕ) : copies d a strip (n + k) =
    copies d a strip n ++ (List.range k).flatMap fun i => (assembled d a strip).map (cornerOf a (n + i)) := by
  rw [copies, List.range_add, List.flatMap_append, List.flatMap_map]
  rfl

theorem copies_before (d : Device) (a : DrawArgs) (strip : Bool) {n : ℕ} (h : n ≤ a.instances.toNat) :
    copies d a strip n <+: reference d a strip := by
  rw [reference, ← Nat.add_sub_cancel' h, copies_add]
  exact List.prefix_append _ _

/-- Batches of instances draw all instances. -/
theorem drawBatches_draws (same : order = (assembled d a strip).map (vertexOf a)) (some_ : order ≠ []) (few : order.length ≤ 4095) :
    ∀ fuel instance_, instance_ ≤ a.instances.toNat → a.instances.toNat ≤ instance_ + fuel →
      Triple (At d p a (copies d a strip instance_)) (drawBatches d p submits a order fuel instance_)
        (fun _ => At d p a (reference d a strip)) (Stopped d p a strip) := by
  intro fuel
  induction fuel with
  | zero =>
    intro instance_ le enough
    have all : instance_ = a.instances.toNat := by omega
    subst all
    rw [drawBatches, if_neg (Nat.lt_irrefl _)]
    exact Triple.pure fun _ at_ => at_
  | succ fuel ih =>
    intro instance_ le enough
    refine Triple.ite (fun more => ?_) fun done => ?_
    · have pos : 0 < order.length := List.length_pos_of_ne_nil some_
      have per : 0 < 4095 / order.length := Nat.div_pos few pos
      have small := a.instances.isLt
      have batch : min (4095 / order.length) (a.instances.toNat - instance_) ≤ a.instances.toNat - instance_ := min_le_right _ _
      have progress : 0 < min (4095 / order.length) (a.instances.toNat - instance_) := lt_min per (by omega)
      generalize min (4095 / order.length) (a.instances.toNat - instance_) = n at batch progress
      refine ((drawVertices_draws few rfl (copies_before d a strip le)).mono (fun _ => id) (fun _ drawn at_ => ?_) fun _ _ => id).bind
        fun _ => ih (instance_ + n) (by omega) (by omega)
      rw [copies_add]
      rw [DrawCall.corners_eq] at at_
      dsimp only at at_
      rw [BitVec.toNat_ofNat, BitVec.toNat_ofNat, Nat.mod_eq_of_lt (by omega), Nat.mod_eq_of_lt (by omega), same] at at_
      have each : (fun i => ((assembled d a strip).map (vertexOf a)).map fun v => (⟨v, v - vertexIdBias a, instance_ + i⟩ : Corner)) =
          fun i => (assembled d a strip).map (cornerOf a (instance_ + i)) := by
        funext i
        rw [List.map_map]
        exact List.map_congr_left fun raw _ => (cornerOf_eq a (instance_ + i) raw).symm
      rw [each] at at_
      exact at_
    · have all : instance_ = a.instances.toNat := by omega
      subst all
      exact Triple.pure fun _ at_ => at_

/-- What an instance has drawn when the first indices are dealt with. -/
def partly (d : Device) (a : DrawArgs) (strip : Bool) (copy cursor : ℕ) : List Corner :=
  copies d a strip copy ++ (written (drawStep d a strip) [] ((indexStream d a).take (usedOf strip cursor))).map (cornerOf a copy)

theorem usedOf_mono (strip : Bool) {m n : ℕ} (h : m ≤ n) : usedOf strip m ≤ usedOf strip n := by
  rw [usedOf, usedOf]
  split <;> omega

theorem partly_all (d : Device) (a : DrawArgs) (strip : Bool) (copy : ℕ) : partly d a strip copy a.count.toNat = copies d a strip (copy + 1) := by
  rw [partly, written_drawStep, copies_add]
  simp

theorem partly_none (d : Device) (a : DrawArgs) (strip : Bool) (copy : ℕ) : partly d a strip copy 0 = copies d a strip copy := by
  have none : usedOf strip 0 = 0 := Nat.le_zero.mp (usedOf_le strip 0)
  rw [partly, none, List.take_zero]
  exact List.append_nil _

theorem partly_before {copy cursor : ℕ} (one : copy < a.instances.toNat) (le : cursor ≤ a.count.toNat) :
    partly d a strip copy cursor <+: reference d a strip := by
  refine List.IsPrefix.trans ?_ (copies_before d a strip one)
  rw [← partly_all, partly, partly, List.prefix_append_right_inj]
  have part : (indexStream d a).take (usedOf strip cursor) = ((indexStream d a).take (usedOf strip a.count.toNat)).take (usedOf strip cursor) := by
    rw [List.take_take, min_eq_left (usedOf_mono strip le)]
  rw [part]
  exact (written_take _ _ _ _).map _

/-- What a draw has read when it is done: all indices were inside, and no vertex wrapped around. -/
structure Checked (d : Device) (a : DrawArgs) (strip : Bool) : Prop where
  inside : Inside d a (a.first.toNat + a.count.toNat)
  fits : ∀ raw ∈ assembled d a strip, Fits a raw

/-- Blocks of indices draw an instance. -/
theorem drawBlocks_draws {copy block : ℕ} (one : copy < a.instances.toNat) (range_ : a.first.toNat + a.count.toNat ≤ 2 ^ 32)
    (pos : 0 < block) (aligned : strip = true ∨ block % 3 = 0) (some_ : 0 < a.count.toNat) :
    ∀ fuel cursor state, cursor ≤ a.count.toNat → a.count.toNat ≤ cursor + fuel →
      (strip = true ∨ cursor % 3 = 0 ∨ cursor = a.count.toNat) →
      Carries a state (carried (drawStep d a strip) [] ((indexStream d a).take (usedOf strip cursor))) →
      (∀ raw ∈ written (drawStep d a strip) [] ((indexStream d a).take (usedOf strip cursor)), Fits a raw) →
      (0 < cursor → Inside d a (a.first.toNat + cursor)) →
      Triple (At d p a (partly d a strip copy cursor)) (drawBlocks d p submits a strip block copy fuel cursor state)
        (fun _ drawn => At d p a (copies d a strip (copy + 1)) drawn ∧ Checked d a strip) (Stopped d p a strip) := by
  intro fuel
  have done (cursor : ℕ) (all : cursor = a.count.toNat)
      (fits : ∀ raw ∈ written (drawStep d a strip) [] ((indexStream d a).take (usedOf strip cursor)), Fits a raw)
      (inside : 0 < cursor → Inside d a (a.first.toNat + cursor)) :
      Triple (At d p a (partly d a strip copy cursor)) (Pure.pure () : Drawing Unit)
        (fun _ drawn => At d p a (copies d a strip (copy + 1)) drawn ∧ Checked d a strip) (Stopped d p a strip) := by
    subst all
    rw [written_drawStep] at fits
    rw [partly_all]
    exact Triple.pure fun _ at_ => ⟨at_, inside some_, fits⟩
  induction fuel with
  | zero =>
    intro cursor state le enough _ _ fits inside
    rw [drawBlocks, if_neg (by omega)]
    exact done cursor (by omega) fits inside
  | succ fuel ih =>
    intro cursor state le enough start carries fits inside
    refine Triple.ite (fun more => ?_) fun over_ => done cursor (by omega) fits inside
    have taken : min block (a.count.toNat - cursor) ≤ a.count.toNat - cursor := min_le_right _ _
    have progress : 0 < min block (a.count.toNat - cursor) := lt_min pos (by omega)
    have ends : min block (a.count.toNat - cursor) = block ∨ cursor + min block (a.count.toNat - cursor) = a.count.toNat := by omega
    generalize min block (a.count.toNat - cursor) = take at taken progress ends
    have small := a.count.isLt
    have place : (a.first + BitVec.ofNat 32 cursor).toNat = a.first.toNat + cursor := by
      rw [BitVec.toNat_add, BitVec.toNat_ofNat, Nat.mod_eq_of_lt (by omega), Nat.mod_eq_of_lt (by omega)]
    have used : usedOf strip cursor = cursor ∧ usedOf strip (cursor + take) = cursor + usedOf strip take := by
      simp only [usedOf]
      split
      · exact ⟨rfl, rfl⟩
      · rename_i list
        have third := (start.resolve_left list).resolve_right (by omega)
        omega
    have split_ : (indexStream d a).take (usedOf strip (cursor + take)) =
        (indexStream d a).take (usedOf strip cursor) ++ ((indexStream d a).drop cursor).take (usedOf strip take) := by
      rw [used.2, used.1, List.take_add]
    have next : strip = true ∨ (cursor + take) % 3 = 0 ∨ cursor + take = a.count.toNat := by
      rcases ends with whole | last
      · rcases aligned with isStrip | third
        · exact .inl isStrip
        · rcases start with isStrip | fine | all
          · exact .inl isStrip
          · exact .inr (.inl (by omega))
          · omega
      · exact .inr (.inr last)
    refine ((Triple.ofOutcome (vertexOrder_exact d a strip cursor take (by omega) place carries)).mono (fun _ => id) (fun _ _ => id) fun e drawn both =>
      ⟨both.1, _, partly_before one le, both.2⟩).bind fun r => ?_
    obtain ⟨order, state⟩ := r
    refine Triple.assume fun ordered => ?_
    have longer : partly d a strip copy (cursor + take) = partly d a strip copy cursor ++
        (written (drawStep d a strip) (carried (drawStep d a strip) [] ((indexStream d a).take (usedOf strip cursor)))
          (((indexStream d a).drop cursor).take (usedOf strip take))).map (cornerOf a copy) := by
      rw [partly, split_, written_append, List.map_append, ← List.append_assoc]
      rfl
    refine Triple.bind (Q := fun _ drawn => At d p a (partly d a strip copy (cursor + take)) drawn) ?_ fun _ =>
      ih (cursor + take) state (by omega) (by omega) next ?_ (fun raw mem => ?_) fun _ => (Nat.add_assoc _ _ _ ▸ ordered.inside :)
    · refine Triple.when (fun _ => ?_) fun drawn at_ none => ?_
      · refine (drawVertices_draws ordered.length rfl (partly_before one le)).mono (fun _ => id) (fun _ drawn at_ => ?_) fun _ _ => id
        rw [longer]
        have batch := a.instances.isLt
        rw [DrawCall.corners_eq] at at_
        dsimp only at at_
        rw [show (1 : BitVec 32).toNat = 1 from rfl, show List.range 1 = [0] from rfl, List.flatMap_singleton, BitVec.toNat_ofNat,
          Nat.mod_eq_of_lt (by omega), Nat.add_zero, show order = _ from ordered.order, List.map_map] at at_
        rw [List.map_congr_left fun raw _ => cornerOf_eq a copy raw]
        exact at_
      · have nothing := ordered.order.symm.trans (not_not.mp none)
        rw [longer, List.map_eq_nil_iff.mp nothing, List.map_nil, List.append_nil]
        exact at_
    · rw [split_, carried_append]
      exact ordered.carries
    · rw [split_, written_append] at mem
      exact (List.mem_append.mp mem).elim (fits raw) (ordered.fits raw)

/-- What a draw has done when it returns. -/
structure Completed (d : Device) (a : DrawArgs) (strip : Bool) (drawn : List Drawn) : Prop where
  checked : Checked d a strip
  same : corners drawn = reference d a strip

/-- Nothing is drawn: too few vertices, no instances, an empty viewport, or a pipeline that masks everything. -/
def Skips (p : Stage) (a : DrawArgs) : Prop := a.count.toNat < 3 ∨ a.instances = 0 ∨ p.emptyViewport = true ∨ p.pipeline ≠ some true

theorem At.done {drawn : List Drawn} (at_ : At d p a (reference d a strip) drawn) (checked : Checked d a strip) :
    (∀ x ∈ drawn, Sound d a x) ∧ (Skips p a ∧ drawn = [] ∨ Completed d a strip drawn) := by
  refine ⟨at_.sound, ?_⟩
  by_cases go : p.pipeline = some true
  · exact .inr ⟨checked, at_.same go⟩
  · exact .inl ⟨.inr (.inr (.inr go)), at_.none go⟩

theorem Stopped.drew {e : Stop} {drawn : List Drawn} (stopped : Stopped d p a strip e drawn) :
    e.Reported ∧ (∀ x ∈ drawn, Sound d a x) ∧ corners drawn <+: reference d a strip := by
  obtain ⟨reported, expected, before, at_⟩ := stopped
  refine ⟨reported, at_.sound, ?_⟩
  by_cases go : p.pipeline = some true
  · rw [at_.same go]
    exact before
  · rw [at_.none go]
    exact List.nil_prefix

theorem At.start (d : Device) (p : Stage) (a : DrawArgs) : At d p a [] [] := ⟨fun _ no => absurd no List.not_mem_nil, fun _ => rfl, fun _ => rfl⟩

/-- **A draw of any size draws its triangles**: all of them, in their order and with their winding, each corner with the
vertex, the number and the instance it has in the whole draw, in commands that have room for their vertices and hold
what the vertex shader expects. A draw that fails has reported an error and drawn some of its first triangles. -/
theorem drawBody_faithful (d : Device) (p : Stage) (submits : Submission) (a : DrawArgs) :
    Triple (· = []) (drawBody d p submits a)
      (fun _ drawn => (∀ x ∈ drawn, Sound d a x) ∧ (Skips p a ∧ drawn = [] ∨ Completed d a (p.topology = .triangleStrip) drawn))
      fun e drawn => e.Reported ∧ (∀ x ∈ drawn, Sound d a x) ∧ corners drawn <+: reference d a (p.topology = .triangleStrip) := by
  obtain ⟨strip, isStrip⟩ : ∃ strip : Bool, strip = decide (p.topology = .triangleStrip) := ⟨_, rfl⟩
  rw [drawBody, ← isStrip]
  refine Triple.mono (P := (· = [])) (Q := fun _ drawn => (∀ x ∈ drawn, Sound d a x) ∧ (Skips p a ∧ drawn = [] ∨ Completed d a strip drawn))
    (E := Stopped d p a strip) ?_ (fun _ => id) (fun _ _ => id) fun _ _ => Stopped.drew
  have fails (e : Stop) (reported : e.Reported) (drawn : List Drawn) (none : drawn = []) : Stopped d p a strip e drawn :=
    ⟨reported, [], List.nil_prefix, none ▸ At.start d p a⟩
  refine (Triple.require (Q := fun _ => (· = [])) (fun _ none _ => none) fun drawn none _ => fails _ (.inr (.inl rfl)) drawn none).bind fun _ => ?_
  refine Triple.ite (fun skips => Triple.pure fun drawn none => ⟨fun _ no => absurd (none ▸ no) List.not_mem_nil, .inl ⟨?_, none⟩⟩) fun some_ => ?_
  · rcases skips with few | none | empty
    · exact .inl few
    · exact .inr (.inl none)
    · exact .inr (.inr (.inl empty))
  have many : 3 ≤ a.count.toNat := Nat.le_of_not_lt fun few => some_ (.inl few)
  have instances : 0 < a.instances.toNat := Nat.pos_of_ne_zero fun none => some_ (.inr (.inl (BitVec.eq_of_toNat_eq none)))
  refine Triple.bind (Q := fun _ drawn => a.first.toNat + a.count.toNat ≤ 2 ^ 32 ∧ drawn = [])
    (Triple.require (fun _ none inside => ⟨inside, none⟩) fun drawn none _ => fails _ (.inl rfl) drawn none) fun _ => Triple.assume fun range_ => ?_
  have start := Carries.start a
  refine Triple.ite (fun _ => ?_) fun _ => ?_
  · refine ((Triple.ofOutcome (vertexOrder_exact d a strip 0 a.count.toNat (by omega) rfl start)).mono (fun _ => id) (fun _ _ => id)
      fun e drawn both => fails e both.1 drawn both.2).bind fun r => Triple.assume fun ordered => ?_
    obtain ⟨order, state⟩ := r
    have all := written_drawStep d a strip
    have same : order = (assembled d a strip).map (vertexOf a) := by
      rw [← all]
      exact ordered.order
    have checked : Checked d a strip := ⟨ordered.inside, all ▸ ordered.fits⟩
    refine Triple.ite (fun empty => ?_) fun nonempty => ?_
    · refine Triple.pure fun drawn none => ⟨fun _ no => absurd (none ▸ no) List.not_mem_nil, .inr ⟨checked, ?_⟩⟩
      have nothing : assembled d a strip = [] := List.map_eq_nil_iff.mp (same.symm.trans empty)
      rw [none, reference, copies, nothing]
      simp [corners]
    · refine (drawBatches_draws same nonempty ordered.length a.instances.toNat 0 (Nat.zero_le _) (by omega)).mono
        (fun drawn none => none ▸ At.start d p a) (fun _ drawn at_ => at_.done checked) fun _ _ => id
  · refine (Triple.forUpTo (I := fun copy drawn => At d p a (copies d a strip copy) drawn ∧ (0 < copy → Checked d a strip)) (fun copy one _ => ?_)
      ()).mono (fun drawn none => ⟨none ▸ At.start d p a, fun no => absurd no (Nat.lt_irrefl 0)⟩) (fun _ drawn both => both.1.done (both.2 instances))
      fun _ _ => id
    have block : 0 < (if p.topology = .triangleStrip then 1365 else 4095) := by split <;> decide
    have aligned : strip = true ∨ (if p.topology = .triangleStrip then 1365 else 4095) % 3 = 0 := .inr (by split <;> rfl)
    refine (drawBlocks_draws one range_ block aligned (by omega) a.count.toNat 0 _ (Nat.zero_le _) (by omega) (.inr (.inl rfl)) ?_
      (fun raw no => ?_) fun no => absurd no (Nat.lt_irrefl 0)).mono (fun drawn both => partly_none d a strip copy ▸ both.1)
      (fun _ drawn both => ⟨both.1, fun _ => both.2⟩) fun _ _ => id
    · rw [show usedOf strip 0 = 0 from Nat.le_zero.mp (usedOf_le strip 0)]
      exact start
    · rw [show usedOf strip 0 = 0 from Nat.le_zero.mp (usedOf_le strip 0)] at no
      exact absurd no List.not_mem_nil

end Draws

end Pi5Drivers.Draw
