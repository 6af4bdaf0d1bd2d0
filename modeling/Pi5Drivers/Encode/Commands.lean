import Pi5Drivers.Encode.Writer

/-! The command lists of the graphics hardware for a clear, a copy and a batch of draws. There is one color
attachment of 32 bits and no depth, so that a tile has 64 by 64 pixels. -/

namespace Pi5Drivers.Encode

/-! ### Draws -/

structure Box where
  left : BitVec 32
  top : BitVec 32
  right : BitVec 32
  bottom : BitVec 32
deriving DecidableEq, Repr

structure Pipeline where
  flags : BitVec 32
  cullMode : BitVec 32
  colorMask : BitVec 32
  scissor : Box
  blend : Fin 6 → BitVec 32
  reserved : BitVec 32
  constant : Fin 4 → BitVec 16
  coverage : Box

structure Draw where
  width : BitVec 32
  height : BitVec 32
  pitch : BitVec 32
  target : BitVec 32
  tile : BitVec 32
  /-- Nonzero where the target is not a raster. -/
  tiledRows : BitVec 32
  coordinateCode : BitVec 32
  vertexCode : BitVec 32
  pixelCode : BitVec 32
  coordinateUniforms : BitVec 32
  vertexUniforms : BitVec 32
  pixelUniforms : BitVec 32
  vertexAddress : BitVec 32
  vertexStride : BitVec 32
  vertexCount : BitVec 32
  clearColor : BitVec 32
  varyingScalars : BitVec 32
  nonPerspectiveMask : BitVec 32
  flatMask : BitVec 32
  vertexScalars : BitVec 32
  fourThreadMask : BitVec 32
  /-- Floats: the corner and the size. All zero for the whole surface. -/
  viewport : Fin 4 → BitVec 32
  loadTarget : Bool
  bgra : Bool
  pipeline : Pipeline

structure EncodedCommands where
  bytes : BitVec 32
  binStart : BitVec 32
  binEnd : BitVec 32
  renderStart : BitVec 32
  renderEnd : BitVec 32
  tileBytes : BitVec 32
  stateBytes : BitVec 32
  skippedLoads : BitVec 32
deriving DecidableEq, Repr

def EncodedCommands.zero : EncodedCommands := ⟨0, 0, 0, 0, 0, 0, 0, 0⟩

/-- What an encoder returns, and what it made of the buffer. -/
structure Result where
  ok : Bool
  error : Option String
  out : EncodedCommands
  bytes : ℕ → BitVec 8

def Result.fail (message : String) (b : ℕ → BitVec 8) : Result := ⟨false, some message, .zero, b⟩

/-- The rest is checked only where this is as it has to be. -/
def need (good : Bool) (message : String) (rest : Option String) : Option String := if good then rest else some message

def flag (b : Bool) : BitVec 32 := if b then 1 else 0

/-- The smallest part of a float that has a place for every pixel of a surface. -/
def integerFloat (value : BitVec 32) (negative : Bool) : BitVec 32 :=
  let top := value.toNat.log2
  let bits : BitVec 32 :=
    if value = 0 then 0 else BitVec.ofNat 32 (top + 127) <<< 23 ||| ((value <<< (23 - top)) &&& 0x7fffff)
  bits ||| if negative then 0x80000000 else 0

/-! ### Viewports -/

/-- A float that is not negative and at most 4096, with 16 bits behind the point. -/
def viewportFixed (bits : BitVec 32) : Option ℕ :=
  if bits &&& 0x7fffffff = 0 then some 0
  else if 0x45800000 < bits then none
  else
    let exponent := ((bits >>> 23) &&& 255).toNat
    let mantissa := ((bits &&& 0x7fffff) ||| 0x800000).toNat
    some (if 134 ≤ exponent then mantissa <<< (exponent - 134) else if exponent + 32 ≤ 134 then 0 else mantissa >>> (134 - exponent))

structure Fixed where
  x : ℕ
  y : ℕ
  width : ℕ
  height : ℕ

def viewportRect (bits : Fin 4 → BitVec 32) (width height : BitVec 32) : Option Fixed := do
  let x ← viewportFixed (bits 0)
  let y ← viewportFixed (bits 1)
  let w ← viewportFixed (bits 2)
  let h ← viewportFixed (bits 3)
  if w ≠ 0 ∧ h ≠ 0 ∧ x + w ≤ width.toNat * 65536 ∧ y + h ≤ height.toNat * 65536 then some ⟨x, y, w, h⟩ else none

def Draw.viewportSet (d : Draw) : Bool := d.viewport 0 ||| d.viewport 1 ||| d.viewport 2 ||| d.viewport 3 ≠ 0

/-- It was checked before it is used. -/
def Draw.fixed (d : Draw) : Fixed := (viewportRect d.viewport d.width d.height).getD ⟨0, 0, 0, 0⟩

structure Rect where
  left : ℕ
  top : ℕ
  right : ℕ
  bottom : ℕ
deriving DecidableEq, Repr

/-- The pixels whose centres the viewport and the scissor have. -/
def clipRect (d : Draw) : Rect :=
  let r : Rect :=
    if d.viewportSet then
      ⟨(d.fixed.x + 32767) / 65536, (d.fixed.y + 32767) / 65536, (d.fixed.x + d.fixed.width + 32767) / 65536,
        (d.fixed.y + d.fixed.height + 32767) / 65536⟩
    else ⟨0, 0, d.width.toNat, d.height.toNat⟩
  let s := d.pipeline.scissor
  let r : Rect :=
    if d.pipeline.flags &&& 8 ≠ 0 then
      ⟨max r.left s.left.toNat, max r.top s.top.toNat, min r.right s.right.toNat, min r.bottom s.bottom.toNat⟩
    else r
  if r.right ≤ r.left ∨ r.bottom ≤ r.top then { r with right := r.left, bottom := r.top } else r

/-! ### Packets -/

def plain (opcode count : ℕ) : Item := .packet opcode count []

def tileBuffer (d : Draw) (load empty : Bool) : Item :=
  .packet (if load then 30 else 29) 13 <|
    if empty then [⟨8, 4, 8⟩]
    else
      [⟨12, 3, if d.tiledRows ≠ 0 then 4 else 0⟩, ⟨20, 6, 27⟩, ⟨28, 1, flag d.bgra⟩,
        ⟨36, 20, if d.tiledRows ≠ 0 then d.tiledRows else d.pitch⟩, ⟨72, 32, d.target⟩]

/-- The size of the frame. -/
def frame (d : Draw) : Item :=
  .packet 121 9 [⟨16, 16, d.width⟩, ⟨32, 16, d.height⟩, ⟨52, 1, 1⟩, ⟨54, 1, 1⟩, ⟨60, 3, 3⟩, ⟨63, 3, 3⟩]

/-- The attachment, without the color of a clear. -/
def attachment : List Field := [⟨8, 3, 2⟩, ⟨26, 7, 31⟩, ⟨35, 5, 8⟩]

/-- Two tiles that store nothing. -/
def dummyTiles (d : Draw) : List Item :=
  (List.range 2).flatMap fun i =>
    [plain 124 4, plain 26 1, tileBuffer d false true] ++ (if i = 0 then [plain 25 1] else []) ++ [plain 27 1]

def tilesX (d : Draw) : ℕ := (d.width.toNat + 63) / 64

def tilesY (d : Draw) : ℕ := (d.height.toNat + 63) / 64

/-- What is done for each tile, row by row. -/
def eachTile (d : Draw) (f : ℕ → ℕ → List Item) : List Item :=
  (List.range (tilesY d)).flatMap fun y => (List.range (tilesX d)).flatMap fun x => f x y

def coordinates (x y : ℕ) : Item := .packet 124 4 [⟨8, 12, BitVec.ofNat 32 x⟩, ⟨20, 12, BitVec.ofNat 32 y⟩]

/-! ### Clears -/

def clearItems (d : Draw) : List Item :=
  [frame d, .packet 121 9 (attachment ++ [⟨40, 32, d.clearColor⟩]), .packet 121 9 [⟨8, 4, 1⟩]] ++ dummyTiles d ++ [plain 19 1] ++
    eachTile d (fun x y => [coordinates x y, plain 26 1, tileBuffer d false false, plain 25 1, plain 27 1]) ++ [plain 13 1]

def surface (d : Draw) : Bool :=
  d.width ≠ 0 ∧ d.height ≠ 0 ∧ d.width ≤ 4096 ∧ d.height ≤ 4096 ∧ d.width * 4 ≤ d.pitch ∧ d.pitch ≤ 65536 ∧ d.pitch &&& 3 = 0

def layout (d : Draw) : Bool := d.tiledRows = 0 ∨ d.tiledRows = (d.height + 7) / 8 ∧ d.target &&& 4095 = 0

def storage (given : Bool) (capacity : ℕ) : Bool := given ∧ capacity ≠ 0 ∧ capacity ≤ 256 * 1024

def clearFailure (d : Draw) (base : BitVec 32) (given : Bool) (capacity : ℕ) : Option String :=
  need (storage given capacity) "invalid command storage" <|
  need (surface d) "invalid clear surface dimensions" <|
  need (base ≠ 0 ∧ base &&& 4095 = 0 ∧ base ≤ 0xfffc0000 ∧ d.target ≠ 0 ∧ d.target &&& 63 = 0) "invalid clear buffer alignment" <|
  need (layout d) "invalid tiled clear layout" none

/-- `given` says that there is a buffer. -/
def encodeClear (d : Draw) (base : BitVec 32) (given : Bool) (b : ℕ → BitVec 8) (capacity : ℕ) : Result :=
  match clearFailure d base given capacity with
  | some message => .fail message b
  | none =>
    let w := (Writer.new b capacity).items (clearItems d)
    if w.valid then
      ⟨true, none,
        { EncodedCommands.zero with renderStart := base, renderEnd := w.address base, bytes := BitVec.ofNat 32 w.used }, w.bytes⟩
    else .fail "command storage or field overflow" w.bytes

/-! ### Copies -/

/-- What is done for each tile of a copy, as a list of its own. -/
def copyList (source d : Draw) : List Item :=
  [tileBuffer source true false, plain 26 1, tileBuffer d false false, plain 27 1, plain 18 1]

def copyItems (d : Draw) (generic : BitVec 32) : List Item :=
  [frame d, .packet 121 9 attachment, .packet 121 9 [⟨8, 4, 1⟩]] ++ dummyTiles d ++ [plain 19 1] ++
    eachTile d (fun x y => [coordinates x y, .packet 17 5 [⟨8, 32, generic⟩]]) ++ [plain 13 1]

def copySurface (d : Draw) : Bool :=
  d.width * 4 ≤ d.pitch ∧ d.pitch ≤ 65536 ∧ d.pitch &&& 3 = 0 ∧ d.target ≠ 0 ∧ d.target &&& 63 = 0

def copyFailure (source d : Draw) (base : BitVec 32) (given : Bool) (capacity : ℕ) : Option String :=
  need (storage given capacity) "invalid copy command storage" <|
  need (d.width ≠ 0 ∧ d.height ≠ 0 ∧ d.width ≤ 4096 ∧ d.height ≤ 4096 ∧ source.width = d.width ∧ source.height = d.height)
    "invalid copy dimensions" <|
  need (copySurface source ∧ copySurface d) "invalid copy surface" <|
  need (layout source ∧ layout d) "invalid tiled copy layout" <|
  need (base ≠ 0 ∧ base &&& 4095 = 0 ∧ base ≤ 0xfffc0000) "invalid copy command address" none

def encodeCopy (source d : Draw) (base : BitVec 32) (given : Bool) (b : ℕ → BitVec 8) (capacity : ℕ) : Result :=
  match copyFailure source d base given capacity with
  | some message => .fail message b
  | none =>
    let w := Writer.new b capacity
    let generic := w.address base
    let w := (w.items (copyList source d)).align 64
    let renderStart := w.address base
    let w := w.items (copyItems d generic)
    if w.valid then
      ⟨true, none,
        { EncodedCommands.zero with renderStart := renderStart, renderEnd := w.address base, bytes := BitVec.ofNat 32 w.used }, w.bytes⟩
    else .fail "copy command storage overflow" w.bytes

/-! ### Batches -/

def validCoverage (s : Pipeline) (width height : BitVec 32) : Bool :=
  let c := s.coverage
  if s.flags &&& 32 = 0 then c.left = 0 ∧ c.top = 0 ∧ c.right = 0 ∧ c.bottom = 0
  else if s.flags &&& 17 ≠ 0 ∨ s.colorMask ≠ 15 ∨ c.right ≤ c.left ∨ c.bottom ≤ c.top ∨ width < c.right ∨ height < c.bottom then false
  else if s.flags &&& 8 ≠ 0 then
    s.scissor.left ≤ c.left ∧ c.right ≤ s.scissor.right ∧ s.scissor.top ≤ c.top ∧ c.bottom ≤ s.scissor.bottom
  else true

def drawFailure (base : BitVec 32) (first d : Draw) : Option String :=
  let s := d.pipeline
  need (surface d) "invalid render surface dimensions" <|
  need (d.vertexScalars ≠ 0 ∧ d.vertexScalars ≤ 16 ∧ d.vertexCount ≠ 0 ∧ d.vertexCount ≤ 4096 ∧ d.vertexCount % 3 = 0 ∧
    d.vertexScalars * 4 ≤ d.vertexStride ∧ d.vertexStride ≤ 4096 ∧ d.vertexStride &&& 3 = 0) "invalid triangle vertex range" <|
  need (d.varyingScalars ≤ 24 ∧ d.nonPerspectiveMask < 1#32 <<< d.varyingScalars.toNat ∧ d.flatMask < 1#32 <<< d.varyingScalars.toNat ∧
    d.flatMask &&& d.nonPerspectiveMask = 0) "invalid varying count or interpolation mask" <|
  need (!d.viewportSet || (viewportRect d.viewport d.width d.height).isSome) "invalid viewport rectangle" <|
  need (s.flags &&& ~~~63 = 0 ∧ ¬(s.flags &&& 1 ≠ 0 ∧ s.flags &&& 16 ≠ 0) ∧ 1 ≤ s.cullMode ∧ s.cullMode ≤ 3 ∧ s.colorMask ≤ 15 ∧
    s.reserved = 0) "invalid pipeline state" <|
  need (validCoverage s d.width d.height) "invalid opaque coverage rectangle" <|
  need (∀ i : Fin 6, s.blend i ≤ if i.val % 3 = 2 then 4 else 14) "invalid blend factor or operation" <|
  need (∀ i : Fin 4, s.constant i ≤ 0x3c00) "invalid blend constant" <|
  need (s.flags &&& 8 = 0 ∨ s.scissor.left < s.scissor.right ∧ s.scissor.top < s.scissor.bottom ∧ s.scissor.right ≤ d.width ∧
    s.scissor.bottom ≤ d.height) "invalid scissor rectangle" <|
  need (s.flags &&& 8 ≠ 0 ∨ s.scissor = ⟨0, 0, 0, 0⟩) "unexpected scissor rectangle" <|
  need (base ≠ 0 ∧ base &&& 4095 = 0 ∧ base ≤ 0xffff0000 ∧ d.tile ≠ 0 ∧ d.tile &&& 4095 = 0 ∧ d.target ≠ 0 ∧ d.target &&& 63 = 0 ∧
    d.vertexAddress ≠ 0 ∧ d.vertexAddress &&& 3 = 0) "invalid GPU buffer alignment" <|
  need (layout d) "invalid tiled render layout" <|
  need (d.coordinateCode ≠ 0 ∧ d.vertexCode ≠ 0 ∧ d.pixelCode ≠ 0 ∧ (d.coordinateCode ||| d.vertexCode ||| d.pixelCode) &&& 7 = 0 ∧
    d.coordinateUniforms ≠ 0 ∧ d.vertexUniforms ≠ 0 ∧ d.pixelUniforms ≠ 0 ∧
    (d.coordinateUniforms ||| d.vertexUniforms ||| d.pixelUniforms) &&& 3 = 0) "invalid shader addresses" <|
  need (d.width = first.width ∧ d.height = first.height ∧ d.pitch = first.pitch ∧ d.tiledRows = first.tiledRows ∧
    d.target = first.target ∧ d.tile = first.tile ∧ d.bgra = first.bgra ∧ d.loadTarget = first.loadTarget ∧ d.clearColor = first.clearColor)
    "incompatible batch surfaces" none

/-- Tiles are put into groups until there are few enough. A round makes the smaller side of a group larger. -/
def groupTiles (x y : ℕ) : ℕ → ℕ → ℕ → ℕ × ℕ
  | 0, width, height => (width, height)
  | rounds + 1, width, height =>
    let superX := (x + width - 1) / width
    let superY := (y + height - 1) / height
    if 256 ≤ superX ∨ 256 ≤ superY ∨ 256 < superX * superY then
      if width < height then groupTiles x y rounds (width + 1) height else groupTiles x y rounds width (height + 1)
    else (width, height)

/-- How the tiles of a frame are put into groups. -/
structure Grid where
  superWidth : ℕ
  superHeight : ℕ
  superX : ℕ
  superY : ℕ

def grid (d : Draw) : Grid :=
  let (width, height) := groupTiles (tilesX d) (tilesY d) (tilesX d + tilesY d) 1 1
  ⟨width, height, (tilesX d + width - 1) / width, (tilesY d + height - 1) / height⟩

/-- What is done for each tile of a batch. -/
def genericList (d : Draw) (coverage load : Bool) : List Item :=
  [plain 125 1] ++ (if load then [tileBuffer d true false] else []) ++
    [plain 26 1, .packet 56 2 [⟨8, 8, 2⟩], plain 54 5, plain 21 2, tileBuffer d false false] ++
    (if !d.loadTarget || coverage then [plain 25 1] else []) ++ [plain 27 1, plain 18 1]

def attributes (d : Draw) : ℕ := (d.vertexScalars.toNat + 3) / 4

/-- The places of the programs of a draw, and of its vertices. -/
def recordItems (d : Draw) : List Item :=
  let larger (a b : BitVec 32) := if b < a then a else b
  .packet 0 32
    [⟨1, 1, 1⟩, ⟨13, 1, 1⟩, ⟨21, 1, 1⟩, ⟨15, 1, flag (d.varyingScalars ≠ 0)⟩, ⟨24, 8, d.varyingScalars⟩,
      ⟨32, 4, (larger d.vertexScalars 6 + 7) / 8⟩, ⟨48, 4, (larger d.vertexScalars (4 + d.varyingScalars) + 7) / 8⟩,
      ⟨64, 32, d.pixelCode ||| ((d.fourThreadMask >>> 2) &&& 1)⟩, ⟨96, 32, d.pixelUniforms⟩,
      ⟨128, 32, d.vertexCode ||| ((d.fourThreadMask >>> 1) &&& 1)⟩, ⟨160, 32, d.vertexUniforms⟩,
      ⟨192, 32, d.coordinateCode ||| (d.fourThreadMask &&& 1)⟩, ⟨224, 32, d.coordinateUniforms⟩] ::
  (List.range (attributes d)).map fun i =>
    let values := BitVec.ofNat 32 (min (d.vertexScalars.toNat - i * 4) 4)
    .packet 0 16
      [⟨0, 32, d.vertexAddress + BitVec.ofNat 32 (i * 16)⟩, ⟨32, 2, values &&& 3⟩, ⟨34, 3, 6⟩, ⟨39, 1, 1⟩, ⟨40, 4, values⟩,
        ⟨44, 4, values⟩, ⟨64, 32, d.vertexStride⟩, ⟨96, 32, d.vertexCount - 1⟩]

/-- The records, each at an aligned place, and their addresses. -/
def writeRecords (base : BitVec 32) : List Draw → Writer → List (BitVec 32) × Writer
  | [], w => ([], w)
  | d :: l, w =>
    let w := w.align 32
    let record := w.address base
    let (records, w) := writeRecords base l (w.items (recordItems d))
    (record :: records, w)

def binItems (d : Draw) : List Item :=
  [plain 119 2,
    .packet 120 9 [⟨12, 2, 1⟩, ⟨16, 3, 3⟩, ⟨19, 3, 3⟩, ⟨40, 16, d.width - 1⟩, ⟨56, 16, d.height - 1⟩],
    plain 19 1, plain 92 5, plain 6 1]

def blendItems (d : Draw) : List Item :=
  let b := d.pipeline.blend
  if d.pipeline.flags &&& 1 ≠ 0 then
    [.packet 84 5 [⟨8, 4, b 5⟩, ⟨12, 4, b 3⟩, ⟨16, 4, b 4⟩, ⟨20, 4, b 2⟩, ⟨24, 4, b 0⟩, ⟨28, 4, b 1⟩, ⟨32, 8, 1⟩],
      .packet 86 9 ((List.finRange 4).map fun i => ⟨8 + i.val * 16, 16, (d.pipeline.constant i).setWidth 32⟩)]
  else []

def maskItems (opcode : ℕ) (mask : BitVec 32) : List Item :=
  if mask ≠ 0 then [.packet opcode 5 [⟨16, 24, mask⟩, ⟨12, 2, 1⟩, ⟨14, 2, 1⟩]] else []

/-- The state of a draw, and its triangles. -/
def drawItems (d : Draw) (record : BitVec 32) : List Item :=
  let clip := clipRect d
  let s := d.pipeline
  [.packet 107 9 [⟨8, 16, BitVec.ofNat 32 clip.left⟩, ⟨24, 16, BitVec.ofNat 32 clip.top⟩,
      ⟨40, 16, BitVec.ofNat 32 (clip.right - clip.left)⟩, ⟨56, 16, BitVec.ofNat 32 (clip.bottom - clip.top)⟩],
    .packet 108 9
      [⟨8, 22, if d.viewportSet then BitVec.ofNat 32 ((d.fixed.x + d.fixed.width / 2) / 256) else d.width * 128⟩,
        ⟨40, 22, if d.viewportSet then BitVec.ofNat 32 ((d.fixed.y + d.fixed.height / 2) / 256) else d.height * 128⟩],
    .packet 110 9
      (if d.viewportSet then [⟨8, 32, d.viewport 2 + 5#32 <<< 23⟩, ⟨40, 32, (d.viewport 3 + 5#32 <<< 23) ||| 0x80000000⟩]
        else [⟨8, 32, integerFloat (d.width * 32) false⟩, ⟨40, 32, integerFloat (d.height * 32) true⟩]),
    .packet 111 9 [⟨8, 32, integerFloat 1 false⟩, ⟨40, 32, integerFloat 0 false⟩],
    .packet 109 9 [⟨8, 32, integerFloat 0 false⟩, ⟨40, 32, integerFloat 1 false⟩],
    .packet 96 4
      [⟨8, 1, flag (s.cullMode ≠ 2)⟩, ⟨9, 1, flag (s.cullMode ≠ 3)⟩, ⟨10, 1, flag (s.flags &&& 2 ≠ 0)⟩, ⟨20, 3, 7⟩,
        ⟨27, 1, flag (s.flags &&& 1 ≠ 0)⟩, ⟨29, 1, 1⟩, ⟨30, 2, if s.flags &&& 4 ≠ 0 then 2 else 0⟩],
    .packet 87 5 [⟨8, 32, ~~~s.colorMask⟩],
    .packet 83 2 [⟨8, 8, s.flags &&& 1⟩]] ++
  blendItems d ++
  [.packet 91 5 [⟨8, 4, 15⟩, ⟨24, 16, 0x3f80⟩], plain 97 1] ++ maskItems 98 d.flatMask ++
  [plain 99 1] ++ maskItems 100 d.nonPerspectiveMask ++
  [plain 88 1, .packet 71 2 [⟨8, 8, 0x22⟩], .packet 64 5 [⟨8, 32, record ||| BitVec.ofNat 32 (attributes d)⟩],
    .packet 36 10 [⟨8, 8, 4⟩, ⟨16, 32, d.vertexCount⟩]]

/-- A list of its own, from its start to its end. -/
structure SubList where
  start : BitVec 32
  stop : BitVec 32
deriving DecidableEq, Repr

def listItem (l : SubList) : Item := .packet 20 9 [⟨8, 32, l.start⟩, ⟨40, 32, l.stop⟩]

def renderItems (d : Draw) (g : Grid) (generic : SubList) : List Item :=
  [frame d, .packet 121 9 (attachment ++ [⟨40, 32, d.clearColor⟩]), .packet 121 9 [⟨8, 4, 1⟩], .packet 126 2 [⟨10, 1, 1⟩],
    .packet 123 5 [⟨8, 32, d.tile⟩],
    .packet 122 9 [⟨8, 8, BitVec.ofNat 32 (g.superWidth - 1)⟩, ⟨16, 8, BitVec.ofNat 32 (g.superHeight - 1)⟩,
      ⟨24, 8, BitVec.ofNat 32 g.superX⟩, ⟨32, 8, BitVec.ofNat 32 g.superY⟩, ⟨40, 12, BitVec.ofNat 32 (tilesX d)⟩,
      ⟨52, 12, BitVec.ofNat 32 (tilesY d)⟩]] ++
  dummyTiles d ++ [plain 19 1, listItem generic]

/-- The pixels of a group of tiles. -/
def superRect (g : Grid) (x y : ℕ) : Rect :=
  ⟨x * g.superWidth * 64, y * g.superHeight * 64, (x + 1) * g.superWidth * 64, (y + 1) * g.superHeight * 64⟩

def touches (clip r : Rect) : Bool :=
  clip.left < clip.right ∧ clip.top < clip.bottom ∧ r.left < clip.right ∧ clip.left < r.right ∧ r.top < clip.bottom ∧
    clip.top < r.bottom

/-- The part of a group that is in the frame is painted over by the first draw. -/
def skips (d : Draw) (coverage : Bool) (r : Rect) : Bool :=
  let c := d.pipeline.coverage
  coverage ∧ c.left.toNat ≤ r.left ∧ c.top.toNat ≤ r.top ∧ r.right ≤ c.right.toNat ∧ r.bottom ≤ c.bottom.toNat

def inFrame (d : Draw) (r : Rect) : Rect := { r with right := min r.right d.width.toNat, bottom := min r.bottom d.height.toNat }

/-- The groups of tiles that a draw touches, each with the list for it, and how many loads are left out. -/
def superItems (draws : List Draw) (d : Draw) (g : Grid) (coverage : Bool) (generic opaqueSub : SubList) :
    List (ℕ × ℕ) → SubList → List Item × ℕ
  | [], _ => ([], 0)
  | (x, y) :: l, selected =>
    if d.loadTarget && !draws.any fun e => touches (clipRect e) (superRect g x y) then
      superItems draws d g coverage generic opaqueSub l selected
    else
      let r := inFrame d (superRect g x y)
      let skip := skips d coverage r
      let next := if skip then opaqueSub else generic
      let (items, skipped) := superItems draws d g coverage generic opaqueSub l next
      ((if next.start ≠ selected.start then [listItem next] else []) ++
          [.packet 23 3 [⟨8, 8, BitVec.ofNat 32 x⟩, ⟨16, 8, BitVec.ofNat 32 y⟩]] ++ items,
        (if skip then (r.right - r.left + 63) / 64 * ((r.bottom - r.top + 63) / 64) else 0) + skipped)

def places (g : Grid) : List (ℕ × ℕ) := (List.range g.superY).flatMap fun y => (List.range g.superX).map fun x => (x, y)

def batchFailure (draws : List Draw) (base : BitVec 32) (given : Bool) (capacity : ℕ) : Option String :=
  match draws with
  | [] => some "invalid draw batch count"
  | first :: _ =>
    need (draws.length ≤ 32) "invalid draw batch count" <|
    need (storage given capacity) "invalid command storage" <|
    draws.findSome? (drawFailure base first)

def encodeDrawBatch (draws : List Draw) (base : BitVec 32) (given : Bool) (b : ℕ → BitVec 8) (capacity : ℕ) : Result :=
  match draws, batchFailure draws base given capacity with
  | [], _ => .fail "invalid draw batch count" b
  | _, some message => .fail message b
  | d :: _, none =>
    let g := grid d
    let tiles := BitVec.ofNat 32 (tilesX d * tilesY d)
    let coverage : Bool := d.loadTarget ∧ d.pipeline.flags &&& 32 ≠ 0
    let w := Writer.new b capacity
    let start := w.address base
    let w := w.items (genericList d coverage d.loadTarget)
    let generic : SubList := ⟨start, w.address base⟩
    let start := w.address base
    let w := if coverage then w.items (genericList d coverage false) else w
    let opaqueSub : SubList := if coverage then ⟨start, w.address base⟩ else generic
    let (records, w) := writeRecords base draws w
    let w := w.align 64
    let binStart := w.address base
    let w := w.items (binItems d)
    let w := w.items ((draws.zip records).flatMap fun (e, record) => drawItems e record)
    let w := w.items [plain 4 1]
    let binEnd := w.address base
    let w := w.align 64
    let renderStart := w.address base
    let w := w.items (renderItems d g generic)
    let (items, skipped) := superItems draws d g coverage generic opaqueSub (places g) generic
    let w := w.items items
    let w := w.items [plain 13 1]
    if w.valid then
      ⟨true, none,
        { bytes := BitVec.ofNat 32 w.used
          binStart := binStart
          binEnd := binEnd
          renderStart := renderStart
          renderEnd := w.address base
          tileBytes := ((tiles * 64 + 4095) &&& ~~~4095) + 8192 + 1024 * 1024
          stateBytes := (tiles * 256 + 4095) &&& ~~~4095
          skippedLoads := BitVec.ofNat 32 skipped }, w.bytes⟩
    else .fail "command storage or field overflow" w.bytes

/-- A draw is a batch of one. -/
def encodeDraw (d : Draw) (base : BitVec 32) (given : Bool) (b : ℕ → BitVec 8) (capacity : ℕ) : Result :=
  encodeDrawBatch [d] base given b capacity

end Pi5Drivers.Encode
