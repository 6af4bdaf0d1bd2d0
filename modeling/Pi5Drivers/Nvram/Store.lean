import Mathlib.Data.List.DropRight
import Pi5Drivers.Lib.Packing

/-! The files in which the firmware keeps its variables: how a store is made from a firmware
image, and how one that exists is validated before it is kept. -/

namespace Pi5Drivers.Nvram

abbrev Bytes := List (BitVec 8)

def headerSize : ℕ := 4096
def payloadSize : ℕ := 0x20000
def storeSize : ℕ := headerSize + payloadSize
def firmwareSize : ℕ := 0x1f0000

/-- What is refused. -/
inductive Refusal
  /-- Paths must be relative to the boot volume, without traversal. -/
  | path
  /-- Paths must be shorter than 128 ASCII bytes. -/
  | pathLength
  /-- Unexpected firmware/variable-volume layout. -/
  | layout
  /-- Expected a relative .fd path shorter than 128 ASCII bytes. -/
  | extension
  /-- Invalid firmware variable-volume header. -/
  | volume
  /-- Existing NVRAM file has the wrong size. -/
  | size
  /-- Existing NVRAM file is invalid or belongs to a different layout/path. -/
  | store
  /-- Existing NVRAM files have different store identities. -/
  | identity
deriving DecidableEq, Repr

def ensure (c : Prop) [Decidable c] (e : Refusal) : Except Refusal Unit := if c then .ok () else .error e

def ascii (s : List Char) : Bytes := s.map fun c => BitVec.ofNat 8 c.toNat

/-- The remainder of the polynomial division, the lowest bit first. -/
def crcBit (crc : BitVec 32) : BitVec 32 := if crc.getLsbD 0 then (crc >>> 1) ^^^ 0xEDB88320 else crc >>> 1

def crcByte (crc : BitVec 32) (b : BitVec 8) : BitVec 32 := crcBit^[8] (crc ^^^ b.setWidth 32)

def crc32 (data : Bytes) : BitVec 32 := ~~~data.foldl crcByte (BitVec.allOnes 32)

/-! ### Paths -/

/-- The parts between the slashes of a path; a prefix may end in slashes. -/
def pathParts (path : List Char) (isPrefix : Bool) : List (List Char) :=
  if isPrefix = true ∧ path.getLast? = some '/' then (path.rdropWhile (· = '/')).splitOn '/' else path.splitOn '/'

def Forbidden (c : Char) : Prop := c.toNat < 32 ∨ 126 < c.toNat ∨ c ∈ [':', '*', '?', '"', '<', '>', '|']

instance (c : Char) : Decidable (Forbidden c) := inferInstanceAs (Decidable (_ ∨ _))

def doubleSlash : List Char → Bool
  | '/' :: '/' :: _ => true
  | _ :: l => doubleSlash l
  | [] => false

/-- A part that is empty, or that goes nowhere or up. -/
def traverses (part : List Char) : Bool := part = [] || part = ['.'] || part = ['.', '.']

def relativePath (name : List Char) (isPrefix : Bool) : Except Refusal Bytes := do
  let path := name.map fun c => if c = '\\' then '/' else c
  ensure (¬((¬(isPrefix = true ∧ path = []) ∧ (pathParts path isPrefix).any traverses = true) ∨
    name.any (fun c => Forbidden c) = true ∨ doubleSlash path = true)) .path
  ensure (path.length < 128) .pathLength
  pure (ascii path)

/-- Lower case, letter by letter. -/
def lower (b : BitVec 8) : BitVec 8 := if 65 ≤ b.toNat ∧ b.toNat ≤ 90 then b + 32 else b

/-- The path names a file that ends in `.fd`. -/
def NamesFd (path : Bytes) : Prop :=
  ascii ['.', 'f', 'd'] <:+ path.map lower ∧ 4 ≤ ((path.splitOn 0x2f).getLastD []).length

instance (path : Bytes) : Decidable (NamesFd path) := inferInstanceAs (Decidable (_ ∧ _))

/-! ### Stores -/

def magic : Bytes := ascii ['R', 'P', 'I', 'N', 'V', '0', '0', '1']

/-- The file system of a firmware volume. -/
def volumeGuid : Bytes :=
  [0x8d, 0x2b, 0xf1, 0xff, 0x96, 0x76, 0x8b, 0x4c, 0xa9, 0x85, 0x27, 0x47, 0x07, 0x5b, 0x4f, 0x50]

/-- The header of the variable volume: its length, its format, the length of the header, and its checksum. -/
def ValidVolume (payload : Bytes) : Prop :=
  fromLe (slice payload 32 40) = payloadSize ∧ slice payload 16 32 = volumeGuid ∧ slice payload 48 50 = [0x48, 0] ∧
    ((cut (List.replicate 36 2) payload).map fromLe).sum % 65536 = 0

instance (payload : Bytes) : Decidable (ValidVolume payload) := inferInstanceAs (Decidable (_ ∧ _))

/-- The sizes of the fields at the start of a store. -/
def fieldSizes : List ℕ := [8, 4, 4, 4, 4, 8, 16, 4, 4, 4, 4]

/-- The last `n` bytes. -/
def lastBytes (l : Bytes) (n : ℕ) : Bytes := l.drop (l.length - n)

def make (fd : Bytes) (name : List Char) (store : Bytes) (pre : List Char) : Except Refusal Bytes := do
  ensure (fd.length = firmwareSize ∧ slice fd 0x1d0028 0x1d002c = ascii ['_', 'F', 'V', 'H']) .layout
  let path ← relativePath name false
  let nvramPrefix ← relativePath pre true
  ensure (NamesFd path) .extension
  let payload := lastBytes fd payloadSize
  ensure (ValidVolume payload) .volume
  let fields := [magic, le 4 1, le 4 headerSize, le 4 payloadSize, le 4 (if nvramPrefix = [] then 0 else 1), le 8 1, store,
    le 4 (crc32 payload).toNat, le 4 0, le 4 fd.length, le 4 (fd.length - payloadSize)]
  let header := patch (List.replicate headerSize 0) 0 fields.flatten
  let header := patch header 64 path
  let header := patch header 192 nvramPrefix
  pure (patch header 52 (le 4 (crc32 header).toNat) ++ payload)

/-- The only path of a store, and of the firmware in it. -/
def efiPath : List Char := ['R', 'P', 'I', '_', 'E', 'F', 'I', '.', 'f', 'd']

/-- The fields of a store are those of a firmware of this length. -/
def ValidFields (data : Bytes) (length : ℕ) : List Bytes → Prop
  | [magic', version, hs, ds, flags, seq, sid, dc, hc, fs, off] =>
    magic' = magic ∧ fromLe version = 1 ∧ fromLe hs = headerSize ∧ fromLe ds = payloadSize ∧ fromLe flags = 0 ∧
      (0 < fromLe seq ∧ fromLe seq < 2 ^ 64 - 1) ∧ sid.any (· ≠ 0) = true ∧
      (crc32 (patch (data.take headerSize) 52 (List.replicate 4 0))).toNat = fromLe hc ∧
      (crc32 (data.drop headerSize)).toNat = fromLe dc ∧ fromLe fs = length ∧ (fromLe off : ℤ) = length - payloadSize ∧
      slice data 64 192 = ascii efiPath ++ List.replicate 118 0 ∧
      (slice data 192 headerSize).any (· ≠ 0) = false
  | _ => False

instance (data : Bytes) (length : ℕ) (fields : List Bytes) : Decidable (ValidFields data length fields) := by
  unfold ValidFields
  split <;> infer_instance

def storeId (data : Bytes) : Bytes := slice data 32 48

def validateStore (data firmware : Bytes) : Except Refusal Bytes := do
  ensure (data.length = storeSize) .size
  ensure (ValidFields data firmware.length (cut fieldSizes data)) .store
  -- The saved payload is checked as a volume too, in place of the new defaults.
  let _ ← make (firmware.take (firmware.length - payloadSize) ++ data.drop headerSize) efiPath (storeId data) []
  pure (storeId data)

/-- A pair of stores that exists is kept if both are of one identity. -/
def keepPair (first second firmware : Bytes) : Except Refusal Bytes := do
  let a ← validateStore first firmware
  let b ← validateStore second firmware
  ensure (a = b) .identity
  pure a

end Pi5Drivers.Nvram
