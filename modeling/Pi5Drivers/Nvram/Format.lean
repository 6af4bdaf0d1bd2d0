import Pi5Drivers.Nvram.Store

/-! The one format of a store. What is made and what is accepted are both described byte by
byte by the same image of a sequence number, an identifier and a payload. -/

namespace Pi5Drivers.Nvram

/-! ### The image of a store -/

/-- The fields up to the checksum of the header. -/
def front (flags seq : ℕ) (id payload : Bytes) : Bytes :=
  [magic, le 4 1, le 4 headerSize, le 4 payloadSize, le 4 flags, le 8 seq, id, le 4 (crc32 payload).toNat].flatten

/-- The fields after it, and the two paths. -/
def back (length : ℕ) (path pre : Bytes) : Bytes :=
  [le 4 length, le 4 (length - payloadSize)].flatten ++ (path ++ List.replicate (128 - path.length) 0) ++
    (pre ++ List.replicate (headerSize - 192 - pre.length) 0)

/-- The checksum of a header is that of the header without it. -/
def headerCrc (front back : Bytes) : Bytes := le 4 (crc32 (front ++ List.replicate 4 0 ++ back)).toNat

def image (flags seq : ℕ) (id payload : Bytes) (length : ℕ) (path pre : Bytes) : Bytes :=
  front flags seq id payload ++ headerCrc (front flags seq id payload) (back length path pre) ++ back length path pre ++ payload

section Image

variable {flags seq length : ℕ} {id payload path pre data fd firmware : Bytes}

theorem length_front (flags seq : ℕ) (payload : Bytes) (h : id.length = 16) : (front flags seq id payload).length = 52 := by
  have : magic.length = 8 := rfl
  simp [front, h, this]

theorem length_back (length : ℕ) (hp : path.length < 128) (hn : pre.length < 128) : (back length path pre).length = 4040 := by
  simp only [back, List.flatten_cons, List.flatten_nil, List.append_nil, List.length_append, length_le, List.length_replicate, headerSize]
  omega

@[simp] theorem length_headerCrc (f b : Bytes) : (headerCrc f b).length = 4 := length_le

/-- The steps in which the header is written. -/
theorem header_eq (fields : List Bytes) (hf : fields.flatten.length = 64) (hp : path.length < 128) (hn : pre.length < 128) :
    patch (patch (patch (List.replicate headerSize 0) 0 fields.flatten) 64 path) 192 pre =
      fields.flatten ++ (path ++ List.replicate (128 - path.length) 0) ++ (pre ++ List.replicate (headerSize - 192 - pre.length) 0) := by
  have first : patch (List.replicate headerSize 0) 0 fields.flatten = fields.flatten ++ List.replicate 4032 (0 : BitVec 8) := by
    have := patch_blank (a := []) (p := fields.flatten) (x := (0 : BitVec 8)) (m := headerSize) rfl (by rw [hf]; decide)
    rwa [List.nil_append, List.nil_append, hf] at this
  have second : patch (fields.flatten ++ List.replicate 4032 (0 : BitVec 8)) 64 path =
      fields.flatten ++ (path ++ List.replicate (128 - path.length) 0) ++ List.replicate 3904 0 := by
    have split : 4032 - path.length = (128 - path.length) + 3904 := by omega
    rw [patch_blank hf (by omega), split, ← List.replicate_append_replicate]
    simp only [List.append_assoc]
  rw [first, second, patch_blank _ (by omega)]
  · exact List.append_assoc ..
  · simp only [List.length_append, List.length_replicate, hf]
    omega

/-- A header with its checksum, made from one with zeros in its place. -/
theorem stamp_eq (flags seq : ℕ) (payload : Bytes) (hi : id.length = 16) (b p : Bytes) (h4 : p.length = 4) :
    patch (front flags seq id payload ++ List.replicate 4 0 ++ b) 52 p = front flags seq id payload ++ p ++ b :=
  patch_append (length_front flags seq payload hi) (by simpa)

end Image

/-! ### What is made -/

section Made

variable {fd firmware data store : Bytes} {name pre : List Char} {e : Refusal} {α : Type}

theorem ensure_ok {c : Prop} [Decidable c] {f : Unit → Except Refusal α} {a : α} :
    (ensure c e >>= f) = .ok a ↔ c ∧ f () = .ok a := by
  unfold ensure
  split
  · exact (and_iff_right ‹_›).symm
  · exact iff_of_false nofun fun h => absurd h.1 ‹_›

theorem bind_ok {β : Type} {x : Except Refusal β} {f : β → Except Refusal α} {a : α} :
    (x >>= f) = .ok a ↔ ∃ b, x = .ok b ∧ f b = .ok a := by
  cases x with
  | error e => exact iff_of_false nofun fun ⟨_, no, _⟩ => nomatch no
  | ok b => exact ⟨fun h => ⟨b, rfl, h⟩, fun ⟨_, same, h⟩ => Except.ok.inj same ▸ h⟩

/-- A firmware image that stores can be made of. -/
def ValidFirmware (fd : Bytes) : Prop :=
  (fd.length = firmwareSize ∧ slice fd 0x1d0028 0x1d002c = ascii ['_', 'F', 'V', 'H']) ∧ ValidVolume (lastBytes fd payloadSize)

def flagsOf (nvramPrefix : Bytes) : ℕ := if nvramPrefix = [] then 0 else 1

theorem relativePath_length {isPrefix : Bool} {path : Bytes} (h : relativePath name isPrefix = .ok path) : path.length < 128 := by
  obtain ⟨-, h⟩ := ensure_ok.mp h
  obtain ⟨short, h⟩ := ensure_ok.mp h
  cases h
  simpa [ascii] using short

/-- The header before its checksum. -/
theorem blank_eq (hs : store.length = 16) {path nvramPrefix : Bytes} (hp : path.length < 128) (hn : nvramPrefix.length < 128)
    (flags length : ℕ) (payload : Bytes) :
    patch (patch (patch (List.replicate headerSize 0) 0 [magic, le 4 1, le 4 headerSize, le 4 payloadSize, le 4 flags, le 8 1, store,
      le 4 (crc32 payload).toNat, le 4 0, le 4 length, le 4 (length - payloadSize)].flatten) 64 path) 192 nvramPrefix =
      front flags 1 store payload ++ List.replicate 4 0 ++ back length path nvramPrefix := by
  have zeros : le 4 0 = List.replicate 4 0 := rfl
  have size : magic.length = 8 := rfl
  rw [header_eq _ (by simp [hs, size]) hp hn]
  simp only [front, back, zeros, List.flatten_cons, List.flatten_nil, List.append_nil, List.append_assoc]

/-- What is made, and of what. -/
theorem make_ok (hs : store.length = 16) : make fd name store pre = .ok data ↔
    ∃ path nvramPrefix, relativePath name false = .ok path ∧ relativePath pre true = .ok nvramPrefix ∧ NamesFd path ∧
      ValidFirmware fd ∧ data = image (flagsOf nvramPrefix) 1 store (lastBytes fd payloadSize) fd.length path nvramPrefix := by
  have made {path nvramPrefix : Bytes} (hp : relativePath name false = .ok path) (hn : relativePath pre true = .ok nvramPrefix) :=
    blank_eq hs (relativePath_length hp) (relativePath_length hn) (flagsOf nvramPrefix) fd.length (lastBytes fd payloadSize)
  have stamped (path nvramPrefix : Bytes) (crc : BitVec 32) :=
    stamp_eq (flagsOf nvramPrefix) 1 (lastBytes fd payloadSize) hs (back fd.length path nvramPrefix)
      (le 4 crc.toNat) length_le
  constructor
  · intro h
    obtain ⟨layout, h⟩ := ensure_ok.mp h
    obtain ⟨path, hp, h⟩ := bind_ok.mp h
    obtain ⟨nvramPrefix, hn, h⟩ := bind_ok.mp h
    obtain ⟨names, h⟩ := ensure_ok.mp h
    obtain ⟨volume, h⟩ := ensure_ok.mp h
    refine ⟨path, nvramPrefix, hp, hn, names, ⟨layout, volume⟩, (Except.ok.inj h).symm.trans ?_⟩
    exact congrArg (· ++ lastBytes fd payloadSize) (made hp hn ▸ stamped path nvramPrefix _)
  · rintro ⟨path, nvramPrefix, hp, hn, names, ⟨layout, volume⟩, rfl⟩
    refine ensure_ok.mpr ⟨layout, bind_ok.mpr ⟨path, hp, bind_ok.mpr ⟨nvramPrefix, hn, ensure_ok.mpr ⟨names, ensure_ok.mpr ⟨volume, ?_⟩⟩⟩⟩⟩
    refine congrArg Except.ok ?_
    exact congrArg (· ++ lastBytes fd payloadSize) (made hp hn ▸ stamped path nvramPrefix _)

end Made

/-! ### What is accepted -/

section Accepted

variable {seq length : ℕ} {id payload data firmware : Bytes}

theorem relativePath_efi : relativePath efiPath false = .ok (ascii efiPath) := by decide +kernel

theorem relativePath_none : relativePath [] true = .ok [] := by decide +kernel

theorem namesFd_efi : NamesFd (ascii efiPath) := by decide +kernel

/-- The image of a store of the firmware. -/
abbrev efiImage (seq : ℕ) (id payload : Bytes) (length : ℕ) : Bytes := image 0 seq id payload length (ascii efiPath) []

/-- The fields of an image, and its areas. -/
theorem image_fields (flags seq : ℕ) (id payload : Bytes) (length : ℕ) (path pre : Bytes) : image flags seq id payload length path pre =
    [magic, le 4 1, le 4 headerSize, le 4 payloadSize, le 4 flags, le 8 seq, id, le 4 (crc32 payload).toNat,
      headerCrc (front flags seq id payload) (back length path pre), le 4 length, le 4 (length - payloadSize)].flatten ++
      ((path ++ List.replicate (128 - path.length) 0) ++ ((pre ++ List.replicate (headerSize - 192 - pre.length) 0) ++ payload)) := by
  simp only [image, front, back, List.flatten_cons, List.flatten_nil, List.append_nil, List.append_assoc]

theorem efiImage_fields (seq : ℕ) (id payload : Bytes) (length : ℕ) : efiImage seq id payload length =
    [magic, le 4 1, le 4 headerSize, le 4 payloadSize, le 4 0, le 8 seq, id, le 4 (crc32 payload).toNat,
      headerCrc (front 0 seq id payload) (back length (ascii efiPath) []), le 4 length, le 4 (length - payloadSize)].flatten ++
      ((ascii efiPath ++ List.replicate 118 0) ++ (List.replicate 3904 0 ++ payload)) :=
  image_fields 0 seq id payload length (ascii efiPath) []

/-- A valid store is an image, byte by byte. -/
theorem image_of_fields (size : data.length = storeSize) (large : payloadSize ≤ length)
    (valid : ValidFields data length (cut fieldSizes data)) :
    ∃ seq, (0 < seq ∧ seq < 2 ^ 64 - 1) ∧ (∃ b ∈ storeId data, b ≠ 0) ∧
      data = efiImage seq (storeId data) (data.drop headerSize) length := by
  obtain ⟨m, version, hs, ds, flags, seq, sid, dc, hc, fs, off, fields⟩ :
      ∃ m version hs ds flags seq sid dc hc fs off, cut fieldSizes data = [m, version, hs, ds, flags, seq, sid, dc, hc, fs, off] :=
    ⟨_, _, _, _, _, _, _, _, _, _, _, rfl⟩
  have sizes : (cut fieldSizes data).map List.length = fieldSizes := length_cut (by rw [size]; decide)
  have whole := flatten_cut fieldSizes data
  have paths : slice data 64 192 ++ data.drop 192 = data.drop 64 := slice_append_drop (by decide)
  have blank : slice data 192 headerSize ++ data.drop headerSize = data.drop 192 := slice_append_drop (by decide)
  have blankSize : (slice data 192 headerSize).length = 3904 := length_slice (by rw [size]; decide)
  rw [fields] at sizes whole valid
  simp only [fieldSizes, List.map_cons, List.map_nil, List.cons.injEq, and_true] at sizes
  obtain ⟨-, l1, l2, l3, l4, l5, l6, l7, l8, l9, l10⟩ := sizes
  obtain ⟨rfl, v1, v2, v3, v4, range, nonzero, hcrc, dcrc, v9, v10, path, zeros⟩ := valid
  obtain rfl := eq_le_of_fromLe l1 v1
  obtain rfl := eq_le_of_fromLe l2 v2
  obtain rfl := eq_le_of_fromLe l3 v3
  obtain rfl := eq_le_of_fromLe l4 v4
  obtain rfl := eq_le_of_fromLe l7 dcrc.symm
  obtain rfl := eq_le_of_fromLe l9 v9
  obtain rfl := eq_le_of_fromLe (v := length - payloadSize) l10 (by omega)
  have pad : slice data 192 headerSize = List.replicate 3904 0 := by
    refine List.eq_replicate_iff.mpr ⟨blankSize, fun b mem => ?_⟩
    simpa using List.any_eq_false.mp zeros b mem
  have drop64 : data.drop 64 = (ascii efiPath ++ List.replicate 118 0) ++ (List.replicate 3904 0 ++ data.drop headerSize) := by
    rw [← paths, ← blank, path, pad]
  have number : le 8 (fromLe seq) = seq := (eq_le_of_fromLe l5 rfl).symm
  have split : data = front 0 (fromLe seq) sid (data.drop headerSize) ++ hc ++ back length (ascii efiPath) [] ++ data.drop headerSize := by
    conv_lhs => rw [← whole, show fieldSizes.sum = 64 from rfl, drop64]
    simp only [front, back, number, List.flatten_cons, List.flatten_nil, List.append_nil, List.append_assoc, List.nil_append]
    rfl
  have front52 := length_front 0 (fromLe seq) (data.drop headerSize) l6
  have back4040 := length_back length (by decide : (ascii efiPath).length < 128) (by decide : ([] : Bytes).length < 128)
  have header : data.take headerSize = front 0 (fromLe seq) sid (data.drop headerSize) ++ hc ++ back length (ascii efiPath) [] := by
    conv_lhs => rw [split]
    refine List.take_left' ?_
    rw [List.length_append, List.length_append, front52, l8, back4040]
    rfl
  have crc : hc = headerCrc (front 0 (fromLe seq) sid (data.drop headerSize)) (back length (ascii efiPath) []) := by
    rw [header, patch_append front52 (by rw [l8, List.length_replicate])] at hcrc
    exact eq_le_of_fromLe l8 hcrc.symm
  have named : storeId data = sid := by
    have place : data = ([magic, le 4 1, le 4 headerSize, le 4 payloadSize, le 4 0, seq].flatten ++ sid) ++
        ([le 4 (crc32 (data.drop headerSize)).toNat, hc, le 4 length, le 4 (length - payloadSize)].flatten ++ data.drop 64) := by
      conv_lhs => rw [← whole]
      simp only [List.flatten_cons, List.flatten_nil, List.append_nil, List.append_assoc]
      rfl
    have first : [magic, le 4 1, le 4 headerSize, le 4 payloadSize, le 4 0, seq].flatten.length = 32 := by
      have : magic.length = 8 := rfl
      simp [this, l5]
    have cutOut := slice_append (b := sid) (c := [le 4 (crc32 (data.drop headerSize)).toNat, hc, le 4 length,
      le 4 (length - payloadSize)].flatten ++ data.drop 64) first
    rwa [← place, l6] at cutOut
  have nonzero : ∃ b ∈ sid, b ≠ 0 := by simpa using nonzero
  refine ⟨fromLe seq, range, named.symm ▸ nonzero, ?_⟩
  conv_lhs => rw [split, crc]
  rw [named]
  rfl

/-- The two areas behind the fields. -/
theorem slice_areas {a b c d : Bytes} (ha : a.length = 64) (hb : b.length = 128) (hc : c.length = 3904) :
    slice (a ++ (b ++ (c ++ d))) 64 192 = b ∧ slice (a ++ (b ++ (c ++ d))) 192 headerSize = c := by
  have path := slice_append (b := b) (c := c ++ d) ha
  have blank := slice_append (a := a ++ b) (b := c) (c := d) (n := 192) (by rw [List.length_append, ha, hb])
  rw [hb, List.append_assoc] at path
  rw [hc, List.append_assoc, List.append_assoc] at blank
  exact ⟨path, blank⟩

theorem length_efiArea : (ascii efiPath ++ List.replicate 118 (0 : BitVec 8)).length = 128 := by
  rw [List.length_append, List.length_replicate]
  rfl

/-- Every image with a sequence number in range is a valid store. -/
theorem fields_of_image (hi : id.length = 16) (hp : payload.length = payloadSize) (range : 0 < seq ∧ seq < 2 ^ 64 - 1)
    (nonzero : ∃ b ∈ id, b ≠ 0) (large : payloadSize ≤ length) (small : length < 2 ^ 32) (h : data = efiImage seq id payload length) :
    data.length = storeSize ∧ data.drop headerSize = payload ∧ storeId data = id ∧ ValidFields data length (cut fieldSizes data) := by
  have front52 := length_front 0 seq payload hi
  have back4040 := length_back length (by decide : (ascii efiPath).length < 128) (by decide : ([] : Bytes).length < 128)
  have sized : magic.length = 8 := rfl
  have headed : (front 0 seq id payload ++ headerCrc (front 0 seq id payload) (back length (ascii efiPath) []) ++
      back length (ascii efiPath) []).length = headerSize := by
    rw [List.length_append, List.length_append, front52, length_headerCrc, back4040]
    rfl
  have header : data.take headerSize = front 0 seq id payload ++
      headerCrc (front 0 seq id payload) (back length (ascii efiPath) []) ++ back length (ascii efiPath) [] := by
    rw [h]
    exact List.take_left' headed
  have rest : data.drop headerSize = payload := by
    rw [h]
    exact List.drop_left' headed
  have size : data.length = storeSize := by
    rw [h, efiImage, image, List.length_append, headed, hp]
    rfl
  have fields := cut_flatten [magic, le 4 1, le 4 headerSize, le 4 payloadSize, le 4 0, le 8 seq, id, le 4 (crc32 payload).toNat,
    headerCrc (front 0 seq id payload) (back length (ascii efiPath) []), le 4 length, le 4 (length - payloadSize)]
    ((ascii efiPath ++ List.replicate 118 0) ++ (List.replicate 3904 0 ++ payload))
  have whole := h.trans (efiImage_fields seq id payload length)
  rw [← whole] at fields
  simp only [List.map_cons, List.map_nil, sized, length_le, hi, length_headerCrc] at fields
  have word (v : BitVec 32) : fromLe (le 4 v.toNat) = v.toNat := fromLe_le_of_lt v.isLt
  have named : storeId data = id := by
    have place : data = ([magic, le 4 1, le 4 headerSize, le 4 payloadSize, le 4 0, le 8 seq].flatten ++ id) ++
        ([le 4 (crc32 payload).toNat, headerCrc (front 0 seq id payload) (back length (ascii efiPath) []), le 4 length,
          le 4 (length - payloadSize)].flatten ++ ((ascii efiPath ++ List.replicate 118 0) ++ (List.replicate 3904 0 ++ payload))) := by
      rw [whole]
      simp only [List.flatten_cons, List.flatten_nil, List.append_nil, List.append_assoc]
    rw [place]
    refine (congrArg (slice _ 32) ?_).trans (slice_append (n := 32) (by simp [sized]))
    rw [hi]
  have paths := slice_areas (d := payload) (a := [magic, le 4 1, le 4 headerSize, le 4 payloadSize, le 4 0, le 8 seq, id,
    le 4 (crc32 payload).toNat, headerCrc (front 0 seq id payload) (back length (ascii efiPath) []), le 4 length,
    le 4 (length - payloadSize)].flatten) (by simp [sized, hi]) length_efiArea (List.length_replicate (a := (0 : BitVec 8)))
  rw [← whole] at paths
  refine ⟨size, rest, named, ?_⟩
  rw [show fieldSizes = [8, 4, 4, 4, 4, 8, 16, 4, 4, 4, 4] from rfl, fields]
  refine ⟨rfl, rfl, rfl, rfl, rfl, ?_, by simpa using nonzero, ?_, ?_, ?_, ?_, paths.1, ?_⟩
  · rw [fromLe_le_of_lt (by omega)]
    exact range
  · rw [header, patch_append front52 (by rw [length_headerCrc, List.length_replicate])]
    exact (word _).symm
  · rw [rest]
    exact (word _).symm
  · exact fromLe_le_of_lt small
  · rw [fromLe_le_of_lt (by omega)]
    omega
  · rw [paths.2]
    exact List.any_eq_false.mpr fun b mem => by simp [List.eq_of_mem_replicate mem]

end Accepted

/-! ### Both sides of the format -/

section Both

variable {seq length : ℕ} {id payload data fd firmware built : Bytes}

/-- The sequence number and the checksum of the header taken from another store. -/
def restamp (built data : Bytes) : Bytes := patch (patch built 24 (slice data 24 32)) 52 (slice data 52 56)

theorem restamp_image (seq length : ℕ) (payload : Bytes) (hi : id.length = 16) :
    restamp (efiImage 1 id payload length) (efiImage seq id payload length) = efiImage seq id payload length := by
  have sized : magic.length = 8 := rfl
  have parts (seq : ℕ) : front 0 seq id payload =
      [magic, le 4 1, le 4 headerSize, le 4 payloadSize, le 4 0].flatten ++ le 8 seq ++ (id ++ le 4 (crc32 payload).toNat) := by
    simp only [front, List.flatten_cons, List.flatten_nil, List.append_nil, List.append_assoc]
  have first : [magic, le 4 1, le 4 headerSize, le 4 payloadSize, le 4 0].flatten.length = 24 := by simp [sized]
  generalize [magic, le 4 1, le 4 headerSize, le 4 payloadSize, le 4 0].flatten = start at parts first
  have front52 (seq : ℕ) := length_front 0 seq payload hi
  have number : slice (efiImage seq id payload length) 24 32 = le 8 seq := by
    have := slice_append (b := le 8 seq) (c := id ++ le 4 (crc32 payload).toNat ++
      (headerCrc (front 0 seq id payload) (back length (ascii efiPath) []) ++ back length (ascii efiPath) [] ++ payload)) first
    rw [length_le] at this
    simpa only [efiImage, image, parts, List.append_assoc] using this
  have crc : slice (efiImage seq id payload length) 52 56 = headerCrc (front 0 seq id payload) (back length (ascii efiPath) []) := by
    have := slice_append (b := headerCrc (front 0 seq id payload) (back length (ascii efiPath) []))
      (c := back length (ascii efiPath) [] ++ payload) (front52 seq)
    rw [length_headerCrc] at this
    simpa only [efiImage, image, List.append_assoc] using this
  have renumbered : patch (efiImage 1 id payload length) 24 (le 8 seq) = front 0 seq id payload ++
      headerCrc (front 0 1 id payload) (back length (ascii efiPath) []) ++ (back length (ascii efiPath) [] ++ payload) := by
    have := patch_append (a := start) (b := le 8 1) (p := le 8 seq) (c := id ++ le 4 (crc32 payload).toNat ++
      (headerCrc (front 0 1 id payload) (back length (ascii efiPath) []) ++ back length (ascii efiPath) [] ++ payload)) first
      (length_le.trans length_le.symm)
    simpa only [efiImage, image, parts, List.append_assoc] using this
  rw [restamp, number, crc, renumbered, patch_append (front52 seq) (by rw [length_headerCrc, length_headerCrc])]
  simp only [efiImage, image, List.append_assoc]

theorem lastBytes_replaced (hp : payload.length = payloadSize) :
    lastBytes (firmware.take (firmware.length - payloadSize) ++ payload) payloadSize = payload := by
  unfold lastBytes
  refine List.drop_left' ?_
  rw [List.length_append, hp, List.length_take]
  omega

theorem lastBytes_restored (large : payloadSize ≤ fd.length) :
    fd.take (fd.length - payloadSize) ++ lastBytes fd payloadSize = fd ∧ (lastBytes fd payloadSize).length = payloadSize := by
  refine ⟨List.take_append_drop _ _, ?_⟩
  rw [lastBytes, List.length_drop]
  omega

/-- What validation asks of a store. -/
theorem validateStore_ok : validateStore data firmware = .ok id ↔
    data.length = storeSize ∧ ValidFields data firmware.length (cut fieldSizes data) ∧
      (∃ built, make (firmware.take (firmware.length - payloadSize) ++ data.drop headerSize) efiPath (storeId data) [] = .ok built) ∧
      storeId data = id := by
  rw [validateStore, ensure_ok, ensure_ok, bind_ok]
  refine and_congr_right fun _ => and_congr_right fun _ => ?_
  exact ⟨fun ⟨built, made, same⟩ => ⟨⟨built, made⟩, Except.ok.inj same⟩, fun ⟨⟨built, made⟩, same⟩ => ⟨built, made, same ▸ rfl⟩⟩

/-- What is made for the path of the firmware. -/
theorem make_efi (hi : id.length = 16) : make fd efiPath id [] = .ok built ↔
    ValidFirmware fd ∧ built = efiImage 1 id (lastBytes fd payloadSize) fd.length := by
  rw [make_ok hi]
  constructor
  · rintro ⟨path, nvramPrefix, hp, hn, -, valid, rfl⟩
    cases relativePath_efi.symm.trans hp
    cases relativePath_none.symm.trans hn
    exact ⟨valid, rfl⟩
  · rintro ⟨valid, rfl⟩
    exact ⟨_, _, relativePath_efi, relativePath_none, namesFd_efi, valid, rfl⟩

/-- What is accepted is what was made for the same identifier and payload, but for its sequence number and the
checksum over it. -/
theorem validateStore_restamp (h : validateStore data firmware = .ok id) : ∃ built seq,
    make (firmware.take (firmware.length - payloadSize) ++ data.drop headerSize) efiPath id [] = .ok built ∧
      data = restamp built data ∧ data = efiImage seq id (data.drop headerSize) firmware.length ∧
        0 < seq ∧ seq < 2 ^ 64 - 1 ∧ id.length = 16 ∧ ∃ b ∈ id, b ≠ 0 := by
  obtain ⟨size, valid, ⟨built, made⟩, rfl⟩ := validateStore_ok.mp h
  have hi : (storeId data).length = 16 := length_slice (by rw [size]; decide)
  have payload : (data.drop headerSize).length = payloadSize := by
    rw [List.length_drop, size]
    rfl
  obtain ⟨⟨⟨length, -⟩, -⟩, rfl⟩ := (make_efi hi).mp made
  rw [lastBytes_replaced payload] at made
  have large : firmware.length = firmwareSize := by
    rw [List.length_append, List.length_take, payload] at length
    unfold firmwareSize payloadSize at *
    omega
  have same : (firmware.take (firmware.length - payloadSize) ++ data.drop headerSize).length = firmware.length := by
    rw [length, large]
  rw [same] at made
  obtain ⟨seq, range, nonzero, image⟩ := image_of_fields size (by rw [large]; decide) valid
  refine ⟨_, seq, made, ?_, image, range.1, range.2, hi, nonzero⟩
  have := restamp_image seq firmware.length (data.drop headerSize) hi
  rw [← image] at this
  exact this.symm

/-- A path that is not empty space. -/
theorem relativePath_nonzero {name : List Char} {isPrefix : Bool} {path : Bytes} (h : relativePath name isPrefix = .ok path) :
    ∀ b ∈ path, b ≠ 0 := by
  obtain ⟨relative, h⟩ := ensure_ok.mp h
  obtain ⟨-, h⟩ := ensure_ok.mp h
  cases h
  intro b mem zero
  obtain ⟨c, hc, rfl⟩ := List.mem_map.mp mem
  obtain ⟨c', hc', rfl⟩ := List.mem_map.mp hc
  have allowed : ¬Forbidden c' := fun no => relative (.inr (.inl (List.any_eq_true.mpr ⟨c', hc', decide_eq_true no⟩)))
  have range : 32 ≤ c'.toNat ∧ c'.toNat ≤ 126 := by
    simp only [Forbidden, not_or] at allowed
    omega
  have value := congrArg BitVec.toNat zero
  rw [BitVec.toNat_ofNat] at value
  split at value
  · exact absurd value (by decide)
  · change c'.toNat % 256 = 0 at value
    omega

theorem eq_of_padded {a b : Bytes} {m n : ℕ} (ha : ∀ x ∈ a, x ≠ 0) (hb : ∀ x ∈ b, x ≠ 0)
    (h : a ++ List.replicate m 0 = b ++ List.replicate n 0) : a = b := by
  have kept {l : Bytes} (hl : ∀ x ∈ l, x ≠ 0) (k : ℕ) : (l ++ List.replicate k 0).filter (· ≠ 0) = l := by
    rw [List.filter_append, List.filter_eq_self.mpr (by simpa using hl)]
    simp
  rw [← kept ha m, h, kept hb n]

/-- Of all that is made, only stores for the path of the firmware and without a prefix are accepted. -/
theorem validateStore_only {name pre : List Char} {id' : Bytes} (hi : id.length = 16) (made : make fd name id pre = .ok built)
    (valid : validateStore built firmware = .ok id') :
    relativePath name false = .ok (ascii efiPath) ∧ relativePath pre true = .ok [] := by
  obtain ⟨path, nvramPrefix, hp, hn, -, -, image⟩ := (make_ok hi).mp made
  obtain ⟨-, fields, -, -⟩ := validateStore_ok.mp valid
  have sized : magic.length = 8 := rfl
  have whole := image.trans (image_fields (flagsOf nvramPrefix) 1 id (lastBytes fd payloadSize) fd.length path nvramPrefix)
  have shortPath := relativePath_length hp
  have shortPrefix := relativePath_length hn
  have cuts := cut_flatten [magic, le 4 1, le 4 headerSize, le 4 payloadSize, le 4 (flagsOf nvramPrefix), le 8 1, id,
    le 4 (crc32 (lastBytes fd payloadSize)).toNat,
    headerCrc (front (flagsOf nvramPrefix) 1 id (lastBytes fd payloadSize)) (back fd.length path nvramPrefix), le 4 fd.length,
    le 4 (fd.length - payloadSize)] ((path ++ List.replicate (128 - path.length) 0) ++
    ((nvramPrefix ++ List.replicate (headerSize - 192 - nvramPrefix.length) 0) ++ lastBytes fd payloadSize))
  rw [← whole] at cuts
  simp only [List.map_cons, List.map_nil, sized, length_le, hi, length_headerCrc] at cuts
  rw [show fieldSizes = [8, 4, 4, 4, 4, 8, 16, 4, 4, 4, 4] from rfl, cuts] at fields
  obtain ⟨-, -, -, -, flags, -, -, -, -, -, -, area, -⟩ := fields
  have areas := slice_areas (a := [magic, le 4 1, le 4 headerSize, le 4 payloadSize, le 4 (flagsOf nvramPrefix), le 8 1, id,
    le 4 (crc32 (lastBytes fd payloadSize)).toNat,
    headerCrc (front (flagsOf nvramPrefix) 1 id (lastBytes fd payloadSize)) (back fd.length path nvramPrefix), le 4 fd.length,
    le 4 (fd.length - payloadSize)].flatten) (b := path ++ List.replicate (128 - path.length) 0)
    (c := nvramPrefix ++ List.replicate (headerSize - 192 - nvramPrefix.length) 0) (d := lastBytes fd payloadSize) (by simp [sized, hi])
    (by rw [List.length_append, List.length_replicate]; omega)
    (by rw [List.length_append, List.length_replicate]; unfold headerSize; omega)
  rw [← whole] at areas
  have samePath : path = ascii efiPath :=
    eq_of_padded (relativePath_nonzero hp) (relativePath_nonzero relativePath_efi) (areas.1.symm.trans area)
  have empty : nvramPrefix = [] := by
    by_contra some
    have one : flagsOf nvramPrefix = 1 := if_neg some
    rw [one] at flags
    exact absurd flags (by decide)
  exact ⟨samePath ▸ hp, empty ▸ hn⟩

/-- A store that was made is accepted, and names its identifier. -/
theorem validateStore_made (hi : id.length = 16) (nonzero : ∃ b ∈ id, b ≠ 0) (made : make fd efiPath id [] = .ok built) :
    validateStore built fd = .ok id := by
  obtain ⟨valid, image⟩ := (make_efi hi).mp made
  have length : fd.length = firmwareSize := valid.1.1
  obtain ⟨whole, payload⟩ := lastBytes_restored (show payloadSize ≤ fd.length by rw [length]; decide)
  obtain ⟨size, rest, named, fields⟩ := fields_of_image hi payload ⟨by decide, by decide⟩ nonzero (by rw [length]; decide)
    (by rw [length]; decide) image
  refine validateStore_ok.mpr ⟨size, fields, ⟨built, ?_⟩, named⟩
  rw [rest, whole, named]
  exact made

end Both

/-- Where the maker and the validator of stores agree, for a firmware image. -/
structure Agreement (firmware : Bytes) : Prop where
  /-- Every store that is made is accepted for its identifier. -/
  made : ∀ id store, id.length = 16 → (∃ b ∈ id, b ≠ 0) → make firmware efiPath id [] = .ok store →
    validateStore store firmware = .ok id
  /-- No other store that is made is accepted. -/
  only : ∀ name pre id id' store, id.length = 16 → make firmware name id pre = .ok store → validateStore store firmware = .ok id' →
    relativePath name false = .ok (ascii efiPath) ∧ relativePath pre true = .ok []
  /-- Everything that is accepted was made for its identifier and payload, but for the sequence number and the checksum. -/
  accepted : ∀ data id, validateStore data firmware = .ok id → ∃ store,
    make (firmware.take (firmware.length - payloadSize) ++ data.drop headerSize) efiPath id [] = .ok store ∧ data = restamp store data
  /-- Two stores that are kept are of one identifier, and so is each of them. -/
  kept : ∀ first second id, keepPair first second firmware = .ok id → ∀ data ∈ [first, second], ∃ store,
    make (firmware.take (firmware.length - payloadSize) ++ data.drop headerSize) efiPath id [] = .ok store ∧ data = restamp store data

theorem stores_agree (firmware : Bytes) : Agreement firmware := by
  have accepted : ∀ data id, validateStore data firmware = .ok id → ∃ store,
      make (firmware.take (firmware.length - payloadSize) ++ data.drop headerSize) efiPath id [] = .ok store ∧ data = restamp store data :=
    fun data id valid => by
      obtain ⟨store, -, made, same, -⟩ := validateStore_restamp valid
      exact ⟨store, made, same⟩
  refine ⟨fun id store hi nonzero made => validateStore_made hi nonzero made,
    fun _ _ _ _ _ hi made valid => validateStore_only hi made valid, accepted, fun first second id kept data mem => ?_⟩
  obtain ⟨a, va, kept⟩ := bind_ok.mp kept
  obtain ⟨b, vb, kept⟩ := bind_ok.mp kept
  obtain ⟨same, named⟩ := ensure_ok.mp kept
  obtain rfl : a = id := Except.ok.inj named
  rcases List.mem_pair.mp mem with rfl | rfl
  · exact accepted data a va
  · exact accepted data a (same ▸ vb)

end Pi5Drivers.Nvram
