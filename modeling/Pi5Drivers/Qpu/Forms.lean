import Pi5Drivers.Qpu.Action

/-! The shapes of words that the compiler emits and the checker accepts: one
operation on one ALU, one load, or a flag test with its companion. For each the
lemmas give its fields, whether it is of the packable form, and its action. -/

namespace Pi5Drivers.Qpu

theorem bits_lt (w : Word) (lo n : ℕ) : bits w lo n < 2 ^ n := BitField.field_lt _ _ _

section Forms

variable {op dst a b : ℕ}


/-- An operation of the add ALU alone. -/
def addOnly (signal flags dst op a b : ℕ) : Fields := ⟨14, signal, flags, 1, 0, 6, dst, op, 0, 63, a, b⟩

/-- An operation of the multiply ALU alone. -/
def mulOnly (op signal dst a b : ℕ) : Fields := ⟨op, signal, 0, 0, 1, dst, 6, 187, a, b, 0, 0⟩

/-- A load signal alone. -/
def loadOnly (signal dst : ℕ) : Fields := ⟨14, signal, dst, 1, 1, 6, 6, 187, 0, 63, 0, 0⟩

theorem mulIdle_addOnly (signal flags dst op a b : ℕ) : (addOnly signal flags dst op a b).mulIdle := by
  simp [addOnly, Fields.mulIdle]

theorem not_addIdle_addOnly (signal flags dst op a b : ℕ) :
    ¬(addOnly signal flags dst op a b).addIdle := by
  simp [addOnly, Fields.addIdle]

theorem addIdle_mulOnly (op signal dst a b : ℕ) : (mulOnly op signal dst a b).addIdle := by
  simp [mulOnly, Fields.addIdle]

theorem not_mulIdle_mulOnly (op signal dst a b : ℕ) : ¬(mulOnly op signal dst a b).mulIdle := by
  simp [mulOnly, Fields.mulIdle]

theorem idle_loadOnly (signal dst : ℕ) : (loadOnly signal dst).idle := by
  simp [loadOnly, Fields.idle, Fields.addIdle, Fields.mulIdle]

theorem aluForm_add (signal : ℕ) (hs : signal ∈ [0, 14, 15]) (hd : dst < 32)
    (ho : binary op = true ∨ (op = 249 ∧ b = 3 ∧ signal = 14))
    (ha : a < (if signal = 14 then 48 else 32))
    (hb : (op = 249 ∧ b = 3 ∧ signal = 14) ∨ b < (if signal = 15 then 48 else 32)) :
    (addOnly signal 0 dst op a b).AluForm := by
  have h12 : signal ≠ 12 := by rintro rfl; simp at hs
  have hm := mulIdle_addOnly signal 0 dst op a b
  have hn := not_addIdle_addOnly signal 0 dst op a b
  refine ⟨?_, ⟨fun _ => rfl, ?_⟩, ⟨fun h => absurd h hn, fun _ => ?_⟩, ⟨fun _ => ?_, fun h => absurd hm h⟩,
    .inl hn⟩
  · simp only [addOnly, List.mem_cons, List.not_mem_nil, or_false] at hs ⊢; tauto
  · simp [Fields.loadTargets, addOnly, h12]
  · exact ⟨rfl, hd, ho, ha, hb, by simp [Fields.loadTargets, addOnly, h12]⟩
  · simp only [addOnly, List.mem_cons, List.not_mem_nil, or_false] at hs ⊢; omega

theorem aluForm_mul (signal : ℕ) (hs : signal ∈ [0, 30, 31]) (hd : dst < 32)
    (ha : a < (if signal = 30 then 48 else 32)) (hb : b < (if signal = 31 then 48 else 32)) :
    (mulOnly 21 signal dst a b).AluForm := by
  have h12 : signal ≠ 12 := by rintro rfl; simp at hs
  have hm := addIdle_mulOnly 21 signal dst a b
  have hn := not_mulIdle_mulOnly 21 signal dst a b
  refine ⟨?_, ⟨fun _ => rfl, ?_⟩, ⟨fun _ => ?_, fun h => absurd hm h⟩, ⟨fun h => absurd h hn, fun _ => ?_⟩,
    .inr (.inl hn)⟩
  · simp only [mulOnly, List.mem_cons, List.not_mem_nil, or_false] at hs ⊢; tauto
  · simp [Fields.loadTargets, mulOnly, h12]
  · simp only [mulOnly, List.mem_cons, List.not_mem_nil, or_false] at hs ⊢; omega
  · exact ⟨rfl, rfl, hd, ha, hb, by
      simp only [Fields.addTargets, hm, ↓reduceIte, List.append_nil]
      simp [Fields.loadTargets, mulOnly, h12]⟩

theorem aluForm_loadUniform (hd : dst < 32) : (loadOnly 12 dst).AluForm := by
  obtain ⟨ha, hm⟩ := idle_loadOnly 12 dst
  refine ⟨by simp [loadOnly], ⟨fun h => absurd rfl h, ?_⟩, ⟨fun _ => ?_, fun h => absurd ha h⟩,
    ⟨fun _ => ?_, fun h => absurd hm h⟩, .inr (.inr rfl)⟩
  · simpa [Fields.loadTargets, loadOnly] using hd
  · simp [loadOnly]
  · simp [loadOnly]

theorem sources_add (signal : ℕ) : (addOnly signal 0 dst op a b).sources =
    (if signal = 14 then [] else [a]) ++
      (if signal = 15 ∨ (op = 249 ∧ b = 3 ∧ signal = 14) then [] else [b]) := by
  simp only [Fields.sources, Fields.addSources, Fields.mulSources, not_addIdle_addOnly,
    mulIdle_addOnly, ↓reduceIte, List.append_nil]
  rfl

theorem targets_add {signal : ℕ} (hs : signal ≠ 12) : (addOnly signal 0 dst op a b).targets = [dst] := by
  simp only [Fields.targets, Fields.addTargets, Fields.mulTargets, not_addIdle_addOnly,
    mulIdle_addOnly, ↓reduceIte, List.append_nil]
  simp [Fields.loadTargets, addOnly, hs]

theorem sources_mul (op signal : ℕ) : (mulOnly op signal dst a b).sources =
    (if signal = 30 then [] else [a]) ++ (if signal = 31 then [] else [b]) := by
  simp only [Fields.sources, Fields.addSources, Fields.mulSources, addIdle_mulOnly,
    not_mulIdle_mulOnly, ↓reduceIte, List.nil_append]
  rfl

theorem targets_mul {op signal : ℕ} (hs : signal ≠ 12) : (mulOnly op signal dst a b).targets = [dst] := by
  simp only [Fields.targets, Fields.addTargets, Fields.mulTargets, addIdle_mulOnly,
    not_mulIdle_mulOnly, ↓reduceIte, List.append_nil]
  simp [Fields.loadTargets, mulOnly, hs]

theorem sources_loadUniform : (loadOnly 12 dst).sources = [] := by
  obtain ⟨ha, hm⟩ := idle_loadOnly 12 dst
  simp [Fields.sources, Fields.addSources, Fields.mulSources, ha, hm]

theorem targets_loadUniform : (loadOnly 12 dst).targets = [dst] := by
  obtain ⟨ha, hm⟩ := idle_loadOnly 12 dst
  simp only [Fields.targets, Fields.addTargets, Fields.mulTargets, ha, hm, ↓reduceIte, List.append_nil]
  rfl

theorem action_alu {f : Fields} (h : f.AluForm) : f.action = some
    { reads := f.sources, writes := f.targets
      access := if f.signal = 12 then .uniform f.flags else .none } := by
  have hk := h.kind
  simp only [List.mem_cons, List.not_mem_nil, or_false] at hk
  unfold Fields.action
  rw [if_neg (by omega), if_neg (by omega), if_neg (by omega), if_neg (by omega), if_neg (by omega),
    if_neg (by omega), if_pos h]

/-- Words with a condition, or of an operation not packed, are not of the packable form. -/
theorem not_aluForm_add (h : binary op = false) (h249 : op ≠ 249) :
    ¬(addOnly 0 0 dst op a b).AluForm := by
  intro hf
  obtain ⟨-, -, hop, -⟩ := hf.add.2 (not_addIdle_addOnly _ _ _ _ _ _)
  simp [addOnly, Fields.mov, h, h249] at hop

theorem not_aluForm_flags {f : Fields} (hs : f.signal ≠ 12) (hf : f.flags ≠ 0) : ¬f.AluForm :=
  fun h => hf (h.signal.1 hs)



/-! ### The fields of each shape -/

/-- `base | reg << 46`. -/
theorem fields_withDestination {base : Word} (signal : ℕ) (hb : fields base = loadOnly signal 0)
    (hd : dst < 32) : fields (base ||| BitVec.ofNat 64 dst <<< 46) = loadOnly signal dst := by
  have := fields_or .flags (v := dst) hb rfl (by simp [Slot.width]; omega)
  simpa [Slot.lo, Fields.set, loadOnly] using this

theorem lt_32_of_and_96 : ∀ x < 128, x &&& 96 = 0 → x < 32 := by decide

/-- A word whose destination, removed, leaves a load signal. -/
theorem fields_of_withoutDestination {w base : Word} (signal : ℕ) (hb : fields base = loadOnly signal 0)
    (h : w &&& ~~~(31#64 <<< 46) = base) : fields w = loadOnly signal (bits w 46 5) ∧ bits w 46 5 < 32 := by
  have hlt := bits_lt w 46 5
  refine ⟨?_, by simpa using hlt⟩
  have hf := fields_and_not_destination w
  rw [h, hb] at hf
  have hflags : (fields w).flags = bits w 46 5 := by
    have h96 : (fields w).flags &&& 96 = 0 := by
      have := congrArg Fields.flags hf; simpa [loadOnly] using this.symm
    have hlt' : (fields w).flags < 128 := (fields_bounded w).2.2.1
    have hsmall := lt_32_of_and_96 _ hlt' h96
    have : bits w 46 5 = (fields w).flags % 32 := by
      simp only [bits, BitField.field, fields]
      omega
    omega
  rcases hw : fields w with ⟨opMul, sig, flags, magicMul, magicAdd, dstMul, dstAdd, opAdd, c, d, a, b⟩
  rw [hw] at hf hflags
  simp only [loadOnly, Fields.mk.injEq] at hf hflags ⊢
  omega

section Bounds

variable (ho : op < 256) (hd : dst < 64) (ha : a < 64) (hb : b < 64)
include ho hd ha hb

theorem fields_add_signal {signal : ℕ} (hs : signal < 32) :
    fields (add op dst a b ||| BitVec.ofNat 64 signal <<< 53) = addOnly signal 0 dst op a b := by
  have := fields_or .signal (v := signal) (fields_add false ho hd ha hb) rfl hs
  simpa [Slot.lo, Fields.set, addOnly] using this

theorem fields_add_flag {flag : ℕ} (hf : flag < 128) :
    fields (add op dst a b ||| BitVec.ofNat 64 flag <<< 46) = addOnly 0 flag dst op a b := by
  have := fields_or .flags (v := flag) (fields_add false ho hd ha hb) rfl hf
  simpa [Slot.lo, Fields.set, addOnly] using this

theorem fields_add_plain : fields (add op dst a b) = addOnly 0 0 dst op a b :=
  fields_add false ho hd ha hb

end Bounds

section Bounds

variable (ho : op < 64) (hd : dst < 64) (ha : a < 64) (hb : b < 64)
include ho hd ha hb

theorem fields_mul_signal {signal : ℕ} (hs : signal < 32) :
    fields (mul op dst a b ||| BitVec.ofNat 64 signal <<< 53) = mulOnly op signal dst a b := by
  have := fields_or .signal (v := signal) (fields_mul ho hd ha hb) rfl hs
  simpa [Slot.lo, Fields.set, mulOnly] using this

theorem fields_mul_plain : fields (mul op dst a b) = mulOnly op 0 dst a b := fields_mul ho hd ha hb

end Bounds

theorem fields_copyUnless (hd : dst < 64) (ha : a < 64) :
    fields (copyUnless dst a) = addOnly 0 0x28 dst 182 a a :=
  fields_add_flag (by decide) hd ha ha (by decide)

theorem fields_invertWhere (condition : ℕ) (hc : condition < 128) (hd : dst < 64) :
    fields (invertWhere (BitVec.ofNat 64 condition) dst) = addOnly 0 condition dst 186 dst 0 :=
  fields_add_flag (by decide) hd hd (by decide) hc

theorem fields_storeIndexed (ha : a < 64) (hb : b < 64) :
    fields (storeIndexedWord ||| BitVec.ofNat 64 a <<< 6 ||| BitVec.ofNat 64 b) =
      addOnly 0 0 0 190 a b := by
  have hbase : fields storeIndexedWord = addOnly 0 0 0 190 0 0 := by decide
  have h1 := fields_or .a hbase rfl ha
  have h2 := fields_or .b h1 rfl hb
  simpa [Slot.lo, Fields.set, addOnly] using h2

theorem fields_of_storeOutput {w : Word} (h : w &&& ~~~4095#64 = storeOutputWord) :
    fields w = addOnly 14 0 0 190 (bits w 6 6) (bits w 0 6) := by
  have hbase : fields storeOutputWord = addOnly 14 0 0 190 0 0 := by decide
  have hf := fields_and_not_operands w
  rw [h, hbase] at hf
  have ha : (fields w).a = bits w 6 6 := rfl
  have hb : (fields w).b = bits w 0 6 := rfl
  rcases hw : fields w with ⟨opMul, sig, flags, magicMul, magicAdd, dstMul, dstAdd, opAdd, c, d, x, y⟩
  rw [hw] at hf ha hb
  simp only [addOnly, Fields.mk.injEq] at hf ha hb ⊢
  omega

theorem lt_32_of_and_32 : ∀ x < 64, x &&& 32 = 0 → x < 32 := by decide

theorem lt_16_of_and_48 : ∀ x < 64, x &&& 48 = 0 → x < 16 := by decide

theorem fields_of_loadAttribute {w : Word}
    (h : w &&& ~~~((31#64 <<< 32) ||| (15#64 <<< 6)) = loadAttributeWord) :
    fields w = addOnly 14 0 (bits w 32 5) 188 (bits w 6 4) 0 ∧ bits w 32 5 < 32 ∧ bits w 6 4 < 16 := by
  have hbase : fields loadAttributeWord = addOnly 14 0 0 188 0 0 := by decide
  refine ⟨?_, by simpa using bits_lt w 32 5, by simpa using bits_lt w 6 4⟩
  have hf := fields_and_not_load w
  rw [h, hbase] at hf
  obtain ⟨-, -, -, -, -, -, hdst, -, -, -, ha, -⟩ := fields_bounded w
  have h32 := lt_32_of_and_32 _ hdst (by simpa [addOnly] using (congrArg Fields.dstAdd hf).symm)
  have h16 := lt_16_of_and_48 _ ha (by simpa [addOnly] using (congrArg Fields.a hf).symm)
  have hd' : (fields w).dstAdd = bits w 32 5 := by
    simp only [bits, BitField.field, fields] at h32 ⊢; omega
  have ha' : (fields w).a = bits w 6 4 := by
    simp only [bits, BitField.field, fields] at h16 ⊢; omega
  rcases hw : fields w with ⟨opMul, sig, flags, magicMul, magicAdd, dstMul, dstAdd, opAdd, c, d, x, y⟩
  rw [hw] at hf hd' ha'
  simp only [addOnly, Fields.mk.injEq] at hf hd' ha' ⊢
  omega

/-! ### The actions -/

theorem action_load {signal : ℕ} (access : Access) (late : List ℕ) (hd : dst < 32)
    (h : (signal, access, late) ∈ [(4, .texel, []), (8, .varying, [0]), (16, .target false, []),
      (17, .target true, [])]) :
    (loadOnly signal dst).action = some { writes := [dst], late := late, access := access } := by
  have hi := idle_loadOnly signal dst
  have hflags : (loadOnly signal dst).flags = dst := rfl
  have hload : (loadOnly signal dst).load access late =
      some { writes := [dst], late := late, access := access } := by
    rw [Fields.load, hflags, if_pos ⟨hi, hd⟩]
  simp only [List.mem_cons, Prod.mk.injEq, List.not_mem_nil, or_false] at h
  rcases h with ⟨rfl, rfl, rfl⟩ | ⟨rfl, rfl, rfl⟩ | ⟨rfl, rfl, rfl⟩ | ⟨rfl, rfl, rfl⟩ <;>
    simpa [Fields.action, loadOnly] using hload

theorem action_loadUniform (hd : dst < 32) :
    (loadOnly 12 dst).action = some { writes := [dst], access := .uniform dst } := by
  rw [action_alu (aluForm_loadUniform hd), sources_loadUniform, targets_loadUniform]
  rfl

/-- An add-ALU word outside the packable form, without signal. -/
theorem action_add_single {flags : ℕ} (h : ¬(addOnly 0 flags dst op a b).AluForm) :
    (addOnly 0 flags dst op a b).action =
      if flags = 0 then (addOnly 0 flags dst op a b).single
      else if flags ∈ [1, 2, 3] then (addOnly 0 flags dst op a b).flagging
      else if flags ∈ [0x20, 0x28] then (addOnly 0 flags dst op a b).conditional else none := by
  unfold Fields.action
  rw [if_neg h]
  simp [addOnly]

theorem action_unary (hd : dst < 32) (hu : (addOnly 0 0 dst op a b).unary) :
    (addOnly 0 0 dst op a b).action = some (if op = 188 then { reads := [a], late := [dst] }
      else { reads := [a], writes := [dst] }) := by
  have hop : op = 188 ∨ op = 245 ∨ op = 246 := by
    simp only [Fields.unary, addOnly] at hu; tauto
  have hform : ¬(addOnly 0 0 dst op a b).AluForm := by
    apply not_aluForm_add <;> rcases hop with rfl | rfl | rfl <;> decide
  rw [action_add_single hform, if_pos rfl, Fields.single, if_neg (fun h => not_addIdle_addOnly _ _ _ _ _ _ h.1),
    if_neg (not_addIdle_addOnly _ _ _ _ _ _), if_neg (not_not.mpr (mulIdle_addOnly _ _ _ _ _ _))]
  have h190 : ¬op = 190 := by rcases hop with rfl | rfl | rfl <;> decide
  simp only [hu, true_and]
  simp only [addOnly, zero_ne_one, ↓reduceIte, h190, false_and, hd]
  exact (apply_ite some _ _ _).symm

theorem action_flagging {flag : ℕ} (hd : dst < 32) (hf : flag ∈ [1, 2, 3])
    (ho : op ∈ [60, 120, 181, 182, 183, 197]) :
    (addOnly 0 flag dst op a b).action =
      some { reads := [a, b], writes := [dst], setsFlags := true } := by
  have hne : flag ≠ 0 := by rintro rfl; simp at hf
  have htest : (addOnly 0 flag dst op a b).test := ho
  rw [action_add_single (not_aluForm_flags (by simp [addOnly]) hne), if_neg hne, if_pos hf,
    Fields.flagging, if_neg (not_not.mpr htest), if_pos (mulIdle_addOnly _ _ _ _ _ _)]
  simp [addOnly, hd]

theorem action_copyUnless (hd : dst < 32) :
    (addOnly 0 0x28 dst 182 a a).action = some { reads := [a], merges := [dst] } := by
  rw [action_add_single (not_aluForm_flags (by simp [addOnly]) (by simp [addOnly]))]
  simp only [Fields.conditional, mulIdle_addOnly]
  simp [addOnly, hd]

theorem action_invertWhere {condition : ℕ} (hd : dst < 32) (hc : condition ∈ [0x20, 0x28]) :
    (addOnly 0 condition dst 186 dst 0).action = some { reads := [dst], merges := [dst] } := by
  have hne : condition ≠ 0 ∧ condition ∉ [1, 2, 3] := by
    simp only [List.mem_cons, List.not_mem_nil, or_false] at hc ⊢; omega
  rw [action_add_single (not_aluForm_flags (by simp [addOnly]) hne.1), if_neg hne.1, if_neg hne.2,
    if_pos hc]
  simp only [Fields.conditional, mulIdle_addOnly]
  simp [addOnly, hd]

theorem action_storeIndexed :
    (addOnly 0 0 0 190 a b).action = some { reads := [a, b], access := .indexedOutput a } := by
  rw [action_add_single (not_aluForm_add (by decide) (by decide)), if_pos rfl, Fields.single,
    if_neg (fun h => not_addIdle_addOnly _ _ _ _ _ _ h.1),
    if_neg (not_addIdle_addOnly _ _ _ _ _ _), if_neg (not_not.mpr (mulIdle_addOnly _ _ _ _ _ _))]
  simp [addOnly]

theorem not_aluForm_immediate (h : binary op = false) (h249 : op ≠ 249) :
    ¬(addOnly 14 0 dst op a b).AluForm := by
  intro hf
  obtain ⟨-, -, hop, -⟩ := hf.add.2 (not_addIdle_addOnly _ _ _ _ _ _)
  simp [addOnly, Fields.mov, h, h249] at hop

theorem action_vertexAccess (h : binary op = false) (h249 : op ≠ 249) :
    (addOnly 14 0 dst op a b).action = (addOnly 14 0 dst op a b).vertexAccess := by
  unfold Fields.action
  rw [if_neg (not_aluForm_immediate h h249)]
  simp [addOnly]

theorem action_storeOutput (ha : a < 16) :
    (addOnly 14 0 0 190 a b).action = some { reads := [b], access := .output a } := by
  rw [action_vertexAccess (by decide) (by decide)]
  simp only [Fields.vertexAccess, mulIdle_addOnly]
  simp [addOnly, ha]

theorem action_loadAttribute (hd : dst < 32) (ha : a < 16) :
    (addOnly 14 0 dst 188 a 0).action = some { late := [dst], access := .attribute a } := by
  rw [action_vertexAccess (by decide) (by decide)]
  simp only [Fields.vertexAccess, mulIdle_addOnly]
  simp [addOnly, ha, hd]

/-- A multiply-ALU word outside the packable form. -/
theorem action_mul_single (hop : op ≠ 21) {magic : ℕ} :
    (⟨op, 0, 0, magic, 1, dst, 6, 187, a, b, 0, 0⟩ : Fields).action =
      (⟨op, 0, 0, magic, 1, dst, 6, 187, a, b, 0, 0⟩ : Fields).single := by
  by_cases hm : (⟨op, 0, 0, magic, 1, dst, 6, 187, a, b, 0, 0⟩ : Fields).mulIdle
  · have hform : ¬(⟨op, 0, 0, magic, 1, dst, 6, 187, a, b, 0, 0⟩ : Fields).AluForm := by
      intro h
      rcases h.works with h | h | h
      · simp [Fields.addIdle] at h
      · exact h hm
      · simp at h
    unfold Fields.action
    rw [if_neg hform]
    simp
  · have hform : ¬(⟨op, 0, 0, magic, 1, dst, 6, 187, a, b, 0, 0⟩ : Fields).AluForm :=
      fun h => hop (h.mul.2 hm).1
    unfold Fields.action
    rw [if_neg hform]
    simp

theorem action_umul24 (hd : dst < 32) :
    (mulOnly 3 0 dst a b).action = some { reads := [a, b], writes := [dst] } := by
  rw [mulOnly, action_mul_single (by decide)]
  simp [Fields.single, Fields.idle, Fields.addIdle, Fields.mulIdle, hd]

theorem action_multop :
    (⟨10, 0, 0, 1, 1, 6, 6, 187, a, b, 0, 0⟩ : Fields).action = some { reads := [a, b] } := by
  rw [action_mul_single (by decide)]
  simp [Fields.single, Fields.idle, Fields.addIdle, Fields.mulIdle]

theorem action_flagAndZero {flag : ℕ} (hd : dst < 32) (hf : flag ∈ [1, 2, 3])
    (ho : op ∈ [60, 120, 181, 182, 183, 197]) :
    (⟨2, 0, flag, 0, 1, dst, 6, op, a, a, a, b⟩ : Fields).action =
      some { reads := [a, b, a, a], writes := [dst], setsFlags := true } := by
  have hne : flag ≠ 0 := by rintro rfl; simp at hf
  unfold Fields.action
  rw [if_neg (not_aluForm_flags (by simp) hne)]
  simp only [zero_ne_one, ↓reduceIte, hne, hf]
  simp [Fields.flagging, Fields.test, ho, Fields.mulIdle, hd]

theorem action_selectFalse {mask value : ℕ} (hd : dst < 32) :
    (⟨14, 0, 1, 0, 1, dst, 6, 182, value, 3, mask, mask⟩ : Fields).action =
      some { reads := [mask, mask, value], writes := [dst], setsFlags := true } := by
  unfold Fields.action
  rw [if_neg (not_aluForm_flags (by simp) (by simp))]
  simp [Fields.flagging, Fields.test, Fields.mulIdle, hd]

theorem fields_magicMove (hd : dst < 64) (ha : a < 64) :
    fields (add 182 dst a a true) = ⟨14, 0, 0, 1, 1, 6, dst, 182, 0, 63, a, a⟩ :=
  fields_add true (by decide) hd ha ha

/-- A register moved to a unit. -/
theorem action_magicMove (access : Access)
    (h : (dst, access) ∈ [(34, .coordinate), (33, .request), (41, .request), (8, .tile true),
      (7, .tile false)]) :
    (⟨14, 0, 0, 1, 1, 6, dst, 182, 0, 63, a, a⟩ : Fields).action =
      some { reads := [a], access := access } := by
  have hform : ¬(⟨14, 0, 0, 1, 1, 6, dst, 182, 0, 63, a, a⟩ : Fields).AluForm := fun h => by
    have := (h.add.2 (by simp [Fields.addIdle])).1
    simp at this
  unfold Fields.action
  rw [if_neg hform]
  simp only [List.mem_cons, Prod.mk.injEq, List.not_mem_nil, or_false] at h
  rcases h with ⟨rfl, rfl⟩ | ⟨rfl, rfl⟩ | ⟨rfl, rfl⟩ | ⟨rfl, rfl⟩ | ⟨rfl, rfl⟩ <;>
    simp [Fields.single, Fields.idle, Fields.addIdle, Fields.mulIdle, Fields.unit]

end Forms

end Pi5Drivers.Qpu
