import Pi5Drivers.Compiler.Emit
import Pi5Drivers.Lib.Ensures

/-! Packing of compiled programs. The pass may join words only where no result is on its
way. The emission never lets a plain word follow a word whose results come late: those
words are part of a fixed block that ends with another word, which is an
invariant of the whole emission. -/

namespace Pi5Drivers.Compiler

open Abi Qpu Emit Tracked

/-- No result is on its way between plain words, nor after the last word. -/
def SettledCode (code : List Item) : Prop := Spaced code ∧ ∀ item ∈ code.getLast?, ¬(fields item.word).delays

abbrev Settled (s : Emission) : Prop := SettledCode s.code

/-- The emission stays settled, and its result has a property. -/
abbrev Settles {α : Type} (x : Emit α) (p : α → Prop) : Prop :=
  Ensures Empty.elim Settled x fun a s => Settled s ∧ p a

/-- The emission stays settled. -/
abbrev KeepsSettled {α : Type} (x : Emit α) : Prop := Ensures Empty.elim Settled x fun _ => Settled

section Words

variable {op dst a b : ℕ}

theorem not_delays_addOnly (signal flags : ℕ) (hs : signal ≠ 8) (ho : op ≠ 188) :
    ¬(addOnly signal flags dst op a b).delays := by
  simp [Fields.delays, addOnly, hs, ho]

theorem not_delays_loadOnly (signal : ℕ) (hs : signal ≠ 8) : ¬(loadOnly signal dst).delays := by
  simp [Fields.delays, loadOnly, hs, Fields.addIdle]

theorem not_delays_mulOnly (signal : ℕ) (hs : signal ≠ 8) : ¬(mulOnly op signal dst a b).delays := by
  simp [Fields.delays, mulOnly, hs, Fields.addIdle]

theorem not_delays_nop : ¬(fields nop).delays := by simp [Fields.delays]

theorem not_delays_add (ho : op < 256) (h188 : op ≠ 188) (hd : dst < 64) (ha : a < 64) (hb : b < 64) :
    ¬(fields (add op dst a b)).delays := by
  rw [fields_add_plain ho hd ha hb]
  exact not_delays_addOnly _ _ (by decide) h188

theorem not_delays_load {base : Word} (signal : ℕ) (hb : fields base = loadOnly signal 0) (hs : signal ≠ 8)
    (hd : dst < 32) : ¬(fields (withDestination base dst)).delays := by
  rw [show fields (withDestination base dst) = loadOnly signal dst from fields_withDestination signal hb hd]
  exact not_delays_loadOnly signal hs

theorem not_delays_selectFalse (hd : dst < 64) (ha : a < 64) (hb : b < 64) :
    ¬(fields (selectFalse dst a b)).delays := by
  rw [fields_selectFalse hd ha hb]
  simp [Fields.delays]

theorem not_delays_copyUnless (hd : dst < 64) (ha : a < 64) : ¬(fields (copyUnless dst a)).delays := by
  rw [fields_copyUnless hd ha]
  exact not_delays_addOnly _ _ (by decide) (by decide)

theorem not_delays_flagAndZero {flag : ℕ} (ho : op < 256) (h188 : op ≠ 188) (hd : dst < 64) (ha : a < 64)
    (hb : b < 64) (hf : flag < 128) : ¬(fields (flagAndZero op dst a b flag)).delays := by
  rw [fields_flagAndZero ho hd ha hb hf]
  simp [Fields.delays, h188]

theorem not_delays_multop (ha : a < 64) (hb : b < 64) : ¬(fields (multop a b)).delays := by
  rw [fields_multop ha hb]
  simp [Fields.delays]

theorem not_delays_mul (ho : op < 64) (hd : dst < 64) (ha : a < 64) (hb : b < 64) :
    ¬(fields (mul op dst a b)).delays := by
  rw [fields_mul_plain ho hd ha hb]
  exact not_delays_mulOnly _ (by decide)

end Words

/-! ### One step -/

theorem isChain_fixed (words : List Word) :
    (words.map fun w => (⟨w, false⟩ : Item)).IsChain fun item next => next.plain → ¬(fields item.word).delays := by
  rw [List.isChain_map]
  exact List.Pairwise.isChain (List.pairwise_of_forall fun _ _ h => absurd h (by simp))

theorem spaced_append {code : List Item} (h : Spaced code) (words : List Word) :
    Spaced (code ++ words.map fun w => ⟨w, false⟩) := by
  refine List.isChain_append.mpr ⟨h, isChain_fixed words, fun x _ y hy hplain => ?_⟩
  obtain ⟨w, -, rfl⟩ := List.mem_map.mp (List.mem_of_mem_head? hy)
  simp at hplain

theorem fixed_spaced (words : List Word) :
    Ensures Empty.elim (fun s => Spaced s.code) (fixed words) fun _ s => Spaced s.code :=
  Ensures.modify fun _ hs => spaced_append hs words

/-- A fixed block settles what came before it. -/
theorem fixed_settled {words : List Word} {w : Word} (h : ¬(fields w).delays) (hw : words.getLast? = some w) :
    Ensures Empty.elim (fun s => Spaced s.code) (fixed words) fun _ => Settled := by
  refine Ensures.modify fun s hs => ⟨spaced_append hs words, fun item hitem => ?_⟩
  simp only [List.getLast?_append, List.getLast?_map, hw, Option.map_some, Option.some_or, Option.mem_some_iff] at hitem
  subst hitem
  exact h

theorem fixed_keeps {words : List Word} {w : Word} (h : ¬(fields w).delays) (hw : words.getLast? = some w) :
    KeepsSettled (fixed words) :=
  (fixed_settled h hw).mono (fun _ hs => hs.1) fun _ _ => id

theorem plain_keeps {w : Word} (h : ¬(fields w).delays) : KeepsSettled (plain w) := by
  refine Ensures.modify fun s hs => ⟨List.isChain_append.mpr ⟨hs.1, List.isChain_singleton _, ?_⟩, ?_⟩
  · intro x hx y hy _
    exact hs.2 x hx
  · intro item hitem
    obtain rfl : (⟨w, true⟩ : Item) = item := by simpa using hitem
    exact h

/-- The step leaves the code alone. -/
abbrev KeepsCode (x : Emit Unit) : Prop :=
  ∀ p : List Item → Prop, Ensures Empty.elim (fun s => p s.code) x fun _ s => p s.code

theorem change_code (p : List Item → Prop) {f : Emission → Emission} (h : ∀ s, (f s).code = s.code) :
    Ensures Empty.elim (fun s => p s.code) (change f) fun _ s => p s.code :=
  Ensures.modify fun s hs => (congrArg p (h s)).mpr hs

theorem change_keeps {f : Emission → Emission} (h : ∀ s, (f s).code = s.code) : KeepsSettled (change f) :=
  change_code SettledCode h

theorem need_settles {condition : Prop} [Decidable condition] {message : String} :
    Settles (Emit.need condition message) fun _ => condition :=
  Ensures.reject fun _ hs hc => ⟨hs, not_not.mp hc⟩

theorem occupy_keeps (reg : ℕ) : KeepsSettled (occupy reg) := change_keeps fun _ => rfl
theorem free_keeps (reg : ℕ) : KeepsSettled (free reg) := change_keeps fun _ => rfl
theorem forget_keeps (reg : ℕ) : KeepsSettled (forget reg) := change_keeps fun _ => rfl
theorem assign_keeps (node reg : ℕ) : KeepsSettled (assign node reg) := change_keeps fun _ => rfl
theorem pushUniform_keeps (u : Uniform) : KeepsSettled (pushUniform u) := change_keeps fun _ => rfl

theorem lowest_lt {s : Emission} {reg : ℕ} (h : s.lowest = some reg) : reg < 32 :=
  List.mem_range.mp (List.mem_of_find?_eq_some h)

theorem freeRegister_settles (message : String) : Settles (freeRegister message) (· < 32) := by
  refine Ensures.get_bind fun s hs => ?_
  cases h : s.lowest with
  | none => exact Ensures.fail
  | some reg => exact Ensures.pure fun _ ht => ⟨ht ▸ hs, lowest_lt h⟩

theorem when_keeps {condition : Prop} [Decidable condition] {x : Emit Unit} (h : condition → KeepsSettled x) :
    KeepsSettled (when condition x) :=
  Ensures.ite h fun _ => Ensures.pure fun _ => id

/-- Steps after the current state was looked at. -/
theorem get_keeps {α : Type} {f : Emission → Emit α} (h : ∀ s, KeepsSettled (f s)) :
    KeepsSettled (Tracked.get >>= f) :=
  Ensures.get_bind fun s hs => (h s).mono (fun _ ht => ht ▸ hs) fun _ _ => id

theorem claim_keeps (node : Option ℕ) (reg : ℕ) : KeepsSettled (claim node reg) := by
  cases node with
  | none => exact Ensures.pure fun _ => id
  | some i => exact Ensures.bind (occupy_keeps _) fun _ => assign_keeps _ _

theorem Settles.bind_keeps {α β : Type} {x : Emit α} {p : α → Prop} {f : α → Emit β} (hx : Settles x p)
    (hf : ∀ a, p a → KeepsSettled (f a)) : KeepsSettled (x >>= f) :=
  Ensures.bind hx fun a => Ensures.assume (hf a)

theorem KeepsSettled.then {β : Type} {x : Emit Unit} {f : Unit → Emit β} (hx : KeepsSettled x)
    (hf : KeepsSettled (f ())) : KeepsSettled (x >>= f) := Ensures.bind hx fun _ => hf

variable (g : Graph)

/-! ### Varyings -/

theorem loadVarying_keeps : KeepsSettled (loadVarying g) := by
  refine get_keeps fun s => ?_
  refine (freeRegister_settles _).bind_keeps fun reg hreg => ?_
  refine (claim_keeps _ _).then ((forget_keeps _).then ((forget_keeps _).then ?_))
  refine KeepsSettled.then ?_ (change_keeps fun _ => rfl)
  by_cases h : g.flatMask.getLsbD s.loadedVaryings
  all_goals
    refine fixed_keeps ?_ (by simp [varyingWords, h]; rfl)
    exact not_delays_add (by decide) (by decide) (by omega) (by omega) (by omega)

theorem loadMoreVaryings_keeps (n : ℕ) : KeepsSettled (loadMoreVaryings g n) := by
  induction n with
  | zero => exact Ensures.pure fun _ => id
  | succ n ih => exact (loadVarying_keeps g).then ih

theorem loadVaryings_keeps (through : ℕ) : KeepsSettled (loadVaryings g through) := by
  refine get_keeps fun s => (loadMoreVaryings_keeps g _).then (get_keeps fun t => when_keeps fun _ => ?_)
  exact (free_keeps _).then (free_keeps _)

theorem ensure_keeps (node : ℕ) : KeepsSettled (ensure g node) := by
  unfold ensure
  split
  · split
    · exact loadVaryings_keeps g _
    · exact Ensures.pure fun _ => id
  · exact Ensures.pure fun _ => id

/-! ### Operands -/

theorem immediateIndex_lt {value : UWord} {i : ℕ} (h : immediateIndex value = some i) : i < 48 := by
  unfold immediateIndex at h
  split_ifs at h with hsmall hbig
  · obtain rfl := Option.some.inj h
    omega
  · obtain rfl := Option.some.inj h
    have := value.isLt
    omega
  · obtain ⟨n, hn, rfl⟩ := Option.map_eq_some_iff.mp h
    have := List.mem_range.mp (List.mem_of_find?_eq_some hn)
    omega

theorem immediate_lt {node i : ℕ} (h : immediate g node = some i) : i < 48 := by
  obtain ⟨_, -, h⟩ := Option.bind_eq_some_iff.mp h
  exact immediateIndex_lt h

theorem uniformRegister_lt {s : Emission} {reg : ℕ} (h : s.uniformRegister = some reg) : reg < 32 := by
  unfold Emission.uniformRegister at h
  cases hfirst : (List.range 32).reverse.find? fun r => !s.occupied r && s.uniformValue r == none with
  | some r =>
    rw [hfirst] at h
    obtain rfl : r = reg := Option.some.inj h
    simpa using List.mem_of_find?_eq_some hfirst
  | none =>
    rw [hfirst] at h
    simpa using List.mem_of_find?_eq_some h

theorem remap_keeps (binding : ℕ) : KeepsSettled (remap g binding) := by
  unfold remap
  split
  · exact Ensures.pure fun _ => id
  · exact Ensures.fail

theorem uniformWord_keeps (node : ℕ) : KeepsSettled (uniformWord g node) :=
  Ensures.ite (fun _ => Ensures.bind (remap_keeps g _) fun _ => Ensures.pure fun _ => id)
    fun _ => Ensures.pure fun _ => id

theorem loadUniform_settles (node : ℕ) : Settles (loadUniform g node) (· < 32) := by
  refine Ensures.get_bind fun s hs => ?_
  have hreturn : ∀ reg < 32, Ensures Empty.elim Settled (pure reg : Emit ℕ) fun r t => Settled t ∧ r < 32 :=
    fun reg hreg => Ensures.pure fun _ ht => ⟨ht, hreg⟩
  refine Ensures.mono (P := Settled) ?_ (fun _ ht => ht ▸ hs) fun _ _ => id
  split
  · rename_i cached hcached
    have hreg : cached < 32 := List.mem_range.mp (List.mem_of_find?_eq_some hcached)
    exact Ensures.bind (occupy_keeps _) fun _ => hreturn _ hreg
  · split
    · exact Ensures.fail
    · rename_i reg hreg
      replace hreg := uniformRegister_lt hreg
      refine Ensures.bind (occupy_keeps _) fun _ => Ensures.bind (change_keeps fun _ => rfl) fun _ => ?_
      split
      · rename_i i hi
        refine Ensures.bind (plain_keeps ?_) fun _ => hreturn _ hreg
        have := immediate_lt g hi
        rw [show (14#64 : Word) = BitVec.ofNat 64 14 from rfl,
          fields_add_signal (by decide) (by omega) (by omega) (by decide) (by decide)]
        exact not_delays_addOnly _ _ (by decide) (by decide)
      · refine Ensures.bind (uniformWord_keeps g _) fun u => Ensures.bind (plain_keeps ?_) fun _ =>
          Ensures.bind (pushUniform_keeps _) fun _ => hreturn _ hreg
        exact not_delays_load 12 (by decide) (by decide) hreg

theorem sourceRegister_keeps (node : ℕ) : KeepsSettled (sourceRegister g node) := by
  refine Ensures.ite (fun _ => ?_) fun _ => get_keeps fun s => Ensures.pure fun _ => id
  exact (loadUniform_settles g node).bind_keeps fun reg _ => Ensures.pure fun _ => id

/-- Both operands are registers or small immediates. -/
def Operands.InRange (o : Operands) : Prop :=
  o.a < (if o.immediateA then 48 else 32) ∧ o.b < if o.immediateB then 48 else 32

theorem Operands.InRange.lt {o : Operands} (h : o.InRange) : o.a < 64 ∧ o.b < 64 := by
  unfold Operands.InRange at h
  split_ifs at h <;> omega

theorem fetchOperands_settles (na nb : ℕ) (useImmediate : Bool) :
    Settles (fetchOperands g na nb useImmediate) Operands.InRange := by
  unfold fetchOperands
  dsimp only
  refine Ensures.bind (Q := fun _ => Settled) (Ensures.ite (fun _ => Ensures.pure fun _ => id)
    fun _ => sourceRegister_keeps g _) fun a => ?_
  refine Ensures.bind (Q := fun _ => Settled) (Ensures.ite (fun _ => Ensures.pure fun _ => id)
    fun _ => Ensures.ite (fun _ => Ensures.pure fun _ => id) fun _ => sourceRegister_keeps g _) fun b => ?_
  exact Ensures.bind need_settles fun _ => Ensures.assume fun h => Ensures.pure fun _ ht => ⟨ht, h⟩

theorem releaseUse_code (node : ℕ) : KeepsCode (releaseUse g node) := by
  refine fun p => Ensures.ite (fun _ => Ensures.pure fun _ => id) fun _ => ?_
  refine Ensures.bind (change_code p fun _ => rfl) fun _ => Ensures.get_bind fun s hs => ?_
  refine Ensures.mono (P := fun t => p t.code) ?_ (fun _ ht => ht ▸ hs) fun _ _ => id
  exact Ensures.ite (fun _ => change_code p fun _ => rfl) fun _ => Ensures.pure fun _ => id

theorem releaseConsumers_code (na nb n : ℕ) : KeepsCode (releaseConsumers g na nb n) := by
  intro p
  induction n with
  | zero => exact Ensures.pure fun _ => id
  | succ n ih =>
    exact Ensures.bind (releaseUse_code g na p) fun _ => Ensures.bind (releaseUse_code g nb p) fun _ => ih

theorem release_code (o : Operands) (na nb consumers : ℕ) : KeepsCode (release g o na nb consumers) := fun p =>
  Ensures.bind (Ensures.forM fun _ _ => change_code p fun _ => rfl) fun _ =>
    releaseConsumers_code g na nb consumers p

/-! ### Vertex inputs and outputs -/

theorem storeOutput_keeps (c value : ℕ) : KeepsSettled (storeOutput c value) := by
  unfold storeOutput
  refine Ensures.ite (fun _ => fixed_keeps not_delays_nop rfl) fun _ => ?_
  refine (freeRegister_settles _).bind_keeps fun index hindex => (forget_keeps _).then ?_
  exact KeepsSettled.then (fixed_keeps (not_delays_load 12 (by decide) (by decide) hindex) rfl)
    ((pushUniform_keeps _).then (fixed_keeps not_delays_nop rfl))

theorem writeOutput_keeps (c root : ℕ) : KeepsSettled (writeOutput g c root) := by
  refine get_keeps fun s => when_keeps fun _ => ?_
  refine Ensures.bind (Q := fun _ => Settled) (Ensures.ite (fun _ => ?_) fun _ => Ensures.pure fun _ => id)
    fun value => ?_
  · exact (loadUniform_settles g root).weaken fun _ _ h => h.1
  · refine (storeOutput_keeps c value).then (KeepsSettled.then (change_keeps fun _ => rfl) ?_)
    exact Ensures.ite (fun _ => free_keeps _) fun _ => releaseUse_code g root SettledCode

theorem writeOutputs_keeps : KeepsSettled (writeOutputs g) :=
  Ensures.ite (fun _ => Ensures.pure fun _ => id) fun _ => Ensures.forM fun _ _ => writeOutput_keeps g _ _

theorem loadAttribute_keeps (i : ℕ) : KeepsSettled (loadAttribute g i) := by
  unfold loadAttribute
  split
  · refine (freeRegister_settles _).bind_keeps fun reg _ => ?_
    exact (occupy_keeps _).then ((assign_keeps _ _).then ((forget_keeps _).then (fixed_keeps not_delays_nop rfl)))
  · exact Ensures.pure fun _ => id

/-! ### Nodes -/

theorem readChannel_keeps (c : ℕ) : KeepsSettled (readChannel g c) :=
  (freeRegister_settles _).bind_keeps fun _ _ =>
    (claim_keeps _ _).then ((forget_keeps _).then (fixed_keeps not_delays_nop rfl))

theorem emitTargetRead_keeps : KeepsSettled (emitTargetRead g) := by
  refine need_settles.bind_keeps fun _ _ => ?_
  refine (when_keeps fun _ => loadVaryings_keeps g _).then ?_
  refine KeepsSettled.then (fixed_keeps not_delays_nop rfl) (KeepsSettled.then (change_keeps fun _ => rfl) ?_)
  exact KeepsSettled.then (Ensures.forM fun c _ => readChannel_keeps g c) (pushUniform_keeps _)

theorem maskSource_keeps (mask a b : ℕ) (values : Operands) : KeepsSettled (maskSource g mask a b values) :=
  Ensures.ite (fun _ => Ensures.pure fun _ => id) fun _ => Ensures.ite (fun _ => Ensures.pure fun _ => id) fun _ =>
    Ensures.ite (fun _ => (loadUniform_settles g mask).weaken fun _ _ h => h.1)
      fun _ => get_keeps fun _ => Ensures.pure fun _ => id

theorem emitSelect_keeps (i mask a b : ℕ) : KeepsSettled (emitSelect g i mask a b) := by
  refine (ensure_keeps g b).then ((fetchOperands_settles g a b false).bind_keeps fun values hvalues => ?_)
  obtain ⟨ha, hb⟩ := hvalues.lt
  refine Ensures.bind (maskSource_keeps g mask a b values) fun maskRegister => ?_
  refine need_settles.bind_keeps fun _ hmask => (freeRegister_settles _).bind_keeps fun reg hreg => ?_
  refine KeepsSettled.then (fixed_keeps (not_delays_selectFalse (by omega) (by omega) hb) rfl) ?_
  refine KeepsSettled.then (fixed_keeps (not_delays_copyUnless (by omega) ha) rfl) ?_
  refine KeepsSettled.then (release_code g values a b 1 SettledCode) (KeepsSettled.then ?_ ?_)
  · exact Ensures.ite (fun _ => free_keeps _) fun _ => releaseUse_code g mask SettledCode
  · exact (occupy_keeps _).then ((assign_keeps _ _).then ((forget_keeps _).then (writeOutputs_keeps g)))

theorem lookupDestination_settles (value : ℕ) :
    Settles (lookupDestination g value) fun destination => ∀ reg ∈ destination, reg < 32 := by
  refine Ensures.ite (fun _ => ?_) fun _ => Ensures.pure fun _ hs => ⟨hs, by simp⟩
  refine Ensures.bind (freeRegister_settles _) fun reg => Ensures.assume fun hreg => ?_
  refine Ensures.bind (occupy_keeps _) fun _ => Ensures.bind (assign_keeps _ _) fun _ => ?_
  exact Ensures.pure fun _ hs => ⟨hs, by simpa using hreg⟩

theorem loadResult_keeps {reg : ℕ} (hreg : reg < 32) : KeepsSettled (loadResult reg) :=
  (forget_keeps _).then (fixed_keeps (not_delays_load 4 (by decide) (by decide) hreg) rfl)

theorem requestWords_getLast (kind : Lookup) (a b : ℕ) : (requestWords kind a b).getLast? = some nop := by
  simp [requestWords]

theorem emitLookup_keeps (lookup : LookupGroup) (a b : ℕ) : KeepsSettled (emitLookup g lookup a b) := by
  unfold emitLookup
  refine KeepsSettled.then (when_keeps fun _ => change_keeps fun _ => rfl) ?_
  refine (fetchOperands_settles g a b false).bind_keeps fun coordinates _ => ?_
  refine (lookupDestination_settles g _).bind_keeps fun x hx => ?_
  refine (lookupDestination_settles g _).bind_keeps fun y hy => ?_
  refine (lookupDestination_settles g _).bind_keeps fun z hz => ?_
  refine (lookupDestination_settles g _).bind_keeps fun w hw => ?_
  refine (freeRegister_settles _).bind_keeps fun scratch hscratch => ?_
  refine Ensures.bind (Q := fun _ => Settled)
    (Ensures.ite (fun _ => Ensures.pure fun _ => id) fun _ => remap_keeps g _) fun binding => ?_
  refine KeepsSettled.then (fixed_keeps (by simp [Fields.delays]) rfl) ?_
  refine KeepsSettled.then (Ensures.forM fun _ _ => pushUniform_keeps _) ?_
  refine KeepsSettled.then (fixed_keeps not_delays_nop (requestWords_getLast _ _ _)) ?_
  refine KeepsSettled.then (Ensures.forM fun destination hdestination => loadResult_keeps ?_) ?_
  · have hall : ∀ reg ∈ destination, reg < 32 := by
      simp only [List.mem_cons, List.not_mem_nil, or_false] at hdestination
      rcases hdestination with rfl | rfl | rfl | rfl <;> assumption
    cases destination with
    | none => exact hscratch
    | some reg => exact hall reg rfl
  · exact KeepsSettled.then (release_code g coordinates a b _ SettledCode) (writeOutputs_keeps g)

theorem emitTexture_keeps (a b group : ℕ) : KeepsSettled (emitTexture g a b group) := by
  refine get_keeps fun s => need_settles.bind_keeps fun _ _ => ?_
  refine Ensures.ite (fun _ => Ensures.pure fun _ => id) fun _ => KeepsSettled.then (change_keeps fun _ => rfl) ?_
  split
  · exact emitLookup_keeps g _ a b
  · exact Ensures.pure fun _ => id

/-- The result of the operation comes late. -/
def Op.late (op : Op) : Prop := op = .reciprocal ∨ op = .rsqrt

theorem Op.opcode_lt (op : Op) : op.opcode < 256 ∧ op.opcode ≠ 188 := by cases op <;> decide

theorem Op.test_lt {op : Op} {operation flag : ℕ} {exchange : Bool} {condition : Word}
    (h : op.test = some (operation, flag, exchange, condition)) :
    operation < 256 ∧ operation ≠ 188 ∧ flag < 128 ∧ (condition = 0x20#64 ∨ condition = 0x28#64) := by
  cases op <;> simp [Op.test] at h <;> obtain ⟨rfl, rfl, -, rfl⟩ := h <;> decide

theorem Op.conversion_lt {op : Op} {operation selector : ℕ} (h : op.conversion = some (operation, selector)) :
    operation < 256 ∧ selector < 64 ∧ (operation = 188 → op.late) := by
  cases op <;> simp [Op.conversion] at h <;> obtain ⟨rfl, rfl⟩ := h <;> simp [Op.late]

theorem not_delays_invertWhere {condition : Word} {dst : ℕ} (h : condition = 0x20#64 ∨ condition = 0x28#64)
    (hd : dst < 64) : ¬(fields (invertWhere condition dst)).delays := by
  rcases h with rfl | rfl
  · rw [show fields (invertWhere 0x20#64 dst) = _ from fields_invertWhere 0x20 (by decide) hd]
    exact not_delays_addOnly _ _ (by decide) (by decide)
  · rw [show fields (invertWhere 0x28#64 dst) = _ from fields_invertWhere 0x28 (by decide) hd]
    exact not_delays_addOnly _ _ (by decide) (by decide)

theorem addSignal_ne (ia ib : Bool) : addSignal ia ib < 32 ∧ addSignal ia ib ≠ 8 := by
  cases ia <;> cases ib <;> decide

theorem mulSignal_ne (ia ib : Bool) : mulSignal ia ib < 32 ∧ mulSignal ia ib ≠ 8 := by
  cases ia <;> cases ib <;> decide

/-- Only the special-function unit leaves a result on its way. -/
theorem emitOperation_ensures (op : Op) {reg : ℕ} {o : Operands} (hreg : reg < 32) (ho : o.InRange) :
    Ensures Empty.elim Settled (emitOperation op reg o) fun _ s => Spaced s.code ∧ (¬op.late → Settled s) := by
  obtain ⟨ha, hb⟩ := ho.lt
  have hkeep : ∀ {x : Emit Unit}, KeepsSettled x →
      Ensures Empty.elim Settled x fun _ s => Spaced s.code ∧ (¬op.late → Settled s) :=
    fun hx => hx.weaken fun _ s hs => ⟨hs.1, fun _ => hs⟩
  unfold emitOperation
  split
  · rename_i operation flag exchange condition htest
    obtain ⟨hop, h188, hflag, hcondition⟩ := Op.test_lt htest
    refine hkeep (KeepsSettled.then (fixed_keeps ?_ rfl)
      (fixed_keeps (not_delays_invertWhere hcondition (by omega)) rfl))
    split
    · exact not_delays_flagAndZero hop h188 (by omega) hb ha hflag
    · exact not_delays_flagAndZero hop h188 (by omega) ha hb hflag
  · rename_i operation selector _ hconversion
    obtain ⟨hop, hselector, h188⟩ := Op.conversion_lt hconversion
    by_cases hlate : op.late
    · exact ((fixed_spaced _).mono (fun _ hs => hs.1) fun _ _ hs => ⟨hs, fun h => absurd hlate h⟩)
    · exact hkeep (fixed_keeps (not_delays_add hop (fun h => hlate (h188 h)) (by omega) ha hselector) rfl)
  · split
    · refine hkeep (KeepsSettled.then (fixed_keeps ?_ rfl)
        (fixed_keeps (not_delays_copyUnless (by omega) ha) rfl))
      exact not_delays_flagAndZero (by decide) (by decide) (by omega) ha hb (by decide)
    · refine hkeep (plain_keeps ?_)
      obtain ⟨hlt, h8⟩ := mulSignal_ne o.immediateA o.immediateB
      rw [fields_mul_signal (by decide) (by omega) ha hb hlt]
      exact not_delays_mulOnly _ h8
    · refine hkeep (KeepsSettled.then (fixed_keeps (not_delays_multop ha hb) rfl)
        (KeepsSettled.then (fixed_keeps not_delays_nop rfl) (fixed_keeps ?_ rfl)))
      exact not_delays_mul (by decide) (by omega) ha hb
    · obtain ⟨hop, h188⟩ := op.opcode_lt
      have hword : ∀ {a b : ℕ} (ia ib : Bool), a < 64 → b < 64 →
          ¬(fields (add op.opcode reg a b ||| BitVec.ofNat 64 (addSignal ia ib) <<< 53)).delays := by
        intro a b ia ib ha hb
        obtain ⟨hlt, h8⟩ := addSignal_ne ia ib
        rw [fields_add_signal hop (by omega) ha hb hlt]
        exact not_delays_addOnly _ _ h8 h188
      exact Ensures.ite (fun _ => hkeep (plain_keeps (hword _ _ hb ha))) fun _ =>
        hkeep (plain_keeps (hword _ _ ha hb))

theorem resultRegister_settles (op : Op) (a b : ℕ) (o : Operands) : Settles (resultRegister g op a b o) (· < 32) := by
  refine Ensures.get_bind fun s hs => Ensures.mono (P := Settled) ?_ (fun _ ht => ht ▸ hs) fun _ _ => id
  exact Ensures.bind need_settles fun _ => Ensures.assume fun h => Ensures.pure fun _ ht => ⟨ht, h⟩

theorem emitBinary_keeps (i : ℕ) (op : Op) (a b : ℕ) : KeepsSettled (emitBinary g i op a b) := by
  refine (fetchOperands_settles g a b _).bind_keeps fun o ho => ?_
  refine (resultRegister_settles g op a b o).bind_keeps fun reg hreg => ?_
  refine (occupy_keeps _).then ((assign_keeps _ _).then ((forget_keeps _).then ?_))
  let p : List Item → Prop := fun code => Spaced code ∧ (¬op.late → SettledCode code)
  refine Ensures.bind (Q := fun _ s => p s.code) (emitOperation_ensures op hreg ho) fun _ => ?_
  refine Ensures.bind (release_code g o a b 1 p) fun _ => ?_
  refine Ensures.bind (change_code p fun _ => rfl) fun _ => ?_
  refine Ensures.bind (change_code p fun _ => rfl) fun _ => ?_
  refine Ensures.bind (Q := fun _ => Settled) ?_ fun _ => writeOutputs_keeps g
  refine Ensures.ite (fun _ => ?_) fun hother => Ensures.pure fun s hs => hs.2 fun hlate => hother ?_
  · exact (fixed_settled not_delays_nop rfl).mono (fun _ hs => hs.1) fun _ _ => id
  · exact hlate.elim .inl fun h => .inr (.inl h)

theorem emitNode_keeps (i : ℕ) : KeepsSettled (emitNode g i) := by
  refine Ensures.ite (fun _ => Ensures.pure fun _ => id) fun _ => ?_
  split
  · exact get_keeps fun _ => when_keeps fun _ => emitTargetRead_keeps g
  · exact (ensure_keeps g _).then ((ensure_keeps g _).then (emitSelect_keeps g _ _ _ _))
  · exact (ensure_keeps g _).then ((ensure_keeps g _).then (emitTexture_keeps g _ _ _))
  · exact (ensure_keeps g _).then ((ensure_keeps g _).then (emitBinary_keeps g _ _ _ _))

/-! ### The whole program -/

theorem colours_keeps (roots : List ℕ) : KeepsSettled (colours g roots) := by
  induction roots with
  | nil => exact Ensures.pure fun _ => id
  | cons root roots ih =>
    refine Ensures.bind (Q := fun _ => Settled) (Ensures.ite (fun _ => ?_) fun _ => ?_) fun reg =>
      Ensures.bind ih fun _ => Ensures.pure fun _ => id
    · exact (loadUniform_settles g root).weaken fun _ _ h => h.1
    · exact get_keeps fun _ => Ensures.pure fun _ => id

theorem emitTail_spaced : Ensures Empty.elim Settled (emitTail g) fun _ s => Spaced s.code := by
  refine Ensures.bind (when_keeps fun _ => loadVaryings_keeps g _) fun _ => Ensures.get_bind fun s hs => ?_
  refine Ensures.mono (P := Settled) ?_ (fun _ ht => ht ▸ hs) fun _ _ => id
  refine Ensures.bind need_settles fun _ => Ensures.assume fun _ => ?_
  refine Ensures.bind (Q := fun _ => Settled) (Ensures.ite (fun _ => colours_keeps g _)
    fun _ => Ensures.pure fun _ => id) fun regs => Ensures.get_bind fun t ht => ?_
  refine Ensures.mono (P := Settled) ?_ (fun _ ht' => ht' ▸ ht) fun _ _ => id
  refine Ensures.bind (when_keeps fun _ => fixed_keeps not_delays_nop rfl) fun _ => ?_
  refine Ensures.bind ((fixed_spaced _).mono (fun _ h => h.1) fun _ _ => id) fun _ => ?_
  refine Ensures.bind (Q := fun _ s => Spaced s.code) (Ensures.ite (fun _ => ?_) fun _ => Ensures.pure fun _ => id)
    fun _ => fixed_spaced _
  exact change_code Spaced fun _ => rfl

theorem emitAll_spaced : Ensures Empty.elim Settled (emitAll g) fun _ s => Spaced s.code := by
  refine Ensures.bind (when_keeps fun _ => Ensures.forM fun i _ => loadAttribute_keeps g i) fun _ => ?_
  refine Ensures.bind (writeOutputs_keeps g) fun _ => ?_
  exact Ensures.bind (Ensures.forM fun i _ => emitNode_keeps g i) fun _ => emitTail_spaced g

variable {g}

/-- The unpacked program may be packed. -/
theorem emitted_spaced {e : Emission} (h : emitted g = .ok e) : Spaced e.code := by
  unfold emitted at h
  split at h
  · rename_i s hrun
    obtain rfl : s = e := Except.ok.inj h
    have hstart : Settled (Emission.initial g) := ⟨List.isChain_nil, by simp [Emission.initial]⟩
    exact emitAll_spaced g hstart hrun
  · simp at h

/-- **Packing keeps the meaning of a compiled program.** On every machine that waits for nothing
the packed program leaves the registers, the flags, the words taken from the uniform stream and
the events of the units, in order, as the emitted program leaves them. -/
theorem run_pack_emitted {V F : Type} (sem : Interpretation V F) (uniforms : ℕ → V) {e : Emission}
    (h : emitted g = .ok e) (m : Machine V F) (hm : m.late = []) :
    Qpu.run sem uniforms (pack e.code) m = Qpu.run sem uniforms (e.code.map Item.word) m :=
  run_pack (emitted_spaced h) fun _ _ _ => hm

/-- The product and the sum of two constants. -/
def productAndSum : Graph where
  stage := .pixel
  nodes := [.uniform ⟨.constantBuffer, 0, 0⟩, .uniform ⟨.constantBuffer, 1, 0⟩, .binary .mul 0 1, .binary .add 0 1]
  roots := [2, 3, 2, 3]
  lookups := []
  bindings := []
  inputMasks := fun _ => 0
  inputModes := fun _ => 0
  varyingScalars := 0

/-- Integer addition, and the other operations without effect. -/
def additions : Interpretation UWord Bool where
  immediate i := BitVec.ofNat 32 i
  binary op x y := if op = 56 then x + y else x
  unary _ _ x := x
  product _ x _ := x
  copy _ x := x
  multop x _ := x
  umul24 _ x _ := x
  flags _ _ x y := x == y
  choose _ flag x y := if flag then x else y
  load _ _ := 0
  coefficient _ := 0
  vertexInput _ := 0

set_option maxRecDepth 20000 in
theorem productAndSum_pack : ∃ e, emitted productAndSum = .ok e ∧ (pack e.code).length < e.code.length ∧
    Qpu.run additions (BitVec.ofNat 32) (pack e.code) ⟨fun _ => 0, [], 0, false, [], []⟩ =
      Qpu.run additions (BitVec.ofNat 32) (e.code.map Item.word) ⟨fun _ => 0, [], 0, false, [], []⟩ := by
  have hshort : (emitted productAndSum).toOption.map (fun e => decide ((pack e.code).length < e.code.length)) =
      some true := by decide +kernel
  cases h : emitted productAndSum with
  | error message => rw [h] at hshort; exact absurd hshort (by simp [Except.toOption])
  | ok e =>
    rw [h] at hshort
    exact ⟨e, rfl, of_decide_eq_true (Option.some.inj hshort), run_pack_emitted additions _ h _ rfl⟩

end Pi5Drivers.Compiler
