import Mathlib.Data.List.Induction
import Pi5Drivers.Iommu.Driver

/-! The second-level table under any calls that map and unmap slots. The table is at all times the one that
the mapped slots call for, and the walk of an address finds the memory of the slot it is in. -/

namespace Pi5Drivers.Iommu

open Effect Recorded

/-! ### Calls -/

/-- A slot that there is, and a flag that is one. -/
def mmuMapCall (slot dma pages writable : ℕ) : Mmu Unit := do
  require (writable ≤ 1) .invalid
  if h : slot < 16 then mmuMap ⟨slot, h⟩ dma pages (writable = 1) else stop .invalid

def mmuUnmapCall (slot pages : ℕ) : Mmu Unit :=
  if h : slot < 16 then mmuUnmap ⟨slot, h⟩ pages else stop .invalid

def mmuWalkCall (table : ℕ → BitVec 32) (iova write : ℕ) : Except Result ℕ :=
  if 1 < write then .error .invalid else mmuWalk table iova (write = 1)

inductive TableCall
  | map (slot dma pages writable : ℕ)
  | unmap (slot pages : ℕ)

namespace TableCall

def slot : TableCall → ℕ
  | .map slot _ _ _ => slot
  | .unmap slot _ => slot

def serve : TableCall → Mmu Unit
  | .map slot dma pages writable => mmuMapCall slot dma pages writable
  | .unmap slot pages => mmuUnmapCall slot pages

end TableCall

/-! ### What is mapped -/

structure Mapping where
  dma : ℕ
  pages : ℕ
  writable : Bool

/-- The mapped slots. -/
abbrev Space := ℕ → Option Mapping

def TableCall.mapping : TableCall → Option Mapping
  | .map _ dma pages writable => some ⟨dma, pages, writable = 1⟩
  | .unmap _ _ => none

/-- The slots after a call that returned. -/
def Space.after (s : Space) (call : TableCall) : Except Result Unit → Space
  | .ok _ => Function.update s call.slot call.mapping
  | .error _ => s

/-- Where the memory of a slot is seen; the page before it is a guard. -/
def payload (slot : ℕ) : ℕ := mmuIovaBase + (slot * mmuSlotPages + 1) * mmuPage

/-- The address is in the memory of a slot, which may be accessed like this. -/
def Space.Reaches (s : Space) (iova : ℕ) (write : Bool) (dma : ℕ) : Prop :=
  ∃ slot m, s slot = some m ∧ payload slot ≤ iova ∧ iova < payload slot + m.pages * mmuPage ∧ (write = true → m.writable = true) ∧
    dma = m.dma + (iova - payload slot)

/-- The context, and what is mapped in it. -/
def tableStep (c : Context × Space) (call : TableCall) : Context × Space :=
  ((call.serve.run c.1).2, c.2.after call (call.serve.run c.1).1)

def tableRun (world : World) (calls : List TableCall) : Context × Space := calls.foldl tableStep (start world, fun _ => none)

/-! ### The table of a space -/

/-- The entry that the mapped slots call for. -/
def Space.entry (s : Space) (k : ℕ) : BitVec 32 :=
  match s (k / mmuSlotPages) with
  | none => 0
  | some m => if 1 ≤ k % mmuSlotPages ∧ k % mmuSlotPages ≤ m.pages then pte m.dma (k % mmuSlotPages - 1) m.writable else 0

/-- Slots that there are, with memory that the unit can reach. -/
def Space.Sound (s : Space) : Prop := ∀ slot m, s slot = some m → slot < mmuSlots ∧ Address m.dma m.pages

section Entries

variable {n : ℕ} {w : Bool}

theorem pte_valid (dma i : ℕ) (w : Bool) : pte dma i w &&& mmuPteValid ≠ 0 := by
  have valid : mmuPteValid &&& mmuPteValid ≠ 0 := by decide
  intro none
  rw [pte, BitVec.and_or_distrib_right, BitVec.and_or_distrib_right] at none
  exact valid (BitVec.or_eq_zero_iff.mp (BitVec.or_eq_zero_iff.mp none).1).2

/-- A page number is below the flags. -/
theorem page_masked (h : n < 2 ^ 28) : BitVec.ofNat 32 n &&& 0x0fffffff = BitVec.ofNat 32 n := by
  refine BitVec.eq_of_toNat_eq ?_
  have mask : (0x0fffffff : BitVec 32).toNat = 2 ^ 28 - 1 := by decide
  rw [BitVec.toNat_and, mask, Nat.and_two_pow_sub_one_eq_mod, BitVec.toNat_ofNat, Nat.mod_eq_of_lt (b := 2 ^ 32) (by omega),
    Nat.mod_eq_of_lt h]

theorem pte_page (dma i : ℕ) (h : dma / 2 ^ 12 + i < 2 ^ 28) (w : Bool) : (pte dma i w &&& 0x0fffffff).toNat = dma / 2 ^ 12 + i := by
  have valid : mmuPteValid &&& 0x0fffffff = 0#32 := by decide
  have write : (if w = true then mmuPteWrite else 0) &&& 0x0fffffff = 0#32 := by cases w <;> decide
  rw [pte, BitVec.and_or_distrib_right, BitVec.and_or_distrib_right, page_masked h, valid, write]
  simp only [BitVec.or_zero, BitVec.toNat_ofNat]
  exact Nat.mod_eq_of_lt (by omega)

theorem pte_write (dma i : ℕ) (h : dma / 2 ^ 12 + i < 2 ^ 28) (w : Bool) : pte dma i w &&& mmuPteWrite = 0 ↔ w = false := by
  have page : BitVec.ofNat 32 (dma / 2 ^ 12 + i) &&& mmuPteWrite = 0#32 := by
    rw [← page_masked h, BitVec.and_assoc]
    exact BitVec.and_zero
  have valid : mmuPteValid &&& mmuPteWrite = 0#32 := by decide
  rw [pte, BitVec.and_or_distrib_right, BitVec.and_or_distrib_right, page, valid]
  cases w <;> decide

end Entries

/-! ### The walk -/

section Walk

variable {s : Space} {slot iova dma : ℕ} {m : Mapping} {write : Bool}

theorem Space.Sound.fits (sound : s.Sound) (h : s slot = some m) {i : ℕ} (hi : i < m.pages) : m.dma / 2 ^ 12 + i < 2 ^ 28 := by
  obtain ⟨-, -, pages, -, low, high⟩ := sound slot m h
  unfold mmuMaxPages mmuPage mmuDmaLimit at *
  omega

/-- An entry of a mapped slot. -/
theorem Space.entry_mapped (h : s slot = some m) {i : ℕ} (hi : i < m.pages) (hp : m.pages ≤ mmuMaxPages) :
    s.entry (slot * mmuSlotPages + 1 + i) = pte m.dma i m.writable := by
  have quotient : (slot * mmuSlotPages + 1 + i) / mmuSlotPages = slot := by
    unfold mmuSlotPages mmuMaxPages at *
    omega
  have place : (slot * mmuSlotPages + 1 + i) % mmuSlotPages = 1 + i := by
    unfold mmuSlotPages mmuMaxPages at *
    omega
  rw [Space.entry, quotient, h]
  simp only [place]
  rw [if_pos ⟨Nat.le_add_right 1 i, by omega⟩, Nat.add_sub_cancel_left]

/-- An entry that is not zero belongs to a mapped slot. -/
theorem Space.entry_ne_zero {k : ℕ} (h : s.entry k ≠ 0) : ∃ slot m i, s slot = some m ∧ i < m.pages ∧ k = slot * mmuSlotPages + 1 + i := by
  unfold Space.entry at h
  split at h
  · exact absurd rfl h
  · next m mapped =>
    split at h
    · next inside =>
      refine ⟨k / mmuSlotPages, m, k % mmuSlotPages - 1, mapped, by omega, ?_⟩
      have := Nat.div_add_mod' k mmuSlotPages
      omega
    · exact absurd rfl h

theorem walk_reaches (sound : s.Sound) : mmuWalk s.entry iova write = .ok dma ↔ s.Reaches iova write dma := by
  unfold mmuWalk
  constructor
  · intro walk
    split at walk
    · cases walk
    · next inside =>
      dsimp only at walk
      split at walk
      · cases walk
      · next passes =>
        rw [not_or] at passes
        obtain ⟨slot, m, i, mapped, hi, here⟩ := Space.entry_ne_zero (s := s) fun zero => passes.1 (by rw [zero]; decide)
        obtain ⟨-, -, pages, aligned, -⟩ := sound slot m mapped
        rw [here, s.entry_mapped mapped hi pages] at walk passes
        rw [pte_page _ _ (sound.fits mapped hi)] at walk
        refine ⟨slot, m, mapped, ?_, ?_, fun writes => ?_, ?_⟩
        · unfold payload mmuSlotPages mmuMaxPages mmuPage mmuIovaBase at *
          omega
        · unfold payload mmuSlotPages mmuMaxPages mmuPage mmuIovaBase at *
          omega
        · refine Bool.eq_true_of_not_eq_false fun readOnly => passes.2 ⟨writes, ?_⟩
          exact (pte_write _ _ (sound.fits mapped hi) _).mpr readOnly
        · cases walk
          unfold payload mmuSlotPages mmuMaxPages mmuPage mmuIovaBase at *
          omega
  · rintro ⟨slot, m, mapped, low, high, writes, rfl⟩
    obtain ⟨hs, -, pages, aligned, -⟩ := sound slot m mapped
    have hi : (iova - payload slot) / mmuPage < m.pages := by
      rw [Nat.div_lt_iff_lt_mul (by decide)]
      omega
    have here : (iova - mmuIovaBase) / 2 ^ 12 = slot * mmuSlotPages + 1 + (iova - payload slot) / mmuPage := by
      unfold payload mmuSlotPages mmuMaxPages mmuPage mmuIovaBase at *
      omega
    rw [if_neg, here]
    · dsimp only
      rw [s.entry_mapped mapped hi pages, if_neg, pte_page _ _ (sound.fits mapped hi)]
      · congr 1
        unfold payload mmuSlotPages mmuMaxPages mmuPage mmuIovaBase at *
        omega
      · rintro (zero | ⟨write, zero⟩)
        · exact pte_valid _ _ _ zero
        · rw [pte_write _ _ (sound.fits mapped hi), writes write] at zero
          cases zero
    · unfold payload mmuSlots mmuSlotPages mmuMaxPages mmuPage mmuIovaBase at *
      omega

end Walk

/-! ### Calls that change the table -/

section Stores

variable {c : Context} {f : ℕ → BitVec 32} {a n : ℕ}

/-- The table with some entries written. -/
def storedFrom (a n : ℕ) (f : ℕ → BitVec 32) (t : ℕ → BitVec 32) (k : ℕ) : BitVec 32 := if a ≤ k ∧ k < a + n then f (k - a) else t k

theorem storedFrom_succ (a n : ℕ) (f : ℕ → BitVec 32) (t : ℕ → BitVec 32) :
    storedFrom a (n + 1) f t = Function.update (storedFrom a n f t) (a + n) (f n) := by
  funext k
  by_cases last : k = a + n
  · rw [last, Function.update_self, storedFrom, if_pos (by omega), Nat.add_sub_cancel_left]
  · rw [Function.update_of_ne last]
    exact if_congr (by omega) rfl rfl

theorem each_store {ε : Type} (l : List ℕ) (c : Context) : ∃ c', (each (fun i => store (ε := ε) (a + i) (f i)) l).run c = (.ok (), c') ∧
    c'.state.table = l.foldl (fun t i => Function.update t (a + i) (f i)) c.state.table := by
  induction l generalizing c with
  | nil => exact ⟨c, rfl, rfl⟩
  | cons i l ih =>
    obtain ⟨c', run, table⟩ := ih ((store (ε := ε) (a + i) (f i)).run c).2
    exact ⟨c', (run_bind_ok rfl).trans run, table⟩

theorem foldl_stored (a n : ℕ) (f : ℕ → BitVec 32) (t : ℕ → BitVec 32) :
    (List.range n).foldl (fun t i => Function.update t (a + i) (f i)) t = storedFrom a n f t := by
  induction n with
  | zero =>
    funext k
    exact (if_neg (by omega)).symm
  | succ n ih => rw [List.range_succ, List.foldl_append, ih, storedFrom_succ, List.foldl_cons, List.foldl_nil]

/-- Storing entries one after the other. -/
theorem stores_rule {ε : Type} {E : ε → Context → Prop} (a n : ℕ) (f : ℕ → BitVec 32) :
    Triple (· = c) (each (fun i => store (a + i) (f i)) (List.range n)) (fun _ c' => c'.state.table = storedFrom a n f c.state.table) E := by
  intro s hs
  subst hs
  obtain ⟨c', run, table⟩ := each_store (ε := ε) (a := a) (f := f) (List.range n) s
  rw [run]
  exact table.trans (foldl_stored a n f _)

/-- A check, before anything is stored. -/
theorem require_same {p : Prop} [Decidable p] {r : Result} {α : Type} {x : Mmu α} {Q : α → Context → Prop}
    (h : p → Triple (· = c) x Q fun _ c' => c'.state.table = c.state.table) :
    Triple (· = c) (require p r >>= fun _ => x) Q fun _ c' => c'.state.table = c.state.table :=
  Triple.bind (Q := fun _ c' => p ∧ c' = c) (Triple.require (fun _ hs yes => ⟨yes, hs⟩) fun _ hs _ => hs ▸ rfl) fun _ => Triple.assume h

end Stores

/-- What a call that succeeds has found in the table, and what it leaves there. -/
def TableCall.Done (t t' : ℕ → BitVec 32) : TableCall → Prop
  | .map slot dma pages writable => slot < mmuSlots ∧ Address dma pages ∧ (∀ i < mmuSlotPages, t (slot * mmuSlotPages + i) = 0) ∧
      t' = storedFrom (slot * mmuSlotPages + 1) pages (fun i => pte dma i (writable = 1)) t
  | .unmap slot pages => slot < mmuSlots ∧ pages ≤ mmuMaxPages ∧ t (slot * mmuSlotPages) = 0 ∧
      (∀ i < mmuSlotPages, pages < i → t (slot * mmuSlotPages + i) = 0) ∧ t' = storedFrom (slot * mmuSlotPages + 1) pages (fun _ => 0) t

theorem TableCall.serve_rule (call : TableCall) (c : Context) :
    Triple (· = c) call.serve (fun _ c' => call.Done c.state.table c'.state.table) fun _ c' => c'.state.table = c.state.table := by
  cases call with
  | map slot dma pages writable =>
    refine require_same fun _ => ?_
    split
    · next there =>
      refine require_same fun address => look_bind fun _ hs => hs ▸ require_same fun empty => ?_
      exact (stores_rule _ pages fun i => pte dma i (writable = 1)).mono (fun _ hs => hs) (fun _ _ table => ⟨there, address, empty, table⟩)
        fun _ _ hs => hs
    · exact Triple.stop fun _ hs => hs ▸ rfl
  | unmap slot pages =>
    change Triple _ (mmuUnmapCall slot pages) _ _
    unfold mmuUnmapCall
    split
    · next there =>
      refine require_same fun most => look_bind fun _ hs => hs ▸ require_same fun guard => require_same fun _ => require_same fun rest => ?_
      exact (stores_rule _ pages fun _ => 0).mono (fun _ hs => hs) (fun _ _ table => ⟨there, most.2, guard, rest, table⟩) fun _ _ hs => hs
    · exact Triple.stop fun _ hs => hs ▸ rfl

/-- A call changes only the entries of its slot. -/
theorem TableCall.Done.own {call : TableCall} {t t' : ℕ → BitVec 32} (h : call.Done t t') {k : ℕ} (other : k / mmuSlotPages ≠ call.slot) :
    t' k = t k := by
  cases call with
  | map slot dma pages writable =>
    obtain ⟨-, ⟨-, most, -⟩, -, rfl⟩ := h
    refine if_neg fun inside => other ?_
    change k / mmuSlotPages = slot
    unfold mmuSlotPages mmuMaxPages at *
    omega
  | unmap slot pages =>
    obtain ⟨-, most, -, -, rfl⟩ := h
    refine if_neg fun inside => other ?_
    change k / mmuSlotPages = slot
    unfold mmuSlotPages mmuMaxPages at *
    omega

/-- The table of the space that the call makes. -/
theorem TableCall.Done.entry {call : TableCall} {s : Space} {t' : ℕ → BitVec 32} (h : call.Done s.entry t') :
    t' = Space.entry (Function.update s call.slot call.mapping) := by
  funext k
  by_cases here : k / mmuSlotPages = call.slot
  · have place : k = call.slot * mmuSlotPages + k % mmuSlotPages := by rw [← here, Nat.div_add_mod']
    have bound : k % mmuSlotPages < mmuSlotPages := Nat.mod_lt k (by decide)
    rw [Space.entry, here, Function.update_self]
    cases call with
    | map slot dma pages writable =>
      obtain ⟨-, -, empty, rfl⟩ := h
      change storedFrom _ _ _ _ k = if 1 ≤ k % mmuSlotPages ∧ k % mmuSlotPages ≤ pages then pte dma (k % mmuSlotPages - 1) (decide (writable = 1)) else 0
      change k = slot * mmuSlotPages + k % mmuSlotPages at place
      unfold storedFrom
      refine if_congr (by omega) ?_ ?_
      · rw [show k - (slot * mmuSlotPages + 1) = k % mmuSlotPages - 1 by omega]
      · rw [place]
        exact empty _ bound
    | unmap slot pages =>
      obtain ⟨-, -, guard, rest, rfl⟩ := h
      change k = slot * mmuSlotPages + k % mmuSlotPages at place
      change storedFrom _ _ _ _ k = 0
      unfold storedFrom
      split
      · rfl
      · by_cases first : k % mmuSlotPages = 0
        · rw [place, first]
          exact guard
        · rw [place]
          exact rest _ bound (by omega)
  · rw [h.own here, Space.entry, Space.entry, Function.update_of_ne here]

/-! ### Runs -/

/-- The table is the one that the mapped slots call for. -/
def Represents (c : Context × Space) : Prop := c.2.Sound ∧ c.1.state.table = c.2.entry

theorem tableStep_represents {c : Context × Space} (h : Represents c) (call : TableCall) : Represents (tableStep c call) := by
  obtain ⟨sound, table⟩ := h
  have served := call.serve_rule c.1 (s := c.1) rfl
  unfold tableStep
  rcases hr : call.serve.run c.1 with ⟨e | ⟨⟩, c'⟩
  · rw [hr] at served
    exact ⟨sound, served.trans table⟩
  · rw [hr] at served
    have done : call.Done c.1.state.table c'.state.table := served
    rw [table] at done
    refine ⟨fun slot m mapped => ?_, done.entry⟩
    change Function.update c.2 call.slot call.mapping slot = some m at mapped
    by_cases here : slot = call.slot
    · subst here
      have new : call.mapping = some m := by rwa [Function.update_self] at mapped
      cases call with
      | map slot dma pages writable =>
        cases new
        exact ⟨done.1, done.2.1⟩
      | unmap slot pages => cases new
    · exact sound slot m (by rwa [Function.update_of_ne here] at mapped)

theorem tableRun_represents (world : World) (calls : List TableCall) : Represents (tableRun world calls) := by
  induction calls using List.reverseRecOn with
  | nil => exact ⟨nofun, rfl⟩
  | append_singleton calls call ih =>
    rw [tableRun, List.foldl_append]
    exact tableStep_represents ih call

/-- After any calls, the walk of an address succeeds exactly where a mapped slot has it, and finds its memory.
The pages around the memory of a slot lead nowhere. A call that fails leaves the table as it is, and one that
succeeds changes entries of its slot only. -/
theorem walk_exact (world : World) (calls : List TableCall) :
    let c := tableRun world calls
    (∀ iova write dma, mmuWalkCall c.1.state.table iova write = .ok dma ↔ write ≤ 1 ∧ c.2.Reaches iova (write = 1) dma) ∧
      (∀ slot page offset write dma, slot < mmuSlots → page < mmuSlotPages → offset < mmuPage →
        (page = 0 ∨ ∀ m, c.2 slot = some m → m.pages < page) →
          mmuWalkCall c.1.state.table (mmuIovaBase + (slot * mmuSlotPages + page) * mmuPage + offset) write ≠ .ok dma) ∧
      ∀ call : TableCall, match call.serve.run c.1 with
        | (.error _, after) => after.state.table = c.1.state.table
        | (.ok _, after) => ∀ k, k / mmuSlotPages ≠ call.slot → after.state.table k = c.1.state.table k := by
  intro c
  obtain ⟨sound, table⟩ := tableRun_represents world calls
  have walks (iova write dma : ℕ) : mmuWalkCall c.1.state.table iova write = .ok dma ↔ write ≤ 1 ∧ c.2.Reaches iova (write = 1) dma := by
    rw [table, mmuWalkCall]
    split
    · next wrong => exact ⟨nofun, fun h => absurd h.1 (Nat.not_le.mpr wrong)⟩
    · next right => exact (walk_reaches sound).trans ⟨fun h => ⟨Nat.not_lt.mp right, h⟩, And.right⟩
  refine ⟨walks, fun slot page offset write dma hs hp ho guard walk => ?_, fun call => ?_⟩
  · obtain ⟨-, slot', m, mapped, low, high, -, -⟩ := (walks _ _ _).mp walk
    obtain ⟨hs', -, most, -⟩ := sound slot' m mapped
    have same : slot' = slot := by
      unfold payload mmuSlotPages mmuMaxPages mmuPage mmuIovaBase at *
      omega
    subst same
    rcases guard with zero | above
    · unfold payload mmuPage at *
      omega
    · have := above m mapped
      unfold payload mmuPage at *
      omega
  · have served := call.serve_rule c.1 (s := c.1) rfl
    rcases hr : call.serve.run c.1 with ⟨e | ⟨⟩, c'⟩
    · rw [hr] at served
      exact served
    · rw [hr] at served
      exact fun k other => TableCall.Done.own served other

end Pi5Drivers.Iommu
