import Pi5Drivers.Lib.Common
import Mathlib.Data.List.Basic
import Mathlib.Tactic.Common

/-! Byte memories and the 32-bit words stored in them, least significant byte
first. A word read where it was written is the word written, and a write leaves
every word it does not touch. A list of writes to addresses that keep four bytes
apart leaves at each address the word its key was given, in whatever order the
keys come. -/

namespace Pi5Drivers

/-- A memory gives each address its byte. -/
abbrev Memory := ℕ → BitVec 8

namespace Memory

variable (m : Memory) {a b : ℕ} {v : BitVec 32}

def load32 (a : ℕ) : BitVec 32 := m (a + 3) ++ m (a + 2) ++ m (a + 1) ++ m a

def store32 (a : ℕ) (v : BitVec 32) : Memory := fun i =>
  if a ≤ i ∧ i < a + 4 then v.extractLsb' (8 * (i - a)) 8 else m i

/-- Two words of four bytes that share no byte. -/
def Apart (a b : ℕ) : Prop := a + 4 ≤ b ∨ b + 4 ≤ a

theorem store32_of_not_mem {i : ℕ} (h : i < a ∨ a + 4 ≤ i) : m.store32 a v i = m i := by
  rw [store32, if_neg (by omega)]

theorem load32_store32 : (m.store32 a v).load32 a = v := by
  have byte (k : ℕ) (hk : k < 4) : m.store32 a v (a + k) = v.extractLsb' (8 * k) 8 := by
    rw [store32, if_pos (by omega), Nat.add_sub_cancel_left]
  have byte0 := byte 0 (by omega)
  rw [Nat.add_zero] at byte0
  rw [load32, byte 3 (by omega), byte 2 (by omega), byte 1 (by omega), byte0]
  ext i hi
  simp only [BitVec.getElem_append, BitVec.getElem_extractLsb']
  grind

theorem load32_store32_of_apart (h : Apart a b) : (m.store32 a v).load32 b = m.load32 b := by
  have byte (k : ℕ) (hk : k < 4) : m.store32 a v (b + k) = m (b + k) :=
    store32_of_not_mem m (by unfold Apart at h; omega)
  have byte0 := byte 0 (by omega)
  rw [Nat.add_zero] at byte0
  rw [load32, load32, byte 3 (by omega), byte 2 (by omega), byte 1 (by omega), byte0]

section Writes

variable {κ : Type*} (address : κ → ℕ) (value : κ → BitVec 32)

/-- The writes of a list of keys, first key first. -/
def writeAll (keys : List κ) : Memory :=
  keys.foldl (fun m k => m.store32 (address k) (value k)) m

@[simp] theorem writeAll_nil : m.writeAll address value [] = m := rfl

@[simp] theorem writeAll_cons (k : κ) (keys : List κ) :
    m.writeAll address value (k :: keys) =
      (m.store32 (address k) (value k)).writeAll address value keys := rfl

theorem load32_writeAll_of_apart {keys : List κ} (h : ∀ k ∈ keys, Apart (address k) b) :
    (m.writeAll address value keys).load32 b = m.load32 b := by
  induction keys generalizing m with
  | nil => rfl
  | cons k keys ih =>
    rw [writeAll_cons, ih _ fun k' hk' => h k' (List.mem_cons_of_mem k hk')]
    exact load32_store32_of_apart m (h k List.mem_cons_self)

theorem writeAll_of_not_mem {i : ℕ} {keys : List κ}
    (h : ∀ k ∈ keys, i < address k ∨ address k + 4 ≤ i) : m.writeAll address value keys i = m i := by
  induction keys generalizing m with
  | nil => rfl
  | cons k keys ih =>
    rw [writeAll_cons, ih _ fun k' hk' => h k' (List.mem_cons_of_mem k hk')]
    exact store32_of_not_mem m (h k List.mem_cons_self)

/-- A key's word is what is read at its address after all the writes. -/
theorem load32_writeAll {keys : List κ} {k : κ} (hk : k ∈ keys)
    (h : ∀ k' ∈ keys, k' ≠ k → Apart (address k') (address k)) :
    (m.writeAll address value keys).load32 (address k) = value k := by
  classical
  induction keys generalizing m with
  | nil => exact absurd hk List.not_mem_nil
  | cons k' keys ih =>
    have rest : ∀ k'' ∈ keys, k'' ≠ k → Apart (address k'') (address k) := fun k'' hk'' =>
      h k'' (List.mem_cons_of_mem k' hk'')
    rw [writeAll_cons]
    by_cases later : k ∈ keys
    · exact ih _ later rest
    · obtain rfl : k = k' := (List.mem_cons.mp hk).resolve_right later
      rw [load32_writeAll_of_apart _ address value fun k'' hk'' =>
        rest k'' hk'' fun e => later (e ▸ hk'')]
      exact load32_store32 m

end Writes

end Memory

end Pi5Drivers
