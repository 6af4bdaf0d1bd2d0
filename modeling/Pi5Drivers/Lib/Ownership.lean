import Pi5Drivers.Lib.Common
import Mathlib.Order.BooleanAlgebra.Set

/-! Who has which pins. A pin is owned for input and output, for interrupts or for a function; the
first two may share a pin that is read only. Pins that were taken once are remembered, so that they
can be put back. -/

namespace Pi5Drivers

structure Owners (ι : Type) where
  io : Set ι
  /-- Owned for input and output, and driven. -/
  output : Set ι
  irq : Set ι
  function : Set ι
  touched : Set ι

namespace Owners

variable {ι : Type} {o : Owners ι} {s t : Set ι}

def owned (o : Owners ι) : Set ι := o.io ∪ o.irq ∪ o.function

structure Sound (o : Owners ι) : Prop where
  apart : Disjoint o.function (o.io ∪ o.irq)
  output : o.output ⊆ o.io
  exclusive : Disjoint o.output o.irq
  touched : o.owned ⊆ o.touched

def none : Owners ι := ⟨∅, ∅, ∅, ∅, ∅⟩

theorem sound_none : (none : Owners ι).Sound where
  apart := Set.empty_disjoint _
  output := Set.Subset.rfl
  exclusive := Set.empty_disjoint _
  touched := by simp [owned, none]

/-! ### Taking pins -/

def takeIo (o : Owners ι) (s : Set ι) : Owners ι := { o with io := o.io ∪ s, touched := o.touched ∪ s }

def takeOutput (o : Owners ι) (s : Set ι) : Owners ι := { o with io := o.io ∪ s, output := o.output ∪ s, touched := o.touched ∪ s }

def takeIrq (o : Owners ι) (s : Set ι) : Owners ι := { o with irq := o.irq ∪ s, touched := o.touched ∪ s }

def takeFunction (o : Owners ι) (s : Set ι) : Owners ι := { o with function := o.function ∪ s, touched := o.touched ∪ s }

theorem Sound.takeIo (h : o.Sound) (free : Disjoint s o.function) : (o.takeIo s).Sound where
  apart := by
    refine Set.disjoint_union_right.mpr ⟨Set.disjoint_union_right.mpr ⟨?_, free.symm⟩, ?_⟩
    · exact (Set.disjoint_union_right.mp h.apart).1
    · exact (Set.disjoint_union_right.mp h.apart).2
  output := h.output.trans Set.subset_union_left
  exclusive := h.exclusive
  touched := by
    rintro p (((hp | hp) | hp) | hp)
    · exact .inl (h.touched (.inl (.inl hp)))
    · exact .inr hp
    · exact .inl (h.touched (.inl (.inr hp)))
    · exact .inl (h.touched (.inr hp))

theorem Sound.takeOutput (h : o.Sound) (free : Disjoint s o.function) (quiet : Disjoint s o.irq) : (o.takeOutput s).Sound :=
  { h.takeIo free with
    output := Set.union_subset_union_left s h.output
    exclusive := Set.disjoint_union_left.mpr ⟨h.exclusive, quiet⟩ }

theorem Sound.takeIrq (h : o.Sound) (free : Disjoint s o.function) (quiet : Disjoint s o.output) : (o.takeIrq s).Sound where
  apart := by
    refine Set.disjoint_union_right.mpr ⟨?_, Set.disjoint_union_right.mpr ⟨?_, free.symm⟩⟩
    · exact (Set.disjoint_union_right.mp h.apart).1
    · exact (Set.disjoint_union_right.mp h.apart).2
  output := h.output
  exclusive := Set.disjoint_union_right.mpr ⟨h.exclusive, quiet.symm⟩
  touched := by
    rintro p ((hp | hp | hp) | hp)
    · exact .inl (h.touched (.inl (.inl hp)))
    · exact .inl (h.touched (.inl (.inr hp)))
    · exact .inr hp
    · exact .inl (h.touched (.inr hp))

theorem Sound.takeFunction (h : o.Sound) (free : Disjoint s (o.io ∪ o.irq)) : (o.takeFunction s).Sound where
  apart := Set.disjoint_union_left.mpr ⟨h.apart, free⟩
  output := h.output
  exclusive := h.exclusive
  touched := by
    rintro p (hp | hp | hp)
    · exact .inl (h.touched (.inl hp))
    · exact .inl (h.touched (.inr hp))
    · exact .inr hp

/-! ### Leaving pins -/

def leaveIo (o : Owners ι) (s : Set ι) : Owners ι := { o with io := o.io \ s, output := o.output \ s }

def leaveIrq (o : Owners ι) (s : Set ι) : Owners ι := { o with irq := o.irq \ s }

def leaveFunction (o : Owners ι) (s : Set ι) : Owners ι := { o with function := o.function \ s }

theorem Sound.leaveIo (h : o.Sound) : (o.leaveIo s).Sound where
  apart := h.apart.mono_right (Set.union_subset_union_left _ Set.sdiff_subset)
  output := Set.sdiff_subset_sdiff_left h.output
  exclusive := h.exclusive.mono_left Set.sdiff_subset
  touched := Set.Subset.trans (Set.union_subset_union_left _ (Set.union_subset_union_left _ Set.sdiff_subset)) h.touched

theorem Sound.leaveIrq (h : o.Sound) : (o.leaveIrq s).Sound where
  apart := h.apart.mono_right (Set.union_subset_union_right _ Set.sdiff_subset)
  output := h.output
  exclusive := h.exclusive.mono_right Set.sdiff_subset
  touched := Set.Subset.trans (Set.union_subset_union_left _ (Set.union_subset_union_right _ Set.sdiff_subset)) h.touched

theorem Sound.leaveFunction (h : o.Sound) : (o.leaveFunction s).Sound where
  apart := h.apart.mono_left Set.sdiff_subset
  output := h.output
  exclusive := h.exclusive
  touched := Set.Subset.trans (Set.union_subset_union_right _ Set.sdiff_subset) h.touched

/-- Pins that nobody owns may be forgotten. -/
theorem Sound.remember (h : o.Sound) (known : o.owned ⊆ t) : ({ o with touched := t } : Owners ι).Sound := { h with touched := known }

end Owners

end Pi5Drivers
