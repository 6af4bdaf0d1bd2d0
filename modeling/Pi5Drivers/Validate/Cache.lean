import Pi5Drivers.Validate.Program

/-! The cache of accepted programs (`ProgramValidationCache`). An entry owns exact
copies of a program and of the uniforms its check looked at; a later call with
the same program, the same rules and the same values of those uniforms is
answered without a check. A check sees uniforms only through the reads it
records, so a hit answers as the check would. -/

namespace Pi5Drivers.Validate

open Qpu Abi

namespace ProgramValidationCache

def maxWords : ℕ := 2048
def maxUniforms : ℕ := 512

/-- The arrays keep what earlier programs left behind their current lengths. -/
structure Entry where
  hash : BitVec 64 := 0
  age : BitVec 64 := 0
  words : ℕ := 0
  uniforms : ℕ := 0
  rules : ProgramRules := {}
  outputs : Outputs := .cleared
  code : ℕ → Word := fun _ => 0
  values : ℕ → UWord := fun _ => 0

end ProgramValidationCache

open ProgramValidationCache

structure ProgramValidationCache where
  entries : Fin 32 → Entry := fun _ => {}
  age : BitVec 64 := 0

/-- What a caller of either check sees. -/
structure Verdict where
  valid : Bool
  patches : List TexturePatch
  registers : BitVec 32
  bindings : BitVec 32
  deriving DecidableEq

def Outputs.verdict (o : Outputs) (valid : Bool) : Verdict :=
  ⟨valid, o.patches, o.registers, o.bindings⟩

/-- The arguments of one call. -/
structure Call where
  program : List Word
  uniforms : List UWord
  rules : ProgramRules

def Call.check (c : Call) : Bool × Outputs := validateProgram c.program c.uniforms c.rules

/-- What `ValidateProgram` answers. -/
def Call.direct (c : Call) : Verdict := c.check.2.verdict c.check.1

namespace ProgramValidationCache

def programHash (program : List Word) : BitVec 64 :=
  program.foldl (fun h w => (h ^^^ w) * 1099511628211#64) 14695981039346656037#64

/-- `memcpy`: the first words of an array replaced. -/
def copy {α : Type} (xs : List α) (old : ℕ → α) : ℕ → α := fun i => xs.getD i (old i)

namespace Entry

/-- The entry holds this program under these rules, and every uniform its check
looked at has the value it had then. -/
def hits (e : Entry) (c : Call) : Prop :=
  e.words = c.program.length ∧ e.uniforms = c.uniforms.length ∧ e.hash = programHash c.program ∧
    e.rules = c.rules ∧ (∀ i < c.program.length, e.code i = c.program.getD i 0#64) ∧
    ∀ u < c.uniforms.length, e.outputs.checked u = true → e.values u = c.uniforms.getD u 0#32

instance (e : Entry) (c : Call) : Decidable (e.hits c) := inferInstanceAs (Decidable (_ ∧ _))

end Entry

/-- The first entry that hits, or else the least recently used one. -/
def search (cache : ProgramValidationCache) (c : Call) : List (Fin 32) → Fin 32 → Fin 32 × Bool
  | [], replace => (replace, false)
  | i :: is, replace =>
    if (cache.entries i).hits c then (i, true)
    else search cache c is (if (cache.entries i).age < (cache.entries replace).age then i else replace)

def set (cache : ProgramValidationCache) (i : Fin 32) (e : Entry) (age : BitVec 64) :
    ProgramValidationCache where
  entries := Function.update cache.entries i e
  age := age

/-- `ProgramValidationCache::Validate`. -/
def validate (cache : ProgramValidationCache) (c : Call) : Verdict × ProgramValidationCache :=
  if c.program = [] ∨ c.program.length > maxWords ∨ c.uniforms.length > maxUniforms then
    (c.direct, cache)
  else
    let (i, hit) := cache.search c (List.finRange 32) 0
    let e := cache.entries i
    let age := cache.age + 1
    if hit then (e.outputs.verdict true, cache.set i { e with age := age } age)
    else
      let (valid, outputs) := c.check
      if !valid then
        (⟨false, [], 0#32, 0#32⟩, cache.set i { e with words := 0, outputs := outputs } cache.age)
      else
        let e : Entry :=
          { hash := programHash c.program, age := age, words := c.program.length
            uniforms := c.uniforms.length, rules := c.rules, outputs := outputs
            code := copy c.program e.code, values := copy c.uniforms e.values }
        (outputs.verdict true, cache.set i e age)

/-- The answers to a sequence of calls. -/
def answers (cache : ProgramValidationCache) : List Call → List Verdict
  | [] => []
  | c :: cs => (cache.validate c).1 :: answers (cache.validate c).2 cs

/-! ### Every entry is an accepted program -/

/-- A used entry is the trace of an accepted call. -/
def Entry.Faithful (e : Entry) : Prop :=
  e.words ≠ 0 → ∃ c : Call, c.check = (true, e.outputs) ∧ e.rules = c.rules ∧
    e.words = c.program.length ∧ e.uniforms = c.uniforms.length ∧
    (∀ i < c.program.length, e.code i = c.program.getD i 0#64) ∧
    ∀ u < c.uniforms.length, e.values u = c.uniforms.getD u 0#32

def Faithful (cache : ProgramValidationCache) : Prop := ∀ i, (cache.entries i).Faithful

theorem copy_of_lt {α : Type} {xs : List α} {old : ℕ → α} {i : ℕ} (hi : i < xs.length) (d : α) :
    copy xs old i = xs.getD i d := by
  rw [copy, List.getD_eq_getElem _ _ hi, List.getD_eq_getElem _ _ hi]

theorem faithful_set {cache : ProgramValidationCache} (h : cache.Faithful) (i : Fin 32) {e : Entry}
    (he : e.Faithful) (age : BitVec 64) : (cache.set i e age).Faithful := by
  intro j
  show (Function.update cache.entries i e j).Faithful
  by_cases hj : j = i
  · subst hj
    rw [Function.update_self]
    exact he
  · rw [Function.update_of_ne hj]
    exact h j

theorem hits_of_search {cache : ProgramValidationCache} {c : Call} {is : List (Fin 32)}
    {replace i : Fin 32} (h : cache.search c is replace = (i, true)) : (cache.entries i).hits c := by
  induction is generalizing replace with
  | nil => simp [search] at h
  | cons j is ih =>
    unfold search at h
    split at h
    · simp only [Prod.mk.injEq, and_true] at h
      exact h ▸ ‹_›
    · exact ih h

/-- A hit answers what the check would. -/
theorem check_of_hits {e : Entry} {c : Call} (he : e.Faithful) (hne : c.program ≠ [])
    (hit : e.hits c) : c.check = (true, e.outputs) := by
  obtain ⟨hwords, hcount, -, hrules, hcode, hvalues⟩ := hit
  have hlen : c.program.length ≠ 0 := by simpa using hne
  obtain ⟨c₀, hcheck, hrules₀, hwords₀, hcount₀, hcode₀, hvalues₀⟩ := he (by omega)
  have hprogram : c.program = c₀.program := by
    apply List.ext_getElem (by omega)
    intro i h1 h2
    have := (hcode i h1).symm.trans (hcode₀ i h2)
    simpa [List.getD_eq_getElem, h1, h2] using this
  have hr : c.rules = c₀.rules := hrules.symm.trans hrules₀
  rw [Call.check, hprogram, hr, ← hcheck, Call.check]
  refine validateProgram_congr (by omega) fun u hu hc => ?_
  have hmarked : e.outputs.checked u = true := by
    have : (validateProgram c₀.program c₀.uniforms c₀.rules).2 = e.outputs := congrArg Prod.snd hcheck
    rwa [this] at hc
  rw [← hvalues₀ u hu]
  exact hvalues u (by omega) hmarked

/-- One call answers as the check does and leaves only accepted programs behind. -/
theorem validate_spec {cache : ProgramValidationCache} (h : cache.Faithful) (c : Call) :
    (cache.validate c).2.Faithful ∧ (cache.validate c).1.valid = c.direct.valid ∧
      (c.direct.valid = true → (cache.validate c).1 = c.direct) := by
  unfold validate
  split
  · exact ⟨h, rfl, fun _ => rfl⟩
  rename_i hsmall
  rw [not_or] at hsmall
  rcases hsearch : cache.search c (List.finRange 32) 0 with ⟨i, hit⟩
  dsimp only
  cases hit with
  | true =>
    have hcheck := check_of_hits (h i) hsmall.1 (hits_of_search hsearch)
    rw [if_pos rfl]
    refine ⟨faithful_set h i ?_ _, ?_⟩
    · exact fun hw => h i hw
    · simp [Call.direct, hcheck, Outputs.verdict]
  | false =>
    rw [if_neg (by simp)]
    rcases hcheck : c.check with ⟨valid, outputs⟩
    cases valid with
    | false =>
      refine ⟨faithful_set h i (fun hw => absurd rfl hw) _, ?_⟩
      simp [Call.direct, hcheck, Outputs.verdict]
    | true =>
      refine ⟨faithful_set h i (fun _ => ?_) _, ?_⟩
      · exact ⟨c, hcheck, rfl, rfl, rfl, fun i hi => copy_of_lt hi _, fun u hu => copy_of_lt hu _⟩
      · simp [Call.direct, hcheck, Outputs.verdict]

theorem answers_spec {cache : ProgramValidationCache} (h : cache.Faithful) (cs : List Call) :
    List.Forall₂ (fun c v => v.valid = c.direct.valid ∧ (c.direct.valid = true → v = c.direct)) cs
      (cache.answers cs) := by
  induction cs generalizing cache with
  | nil => exact .nil
  | cons c cs ih =>
    obtain ⟨hnext, hanswer⟩ := validate_spec h c
    exact .cons hanswer (ih hnext)

/-- From a zeroed cache, every call is answered as `ValidateProgram` answers it. -/
theorem cache_transparent (cs : List Call) :
    List.Forall₂ (fun c v => v.valid = c.direct.valid ∧ (c.direct.valid = true → v = c.direct)) cs
      (({} : ProgramValidationCache).answers cs) :=
  answers_spec (fun _ hw => absurd rfl hw) cs

end ProgramValidationCache

end Pi5Drivers.Validate
