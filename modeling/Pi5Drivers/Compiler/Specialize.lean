import Pi5Drivers.Compiler.Run
import Mathlib.Tactic.IntervalCases

/-! Reuse of specialized programs. A program that was compiled under one snapshot of the
constant buffers may be reused under another one if the words of `specialized` are the
same in both. The compiler reads the snapshot only through `constant`, so its whole run is
determined by the words it has recorded; that the finished program carries this
record is what is left to prove. -/

namespace Pi5Drivers.Compiler

open Abi Compile

variable {settings : Settings} {tokens : List UWord} {word word' : ℕ × UWord → UWord}
  {shader : Shader} {s t : State}

/-- `Emit` changes nothing in the compiler, and hands over its record. -/
theorem emit_ok (h : (emit settings).run word s = (.ok shader, t)) :
    t = s ∧ ∃ e, emitted (s.graph settings) = .ok e ∧ shader = s.shader settings e ∧
      shader.code.length ≤ maxProgramWords ∧ shader.uniforms.length ≤ maxProgramUniforms := by
  simp only [emit, Tracked.bind_ok, get_ok] at h
  obtain ⟨_, _, ⟨rfl, rfl⟩, h⟩ := h
  cases he : emitted (s.graph settings) with
  | error message => simp [he] at h
  | ok e =>
    simp only [he, Tracked.bind_ok, need_ok, Tracked.pure_ok] at h
    obtain ⟨-, _, ⟨hcode, rfl⟩, -, _, ⟨huniforms, rfl⟩, rfl, rfl⟩ := h
    exact ⟨rfl, e, rfl, rfl, hcode, huniforms⟩

/-- The parts of a successful run: the main loop, the roots and the emission. -/
theorem run_ok (h : (run settings tokens).run word s = (.ok shader, t)) :
    ∃ ends looped, matchBlocks tokens tokens.length 2 [] (fun _ => 0) = .ok ends ∧
      (followAll settings tokens ends 65536 2 []).run word { s with reader := tokens.drop 2 } =
        (.ok (), looped) ∧
      (selectRoots settings).run word looped = (.ok (), t) ∧
      (emit settings).run word t = (.ok shader, t) := by
  simp only [run, Tracked.bind_ok, change_ok, take_ok, need_ok] at h
  obtain ⟨-, _, rfl, version, _, ⟨rest, hversion, rfl⟩, -, _, ⟨-, rfl⟩, count, _, ⟨rest', hcount, rfl⟩,
    -, _, ⟨-, rfl⟩, h⟩ := h
  dsimp only at hversion hcount h
  subst hversion hcount
  split at h
  · simp at h
  · rename_i ends hends
    simp only [Tracked.bind_ok] at h
    obtain ⟨⟨⟩, looped, hloop, ⟨⟩, s', hroots, hemit⟩ := h
    obtain ⟨rfl, -⟩ := emit_ok hemit
    exact ⟨ends, looped, hends, hloop, hroots, hemit⟩

/-- The record of a finished program is that of its compilation. -/
theorem run_specialized (h : (run settings tokens).run word s = (.ok shader, t)) :
    shader.specialized = t.specialized := by
  obtain ⟨_, _, -, -, -, hemit⟩ := run_ok h
  obtain ⟨-, e, -, rfl, -⟩ := emit_ok hemit
  rfl

/-- **Every constant a program relies on is recorded.** A snapshot that agrees with the one a
program was compiled under on the words of `specialized` gives the same program. -/
theorem compileWithin_agree {stage : ShaderStage} {linked : Option ShaderSignature}
    {constants constants' : ConstantBuffers} {blend : Option ShaderBlend} {window : ℕ}
    (h : compileWithin stage linked (some constants) blend tokens window = .ok shader)
    (hagree : ∀ u ∈ shader.specialized, constants.word u.slot u.value.toNat = constants'.word u.slot u.value.toNat) :
    compileWithin stage linked (some constants') blend tokens window = .ok shader := by
  unfold compileWithin at h ⊢
  dsimp only [Option.isSome_some, Option.elim_some] at h ⊢
  obtain ⟨t, ht⟩ : ∃ t, (run ⟨stage, linked, true, blend, window⟩ tokens).run
      (fun k => constants.word k.1 k.2.toNat) .initial = (.ok shader, t) := ⟨_, Prod.ext h rfl⟩
  rw [(run _ tokens).agree _ (fun k => constants'.word k.1 k.2.toNat) .initial, ht]
  rw [ht]
  rintro _ ⟨u, hu, rfl⟩
  exact hagree u (run_specialized ht ▸ hu)

/-- `dcl_constantbuffer cb0[1]`, `dcl_output o0`, `iadd o0, cb0[0], cb0[0]`, `ret`. -/
def doubleConstant : List UWord :=
  [0x40, 19, 0x04000059, 0x00208e46, 0, 1, 0x03000065, 0x001020f2, 0,
    0x0900001e, 0x001020f2, 0, 0x00208e46, 0, 0, 0x00208e46, 0, 0, 0x0100003e]

def snapshot : ConstantBuffers := fun _ => [1, 2, 3, 4]

def otherSnapshot : ConstantBuffers := fun slot => if slot = 0 then [1, 2, 3, 4, 5] else []

set_option maxRecDepth 20000 in
/-- The sums are folded, so the program relies on the four words and on no others. -/
theorem doubleConstant_agree : ∃ shader,
    compileWithin .pixel none (some snapshot) none doubleConstant 64 = .ok shader ∧
    compileWithin .pixel none (some otherSnapshot) none doubleConstant 64 = .ok shader := by
  have hspecialized : (compileWithin .pixel none (some snapshot) none doubleConstant 64).toOption.map
      Shader.specialized = some ((List.range 4).map fun c => ⟨.constantBuffer, BitVec.ofNat 32 c, 0⟩) := by
    decide +kernel
  cases h : compileWithin .pixel none (some snapshot) none doubleConstant 64 with
  | error message => rw [h] at hspecialized; exact absurd hspecialized (by simp [Except.toOption])
  | ok shader =>
    have hlist := Option.some.inj (h ▸ hspecialized :)
    refine ⟨shader, rfl, compileWithin_agree h fun u hu => ?_⟩
    rw [hlist] at hu
    obtain ⟨c, hc, rfl⟩ := List.mem_map.mp hu
    have := List.mem_range.mp hc
    interval_cases c <;> rfl

end Pi5Drivers.Compiler
