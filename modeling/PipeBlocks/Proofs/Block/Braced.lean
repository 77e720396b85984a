import PipeBlocks.Proofs.Call
import PipeBlocks.Block.Segments

/-! Texts in braces, and the blocks they are.

`braced t` is a block exactly if a pipe separates in `t`; the first cut gives its two halves
(`parse?_braced_of_cut`, `parse?_braced_of_whole`). -/
namespace PipeBlocks
open Text Scan

def braced (t : Text) : Text := '{' :: t ++ ['}']

theorem braced_injective {t u : Text} (h : braced t = braced u) : t = u := by
  simpa [braced] using h

theorem braced_append (t u : Text) : braced t ++ u = '{' :: (t ++ '}' :: u) := by simp [braced]

theorem byteLength_braced (t : Text) : (braced t).byteLength = t.byteLength + 2 := by
  have hopening : '{'.utf8Size = 1 := rfl
  have hclosing : '}'.utf8Size = 1 := rfl
  rw [braced, List.cons_append, byteLength_cons, byteLength_append, byteLength_cons, byteLength_nil,
    hopening, hclosing]
  omega

/-- Braces take room. -/
theorem byteLength_braced_pos (t : Text) : 0 < (braced t).byteLength := by
  rw [byteLength_braced]
  omega

def BraceFree (t : Text) : Prop := ∀ c ∈ t, isBrace c = false

instance (t : Text) : Decidable (BraceFree t) :=
  decidable_of_iff (t.all (!isBrace ·) = true) (by simp [BraceFree])

namespace Block

@[simp] theorem inner?_braced (t : Text) : inner? (braced t) = some t := by
  unfold braced inner?
  simp

theorem content_of_raw {b : Block} {t : Text} (h : b.raw = braced t) : b.content = t := by
  rw [content, h, inner?_braced, Option.getD_some]

theorem isComplete_iff {b : Block} : b.isComplete = true ↔
    b.expression ≠ [] ∧ b.chain ≠ [] ∧ leavesStringOpen b.content = false := by
  simp [isComplete, and_assoc]

theorem parse?_braced_of_whole {t : Text} (h : Whole .pipe .start t) (start : Nat) :
    parse? (braced t) start = none := by
  unfold Whole at h
  simp [parse?, splitOnce?, h]

theorem parse?_braced_of_cut {t x y : Text} (h : CutAt .pipe .start t x y) (start : Nat) :
    parse? (braced t) start = some ⟨braced t, x.trim, y.trim, start⟩ := by
  simp [parse?, splitOnce?, splitOnceFrom_eq_some_iff.mpr h]

theorem parse?_braced_eq_some_iff {t : Text} {start : Nat} {b : Block} :
    parse? (braced t) start = some b ↔
      ∃ x y, CutAt .pipe .start t x y ∧ b = ⟨braced t, x.trim, y.trim, start⟩ := by
  constructor
  · intro h
    rcases whole_or_cut .pipe .start t with hw | ⟨x, y, cut⟩
    · rw [parse?_braced_of_whole hw] at h
      cases h
    · rw [parse?_braced_of_cut cut] at h
      exact ⟨x, y, cut, (Option.some.inj h).symm⟩
  · rintro ⟨x, y, cut, rfl⟩
    exact parse?_braced_of_cut cut start

/-- A block keeps the text and the place it is read from. -/
theorem eq_of_parse?_eq_some {raw : Text} {start : Nat} {b : Block} (h : parse? raw start = some b) :
    b.raw = raw ∧ b.start = start := by
  unfold parse? at h
  obtain ⟨content, -, h⟩ := Option.bind_eq_some_iff.mp h
  obtain ⟨halves, -, h⟩ := Option.bind_eq_some_iff.mp h
  obtain rfl := Option.some.inj h
  exact ⟨rfl, rfl⟩

/-! ### Replacements -/

theorem replacement_eq_ok_iff {b : Block} {namePrefix after : Text} :
    b.replacement namePrefix = .ok after ↔
      ∃ call, callExpression b.expression (stages b.chain) namePrefix = .ok call ∧
        braced call = after := by
  unfold replacement
  cases callExpression b.expression (stages b.chain) namePrefix <;> simp [Except.map, braced]

theorem replacement_eq_error_iff {b : Block} {namePrefix : Text} {e : CallError} :
    b.replacement namePrefix = .error e ↔
      callExpression b.expression (stages b.chain) namePrefix = .error e := by
  unfold replacement
  cases callExpression b.expression (stages b.chain) namePrefix <;> simp [Except.map]

/-- The block is replaced by `after`. -/
structure Replaced (b : Block) (namePrefix after : Text) : Prop where
  complete : b.isComplete = true
  replacement : b.replacement namePrefix = .ok after

theorem Replaced.unique {b : Block} {namePrefix after after' : Text}
    (h : b.Replaced namePrefix after) (h' : b.Replaced namePrefix after') : after = after' := by
  have := h.replacement.symm.trans h'.replacement
  simpa using this

theorem replaced_or_not (b : Block) (namePrefix : Text) :
    (∃ after, b.Replaced namePrefix after) ∨ ∀ after, ¬ b.Replaced namePrefix after := by
  by_cases h : ∃ after, b.Replaced namePrefix after
  · exact .inl h
  · exact .inr fun after ha => h ⟨after, ha⟩

theorem isComplete_of_cut {t x y : Text} {start : Nat} :
    isComplete ⟨braced t, x.trim, y.trim, start⟩ = true ↔
      x.isBlank = false ∧ y.isBlank = false ∧ leavesStringOpen t = false := by
  rw [isComplete_iff, content_of_raw rfl, ne_eq, ne_eq, trim_eq_nil_iff, trim_eq_nil_iff,
    Bool.not_eq_true, Bool.not_eq_true]

/-- A cut text in braces is replaced if it has an expression, closes its strings and has stages,
all of them with names. -/
theorem replaced_iff {t x y namePrefix after : Text} {start : Nat} :
    Replaced ⟨braced t, x.trim, y.trim, start⟩ namePrefix after ↔
      x.isBlank = false ∧ leavesStringOpen t = false ∧ stages y ≠ [] ∧
        (∀ s ∈ stages y, s.name ≠ []) ∧ braced (nest namePrefix x.trim (stages y)) = after := by
  constructor
  · rintro ⟨hcomplete, hreplacement⟩
    obtain ⟨hx, -, hclosed⟩ := isComplete_of_cut.mp hcomplete
    obtain ⟨call, hcall, hafter⟩ := replacement_eq_ok_iff.mp hreplacement
    obtain ⟨-, hne, hnamed, rfl⟩ := callExpression_eq_ok_iff.mp hcall
    rw [stages_trim] at hne hnamed hafter
    exact ⟨hx, hclosed, hne, hnamed, hafter⟩
  · rintro ⟨hx, hclosed, hne, hnamed, rfl⟩
    have hy : y.isBlank = false := by
      rw [Bool.eq_false_iff]
      intro hy
      exact hne (stages_of_isBlank hy)
    refine ⟨isComplete_of_cut.mpr ⟨hx, hy, hclosed⟩, replacement_eq_ok_iff.mpr ⟨_, ?_, rfl⟩⟩
    rw [stages_trim, callExpression_eq_ok_iff, isBlank_trim]
    exact ⟨hx, hne, hnamed, rfl⟩

/-- Whether a cut text in braces is replaced does not depend on the prefix or the place. -/
theorem replaced_congr {t x y : Text} {start : Nat} (start' : Nat) {namePrefix after : Text}
    (namePrefix' : Text) (h : Replaced ⟨braced t, x.trim, y.trim, start⟩ namePrefix after) :
    ∃ after', Replaced ⟨braced t, x.trim, y.trim, start'⟩ namePrefix' after' := by
  obtain ⟨hx, hclosed, hne, hnamed, -⟩ := replaced_iff.mp h
  exact ⟨_, replaced_iff.mpr ⟨hx, hclosed, hne, hnamed, rfl⟩⟩

end Block

end PipeBlocks
