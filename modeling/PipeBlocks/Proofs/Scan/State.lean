import PipeBlocks.Proofs.Text.Trim
import PipeBlocks.Scan.State

/-! How a scan moves.

Only quotes and brackets move it outside strings, so blank text does not. The depth it starts at
makes no difference to anything but the depth (`run_raise`). `NonnegOn` says that a scan never
drops below depth zero; a text over which it is that way may be read in two parts
(`nonnegOn_append`). -/
namespace PipeBlocks.Scan
open Text

theorem isStructural_of_isSpace {c : Char} (h : isSpace c = true) : isStructural c = false := by
  cases hs : isStructural c
  · rfl
  simp only [isStructural, isQuote, isOpener, isCloser, Bool.or_eq_true, beq_iff_eq] at hs
  rcases hs with ((rfl | rfl) | (rfl | rfl) | rfl) | (rfl | rfl) | rfl <;> exact absurd h (by decide)

theorem isStructural_of_isQuote {q : Char} (hq : isQuote q = true) :
    isStructural q = true := by
  simp [isStructural, hq]

namespace State
variable {s : State}

theorem step_code_of_plain {c : Char} (h : isStructural c = false) (n : Int) :
    (code n).step c = code n := by
  simp only [isStructural, Bool.or_eq_false_iff] at h
  simp [step, h]

/-- Outside strings a text without quotes and brackets changes nothing. -/
theorem run_code_of_plain {t : Text} (h : ∀ c ∈ t, isStructural c = false) (n : Int) :
    (code n).run t = code n := by
  induction t with
  | nil => rfl
  | cons c r ih =>
    rw [run_cons, step_code_of_plain (h c (List.mem_cons_self ..)),
      ih fun c' hc' => h c' (List.mem_cons_of_mem c hc')]

theorem run_code_of_isBlank {w : Text} (h : w.isBlank = true) (n : Int) : (code n).run w = code n :=
  run_code_of_plain (fun c hc => isStructural_of_isSpace (isSpace_of_mem_isBlank h c hc)) n

/-! ### Strings -/

/-- Only a quote opens a string. -/
def Valid : State → Prop
  | .code _ => True
  | .string quote _ _ => isQuote quote = true

theorem Valid.step (c : Char) (h : s.Valid) : (s.step c).Valid := by
  fun_cases State.step c s with
  | case1 depth hq => exact hq
  | case2 | case3 | case4 | case7 => trivial
  | case5 | case6 | case8 => exact h

theorem Valid.run (t : Text) (h : s.Valid) : (s.run t).Valid := by
  induction t generalizing s with
  | nil => exact h
  | cons c r ih => exact ih (h.step c)

theorem valid_start : start.Valid := trivial

theorem valid_run_start (t : Text) : (start.run t).Valid := valid_start.run t

/-- A text without quotes and brackets opens and closes no string. -/
theorem Valid.inString_run_of_plain {w : Text} (hs : s.Valid) (hw : ∀ c ∈ w, isStructural c = false) :
    (s.run w).inString = s.inString := by
  induction w generalizing s with
  | nil => rfl
  | cons c r ih =>
    have hc := hw c (List.mem_cons_self ..)
    rw [run_cons, ih (hs.step c) fun c' hc' => hw c' (List.mem_cons_of_mem c hc')]
    fun_cases State.step c s with
    | case1 depth hq => simp [isStructural, hq] at hc
    | case7 depth hb => simp [isStructural, show isQuote c = true from hs] at hc
    | case2 | case3 | case4 | case5 | case6 | case8 => rfl

/-- A blank text closes no string. -/
theorem Valid.inString_run {w : Text} (hs : s.Valid) (hw : w.isBlank = true) :
    (s.run w).inString = s.inString :=
  hs.inString_run_of_plain fun c hc => isStructural_of_isSpace (isSpace_of_mem_isBlank hw c hc)

/-- A text without quotes and brackets that is read up to depth zero outside strings begins there. -/
theorem Valid.eq_start_of_run {w : Text} (hs : s.Valid) (hw : ∀ c ∈ w, isStructural c = false)
    (h : s.run w = start) : s = start := by
  cases s with
  | code n => rwa [run_code_of_plain hw n] at h
  | string quote escaped n =>
    have hclosed := hs.inString_run_of_plain hw
    rw [h] at hclosed
    cases hclosed

/-- A scan that ends outside strings ends the same way without the white space around its text. -/
theorem run_trim {t : Text} {n : Int} (h : start.run t = code n) : start.run t.trim = code n := by
  obtain ⟨l, r, hl, hr, ht⟩ := exists_eq_append_trim t
  have hrun : start.run l = start := run_code_of_isBlank hl 0
  rw [ht, run_append, run_append, hrun] at h
  have hclosed := (valid_run_start t.trim).inString_run hr
  cases hs : start.run t.trim with
  | code m => rwa [hs, run_code_of_isBlank hr] at h
  | string quote escaped depth =>
    rw [h, hs] at hclosed
    cases hclosed

/-! ### Depth -/

/-- The same state at a depth changed by `n`. -/
def raise (n : Int) : State → State
  | .code depth => .code (depth + n)
  | .string quote escaped depth => .string quote escaped (depth + n)

@[simp] theorem depth_raise (n : Int) (s : State) : (s.raise n).depth = s.depth + n := by
  cases s <;> rfl

@[simp] theorem inString_raise (n : Int) (s : State) : (s.raise n).inString = s.inString := by
  cases s <;> rfl

theorem raise_start (n : Int) : start.raise n = code n := by simp [start, raise]

theorem step_raise (c : Char) (n : Int) (s : State) : (s.raise n).step c = (s.step c).raise n := by
  fun_cases State.step c s with
  | case1 depth hq => simp [raise, step, hq]
  | case2 depth hq ho => simp [raise, step, hq, ho]; omega
  | case3 depth hq ho hc => simp [raise, step, hq, ho, hc]; omega
  | case4 depth hq ho hc => simp [raise, step, hq, ho, hc]
  | case5 quote depth => simp [raise, step]
  | case6 quote depth hb => simp [raise, step, hb]
  | case7 depth hb => simp [raise, step, hb]
  | case8 quote depth hb hq => simp [raise, step, hb, hq]

theorem run_raise (t : Text) (n : Int) (s : State) : (s.raise n).run t = (s.run t).raise n := by
  induction t generalizing s with
  | nil => rfl
  | cons c r ih => rw [run_cons, step_raise, ih, run_cons]

/-- The scan of `t` from `s` never drops below depth zero. -/
def NonnegOn (s : State) (t : Text) : Prop := ∀ u, u <+: t → 0 ≤ (s.run u).depth

@[simp] theorem nonnegOn_nil : s.NonnegOn [] ↔ 0 ≤ s.depth := by simp [NonnegOn]

@[simp] theorem nonnegOn_cons {c : Char} {t : Text} :
    s.NonnegOn (c :: t) ↔ 0 ≤ s.depth ∧ (s.step c).NonnegOn t := by
  simp only [NonnegOn, List.prefix_cons_iff]
  constructor
  · intro h
    exact ⟨h [] (.inl rfl), fun u hu => h (c :: u) (.inr ⟨u, rfl, hu⟩)⟩
  · rintro ⟨hs, h⟩ u (rfl | ⟨v, rfl, hv⟩)
    · exact hs
    · exact h v hv

instance NonnegOn.decidable (s : State) : (t : Text) → Decidable (s.NonnegOn t)
  | [] => decidable_of_iff _ nonnegOn_nil.symm
  | c :: t =>
    have := NonnegOn.decidable (s.step c) t
    decidable_of_iff _ nonnegOn_cons.symm

theorem NonnegOn.depth_run {t : Text} (h : s.NonnegOn t) : 0 ≤ (s.run t).depth :=
  h t List.prefix_rfl

theorem nonnegOn_append {t u : Text} :
    s.NonnegOn (t ++ u) ↔ s.NonnegOn t ∧ (s.run t).NonnegOn u := by
  constructor
  · intro h
    refine ⟨fun v hv => h v (hv.trans (List.prefix_append t u)), fun v hv => ?_⟩
    rw [← run_append]
    exact h (t ++ v) ((List.prefix_append_right_inj t).mpr hv)
  · rintro ⟨ht, hu⟩ v hv
    rcases List.prefix_or_prefix_of_prefix hv (List.prefix_append t u) with hvt | ⟨w, rfl⟩
    · exact ht v hvt
    · rw [run_append]
      exact hu w ((List.prefix_append_right_inj t).mp hv)

theorem NonnegOn.raise {t : Text} {n : Int} (h : s.NonnegOn t) (hn : 0 ≤ n) :
    (s.raise n).NonnegOn t := by
  intro u hu
  have := h u hu
  rw [run_raise, depth_raise]
  omega

end State

end PipeBlocks.Scan
