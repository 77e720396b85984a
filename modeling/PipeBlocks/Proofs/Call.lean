import PipeBlocks.Proofs.Chain
import PipeBlocks.Call

/-! Calls around a value.

`nest` is the call expression that the stages of a chain make of a value. A chain is written as
calls exactly if every stage has a name (`callExpression_eq_ok_iff`); otherwise the first stage
without one is reported (`callExpression_unnamed`). Calls of steady texts are steady, and whole
for the pipe whatever pipes their parts hold (`steady_nest`, `whole_nest`). -/
namespace PipeBlocks
open Text Scan

/-- The stages' calls around a value, the first stage innermost. -/
def nest (namePrefix value : Text) (l : List Stage) : Text :=
  l.foldl (fun value s => s.call namePrefix value) value

variable {namePrefix value : Text} {l : List Stage}

@[simp] theorem nest_nil : nest namePrefix value [] = value := rfl

@[simp] theorem nest_cons (s : Stage) :
    nest namePrefix value (s :: l) = nest namePrefix (s.call namePrefix value) l := rfl

theorem nest_concat (s : Stage) :
    nest namePrefix value (l ++ [s]) = s.call namePrefix (nest namePrefix value l) := by
  simp [nest]

/-! ### When there is a call expression -/

theorem applyStages_named (h : ∀ s ∈ l, s.name ≠ []) (i : Nat) (value : Text) :
    applyStages namePrefix i value l = .ok (nest namePrefix value l) := by
  induction l generalizing i value with
  | nil => rfl
  | cons s rest ih =>
    rw [applyStages, if_neg (h s (List.mem_cons_self ..)), nest_cons]
    exact ih (fun s' hs' => h s' (List.mem_cons_of_mem s hs')) _ _

/-- The first stage without a name is reported with its place. -/
theorem applyStages_unnamed {before after : List Stage} {s : Stage}
    (h : ∀ s ∈ before, s.name ≠ []) (hs : s.name = []) (i : Nat) (value : Text) :
    applyStages namePrefix i value (before ++ s :: after) =
      .error (.unnamedStage (i + before.length) s.args) := by
  induction before generalizing i value with
  | nil => rw [List.nil_append, applyStages, if_pos hs]; rfl
  | cons s' rest ih =>
    rw [List.cons_append, applyStages, if_neg (h s' (List.mem_cons_self ..)),
      ih fun s'' hs'' => h s'' (List.mem_cons_of_mem s' hs'')]
    simp only [List.length_cons]
    congr 2
    omega

/-- No member has a property, or there is a first one that has it. -/
theorem forall_not_or_first {α : Type} (P : α → Prop) [DecidablePred P] (l : List α) :
    (∀ a ∈ l, ¬ P a) ∨ ∃ before a after, l = before ++ a :: after ∧ (∀ b ∈ before, ¬ P b) ∧ P a := by
  induction l with
  | nil => simp
  | cons a rest ih =>
    by_cases ha : P a
    · exact .inr ⟨[], a, rest, rfl, by simp, ha⟩
    · rcases ih with h | ⟨before, a', after, rfl, hbefore, ha'⟩
      · exact .inl (List.forall_mem_cons.mpr ⟨ha, h⟩)
      · exact .inr ⟨a :: before, a', after, rfl, List.forall_mem_cons.mpr ⟨ha, hbefore⟩, ha'⟩

theorem callExpression_unnamed {expression : Text} (he : expression.isBlank = false)
    {before after : List Stage} {s : Stage} (h : ∀ s ∈ before, s.name ≠ []) (hs : s.name = []) :
    callExpression expression (before ++ s :: after) namePrefix =
      .error (.unnamedStage before.length s.args) := by
  rw [callExpression, he, if_neg (by simp), if_neg (by simp), applyStages_unnamed h hs, Nat.zero_add]

theorem callExpression_eq_ok_iff {expression call : Text} :
    callExpression expression l namePrefix = .ok call ↔
      expression.isBlank = false ∧ l ≠ [] ∧ (∀ s ∈ l, s.name ≠ []) ∧
        nest namePrefix expression l = call := by
  constructor
  · intro h
    unfold callExpression at h
    split at h
    · cases h
    · rename_i he
      split at h
      · cases h
      · rename_i hl
        rcases forall_not_or_first (fun s : Stage => s.name = []) l with
          hn | ⟨before, s, after, rfl, hbefore, hs⟩
        · rw [applyStages_named hn] at h
          exact ⟨by simpa using he, hl, hn, by simpa using h⟩
        · rw [applyStages_unnamed hbefore hs] at h
          cases h
  · rintro ⟨he, hl, hn, rfl⟩
    rw [callExpression, he, if_neg (by simp), if_neg hl, applyStages_named hn]

theorem callExpression_ne_emptyExpression {expression : Text} (he : expression.isBlank = false) :
    callExpression expression l namePrefix ≠ .error .emptyExpression := by
  intro h
  by_cases hl : l = []
  · rw [callExpression, he, if_neg (by simp), if_pos hl] at h
    cases h
  · rcases forall_not_or_first (fun s : Stage => s.name = []) l with
      hn | ⟨before, s, after, rfl, hbefore, hs⟩
    · rw [callExpression_eq_ok_iff.mpr ⟨he, hl, hn, rfl⟩] at h
      cases h
    · rw [callExpression_unnamed he hbefore hs] at h
      cases h

/-! ### What calls are made of -/

theorem Stage.call_eq (s : Stage) : s.call namePrefix value = namePrefix ++ (s.name ++
    ('(' :: (value ++ s.arguments.flatMap (", ".toList ++ ·)) ++ [')'])) := by
  simp [Stage.call]

theorem Stage.forall_mem_call {P : Char → Prop} {s : Stage} (hp : ∀ c ∈ namePrefix, P c)
    (hv : ∀ c ∈ value, P c) (hs : ∀ u ∈ s.texts, ∀ c ∈ u, P c)
    (hmarks : ∀ c ∈ ['(', ')', ',', ' '], P c) : ∀ c ∈ s.call namePrefix value, P c := by
  intro c hc
  simp only [Stage.call_eq, List.cons_append, List.mem_append, List.mem_cons, List.mem_flatMap,
    List.not_mem_nil, or_false] at hc
  rcases hc with hc | hc | rfl | (hc | ⟨a, ha, hc | hc⟩) | rfl
  · exact hp c hc
  · exact hs s.name (List.mem_cons_self ..) c hc
  · exact hmarks '(' (by decide)
  · exact hv c hc
  · exact hmarks c (List.mem_cons_of_mem _ (List.mem_cons_of_mem _ hc))
  · exact hs a (List.mem_cons_of_mem _ ha) c hc
  · exact hmarks ')' (by decide)

/-- Calls hold the characters of their parts, and parentheses, commas and spaces. -/
theorem forall_mem_nest {P : Char → Prop} (hp : ∀ c ∈ namePrefix, P c)
    (hs : ∀ s ∈ l, ∀ u ∈ s.texts, ∀ c ∈ u, P c) (hmarks : ∀ c ∈ ['(', ')', ',', ' '], P c)
    (hv : ∀ c ∈ value, P c) : ∀ c ∈ nest namePrefix value l, P c := by
  induction l generalizing value with
  | nil => exact hv
  | cons s rest ih =>
    exact ih (fun s' hs' => hs s' (List.mem_cons_of_mem s hs'))
      (s.forall_mem_call hp hv (hs s (List.mem_cons_self ..)) hmarks)

/-! ### What calls contain -/

theorem Stage.value_infix_call (s : Stage) : value <:+: s.call namePrefix value :=
  ⟨namePrefix ++ s.name ++ ['('], s.arguments.flatMap (", ".toList ++ ·) ++ [')'], by
    simp [Stage.call]⟩

/-- A call begins with the function's name and an opening parenthesis. -/
theorem Stage.name_prefix_call (s : Stage) :
    namePrefix ++ s.name ++ ['('] <+: s.call namePrefix value :=
  ⟨value ++ s.arguments.flatMap (", ".toList ++ ·) ++ [')'], by simp [Stage.call]⟩

theorem value_infix_nest (l : List Stage) : value <:+: nest namePrefix value l := by
  induction l generalizing value with
  | nil => exact List.infix_rfl
  | cons s rest ih =>
    rw [nest_cons]
    exact s.value_infix_call.trans ih

/-- All stages of a chain are called. -/
theorem name_infix_nest {s : Stage} (hs : s ∈ l) :
    namePrefix ++ s.name ++ ['('] <:+: nest namePrefix value l := by
  obtain ⟨before, after, rfl⟩ := List.append_of_mem hs
  rw [nest, List.foldl_append, List.foldl_cons]
  exact s.name_prefix_call.isInfix.trans (value_infix_nest after)

/-! ### Calls of steady texts -/

theorem Stage.steady_inside {s : Stage} (hv : Steady value) (hs : ∀ u ∈ s.texts, Steady u) :
    Steady (value ++ s.arguments.flatMap (", ".toList ++ ·)) := by
  have hcomma : Steady ", ".toList :=
    .of_plain (by simp [isStructural, isQuote, isOpener, isCloser])
  have hargs (l : List Text) (hl : ∀ a ∈ l, Steady a) :
      Steady (l.flatMap (", ".toList ++ ·)) := by
    induction l with
    | nil => exact .of_plain (by simp)
    | cons a rest ih =>
      exact (hcomma.append (hl a (List.mem_cons_self ..))).append
        (ih fun a' ha' => hl a' (List.mem_cons_of_mem a ha'))
  exact hv.append (hargs s.arguments fun a ha => hs a (List.mem_cons_of_mem _ ha))

theorem Stage.steady_call {s : Stage} (hp : ∀ c ∈ namePrefix, isStructural c = false)
    (hv : Steady value) (hs : ∀ u ∈ s.texts, Steady u) : Steady (s.call namePrefix value) := by
  rw [Stage.call_eq]
  have hname := hs s.name (List.mem_cons_self ..)
  exact (Steady.of_plain hp).append (hname.append (s.steady_inside hv hs).parens)

theorem steady_nest (hp : ∀ c ∈ namePrefix, isStructural c = false) (hv : Steady value)
    (hs : ∀ s ∈ l, ∀ u ∈ s.texts, Steady u) : Steady (nest namePrefix value l) := by
  induction l generalizing value with
  | nil => exact hv
  | cons s rest ih =>
    exact ih (s.steady_call hp hv (hs s (List.mem_cons_self ..)))
      fun s' hs' => hs s' (List.mem_cons_of_mem s hs')

theorem Stage.whole_call {d : Delimiter} {s : Stage}
    (hp : ∀ c ∈ namePrefix, isStructural c = false ∧ c ≠ d.char)
    (hv : Steady value) (hs : ∀ u ∈ s.texts, Steady u) (hname : Whole d .start s.name) :
    Whole d .start (s.call namePrefix value) := by
  have hplain : State.start.run namePrefix = .start :=
    State.run_code_of_plain (fun c hc => (hp c hc).1) 0
  have hwhole : Whole d .start namePrefix := whole_of_not_mem fun h => (hp _ h).2 rfl
  obtain ⟨n, hn, hrun⟩ := (hs s.name (List.mem_cons_self ..)).run_start
  rw [Stage.call_eq]
  refine hwhole.append ?_
  rw [hplain]
  refine hname.append ?_
  rw [hrun]
  exact (s.steady_inside hv hs).whole_parens hn

/-- A call expression of steady texts holds no separating pipe: outside its parentheses there are
only the last prefix and the last name. -/
theorem whole_nest (hp : ∀ c ∈ namePrefix, isStructural c = false ∧ c ≠ '|') (hv : Steady value)
    (hl : l ≠ []) (hs : ∀ s ∈ l, ∀ u ∈ s.texts, Steady u)
    (hname : ∀ s ∈ l, Whole .pipe .start s.name) : Whole .pipe .start (nest namePrefix value l) := by
  obtain ⟨init, s, rfl⟩ : ∃ init s, l = init ++ [s] :=
    ⟨l.dropLast, l.getLast hl, (List.dropLast_concat_getLast hl).symm⟩
  rw [nest_concat]
  have hlast : s ∈ init ++ [s] := by simp
  refine s.whole_call hp ?_ (hs s hlast) (hname s hlast)
  exact steady_nest (fun c hc => (hp c hc).1) hv fun s' hs' => hs s' (List.mem_append_left _ hs')

end PipeBlocks
