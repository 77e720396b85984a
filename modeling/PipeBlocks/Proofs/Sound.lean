import PipeBlocks.Proofs.Arguments
import PipeBlocks.Proofs.Call

/-! Sound texts, and calls of them read back.

A text is *sound* if it can stand among the arguments of a call and be told apart from the others
there: it is trimmed and not empty, closes exactly what it opens, and no comma separates in it. A
call of sound texts is sound again (`Sound.call`), so it may be the first argument of the next one,
and `callExpression_reads_back` says that what stands between the parentheses of a call reads back
as the value so far and the stage's own arguments, however deep the calls are nested. -/
namespace PipeBlocks
open Text Scan

structure Sound (t : Text) : Prop where
  ne_nil : t ≠ []
  trimmed : t.trim = t
  nonneg : State.start.NonnegOn t
  run_start : State.start.run t = .start
  noComma : offsets .comma t = []

instance (t : Text) : Decidable (Sound t) :=
  decidable_of_iff
    (t ≠ [] ∧ t.trim = t ∧ State.start.NonnegOn t ∧ State.start.run t = .start ∧ offsets .comma t = [])
    ⟨fun ⟨h₁, h₂, h₃, h₄, h₅⟩ => ⟨h₁, h₂, h₃, h₄, h₅⟩,
      fun ⟨h₁, h₂, h₃, h₄, h₅⟩ => ⟨h₁, h₂, h₃, h₄, h₅⟩⟩

variable {namePrefix value : Text} {l : List Text}

namespace Sound
variable {t : Text}

theorem steady (h : Sound t) : Steady t := ⟨h.nonneg, by rw [h.run_start]; rfl⟩

theorem whole (h : Sound t) : Whole .comma .start t := offsets_eq_nil_iff.mp h.noComma

theorem isBlank_eq_false (h : Sound t) : t.isBlank = false := by
  rw [Bool.eq_false_iff, ne_eq, ← trim_eq_nil_iff, h.trimmed]
  exact h.ne_nil

theorem isSpace_of_head? (h : Sound t) {c : Char} (hc : t.head? = some c) : isSpace c = false :=
  isSpace_of_head?_trim (t := t) (by rwa [h.trimmed])

end Sound

/-! ### Lists of sound texts -/

theorem tokens_of_sound (h : ∀ t ∈ l, Sound t) : Tokens l :=
  ⟨fun t ht => (h t ht).trimmed, fun t ht => (h t ht).whole,
    fun t ht => (h t (List.dropLast_subset l ht)).run_start⟩

/-- Sound texts with commas between them are read back. -/
theorem arguments_join_of_sound (h : ∀ t ∈ l, Sound t) : arguments (join ", ".toList l) = l := by
  have hlast : l.getLast? ≠ some [] := fun hl => (h [] (List.mem_of_getLast? hl)).ne_nil rfl
  rw [(tokens_of_sound h).arguments_join, dropEmptyLast_of_ne hlast]

theorem run_join_of_sound (h : ∀ t ∈ l, Sound t) : State.start.run (join ", ".toList l) = .start := by
  induction l with
  | nil => rfl
  | cons t rest ih =>
    have ht := (h t (List.mem_cons_self ..)).run_start
    have hrest := ih fun u hu => h u (List.mem_cons_of_mem t hu)
    cases rest with
    | nil => exact ht
    | cons u rest =>
      have hcomma : State.start.run ", ".toList = .start := by decide
      rw [join, State.run_append, State.run_append, ht, hcomma, hrest]

/-! ### Calls of sound texts -/

/-- A call is the name and, in parentheses, the value and the stage's arguments. -/
theorem Stage.call_eq_join (s : Stage) : s.call namePrefix value =
    namePrefix ++ (s.name ++ ('(' :: join ", ".toList (value :: s.arguments) ++ [')'])) := by
  rw [Stage.call_eq, join_cons]

/-- What is closed stays closed in parentheses. -/
theorem run_parens {t : Text} (h : State.start.run t = .start) :
    State.start.run ('(' :: t ++ [')']) = .start := by
  have hopen : State.start.step '(' = State.start.raise 1 := rfl
  rw [List.cons_append, State.run_cons, State.run_append, hopen, State.run_raise, h]
  decide

section Calls
variable (hp : ∀ c ∈ namePrefix, isStructural c = false ∧ c ≠ ',')
  (hhead : ∀ c, namePrefix.head? = some c → isSpace c = false)
include hp hhead

theorem Sound.call {s : Stage} (hv : Sound value) (hs : ∀ u ∈ s.texts, Sound u) :
    Sound (s.call namePrefix value) := by
  have hname := hs s.name (List.mem_cons_self ..)
  have hargs : ∀ t ∈ value :: s.arguments, Sound t := by
    intro t ht
    rcases List.mem_cons.mp ht with rfl | ht
    · exact hv
    · exact hs t (List.mem_cons_of_mem _ ht)
  have hsteady : ∀ u ∈ s.texts, Steady u := fun u hu => (hs u hu).steady
  refine ⟨?_, trim_eq_self ?_ ?_, ?_, ?_, ?_⟩
  · simp [Stage.call]
  · -- A call begins as its prefix does, or as its name does if there is none.
    intro c hc
    rw [Stage.call_eq, List.head?_append, List.head?_append,
      List.head?_eq_some_head hname.ne_nil] at hc
    cases h : namePrefix.head? with
    | some c' => exact hhead c (by rw [h] at hc ⊢; exact hc)
    | none =>
      refine hname.isSpace_of_head? ?_
      rw [h] at hc
      rw [List.head?_eq_some_head hname.ne_nil]
      exact hc
  · intro c hc
    rw [Stage.call, List.getLast?_concat, Option.some.injEq] at hc
    rw [← hc]
    decide
  · exact (s.steady_call (fun c hc => (hp c hc).1) hv.steady hsteady).nonneg
  · have hplain : State.start.run namePrefix = .start :=
      State.run_code_of_plain (fun c hc => (hp c hc).1) 0
    rw [Stage.call_eq_join, State.run_append, hplain, State.run_append, hname.run_start,
      run_parens (run_join_of_sound hargs)]
  · exact offsets_eq_nil_iff.mpr (s.whole_call hp hv.steady hsteady hname.whole)

theorem sound_nest {stages : List Stage} (hv : Sound value)
    (hs : ∀ s ∈ stages, ∀ u ∈ s.texts, Sound u) : Sound (nest namePrefix value stages) := by
  induction stages generalizing value with
  | nil => exact hv
  | cons s rest ih =>
    exact ih (hv.call hp hhead (hs s (List.mem_cons_self ..)))
      fun s' hs' => hs s' (List.mem_cons_of_mem s hs')

end Calls

/-! ### Reading calls back -/

/-- **A call expression reads back.** If the expression and all names and arguments are sound and
the prefix holds no quote, bracket, brace or comma and does not begin with white space, then the
calls of a chain are the last stage's name and, in parentheses, a text whose arguments are the
value of the stages before it, which is the expression if there are none, and the last stage's own
arguments. -/
theorem callExpression_reads_back (hp : ∀ c ∈ namePrefix, isStructural c = false ∧ c ≠ ',')
    (hhead : ∀ c, namePrefix.head? = some c → isSpace c = false) {expression : Text}
    {init : List Stage} {s : Stage} (he : Sound expression)
    (hs : ∀ s' ∈ init ++ [s], ∀ u ∈ s'.texts, Sound u) :
    ∃ value inner, (init = [] → value = expression) ∧
      (init ≠ [] → callExpression expression init namePrefix = .ok value) ∧
      callExpression expression (init ++ [s]) namePrefix =
        .ok (namePrefix ++ s.name ++ '(' :: inner ++ [')']) ∧
      arguments inner = value :: s.arguments := by
  have hlast : ∀ u ∈ s.texts, Sound u := hs s (by simp)
  have hinit : ∀ s' ∈ init, ∀ u ∈ s'.texts, Sound u := fun s' hs' =>
    hs s' (List.mem_append_left _ hs')
  have hvalue : Sound (nest namePrefix expression init) := sound_nest hp hhead he hinit
  have hargs : ∀ t ∈ nest namePrefix expression init :: s.arguments, Sound t := by
    intro t ht
    rcases List.mem_cons.mp ht with rfl | ht
    · exact hvalue
    · exact hlast t (List.mem_cons_of_mem _ ht)
  have hcalls (l : List Stage) (hl : l ≠ []) (hnamed : ∀ s' ∈ l, ∀ u ∈ s'.texts, Sound u) :
      callExpression expression l namePrefix = .ok (nest namePrefix expression l) :=
    callExpression_eq_ok_iff.mpr ⟨he.isBlank_eq_false, hl,
      fun s' hs' => (hnamed s' hs' s'.name (List.mem_cons_self ..)).ne_nil, rfl⟩
  refine ⟨nest namePrefix expression init,
    join ", ".toList (nest namePrefix expression init :: s.arguments), ?_, ?_, ?_,
    arguments_join_of_sound hargs⟩
  · rintro rfl
    rfl
  · intro hne
    exact hcalls init hne hinit
  · rw [hcalls (init ++ [s]) (by simp) hs, nest_concat, Stage.call_eq_join]
    simp

/-- Commas in groups and strings separate nothing in the calls around them. -/
theorem callExpression_reads_back_grouped :
    let namePrefix : Text := "u.".toList
    let expression : Text := "f(a, b)".toList
    let pad : Stage := ⟨"pad".toList, "[1, 2], 'x, y'".toList⟩
    let up : Stage := ⟨"up".toList, "it".toList⟩
    (∀ c ∈ namePrefix, isStructural c = false ∧ c ≠ ',') ∧
      (∀ c, namePrefix.head? = some c → isSpace c = false) ∧
      Sound expression ∧ (∀ s ∈ [pad] ++ [up], ∀ u ∈ s.texts, Sound u) ∧
      ∃ inner, callExpression expression [pad] namePrefix =
          .ok "u.pad(f(a, b), [1, 2], 'x, y')".toList ∧
        callExpression expression ([pad] ++ [up]) namePrefix =
          .ok ("u.up".toList ++ '(' :: inner ++ [')']) ∧
        arguments inner = ["u.pad(f(a, b), [1, 2], 'x, y')".toList, "it".toList] := by
  intro namePrefix expression pad up
  have hp : ∀ c ∈ "u.".toList, isStructural c = false ∧ c ≠ ',' := by
    simp [isStructural, isQuote, isOpener, isCloser]
  have hhead : ∀ c, "u.".toList.head? = some c → isSpace c = false := by
    intro c hc
    rw [← Option.some.inj hc]
    decide
  have he : Sound expression := by decide +kernel
  have hs : ∀ s ∈ [pad] ++ [up], ∀ u ∈ s.texts, Sound u := by decide +kernel
  obtain ⟨value, inner, -, hvalue, hcall, hinner⟩ := callExpression_reads_back hp hhead he hs
  have hpad := hvalue (by simp)
  have hread : nest "u.".toList expression [pad] = "u.pad(f(a, b), [1, 2], 'x, y')".toList := by
    decide +kernel
  obtain rfl := hread.symm.trans (callExpression_eq_ok_iff.mp hpad).2.2.2
  exact ⟨hp, hhead, he, hs, inner, hpad, hcall, hinner⟩

end PipeBlocks
