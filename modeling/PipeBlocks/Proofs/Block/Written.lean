import PipeBlocks.Proofs.Block.Braced
import PipeBlocks.Proofs.Text.Join

/-! The written form of a block.

`{value | name : arg , arg | name}`: an expression and pipes between bars, a pipe's arguments
between commas behind a colon. White space is free around colons and commas and has to stand on
both sides of a bar. `WritesBlock` is that form as a relation between what is meant and what is
written, over any fragments: texts that are closed and hold no separating pipe, but may hold
pipes, colons, commas, brackets and quotes otherwise.

`writesBlock_reads_back` says that a block so written reads back as what is meant and is replaced
by the nested calls. -/
namespace PipeBlocks
open Text Scan

/-! ### What is meant and how it is written -/

/-- A text that can stand for an expression, a name or an argument. -/
structure IsFragment (t : Text) : Prop where
  ne_nil : t ≠ []
  trimmed : t.trim = t
  braceFree : BraceFree t
  closed : State.start.run t = .start
  noPipe : offsets .pipe t = []

instance (t : Text) : Decidable (IsFragment t) :=
  decidable_of_iff
    (t ≠ [] ∧ t.trim = t ∧ BraceFree t ∧ State.start.run t = .start ∧ offsets .pipe t = [])
    ⟨fun ⟨h₁, h₂, h₃, h₄, h₅⟩ => ⟨h₁, h₂, h₃, h₄, h₅⟩,
      fun ⟨h₁, h₂, h₃, h₄, h₅⟩ => ⟨h₁, h₂, h₃, h₄, h₅⟩⟩

/-- A function to call and the arguments behind the value. -/
structure Pipe where
  name : Text
  args : List Text

structure Pipe.IsWritable (p : Pipe) : Prop where
  name : IsFragment p.name
  noColon : offsets .colon p.name = []
  args : ∀ a ∈ p.args, IsFragment a
  noComma : ∀ a ∈ p.args, offsets .comma a = []

inductive WritesArguments : List Text → Text → Prop where
  | last {a : Text} : WritesArguments [a] a
  | cons {a w₁ w₂ t : Text} {args : List Text} :
      w₁.isBlank = true → w₂.isBlank = true → WritesArguments args t →
      WritesArguments (a :: args) (a ++ w₁ ++ ',' :: w₂ ++ t)

inductive WritesPipe : Pipe → Text → Prop where
  | bare {name : Text} : WritesPipe ⟨name, []⟩ name
  | applied {name w₁ w₂ t : Text} {args : List Text} :
      w₁.isBlank = true → w₂.isBlank = true → WritesArguments args t →
      WritesPipe ⟨name, args⟩ (name ++ w₁ ++ ':' :: w₂ ++ t)

/-- White space that is there. -/
def IsGap (w : Text) : Prop := w ≠ [] ∧ w.isBlank = true

inductive WritesChain : List Pipe → Text → Prop where
  | last {p : Pipe} {t : Text} : WritesPipe p t → WritesChain [p] t
  | cons {p : Pipe} {ps : List Pipe} {t w₁ w₂ u : Text} :
      WritesPipe p t → IsGap w₁ → IsGap w₂ → WritesChain ps u →
      WritesChain (p :: ps) (t ++ w₁ ++ '|' :: w₂ ++ u)

/-- The text between the braces; at its two ends white space is free too. -/
inductive WritesBlock (expression : Text) (ps : List Pipe) : Text → Prop where
  | mk {w₀ w₁ w₂ w₃ t : Text} : w₀.isBlank = true → IsGap w₁ → IsGap w₂ → w₃.isBlank = true →
      WritesChain ps t →
      WritesBlock expression ps (w₀ ++ expression ++ w₁ ++ '|' :: w₂ ++ t ++ w₃)

/-- The calls that are meant, the first pipe innermost. -/
def Pipe.calls (namePrefix value : Text) (ps : List Pipe) : Text :=
  ps.foldl (fun value p =>
    namePrefix ++ p.name ++ ['('] ++ Text.join ", ".toList (value :: p.args) ++ [')']) value

/-! ### Sealed texts -/

/-- A text that is whole for the pipe and leaves the scan where it began. -/
structure Sealed (t : Text) : Prop where
  whole : Whole .pipe .start t
  run_start : State.start.run t = .start

theorem Sealed.append {t u : Text} (ht : Sealed t) (hu : Sealed u) : Sealed (t ++ u) :=
  ⟨ht.whole.append (by rw [ht.run_start]; exact hu.whole), by
    rw [State.run_append, ht.run_start, hu.run_start]⟩

theorem Sealed.of_isBlank {w : Text} (h : w.isBlank = true) : Sealed w :=
  ⟨whole_of_isBlank (by decide) h, State.run_code_of_isBlank h 0⟩

theorem IsFragment.sealed {t : Text} (h : IsFragment t) : Sealed t :=
  ⟨offsets_eq_nil_iff.mp h.noPipe, h.closed⟩

theorem IsFragment.isBlank_eq_false {t : Text} (h : IsFragment t) : t.isBlank = false := by
  rw [Bool.eq_false_iff, ne_eq, ← trim_eq_nil_iff, h.trimmed]
  exact h.ne_nil

/-- A sealed text is cut off by a delimiter behind it. -/
theorem Sealed.cut {d : Delimiter} (hd : isStructural d.char = false) {t u : Text} (ht : Sealed t)
    (hwhole : Whole d .start t) (hu : d.char = '|' → u.head? ≠ some '|') :
    CutAt d .start (t ++ d.char :: u) t u :=
  ⟨rfl, hwhole, ht.run_start, hd, hu⟩

theorem IsGap.head?_append {w : Text} (h : IsGap w) (t : Text) : (w ++ t).head? ≠ some '|' := by
  intro hhead
  cases w with
  | nil => exact h.1 rfl
  | cons c r => exact head?_ne_of_isBlank (by decide) h.2 hhead

/-! ### Arguments -/

theorem WritesArguments.sealed {args : List Text} {t : Text} (h : WritesArguments args t)
    (hargs : ∀ a ∈ args, IsFragment a) : Sealed t ∧ t.isBlank = false := by
  induction h with
  | last =>
    have ha := hargs _ (List.mem_cons_self ..)
    exact ⟨ha.sealed, ha.isBlank_eq_false⟩
  | @cons a w₁ w₂ t args h₁ h₂ _ ih =>
    have ha := hargs a (List.mem_cons_self ..)
    obtain ⟨ht, -⟩ := ih fun b hb => hargs b (List.mem_cons_of_mem a hb)
    have hcomma : Sealed [','] := ⟨rfl, rfl⟩
    rw [show a ++ w₁ ++ ',' :: w₂ ++ t = a ++ (w₁ ++ ([','] ++ (w₂ ++ t))) by simp]
    refine ⟨ha.sealed.append ((Sealed.of_isBlank h₁).append
      (hcomma.append ((Sealed.of_isBlank h₂).append ht))), ?_⟩
    rw [isBlank_append, ha.isBlank_eq_false, Bool.false_and]

theorem WritesArguments.map_trim_split {args : List Text} {t : Text} (h : WritesArguments args t)
    (hargs : ∀ a ∈ args, IsFragment a) (hcomma : ∀ a ∈ args, offsets .comma a = []) :
    (split .comma t).map Text.trim = args := by
  induction h with
  | @last a =>
    have hwhole := offsets_eq_nil_iff.mp (hcomma a (List.mem_cons_self ..))
    rw [split, splitFrom_of_whole hwhole, List.map_singleton, (hargs a (List.mem_cons_self ..)).trimmed]
  | @cons a w₁ w₂ t args h₁ h₂ _ ih =>
    have ha := hargs a (List.mem_cons_self ..)
    have hwhole : Whole .comma .start (a ++ w₁) :=
      (offsets_eq_nil_iff.mp (hcomma a (List.mem_cons_self ..))).append
        (whole_of_isBlank (by decide) h₁)
    have cut : CutAt .comma .start (a ++ w₁ ++ ',' :: (w₂ ++ t)) (a ++ w₁) (w₂ ++ t) :=
      (ha.sealed.append (.of_isBlank h₁)).cut rfl hwhole fun hd => absurd hd (by decide)
    rw [List.append_assoc, List.cons_append, split, splitFrom_of_cut cut, List.map_cons,
      trim_append_right h₁, ha.trimmed, map_trim_split_append_left (by decide) h₂,
      ih (fun b hb => hargs b (List.mem_cons_of_mem a hb))
        fun b hb => hcomma b (List.mem_cons_of_mem a hb)]

theorem WritesArguments.arguments_eq {args : List Text} {t : Text} (h : WritesArguments args t)
    (hargs : ∀ a ∈ args, IsFragment a) (hcomma : ∀ a ∈ args, offsets .comma a = []) :
    arguments t = args := by
  have hlast : args.getLast? ≠ some [] := fun hl =>
    (hargs [] (List.mem_of_getLast? hl)).ne_nil rfl
  simp [arguments, (h.sealed hargs).2, h.map_trim_split hargs hcomma, hlast]

/-! ### Pipes -/

theorem WritesPipe.sealed {p : Pipe} {t : Text} (h : WritesPipe p t) (hp : p.IsWritable) :
    Sealed t ∧ t.isBlank = false := by
  cases h with
  | bare => exact ⟨hp.name.sealed, hp.name.isBlank_eq_false⟩
  | @applied name w₁ w₂ t args h₁ h₂ hargs =>
    obtain ⟨ht, -⟩ := hargs.sealed hp.args
    have hcolon : Sealed [':'] := ⟨rfl, rfl⟩
    rw [show name ++ w₁ ++ ':' :: w₂ ++ t = name ++ (w₁ ++ ([':'] ++ (w₂ ++ t))) by simp]
    refine ⟨hp.name.sealed.append ((Sealed.of_isBlank h₁).append
      (hcolon.append ((Sealed.of_isBlank h₂).append ht))), ?_⟩
    rw [isBlank_append, hp.name.isBlank_eq_false, Bool.false_and]

/-- A pipe reads back as its name and its arguments. -/
theorem WritesPipe.parse_eq {p : Pipe} {t : Text} (h : WritesPipe p t) (hp : p.IsWritable) :
    (Stage.parse t).name = p.name ∧ (Stage.parse t).arguments = p.args := by
  have hwhole := offsets_eq_nil_iff.mp hp.noColon
  cases h with
  | bare =>
    rw [Stage.parse_of_whole hwhole]
    exact ⟨hp.name.trimmed, rfl⟩
  | @applied name w₁ w₂ t args h₁ h₂ hargs =>
    have cut : CutAt .colon .start (name ++ w₁ ++ ':' :: (w₂ ++ t)) (name ++ w₁) (w₂ ++ t) :=
      (hp.name.sealed.append (.of_isBlank h₁)).cut rfl
        (hwhole.append (whole_of_isBlank (by decide) h₁)) fun hd => absurd hd (by decide)
    rw [List.append_assoc, List.cons_append, Stage.parse_of_cut cut]
    refine ⟨by rw [trim_append_right h₁]; exact hp.name.trimmed, ?_⟩
    show arguments (w₂ ++ t).trim = args
    rw [trim_append_left h₂, arguments_trim, hargs.arguments_eq hp.args hp.noComma]

/-! ### Chains -/

theorem stages_append_left {w : Text} (hw : w.isBlank = true) (t : Text) :
    stages (w ++ t) = stages t := by
  rw [← stages_trim, trim_append_left hw, stages_trim]

theorem WritesChain.run_start {ps : List Pipe} {t : Text} (h : WritesChain ps t)
    (hps : ∀ p ∈ ps, p.IsWritable) : State.start.run t = .start := by
  induction h with
  | last ht => exact (ht.sealed (hps _ (List.mem_cons_self ..))).1.run_start
  | @cons p ps t w₁ w₂ u ht h₁ h₂ _ ih =>
    obtain ⟨hs, -⟩ := ht.sealed (hps p (List.mem_cons_self ..))
    have hu := ih fun q hq => hps q (List.mem_cons_of_mem p hq)
    have hbar : State.start.run ['|'] = .start := rfl
    rw [show t ++ w₁ ++ '|' :: w₂ ++ u = t ++ (w₁ ++ (['|'] ++ (w₂ ++ u))) by simp]
    rw [State.run_append, hs.run_start, State.run_append, (Sealed.of_isBlank h₁.2).run_start,
      State.run_append, hbar, State.run_append, (Sealed.of_isBlank h₂.2).run_start, hu]

/-- A chain reads back as its pipes. -/
theorem WritesChain.stages_eq {ps : List Pipe} {t : Text} (h : WritesChain ps t)
    (hps : ∀ p ∈ ps, p.IsWritable) :
    (stages t).map (fun s => Pipe.mk s.name s.arguments) = ps := by
  have hread {p : Pipe} {t : Text} (ht : WritesPipe p t) (hp : p.IsWritable) :
      Pipe.mk (Stage.parse t).name (Stage.parse t).arguments = p := by
    obtain ⟨hn, ha⟩ := ht.parse_eq hp
    rw [hn, ha]
  induction h with
  | @last p t ht =>
    have hp := hps p (List.mem_cons_self ..)
    obtain ⟨hs, hb⟩ := ht.sealed hp
    rw [stages_of_whole hs.whole hb, List.map_singleton, hread ht hp]
  | @cons p ps t w₁ w₂ u ht h₁ h₂ _ ih =>
    have hp := hps p (List.mem_cons_self ..)
    obtain ⟨hs, hb⟩ := ht.sealed hp
    have hs' : Sealed (t ++ w₁) := hs.append (.of_isBlank h₁.2)
    have cut : CutAt .pipe .start (t ++ w₁ ++ '|' :: (w₂ ++ u)) (t ++ w₁) (w₂ ++ u) :=
      hs'.cut rfl hs'.whole fun _ => h₂.head?_append u
    have hparse : Stage.parse (t ++ w₁) = Stage.parse t := by
      rw [← Stage.parse_trim, trim_append_right h₁.2, Stage.parse_trim]
    rw [List.append_assoc, List.cons_append,
      stages_of_cut cut (by rw [isBlank_append, hb, Bool.false_and]), List.map_cons, hparse,
      hread ht hp, stages_append_left h₂.2, ih fun q hq => hps q (List.mem_cons_of_mem p hq)]

/-! ### Calls -/

/-- Calls depend only on what the stages mean. -/
theorem nest_eq_calls (namePrefix value : Text) (l : List Stage) :
    nest namePrefix value l =
      Pipe.calls namePrefix value (l.map fun s => ⟨s.name, s.arguments⟩) := by
  unfold Pipe.calls
  induction l generalizing value with
  | nil => rfl
  | cons s rest ih =>
    rw [nest_cons, ih, List.map_cons, List.foldl_cons]
    congr 1
    rw [join_cons]
    simp [Stage.call]

/-! ### Blocks -/

theorem WritesChain.ne_nil {ps : List Pipe} {t : Text} (h : WritesChain ps t) : ps ≠ [] := by
  cases h <;> simp

/-- A written block is cut behind its expression, and what follows the cut reads back as its pipes. -/
theorem WritesBlock.exists_cut {expression t : Text} {ps : List Pipe}
    (h : WritesBlock expression ps t) (hexpression : IsFragment expression)
    (hps : ∀ p ∈ ps, p.IsWritable) :
    ∃ x y, CutAt .pipe .start t x y ∧ x.trim = expression ∧ leavesStringOpen t = false ∧
      stages y ≠ [] ∧ (stages y).map (fun s => Pipe.mk s.name s.arguments) = ps := by
  obtain @⟨w₀, w₁, w₂, w₃, t, h₀, h₁, h₂, h₃, hchain⟩ := h
  have hs : Sealed (w₀ ++ expression ++ w₁) :=
    ((Sealed.of_isBlank h₀).append hexpression.sealed).append (.of_isBlank h₁.2)
  have cut : CutAt .pipe .start (w₀ ++ expression ++ w₁ ++ '|' :: (w₂ ++ (t ++ w₃)))
      (w₀ ++ expression ++ w₁) (w₂ ++ (t ++ w₃)) :=
    hs.cut rfl hs.whole fun _ => h₂.head?_append _
  have hstages : stages (w₂ ++ (t ++ w₃)) = stages t := by
    rw [stages_append_left h₂.2, ← stages_trim, trim_append_right h₃, stages_trim]
  have hread := hchain.stages_eq hps
  rw [show w₀ ++ expression ++ w₁ ++ '|' :: w₂ ++ t ++ w₃ =
    w₀ ++ expression ++ w₁ ++ '|' :: (w₂ ++ (t ++ w₃)) by simp]
  refine ⟨_, _, cut, ?_, ?_, ?_, ?_⟩
  · rw [trim_append_right h₁.2, trim_append_left h₀, hexpression.trimmed]
  · have hbar : State.start.step '|' = .start := rfl
    rw [leavesStringOpen, State.run_append, hs.run_start, State.run_cons, hbar, State.run_append,
      (Sealed.of_isBlank h₂.2).run_start, State.run_append, hchain.run_start hps,
      (Sealed.of_isBlank h₃).run_start]
    rfl
  · intro hnil
    rw [← hstages, hnil] at hread
    exact hchain.ne_nil hread.symm
  · rw [hstages]
    exact hread

/-- **A block reads back as it is meant**, in every way of writing it: its expression, its names
and its arguments in order; it is complete, and the nested calls replace it. -/
theorem writesBlock_reads_back (namePrefix : Text) (start : Nat) {expression t : Text}
    {ps : List Pipe} (hexpression : IsFragment expression) (hps : ∀ p ∈ ps, p.IsWritable)
    (h : WritesBlock expression ps t) :
    ∃ b, Block.parse? (braced t) start = some b ∧ b.expression = expression ∧ b.isComplete = true ∧
      (stages b.chain).map (·.name) = ps.map (·.name) ∧
      (stages b.chain).map (·.arguments) = ps.map (·.args) ∧
      b.replacement namePrefix = .ok (braced (Pipe.calls namePrefix expression ps)) := by
  obtain ⟨x, y, cut, hx, hclosed, hne, hread⟩ := h.exists_cut hexpression hps
  have hblank : x.isBlank = false := by
    rw [← isBlank_trim, hx]
    exact hexpression.isBlank_eq_false
  have hnamed : ∀ s ∈ stages y, s.name ≠ [] := by
    intro s hs
    have hmem : Pipe.mk s.name s.arguments ∈ ps := by
      rw [← hread]
      exact List.mem_map_of_mem (f := fun s : Stage => Pipe.mk s.name s.arguments) hs
    exact (hps _ hmem).name.ne_nil
  have hreplaced : Block.Replaced ⟨braced t, x.trim, y.trim, start⟩ namePrefix
      (braced (Pipe.calls namePrefix expression ps)) := by
    refine Block.replaced_iff.mpr ⟨hblank, hclosed, hne, hnamed, ?_⟩
    rw [nest_eq_calls, hread, hx]
  refine ⟨_, Block.parse?_braced_of_cut cut start, hx, hreplaced.complete, ?_, ?_,
    hreplaced.replacement⟩
  · rw [stages_trim, ← hread, List.map_map]
    rfl
  · rw [stages_trim, ← hread, List.map_map]
    rfl

/-- Logical or, bars and commas in strings, and commas in groups stay where they are. -/
theorem writesBlock_reads_back_quoted :
    ∃ b, Block.parse? (braced "a||'x|y' | pad : f(1, 2) ,'p, q' | up".toList) 7 = some b ∧
      b.expression = "a||'x|y'".toList ∧ b.isComplete = true ∧
      (stages b.chain).map (·.name) = ["pad".toList, "up".toList] ∧
      (stages b.chain).map (·.arguments) = [["f(1, 2)".toList, "'p, q'".toList], []] ∧
      b.replacement "u.".toList = .ok (braced "u.up(u.pad(a||'x|y', f(1, 2), 'p, q'))".toList) := by
  have hpad : Pipe.IsWritable ⟨"pad".toList, ["f(1, 2)".toList, "'p, q'".toList]⟩ := by
    refine ⟨by decide +kernel, by decide +kernel, fun a ha => ?_, by decide +kernel⟩
    simp only [List.mem_cons, List.not_mem_nil, or_false] at ha
    rcases ha with rfl | rfl <;> decide +kernel
  have hup : Pipe.IsWritable ⟨"up".toList, []⟩ :=
    ⟨by decide +kernel, by decide +kernel, by simp, by simp⟩
  have hgap : IsGap [' '] := ⟨by decide, rfl⟩
  have hargs : WritesArguments ["f(1, 2)".toList, "'p, q'".toList]
      ("f(1, 2)".toList ++ [' '] ++ ',' :: [] ++ "'p, q'".toList) := .cons rfl rfl .last
  have hchain : WritesChain [⟨"pad".toList, ["f(1, 2)".toList, "'p, q'".toList]⟩, ⟨"up".toList, []⟩]
      ("pad".toList ++ [' '] ++ ':' :: [' '] ++
        ("f(1, 2)".toList ++ [' '] ++ ',' :: [] ++ "'p, q'".toList) ++
        [' '] ++ '|' :: [' '] ++ "up".toList) :=
    .cons (.applied rfl rfl hargs) hgap hgap (.last .bare)
  have hexpression : IsFragment "a||'x|y'".toList := by decide +kernel
  have h := writesBlock_reads_back "u.".toList 7 hexpression
    (List.forall_mem_cons.mpr ⟨hpad, List.forall_mem_cons.mpr ⟨hup, by simp⟩⟩)
    (@WritesBlock.mk _ _ [] [' '] [' '] [] _ rfl hgap hgap rfl hchain)
  exact h

end PipeBlocks
