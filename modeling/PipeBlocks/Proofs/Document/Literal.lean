import PipeBlocks.Proofs.Arguments
import PipeBlocks.Proofs.Scan.Frame
import PipeBlocks.Proofs.Document.Debugging
import PipeBlocks.Proofs.Document.Outcome

/-! String literals in blocks.

What is read from a text with a place for a solid text is read with a place for it: of a chain, one
stage has the place, in its name or in its arguments (`Frame.Outside.exists_stages`); of a block, its
expression or one stage (`Frame.Outside.exists_readSpan`). Calls of them have the place once
(`BlockFrame.Outside.exists_call`). So the body of a string literal has no say in what becomes of its
block, and is copied to its call as it stands (`literal_body_irrelevant`). -/
namespace PipeBlocks
open Text Scan

variable {m namePrefix : Text} {f : Frame}

/-! ### Stages -/

/-- A stage with a place left open in its name or in its arguments. -/
inductive StageFrame where
  | inName (f : Frame) (args : Text)
  | inArgs (name : Text) (f : Frame)

namespace StageFrame

def fill : StageFrame → Text → Stage
  | .inName f args, m => ⟨f.fill m, args⟩
  | .inArgs name f, m => ⟨name, f.fill m⟩

/-- Where arguments are cut, the place is outside strings. -/
def Outside : StageFrame → Prop
  | .inName _ _ => True
  | .inArgs _ f => f.Outside

def Named : StageFrame → Prop
  | .inName _ _ => True
  | .inArgs name _ => name ≠ []

theorem name_fill_ne_nil_iff (g : StageFrame) (hm : Solid m) : (g.fill m).name ≠ [] ↔ g.Named := by
  cases g with
  | inName f args => simp [fill, Named, f.fill_ne_nil hm]
  | inArgs name f => rfl

end StageFrame

theorem Scan.Frame.Outside.exists_parse (hf : f.Outside) :
    ∃ g : StageFrame, g.Outside ∧ ∀ m, Solid m → Stage.parse (f.fill m) = g.fill m := by
  rcases hf.whole_or_cut .colon with h | ⟨x, y, -, hy, h⟩ | ⟨x, y, h⟩
  · refine ⟨.inName f.trim [], trivial, fun m hm => ?_⟩
    rw [Stage.parse_of_whole (h m hm), Frame.trim_fill hm]
    rfl
  · refine ⟨.inArgs x.trim (Frame.trim ⟨y, f.right⟩), hy.trim, fun m hm => ?_⟩
    rw [Stage.parse_of_cut (h m hm), Frame.trim_fill hm]
    rfl
  · refine ⟨.inName (Frame.trim ⟨f.left, x⟩) y.trim, trivial, fun m hm => ?_⟩
    rw [Stage.parse_of_cut (h m hm), Frame.trim_fill hm]
    rfl

theorem Scan.Frame.Outside.exists_stages (hf : f.Outside) :
    ∃ before, ∃ g : StageFrame, ∃ after, g.Outside ∧
      ∀ m, Solid m → stages (f.fill m) = before ++ g.fill m :: after := by
  obtain ⟨before, h, after, hh, hsplit⟩ := hf.exists_split .pipe
  obtain ⟨g, hg, hparse⟩ := hh.exists_parse
  refine ⟨(before.filter fun p => !p.isBlank).map Stage.parse, g,
    (after.filter fun p => !p.isBlank).map Stage.parse, hg, fun m hm => ?_⟩
  -- The piece with the place is never blank, so it is never left out.
  have hfilled : (!(h.fill m).isBlank) = true := by rw [Frame.isBlank_fill hm, Bool.not_false]
  rw [stages_eq, hsplit m hm, List.filter_append,
    List.filter_cons_of_pos (p := fun p : Text => !p.isBlank) hfilled, List.map_append,
    List.map_cons, hparse m hm]

/-! ### Arguments -/

/-- An empty text at the end is dropped behind any text that is not empty. -/
theorem dropEmptyLast_append {t : Text} (ht : t ≠ []) (before after : List Text) :
    dropEmptyLast (before ++ t :: after) = before ++ t :: dropEmptyLast after := by
  unfold dropEmptyLast
  cases after with
  | nil => simp [ht]
  | cons u rest =>
    rw [List.getLast?_append_cons, List.getLast?_cons_cons]
    split
    · simp
    · rfl

theorem Scan.Frame.Outside.exists_arguments (hf : f.Outside) :
    ∃ before, ∃ g : Frame, ∃ after,
      ∀ m, Solid m → arguments (f.fill m) = before ++ g.fill m :: after := by
  obtain ⟨before, g, after, -, hsplit⟩ := hf.exists_split .comma
  refine ⟨before.map Text.trim, g.trim, dropEmptyLast (after.map Text.trim), fun m hm => ?_⟩
  rw [arguments_eq, hsplit m hm, List.map_append, List.map_cons, Frame.trim_fill hm,
    dropEmptyLast_append (Frame.fill_ne_nil hm)]

/-! ### Calls -/

/-- A call with the place in its value. -/
theorem exists_call_value (namePrefix : Text) (f : Frame) (s : Stage) :
    ∃ g : Frame, ∀ m, s.call namePrefix (f.fill m) = g.fill m :=
  ⟨⟨namePrefix ++ s.name ++ '(' :: f.left,
    f.right ++ s.arguments.flatMap (", ".toList ++ ·) ++ [')']⟩,
    fun m => by simp [Stage.call, Frame.fill]⟩

/-- A call with the place in its stage. -/
theorem StageFrame.Outside.exists_call {g : StageFrame} (hg : g.Outside) (namePrefix value : Text) :
    ∃ h : Frame, ∀ m, Solid m → (g.fill m).call namePrefix value = h.fill m := by
  cases g with
  | inName f args =>
    refine ⟨⟨namePrefix ++ f.left, f.right ++ '(' :: value ++
      (arguments args).flatMap (", ".toList ++ ·) ++ [')']⟩, fun m _ => ?_⟩
    simp [Stage.call, Stage.arguments, fill, Frame.fill]
  | inArgs name f =>
    obtain ⟨before, h, after, harguments⟩ := Frame.Outside.exists_arguments hg
    refine ⟨⟨namePrefix ++ name ++ '(' :: value ++ before.flatMap (", ".toList ++ ·) ++
      ", ".toList ++ h.left, h.right ++ after.flatMap (", ".toList ++ ·) ++ [')']⟩, fun m hm => ?_⟩
    simp only [fill, Stage.call, Stage.arguments, harguments m hm]
    simp [Frame.fill]

/-- Calls around a value with the place have the place. -/
theorem exists_nest_value (namePrefix : Text) (f : Frame) (l : List Stage) :
    ∃ g : Frame, ∀ m, nest namePrefix (f.fill m) l = g.fill m := by
  induction l generalizing f with
  | nil => exact ⟨f, fun m => rfl⟩
  | cons s rest ih =>
    obtain ⟨h, hcall⟩ := exists_call_value namePrefix f s
    obtain ⟨g, hg⟩ := ih h
    exact ⟨g, fun m => by rw [nest_cons, hcall, hg]⟩

theorem StageFrame.Outside.exists_nest {g : StageFrame} (hg : g.Outside) (namePrefix value : Text)
    (before after : List Stage) :
    ∃ h : Frame, ∀ m, Solid m → nest namePrefix value (before ++ g.fill m :: after) = h.fill m := by
  obtain ⟨h, hcall⟩ := hg.exists_call namePrefix (nest namePrefix value before)
  obtain ⟨k, hk⟩ := exists_nest_value namePrefix h after
  refine ⟨k, fun m hm => ?_⟩
  rw [← hk, ← hcall m hm, nest, List.foldl_append, List.foldl_cons]
  rfl

/-! ### Blocks -/

/-- What is read from a span with a place left open in its content: nothing, if it is no block, and
else an expression and stages. -/
inductive BlockFrame where
  | noBlock
  | inExpression (f : Frame) (chain : List Stage)
  | inStage (expression : Text) (before : List Stage) (g : StageFrame) (after : List Stage)

namespace BlockFrame

def fill : BlockFrame → Text → Option (Text × List Stage)
  | .noBlock, _ => none
  | .inExpression f chain, m => some (f.fill m, chain)
  | .inStage expression before g after, m => some (expression, before ++ g.fill m :: after)

def Outside : BlockFrame → Prop
  | .inStage _ _ g _ => g.Outside
  | _ => True

/-- Whatever fills the place, there are no calls, or the calls have the place too. -/
theorem Outside.exists_call {r : BlockFrame} (hr : r.Outside) (namePrefix : Text) :
    (∀ m, Solid m → ∀ p ∈ r.fill m, ∀ call, callExpression p.1 p.2 namePrefix ≠ .ok call) ∨
    ∃ g : Frame, ∀ m, Solid m →
      ∃ p ∈ r.fill m, callExpression p.1 p.2 namePrefix = .ok (g.fill m) := by
  cases r with
  | noBlock => exact .inl fun m _ p hp => by cases hp
  | inExpression f chain =>
    by_cases h : chain ≠ [] ∧ ∀ s ∈ chain, s.name ≠ []
    · obtain ⟨g, hg⟩ := exists_nest_value namePrefix f chain
      refine .inr ⟨g, fun m hm => ⟨_, rfl, ?_⟩⟩
      exact callExpression_eq_ok_iff.mpr ⟨Frame.isBlank_fill hm, h.1, h.2, hg m⟩
    · refine .inl fun m _ p hp call hcall => ?_
      obtain rfl := Option.some.inj hp
      obtain ⟨-, hne, hnamed, -⟩ := callExpression_eq_ok_iff.mp hcall
      exact h ⟨hne, hnamed⟩
  | inStage expression before g after =>
    have hnamed (m : Text) (hm : Solid m) : (∀ s ∈ before ++ g.fill m :: after, s.name ≠ []) ↔
        (∀ s ∈ before, s.name ≠ []) ∧ g.Named ∧ ∀ s ∈ after, s.name ≠ [] := by
      rw [List.forall_mem_append, List.forall_mem_cons, g.name_fill_ne_nil_iff hm]
    by_cases h : expression.isBlank = false ∧
        (∀ s ∈ before, s.name ≠ []) ∧ g.Named ∧ ∀ s ∈ after, s.name ≠ []
    · obtain ⟨k, hk⟩ := StageFrame.Outside.exists_nest hr namePrefix expression before after
      refine .inr ⟨k, fun m hm => ⟨_, rfl, ?_⟩⟩
      exact callExpression_eq_ok_iff.mpr ⟨h.1, by simp, (hnamed m hm).mpr h.2, hk m hm⟩
    · refine .inl fun m hm p hp call hcall => ?_
      obtain rfl := Option.some.inj hp
      obtain ⟨he, -, hall, -⟩ := callExpression_eq_ok_iff.mp hcall
      exact h ⟨he, (hnamed m hm).mp hall⟩

end BlockFrame

/-- What is read from a span: its expression and its stages, if it is a block. -/
def readSpan (content : Text) (start : Nat) : Option (Text × List Stage) :=
  (Block.parse? (braced content) start).map fun b => (b.expression, stages b.chain)

theorem readSpan_of_whole {t : Text} (h : Whole .pipe .start t) (start : Nat) :
    readSpan t start = none := by
  rw [readSpan, Block.parse?_braced_of_whole h]
  rfl

theorem readSpan_of_cut {t x y : Text} (h : CutAt .pipe .start t x y) (start : Nat) :
    readSpan t start = some (x.trim, stages y) := by
  rw [readSpan, Block.parse?_braced_of_cut h, Option.map_some, stages_trim]

theorem Scan.Frame.Outside.exists_readSpan (hf : f.Outside) :
    ∃ r : BlockFrame, r.Outside ∧ ∀ m, Solid m → ∀ start, readSpan (f.fill m) start = r.fill m := by
  rcases hf.whole_or_cut .pipe with h | ⟨x, y, -, hy, h⟩ | ⟨x, y, h⟩
  · exact ⟨.noBlock, trivial, fun m hm start => readSpan_of_whole (h m hm) start⟩
  · obtain ⟨before, g, after, hg, hstages⟩ := hy.exists_stages
    refine ⟨.inStage x.trim before g after, hg, fun m hm start => ?_⟩
    rw [readSpan_of_cut (h m hm), hstages m hm]
    rfl
  · refine ⟨.inExpression (Frame.trim ⟨f.left, x⟩) (stages y), trivial, fun m hm start => ?_⟩
    rw [readSpan_of_cut (h m hm), Frame.trim_fill hm]
    rfl

/-- What is read from a span and whether a string is left open in it decide what replaces it. -/
theorem Block.replaced_iff_readSpan {t after : Text} {start : Nat} {b : Block}
    (hb : Block.parse? (braced t) start = some b) : b.Replaced namePrefix after ↔
      leavesStringOpen t = false ∧ ∃ p ∈ readSpan t start, ∃ call,
        callExpression p.1 p.2 namePrefix = .ok call ∧ braced call = after := by
  obtain ⟨x, y, cut, rfl⟩ := Block.parse?_braced_eq_some_iff.mp hb
  rw [Block.replaced_iff, readSpan_of_cut cut]
  constructor
  · rintro ⟨hx, hclosed, hne, hnamed, hafter⟩
    have hx' : x.trim.isBlank = false := by rw [isBlank_trim, hx]
    exact ⟨hclosed, _, rfl, _, callExpression_eq_ok_iff.mpr ⟨hx', hne, hnamed, rfl⟩, hafter⟩
  · rintro ⟨hclosed, p, hp, call, hcall, hafter⟩
    obtain rfl := Option.some.inj hp
    obtain ⟨hx, hne, hnamed, rfl⟩ := callExpression_eq_ok_iff.mp hcall
    exact ⟨by rw [← hx, isBlank_trim], hclosed, hne, hnamed, hafter⟩

/-- A span that is read is a block. -/
theorem exists_block_of_mem_readSpan {t : Text} {start : Nat} {p : Text × List Stage}
    (h : p ∈ readSpan t start) : ∃ b, Block.parse? (braced t) start = some b := by
  obtain ⟨b, hb, -⟩ := Option.map_eq_some_iff.mp h
  exact ⟨b, hb⟩

/-- Whatever fills the place, the block is kept, or it is replaced by calls that have the place
too. -/
theorem Scan.Frame.Outside.kept_or_replaced (hf : f.Outside) (namePrefix : Text) :
    (∀ m, Solid m → ∀ start b, Block.parse? (braced (f.fill m)) start = some b →
      ∀ after, ¬ b.Replaced namePrefix after) ∨
    ∃ g : Frame, ∀ m, Solid m → ∀ start, ∃ b,
      Block.parse? (braced (f.fill m)) start = some b ∧ b.Replaced namePrefix (g.fill m) := by
  obtain ⟨r, hr, hread⟩ := hf.exists_readSpan
  obtain ⟨left, hleft⟩ := hf.exists_leavesStringOpen
  rcases hr.exists_call namePrefix with hnone | ⟨g, hg⟩
  · refine .inl fun m hm start b hb after hafter => ?_
    obtain ⟨-, p, hp, call, hcall, -⟩ := (Block.replaced_iff_readSpan hb).mp hafter
    rw [hread m hm] at hp
    exact hnone m hm p hp call hcall
  · -- A string left open behind the place keeps the block, even if there are calls.
    cases left with
    | true =>
      refine .inl fun m hm start b hb after hafter => ?_
      obtain ⟨hclosed, -⟩ := (Block.replaced_iff_readSpan hb).mp hafter
      rw [hleft m hm] at hclosed
      cases hclosed
    | false =>
      refine .inr ⟨⟨'{' :: g.left, g.right ++ ['}']⟩, fun m hm start => ?_⟩
      obtain ⟨p, hp, hcall⟩ := hg m hm
      rw [← hread m hm start] at hp
      obtain ⟨b, hb⟩ := exists_block_of_mem_readSpan hp
      refine ⟨b, hb, (Block.replaced_iff_readSpan hb).mpr ⟨hleft m hm, p, hp, _, hcall, ?_⟩⟩
      simp [braced, Frame.fill]

/-- A span that nothing replaces stays as written in any document, excluded or not. -/
theorem Expander.code_expand_kept (p : Expander) {t : Text} (ht : BraceFree t)
    (h : ∀ start b, Block.parse? (braced t) start = some b →
      ∀ after, ¬ b.Replaced p.options.namePrefix after) (before after filename : Text) :
    (p.expand (before ++ braced t ++ after) filename).code =
      (p.expand before filename).code ++ braced t ++ (p.expand after filename).code := by
  cases hx : p.exclusions.firstMatch? filename with
  | some pattern => simp only [Expander.expand_of_excluded hx]
  | none =>
    rw [code_expand_span hx ht]
    rcases replaced_or_kept p.options before.byteLength t with ⟨x, y, cut, -, -, hr⟩ | ⟨hkept, -⟩
    · exact absurd hr (h _ _ (Block.parse?_braced_of_cut cut before.byteLength) _)
    · rw [hkept]

/-! ### Literals in blocks -/

/-- What can stand in a literal with the quote `q` in a block: it ends neither the literal nor the
block, and hides no character. -/
structure IsBody (q : Char) (w : Text) : Prop where
  noQuote : q ∉ w
  noBackslash : '\\' ∉ w
  braceFree : BraceFree w

theorem IsBody.solid {q : Char} {w : Text} (hw : IsBody q w) (hq : isQuote q = true) :
    Solid (literal q w) :=
  solid_literal hq hw.noQuote hw.noBackslash

theorem IsBody.braceFree_span {q : Char} {w x y : Text} (hw : IsBody q w) (hq : isQuote q = true)
    (hx : BraceFree x) (hy : BraceFree y) : BraceFree (x ++ literal q w ++ y) := by
  have hquote : isBrace q = false := by
    rw [Bool.eq_false_iff]
    intro h
    obtain rfl | rfl : q = '{' ∨ q = '}' := by simpa [isBrace] using h
    · exact absurd hq (by decide)
    · exact absurd hq (by decide)
  simp only [BraceFree, literal, List.forall_mem_append, List.forall_mem_cons, List.not_mem_nil,
    IsEmpty.forall_iff, implies_true, and_true]
  exact ⟨⟨hx, ⟨hquote, hw.braceFree⟩, hquote⟩, hy⟩

/-- **The body of a string literal has no say in what becomes of its block.** The same is read from
the block for all bodies, but for the literal itself; and either the span stays as written for all
bodies, in any document, or it is replaced for all, by the same text around the literal. -/
theorem literal_body_irrelevant (p : Expander) {q : Char} (hq : isQuote q = true) {x y : Text}
    (hx : BraceFree x) (hy : BraceFree y) (hclosed : leavesStringOpen x = false) :
    (∃ r : BlockFrame, ∀ w, IsBody q w → ∀ start,
      readSpan (x ++ literal q w ++ y) start = r.fill (literal q w)) ∧
    ((∀ w, IsBody q w → ∀ before after filename,
      (p.expand (before ++ braced (x ++ literal q w ++ y) ++ after) filename).code =
        (p.expand before filename).code ++ braced (x ++ literal q w ++ y) ++
          (p.expand after filename).code) ∨
    ∃ before after, ∀ w, IsBody q w → ∀ start,
      ∃ b, Block.parse? (braced (x ++ literal q w ++ y)) start = some b ∧
        b.Replaced p.options.namePrefix (before ++ literal q w ++ after)) := by
  have hout : Frame.Outside ⟨x, y⟩ := Frame.outside_of_closed hclosed
  obtain ⟨r, -, hread⟩ := hout.exists_readSpan
  refine ⟨⟨r, fun w hw start => hread _ (hw.solid hq) start⟩, ?_⟩
  rcases hout.kept_or_replaced p.options.namePrefix with hkept | ⟨g, hg⟩
  · exact .inl fun w hw =>
      p.code_expand_kept (hw.braceFree_span hq hx hy) (hkept _ (hw.solid hq))
  · exact .inr ⟨g.left, g.right, fun w hw => hg _ (hw.solid hq)⟩

/-- A literal in an argument, with brackets, pipes and the other quote in it. -/
theorem literal_body_irrelevant_argument :
    let p : Expander := { options := { namePrefix := "u.".toList } }
    let x : Text := "a | f:g(".toList
    let y : Text := "), b | h".toList
    let w : Text := "|:,([ \" ".toList
    isQuote '\'' = true ∧ BraceFree x ∧ BraceFree y ∧ leavesStringOpen x = false ∧
      IsBody '\'' w ∧
      (p.expand (braced (x ++ literal '\'' w ++ y)) "App.svelte".toList).code =
        braced ("u.h(u.f(a, g(".toList ++ literal '\'' w ++ "), b))".toList) ∧
      ∃ before after, ∀ w, IsBody '\'' w → ∀ start,
        ∃ b, Block.parse? (braced (x ++ literal '\'' w ++ y)) start = some b ∧
          b.Replaced p.options.namePrefix (before ++ literal '\'' w ++ after) := by
  intro p x y w
  have hq : isQuote '\'' = true := by decide
  have hx : BraceFree x := by decide +kernel
  have hy : BraceFree y := by decide +kernel
  have hclosed : leavesStringOpen x = false := by decide +kernel
  have hw : IsBody '\'' w := ⟨by decide +kernel, by decide +kernel, by decide +kernel⟩
  have hcode : (p.expand (braced (x ++ literal '\'' w ++ y)) "App.svelte".toList).code =
      braced ("u.h(u.f(a, g(".toList ++ literal '\'' w ++ "), b))".toList) := by decide +kernel
  refine ⟨hq, hx, hy, hclosed, hw, hcode, ?_⟩
  rcases (literal_body_irrelevant p hq hx hy hclosed).2 with hkept | hreplaced
  · have := hkept w hw [] [] "App.svelte".toList
    rw [List.nil_append, List.append_nil, hcode] at this
    exact absurd this (by decide +kernel)
  · exact hreplaced

end PipeBlocks
