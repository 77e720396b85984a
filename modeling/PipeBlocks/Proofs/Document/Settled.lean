import PipeBlocks.Proofs.Document.Called

/-! Settled documents, and expanding twice.

A document is *settled* if none of its blocks is replaced. It expands to itself and calls nothing
(`Settled.expand`, `Settled.calledNames`), whatever the prefix, because no prefix decides whether
a block is replaced. Expanding settles a document whose blocks never drop below depth zero
(`settled_expand`): what is put in the place of a block is again a brace span, at a place where
one stood, but no pipe separates in it and so it is no block. -/
namespace PipeBlocks
open Text Scan

/-! ### Settled documents -/

def Settled (document : Text) : Prop :=
  ∀ b ∈ blocks document, ∀ namePrefix after, ¬ b.Replaced namePrefix after

variable {o : Options} {document : Text}

theorem gather_codeOf_of_not_replaced {pos : Nat}
    (h : ∀ b ∈ blocksFrom pos document, ∀ after, ¬ b.Replaced o.namePrefix after) :
    gather o.codeOf pos document = document := by
  induction document using document_induction generalizing pos with
  | nil => exact gather_nil pos
  | loose c r hs ih =>
    rw [blocksFrom_loose pos hs] at h
    rw [gather_loose textAdditive_code pos hs, ih h]
    rfl
  | span t rest ht ih =>
    rw [blocksFrom_braced pos ht] at h
    have hcode : o.codeOf (spanSegment pos t) = braced t := by
      rcases replaced_or_kept o pos t with ⟨x, y, cut, -, -, hr⟩ | ⟨hcode, -, -⟩
      · exact absurd hr (h _ (by simp [Block.parse?_braced_of_cut cut]) _)
      · exact hcode
    rw [gather_braced textAdditive_code pos ht, hcode,
      ih fun b hb => h b (List.mem_append_right _ hb)]

/-- Expanding a settled document changes nothing. -/
theorem Settled.expand (h : Settled document) (o : Options) : expand document o = document := by
  rw [expand_eq]
  refine gather_codeOf_of_not_replaced fun b hb => ?_
  rw [← blocks_eq] at hb
  exact h b hb o.namePrefix

theorem Settled.calledNames (h : Settled document) (p : Expander) : p.calledNames document = [] := by
  have hnone : ∀ b ∈ blocks document, b.calledNames p.options.namePrefix = [] := by
    intro b hb
    by_cases hc : b.calledNames p.options.namePrefix = []
    · exact hc
    · have hb' := hb
      rw [blocks_eq] at hb'
      obtain ⟨after, hr⟩ := replaced_of_calledNames_ne_nil hb' hc
      exact absurd hr (h b hb _ after)
  rw [Expander.calledNames, List.flatMap_eq_nil_iff.mpr hnone]
  rfl

/-! ### What is put in the place of a span -/

/-- A block of a steady content is replaced by calls in which no pipe separates. -/
theorem whole_of_replaced {t x y namePrefix : Text}
    (hp : ∀ c ∈ namePrefix, isStructural c = false ∧ c ≠ '|') (ht : Steady t)
    (cut : CutAt .pipe .start t x y) (hne : stages y ≠ []) :
    Whole .pipe .start (nest namePrefix x.trim (stages y)) := by
  obtain ⟨hx, hy⟩ := ht.of_cut cut
  exact whole_nest hp hx.trim hne (steady_of_mem_stages hy) whole_name_of_mem_stages

theorem braceFree_of_replaced {t x y namePrefix : Text}
    (hp : ∀ c ∈ namePrefix, isStructural c = false) (ht : BraceFree t)
    (cut : CutAt .pipe .start t x y) : BraceFree (nest namePrefix x.trim (stages y)) := by
  have hx : ∀ c ∈ x, c ∈ t := fun c hc => by simp [cut.eq, hc]
  have hy : ∀ c ∈ y, c ∈ t := fun c hc => by simp [cut.eq, hc]
  have hbrace : ∀ c, isStructural c = false → isBrace c = false := by
    intro c hc
    simp only [isStructural, isOpener, isCloser, Bool.or_eq_false_iff] at hc
    simp [isBrace, hc]
  refine forall_mem_nest (fun c hc => hbrace c (hp c hc)) (fun s hs u hu c hc => ?_)
    (by simp [isBrace])
    fun c hc => ht c (hx c (mem_of_mem_trim hc))
  exact ht c (hy c (mem_of_mem_stages s hs u hu hc))

/-- Whatever stands in the place of a span is a span, and no block that is replaced. -/
theorem exists_codeOf_spanSegment (hp : ∀ c ∈ o.namePrefix, isStructural c = false ∧ c ≠ '|')
    {t : Text} (ht : BraceFree t) (pos : Nat)
    (hcontent : ∀ b, Block.parse? (braced t) pos = some b → State.start.NonnegOn t) :
    ∃ u, BraceFree u ∧ o.codeOf (spanSegment pos t) = braced u ∧
      ∀ pos' b, Block.parse? (braced u) pos' = some b →
        ∀ namePrefix after, ¬ b.Replaced namePrefix after := by
  rcases replaced_or_kept o pos t with ⟨x, y, cut, hclosed, hne, hr⟩ | ⟨hcode, -, hkept⟩
  · have hnonneg := hcontent _ (Block.parse?_braced_of_cut cut pos)
    have hwhole := whole_of_replaced hp ⟨hnonneg, hclosed⟩ cut hne
    refine ⟨_, braceFree_of_replaced (fun c hc => (hp c hc).1) ht cut, ?_, fun pos' b hb => ?_⟩
    · rw [spanSegment_of_cut cut, codeOf_replaced hr]
    · rw [Block.parse?_braced_of_whole hwhole] at hb
      cases hb
  · exact ⟨t, ht, hcode, hkept⟩

/-! ### Expanding twice -/

/-- The code has its spans where the document has its own. -/
theorem firstBrace?_gather_codeOf (pos : Nat) (document : Text) :
    firstBrace? (gather o.codeOf pos document) = firstBrace? document := by
  induction document using document_induction generalizing pos with
  | nil => rw [gather_nil]
  | loose c r hs ih =>
    rw [gather_loose textAdditive_code pos hs, firstBrace?_cons, ← ih (pos + c.utf8Size)]
    exact firstBrace?_cons c _
  | span t rest ht ih =>
    have hcode : ∃ u, o.codeOf (spanSegment pos t) = braced u := by
      rcases replaced_or_kept o pos t with ⟨x, y, cut, -, -, hr⟩ | ⟨hcode, -, -⟩
      · exact ⟨_, by rw [spanSegment_of_cut cut, codeOf_replaced hr]⟩
      · exact ⟨t, hcode⟩
    obtain ⟨u, hu⟩ := hcode
    rw [gather_braced textAdditive_code pos ht, hu, firstBrace?_braced, firstBrace?_braced]

theorem settled_gather_codeOf (hp : ∀ c ∈ o.namePrefix, isStructural c = false ∧ c ≠ '|')
    {pos : Nat} (hdoc : ∀ b ∈ blocksFrom pos document, State.start.NonnegOn b.content) (pos' : Nat) :
    ∀ b ∈ blocksFrom pos' (gather o.codeOf pos document),
      ∀ namePrefix after, ¬ b.Replaced namePrefix after := by
  induction document using document_induction generalizing pos pos' with
  | nil => simp [blocksFrom]
  | loose c r hs ih =>
    have hs' : span? (c :: gather o.codeOf (pos + c.utf8Size) r) = none := by
      rw [span?_cons_eq_none_iff, firstBrace?_gather_codeOf]
      exact span?_cons_eq_none_iff.mp hs
    rw [blocksFrom_loose pos hs] at hdoc
    rw [gather_loose textAdditive_code pos hs, show o.codeOf (.text [c]) = [c] from rfl,
      List.singleton_append, blocksFrom_loose pos' hs']
    exact ih hdoc _
  | span t rest ht ih =>
    rw [blocksFrom_braced pos ht] at hdoc
    have hcontent : ∀ b, Block.parse? (braced t) pos = some b → State.start.NonnegOn t := by
      intro b hb
      have := hdoc b (by simp [hb])
      obtain ⟨x, y, -, rfl⟩ := Block.parse?_braced_eq_some_iff.mp hb
      rwa [Block.content_of_raw rfl] at this
    obtain ⟨u, hu, hcode, hkept⟩ := exists_codeOf_spanSegment hp ht pos hcontent
    rw [gather_braced textAdditive_code pos ht, hcode, blocksFrom_braced pos' hu]
    intro b hb
    rcases List.mem_append.mp hb with hb | hb
    · exact hkept pos' b (Option.mem_toList.mp hb)
    · exact ih (fun b hb => hdoc b (List.mem_append_right _ hb)) _ b hb

/-- Expanding settles a document. -/
theorem settled_expand (hp : ∀ c ∈ o.namePrefix, isStructural c = false ∧ c ≠ '|')
    (hdoc : ∀ b ∈ blocks document, State.start.NonnegOn b.content) :
    Settled (expand document o) := by
  rw [blocks_eq] at hdoc
  rw [Settled, blocks_eq, expand_eq]
  exact settled_gather_codeOf hp hdoc 0

/-- No pipe separates in a call expression made of a block. -/
theorem offsets_callExpression (hp : ∀ c ∈ o.namePrefix, isStructural c = false ∧ c ≠ '|')
    {b : Block} (hb : b ∈ blocks document) (hnonneg : State.start.NonnegOn b.content)
    (hcomplete : b.isComplete = true) {call : Text}
    (hcall : callExpression b.expression (stages b.chain) o.namePrefix = .ok call) :
    offsets .pipe call = [] := by
  rw [blocks_eq] at hb
  obtain ⟨t, x, y, start, cut, rfl⟩ := exists_cut_of_mem_blocksFrom hb
  obtain ⟨-, -, hclosed⟩ := Block.isComplete_of_cut.mp hcomplete
  rw [Block.content_of_raw rfl] at hnonneg
  obtain ⟨-, hne, -, rfl⟩ := callExpression_eq_ok_iff.mp hcall
  rw [stages_trim] at hne ⊢
  exact offsets_eq_nil_iff.mpr (whole_of_replaced hp ⟨hnonneg, hclosed⟩ cut hne)

/-- **Expanding twice is expanding once.** If the prefix holds no quote, bracket, brace or pipe and
no block's content closes a group that it did not open, then the expanded document expands to
itself and calls nothing any more, and no pipe separates in any call expression on the way. -/
theorem expand_expand (hp : ∀ c ∈ o.namePrefix, isStructural c = false ∧ c ≠ '|')
    (hdoc : ∀ b ∈ blocks document, State.start.NonnegOn b.content) :
    expand (expand document o) o = expand document o ∧
    (∀ p : Expander, p.calledNames (expand document o) = []) ∧
    ∀ b ∈ blocks document, b.isComplete = true →
      ∀ call, callExpression b.expression (stages b.chain) o.namePrefix = .ok call →
        offsets .pipe call = [] := by
  have hsettled := settled_expand hp hdoc
  refine ⟨hsettled.expand o, hsettled.calledNames, fun b hb hcomplete call hcall => ?_⟩
  exact offsets_callExpression hp hb (hdoc b hb) hcomplete hcall

/-- Pipes in pairs, in strings and in groups stay where they are, also in front of a group that
the last stage leaves open. -/
theorem expand_expand_open :
    let o : Options := { namePrefix := "u.".toList }
    let document : Text := "\x7ba || '|' | f:(x|y) | g:[1\x7d".toList
    let code : Text := "\x7bu.g(u.f(a || '|', (x|y)), [1)\x7d".toList
    (∀ c ∈ o.namePrefix, isStructural c = false ∧ c ≠ '|') ∧
      (∀ b ∈ blocks document, State.start.NonnegOn b.content) ∧
      expand document o = code ∧ expand code o = code ∧
        (Expander.ofOptions o).calledNames code = [] := by
  have hp : ∀ c ∈ "u.".toList, isStructural c = false ∧ c ≠ '|' := by
    simp [isStructural, isQuote, isOpener, isCloser]
  have hblocks : blocks "\x7ba || '|' | f:(x|y) | g:[1\x7d".toList =
      [⟨"\x7ba || '|' | f:(x|y) | g:[1\x7d".toList, "a || '|'".toList,
        "f:(x|y) | g:[1".toList, 0⟩] := by
    decide +kernel
  have hdoc : ∀ b ∈ blocks "\x7ba || '|' | f:(x|y) | g:[1\x7d".toList,
      State.start.NonnegOn b.content := by
    rw [hblocks]
    decide +kernel
  have hcode : expand "\x7ba || '|' | f:(x|y) | g:[1\x7d".toList { namePrefix := "u.".toList } =
      "\x7bu.g(u.f(a || '|', (x|y)), [1)\x7d".toList := by
    decide +kernel
  have htwice := expand_expand (o := { namePrefix := "u.".toList }) hp hdoc
  rw [hcode] at htwice
  exact ⟨hp, hdoc, hcode, htwice.1, htwice.2.1 _⟩

end PipeBlocks
