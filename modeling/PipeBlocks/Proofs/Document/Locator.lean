import PipeBlocks.Proofs.Document.Segments
import PipeBlocks.Block.Locator

/-! What a locator gives out.

`Locator.Gives` says which segments a locator has still to give out. A call takes the first of them
(`next?_of_gives`), so the calls give the document's segments in order and after the last one
nothing, however often the locator is called (`calls_of_gives`). -/
namespace PipeBlocks
open Text

/-- Text in front of segments; an empty text is no segment. -/
def Segment.prepend (t : Text) (l : List Segment) : List Segment :=
  if t = [] then l else Segment.prependText t l

namespace Segment
variable {t u : Text} {l : List Segment}

theorem prependText_eq_prepend (h : t ≠ []) : prependText t l = prepend t l := (if_neg h).symm

@[simp] theorem prepend_nil : prepend [] l = l := if_pos rfl

theorem prepend_append : prepend (t ++ u) l = prepend t (prepend u l) := by
  by_cases ht : t = []
  · simp [ht]
  · by_cases hu : u = []
    · simp [hu]
    · have htu : t ++ u ≠ [] := by simp [ht]
      rw [← prependText_eq_prepend htu, ← prependText_eq_prepend ht, ← prependText_eq_prepend hu]
      cases l with
      | nil => rfl
      | cons s rest =>
        cases s with
        | text v => simp [prependText]
        | block b => rfl

end Segment

/-! ### Searching -/

theorem firstSpan?_loose (pos : Nat) {c : Char} {r : Text} (h : span? (c :: r) = none) :
    firstSpan? pos (c :: r) = firstSpan? (pos + c.utf8Size) r := by
  rw [firstSpan?, h]

theorem firstSpan?_braced (pos : Nat) {t : Text} (ht : BraceFree t) (rest : Text) :
    firstSpan? pos (braced t ++ rest) = some (pos, braced t) := by
  have hs := span?_braced ht rest
  rw [braced_append] at hs ⊢
  rw [firstSpan?, hs]

theorem segmentsFrom_of_firstSpan?_eq_none {pos : Nat} {t : Text} (h : firstSpan? pos t = none) :
    segmentsFrom pos t = Segment.prepend t [] := by
  induction t using document_induction generalizing pos with
  | nil => rw [segmentsFrom, Segment.prepend_nil]
  | loose c r hs ih =>
    rw [firstSpan?_loose pos hs] at h
    rw [segmentsFrom_loose pos hs, Segment.prependText_eq_prepend (List.cons_ne_nil c []), ih h,
      ← Segment.prepend_append]
    rfl
  | span t rest ht ih =>
    rw [firstSpan?_braced pos ht] at h
    cases h

/-- In front of the first span there is nothing but text. -/
theorem exists_of_firstSpan?_eq_some {pos start : Nat} {t raw : Text}
    (h : firstSpan? pos t = some (start, raw)) :
    ∃ before u after, BraceFree u ∧ raw = braced u ∧ start = pos + before.byteLength ∧
      t = before ++ (braced u ++ after) ∧
      segmentsFrom pos t = Segment.prepend before (segmentsFrom start (braced u ++ after)) := by
  induction t using document_induction generalizing pos with
  | nil => cases h
  | loose c r hs ih =>
    rw [firstSpan?_loose pos hs] at h
    obtain ⟨before, u, after, hu, hraw, hstart, rfl, hsegments⟩ := ih h
    refine ⟨c :: before, u, after, hu, hraw, by rw [hstart, byteLength_cons, Nat.add_assoc], rfl, ?_⟩
    rw [segmentsFrom_loose pos hs, Segment.prependText_eq_prepend (List.cons_ne_nil c []), hsegments,
      ← Segment.prepend_append]
    rfl
  | span t rest ht ih =>
    rw [firstSpan?_braced pos ht] at h
    obtain ⟨rfl, rfl⟩ := Prod.mk.inj (Option.some.inj h)
    exact ⟨[], t, rest, ht, rfl, rfl, rfl, Segment.prepend_nil.symm⟩

namespace Locator

/-- Searching goes on to the first block; all that was passed over is text. -/
theorem nextBlock?_cases {l : Locator} {given rest : Text} (hdoc : l.document = given ++ rest)
    (hsearch : l.search = given.byteLength) :
    (∃ search, l.nextBlock? = some (none, { l with search }) ∧
      segmentsFrom l.search rest = Segment.prepend rest []) ∨
    ∃ before b after, rest = before ++ (b.raw ++ after) ∧ b.start = l.search + before.byteLength ∧
      l.nextBlock? = some (some b, { l with search := b.stop }) ∧
      segmentsFrom l.search rest = Segment.prepend before (.block b :: segmentsFrom b.stop after) := by
  fun_induction nextBlock? l generalizing given rest with
  | case1 l hlt hdrop =>
    rw [hdoc, hsearch, dropBytes?_append] at hdrop
    cases hdrop
  | case2 l hlt t hdrop hspan =>
    rw [hdoc, hsearch, dropBytes?_append] at hdrop
    obtain rfl := Option.some.inj hdrop
    exact .inl ⟨l.search, rfl, segmentsFrom_of_firstSpan?_eq_none hspan⟩
  | case3 l hlt t hdrop start raw hspan _ b hparse =>
    rw [hdoc, hsearch, dropBytes?_append] at hdrop
    obtain rfl := Option.some.inj hdrop
    obtain ⟨before, u, after, hu, rfl, hstart, rfl, hsegments⟩ := exists_of_firstSpan?_eq_some hspan
    rw [segmentsFrom_braced start hu, hparse] at hsegments
    obtain ⟨x, y, -, rfl⟩ := Block.parse?_braced_eq_some_iff.mp hparse
    exact .inr ⟨before, _, after, rfl, hstart, rfl, hsegments⟩
  | case4 l hlt t hdrop start raw hspan _ hparse ih =>
    rw [hdoc, hsearch, dropBytes?_append] at hdrop
    obtain rfl := Option.some.inj hdrop
    obtain ⟨before, u, after, hu, rfl, hstart, rfl, hsegments⟩ := exists_of_firstSpan?_eq_some hspan
    have hne : braced u ≠ [] := List.cons_ne_nil _ _
    rw [segmentsFrom_braced start hu, hparse] at hsegments
    dsimp only at hsegments
    rw [Segment.prependText_eq_prepend hne, ← Segment.prepend_append] at hsegments
    -- The span is no block: it is passed over like the text in front of it.
    have hdoc' : l.document = (given ++ before ++ braced u) ++ after := by
      rw [hdoc]
      simp
    have hsearch' : start + (braced u).byteLength = (given ++ before ++ braced u).byteLength := by
      rw [byteLength_append, byteLength_append, ← hsearch, ← hstart]
    rcases ih hdoc' hsearch' with ⟨search, hnext, hrest⟩ | ⟨before', b, after', rfl, hb, hnext, hrest⟩
    · refine .inl ⟨search, hnext, ?_⟩
      rw [hsegments, hrest, ← Segment.prepend_append, List.append_assoc]
    · refine .inr ⟨before ++ braced u ++ before', b, after', by simp, ?_, hnext, ?_⟩
      · rw [hb, byteLength_append, byteLength_append]
        dsimp only
        omega
      · rw [hsegments, hrest, ← Segment.prepend_append]
  | case5 l hge =>
    have hrest : rest = [] := by
      rw [hdoc, byteLength_append] at hge
      cases rest with
      | nil => rfl
      | cons c r =>
        have := c.utf8Size_pos
        rw [byteLength_cons] at hge
        omega
    refine .inl ⟨l.search, rfl, ?_⟩
    rw [hrest, segmentsFrom, Segment.prepend_nil]

/-! ### One call -/

section Call
variable {l l' : Locator} {b : Block} {t : Text}

theorem next?_rest (hp : l.pending = none) (hpos : l.pos < l.document.byteLength)
    (hnext : l.nextBlock? = some (none, l')) (ht : l'.document.dropBytes? l'.pos = some t) :
    l.next? = some (some (.text t), { l' with pos := l'.document.byteLength }) := by
  rw [next?, hp]
  simp [Nat.not_le.mpr hpos, hnext, ht]

theorem next?_text (hp : l.pending = none) (hpos : l.pos < l.document.byteLength)
    (hnext : l.nextBlock? = some (some b, l')) (hb : l'.pos < b.start)
    (ht : l'.document.slice? l'.pos b.start = some t) :
    l.next? = some (some (.text t), { l' with pos := b.start, pending := some b }) := by
  rw [next?, hp]
  simp [Nat.not_le.mpr hpos, hnext, hb, ht]

theorem next?_block (hp : l.pending = none) (hpos : l.pos < l.document.byteLength)
    (hnext : l.nextBlock? = some (some b, l')) (hb : ¬ l'.pos < b.start) :
    l.next? = some (some (.block b), { l' with pos := b.stop }) := by
  rw [next?, hp]
  simp [Nat.not_le.mpr hpos, hnext, hb]

theorem next?_exhausted (hp : l.pending = none) (hpos : l.document.byteLength ≤ l.pos) :
    l.next? = some (none, l) := by
  rw [next?, hp]
  simp [hpos]

end Call

/-- What a locator has still to give out. -/
inductive Gives : Locator → List Segment → Prop where
  /-- The search begins where the text begins that is not given out. -/
  | searching (given rest : Text) :
    Gives ⟨given ++ rest, given.byteLength, given.byteLength, none⟩
      (segmentsFrom given.byteLength rest)
  /-- The text in front of the block `b` is given out, and the block is next. -/
  | waiting (given : Text) (b : Block) (rest : Text) (hb : b.start = given.byteLength) :
    Gives ⟨given ++ (b.raw ++ rest), b.start, b.stop, some b⟩ (.block b :: segmentsFrom b.stop rest)
  | exhausted (document : Text) (search : Nat) :
    Gives ⟨document, document.byteLength, search, none⟩ []

theorem gives_ofDocument (document : Text) : (ofDocument document).Gives (segments document) :=
  .searching [] document

theorem Gives.behind_block {given : Text} {b : Block} (rest : Text) (hb : b.start = given.byteLength) :
    Gives ⟨given ++ (b.raw ++ rest), b.stop, b.stop, none⟩ (segmentsFrom b.stop rest) := by
  have hstop : b.stop = (given ++ b.raw).byteLength := by rw [Block.stop, hb, byteLength_append]
  rw [hstop, ← List.append_assoc]
  exact .searching (given ++ b.raw) rest

theorem next?_of_searching (given rest : Text) :
    ∃ l', next? ⟨given ++ rest, given.byteLength, given.byteLength, none⟩ =
        some ((segmentsFrom given.byteLength rest).head?, l') ∧
      l'.Gives (segmentsFrom given.byteLength rest).tail := by
  by_cases hrest : rest = []
  · subst hrest
    rw [segmentsFrom]
    refine ⟨_, next?_exhausted rfl (by simp), ?_⟩
    simpa using Gives.exhausted given given.byteLength
  have hpos : given.byteLength < (given ++ rest).byteLength := by
    have := byteLength_pos hrest
    rw [byteLength_append]
    omega
  rcases nextBlock?_cases (l := ⟨given ++ rest, given.byteLength, given.byteLength, none⟩) rfl rfl with
    ⟨search, hnext, hsegments⟩ | ⟨before, b, after, rfl, hb, hnext, hsegments⟩
  · rw [hsegments, ← Segment.prependText_eq_prepend hrest]
    exact ⟨_, next?_rest rfl hpos hnext (dropBytes?_append given rest),
      .exhausted (given ++ rest) search⟩
  · rw [hsegments]
    by_cases hbefore : before = []
    · subst hbefore
      have hstart : b.start = given.byteLength := hb
      exact ⟨_, next?_block rfl hpos hnext (by rw [hstart]; exact Nat.lt_irrefl _),
        .behind_block after hstart⟩
    · have hstart : b.start = given.byteLength + before.byteLength := hb
      have hlt : given.byteLength < b.start := by
        have := byteLength_pos hbefore
        omega
      have htext :
          (given ++ (before ++ (b.raw ++ after))).slice? given.byteLength b.start = some before := by
        rw [hstart, ← List.append_assoc]
        exact slice?_middle given before (b.raw ++ after)
      rw [← Segment.prependText_eq_prepend hbefore]
      refine ⟨_, next?_text rfl hpos hnext hlt htext, ?_⟩
      have hwaiting := Gives.waiting (given ++ before) b after (by rw [byteLength_append, hstart])
      rwa [List.append_assoc] at hwaiting

/-- A call gives out the first of the segments that are left, and leaves the others. -/
theorem next?_of_gives {l : Locator} {s : List Segment} (h : l.Gives s) :
    ∃ l', l.next? = some (s.head?, l') ∧ l'.Gives s.tail := by
  cases h with
  | searching given rest => exact next?_of_searching given rest
  | waiting given b rest hb => exact ⟨_, rfl, .behind_block rest hb⟩
  | exhausted document search =>
    exact ⟨_, next?_exhausted rfl (Nat.le_refl _), .exhausted document search⟩

/-- Calls give out all segments in order, and then nothing. -/
theorem calls_of_gives {l : Locator} {s : List Segment} (h : l.Gives s) (n : Nat) :
    l.calls n = some ((List.range n).map (s[·]?)) := by
  induction n generalizing l s with
  | zero => rfl
  | succ n ih =>
    obtain ⟨l', hnext, hgives⟩ := next?_of_gives h
    rw [calls, hnext, List.range_succ_eq_map, List.map_cons, List.map_map]
    simp only [Option.bind_eq_bind, Option.bind_some, ih hgives]
    cases s <;> simp [Function.comp_def]

end Locator

/-- **A locator gives out the pipe spans and the text between them.** Its calls give the segments in
order, and none once they are given out. The segments make up the document; no text is empty and no
two texts are neighbours. The blocks, in order, stand exactly at the pipe spans of the document's
bytes, and each block is the slice at its place, so that no character is cut there. -/
theorem calls_give_pipe_spans (document : Text) :
    (∀ n, (Locator.ofDocument document).calls n =
      some ((List.range n).map ((segments document)[·]?))) ∧
    (segments document).flatMap Segment.raw = document ∧
    (∀ t, .text t ∈ segments document → t ≠ []) ∧
    (segments document).IsChain (fun s s' => ¬ (s.isText = true ∧ s'.isText = true)) ∧
    (blocks document).Pairwise (fun b b' => b.start < b'.start) ∧
    (∀ s e, (∃ b ∈ blocks document, b.start = s ∧ b.stop = e) ↔ IsPipeSpan document s e) ∧
    ∀ b ∈ blocks document, document.slice? b.start b.stop = some b.raw := by
  have hcut : WellCut (segments document) := wellCut_segmentsFrom 0 document
  refine ⟨Locator.calls_of_gives (Locator.gives_ofDocument document), gather_raw 0 document,
    hcut.filled, hcut.apart, ?_, fun s e => exists_mem_blocks_iff, fun b hb => slice?_of_mem_blocks hb⟩
  rw [blocks_eq]
  refine (pairwise_blocksFrom 0 document).imp_of_mem fun {b b'} hb _ hle => ?_
  exact Nat.lt_of_lt_of_le (bounds_of_mem_blocksFrom hb).2.1 hle

/-- A span in which no pipe separates belongs to the text around it. -/
example : (Locator.ofDocument "é\x7ba\x7d\x7bb | f\x7d\x7bc | g\x7d".toList).calls 5 =
    some [some (.text "é\x7ba\x7d".toList),
      some (.block ⟨"\x7bb | f\x7d".toList, "b".toList, "f".toList, 5⟩),
      some (.block ⟨"\x7bc | g\x7d".toList, "c".toList, "g".toList, 12⟩), none, none] := by
  decide +kernel

end PipeBlocks
