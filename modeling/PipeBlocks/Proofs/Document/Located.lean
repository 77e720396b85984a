import PipeBlocks.Proofs.Document.Spans
import PipeBlocks.Proofs.Text.Bytes

/-! The blocks of a document and where they stand.

A located block is a brace span of the document that parses as a block (`exists_of_mem_blocksFrom`),
and the blocks follow one another without touching (`pairwise_blocksFrom`). What is gathered from a
document without regard to its text is gathered from its blocks (`gather_eq_flatMap_blocksFrom`).
The places of the blocks can be told from the document's bytes alone (`exists_mem_blocks_iff`). -/
namespace PipeBlocks
open Text Scan

def Segment.blocks : Segment → List Block
  | .text _ => []
  | .block b => [b]

/-- The blocks of a document that stands at byte `pos`. -/
def blocksFrom (pos : Nat) (document : Text) : List Block := gather Segment.blocks pos document

theorem textAdditive_blocks : TextAdditive Segment.blocks := fun _ _ => rfl

theorem blocks_eq (document : Text) : blocks document = blocksFrom 0 document := by
  unfold blocks blocksFrom gather segments
  induction segmentsFrom 0 document with
  | nil => rfl
  | cons s rest ih => cases s <;> simp [Segment.blocks, ih]

theorem gather_eq_flatMap_blocksFrom {α : Type} {f : Segment → List α} (hf : ∀ t, f (.text t) = [])
    (pos : Nat) (document : Text) :
    gather f pos document = (blocksFrom pos document).flatMap fun b => f (.block b) := by
  unfold blocksFrom gather
  rw [List.flatMap_assoc]
  congr 1
  funext s
  cases s with
  | text t => rw [hf]; rfl
  | block b => simp [Segment.blocks]

theorem blocksFrom_loose (pos : Nat) {c : Char} {r : Text} (h : span? (c :: r) = none) :
    blocksFrom pos (c :: r) = blocksFrom (pos + c.utf8Size) r :=
  gather_loose textAdditive_blocks pos h

theorem blocks_spanSegment (pos : Nat) (t : Text) :
    (spanSegment pos t).blocks = (Block.parse? (braced t) pos).toList := by
  unfold spanSegment
  cases Block.parse? (braced t) pos <;> rfl

theorem blocksFrom_braced (pos : Nat) {t : Text} (ht : BraceFree t) (rest : Text) :
    blocksFrom pos (braced t ++ rest) = (Block.parse? (braced t) pos).toList ++
      blocksFrom (pos + (braced t).byteLength) rest := by
  rw [blocksFrom, gather_braced textAdditive_blocks pos ht, blocks_spanSegment, blocksFrom]

/-- A located block is a span of the document, at its place. -/
theorem exists_of_mem_blocksFrom {pos : Nat} {document : Text} {b : Block}
    (h : b ∈ blocksFrom pos document) :
    ∃ before t after, BraceFree t ∧ document = before ++ braced t ++ after ∧
      b.start = pos + before.byteLength ∧ b.raw = braced t ∧
        Block.parse? (braced t) b.start = some b := by
  induction document using document_induction generalizing pos with
  | nil => simp [blocksFrom] at h
  | loose c r hs ih =>
    rw [blocksFrom_loose pos hs] at h
    obtain ⟨before, t, after, ht, hr, hstart, hb⟩ := ih h
    refine ⟨c :: before, t, after, ht, by rw [hr]; rfl, ?_, hb⟩
    rw [hstart, byteLength_cons, Nat.add_assoc]
  | span t rest ht ih =>
    rw [blocksFrom_braced pos ht, List.mem_append, Option.mem_toList] at h
    rcases h with h | h
    · obtain ⟨x, y, -, rfl⟩ := Block.parse?_braced_eq_some_iff.mp h
      exact ⟨[], t, rest, ht, rfl, rfl, rfl, h⟩
    · obtain ⟨before, u, after, hu, hr, hstart, hb⟩ := ih h
      refine ⟨braced t ++ before, u, after, hu, by rw [hr]; simp, ?_, hb⟩
      rw [hstart, byteLength_append, Nat.add_assoc]

/-- A located block is read from its own text. -/
theorem parse?_of_mem_blocksFrom {pos : Nat} {document : Text} {b : Block}
    (h : b ∈ blocksFrom pos document) : Block.parse? b.raw b.start = some b := by
  obtain ⟨-, t, -, -, -, -, hraw, hparse⟩ := exists_of_mem_blocksFrom h
  rw [hraw, hparse]

/-- A located block is a content cut at its first pipe, in braces. -/
theorem exists_cut_of_mem_blocksFrom {pos : Nat} {document : Text} {b : Block}
    (h : b ∈ blocksFrom pos document) :
    ∃ t x y start, CutAt .pipe .start t x y ∧ b = ⟨braced t, x.trim, y.trim, start⟩ := by
  obtain ⟨-, t, -, -, -, -, -, hparse⟩ := exists_of_mem_blocksFrom h
  obtain ⟨x, y, cut, hb⟩ := Block.parse?_braced_eq_some_iff.mp hparse
  exact ⟨t, x, y, b.start, cut, hb⟩

theorem Block.start_lt_stop {b : Block} {t : Text} (h : b.raw = braced t) : b.start < b.stop := by
  have := byteLength_braced_pos t
  rw [Block.stop, h]
  omega

/-- The blocks lie inside the document. -/
theorem bounds_of_mem_blocksFrom {pos : Nat} {document : Text} {b : Block}
    (h : b ∈ blocksFrom pos document) :
    pos ≤ b.start ∧ b.start < b.stop ∧ b.stop ≤ pos + document.byteLength := by
  obtain ⟨before, t, after, -, hdoc, hstart, hraw, -⟩ := exists_of_mem_blocksFrom h
  refine ⟨by omega, Block.start_lt_stop hraw, ?_⟩
  rw [Block.stop, hraw, hdoc, byteLength_append, byteLength_append, hstart]
  omega

theorem pairwise_blocksFrom (pos : Nat) (document : Text) :
    (blocksFrom pos document).Pairwise fun b b' => b.stop ≤ b'.start := by
  induction document using document_induction generalizing pos with
  | nil => simp [blocksFrom]
  | loose c r hs ih =>
    rw [blocksFrom_loose pos hs]
    exact ih _
  | span t rest ht ih =>
    rw [blocksFrom_braced pos ht]
    refine List.pairwise_append.mpr ⟨?_, ih _, fun b hb b' hb' => ?_⟩
    · cases Block.parse? (braced t) pos <;> simp
    · obtain ⟨x, y, -, rfl⟩ := Block.parse?_braced_eq_some_iff.mp (Option.mem_toList.mp hb)
      exact (bounds_of_mem_blocksFrom hb').1

/-! ### The bytes of a block -/

/-- The bytes from `s` up to `e` are a pair of braces and, between them, a text without braces in
which a pipe separates. -/
structure IsPipeSpan (document : Text) (s e : Nat) : Prop where
  lt : s < e
  opening : document.bytes[s]? = some '{'.toUInt8
  closing : document.bytes[e - 1]? = some '}'.toUInt8
  between : ∀ i, s < i → i < e - 1 →
    document.bytes[i]? ≠ some '{'.toUInt8 ∧ document.bytes[i]? ≠ some '}'.toUInt8
  piped : ∃ t, document.slice? (s + 1) (e - 1) = some t ∧ offsets .pipe t ≠ []

theorem isBrace_iff {c : Char} : isBrace c = true ↔ c = '{' ∨ c = '}' := by simp [isBrace]

theorem byteLength_opening (t : Text) : (t ++ ['{']).byteLength = t.byteLength + 1 :=
  byteLength_append t ['{']

/-- A span's bytes are those of a brace-free text in braces. -/
theorem IsPipeSpan.exists_braced {document : Text} {s e : Nat} (h : IsPipeSpan document s e) :
    ∃ before t after, BraceFree t ∧ offsets .pipe t ≠ [] ∧ document = before ++ braced t ++ after ∧
      before.byteLength = s ∧ s + (braced t).byteLength = e := by
  obtain ⟨hlt, hopening, hclosing, hbetween, t, ht, hpipe⟩ := h
  have hne : s ≠ e - 1 := by
    intro heq
    rw [← heq, hopening] at hclosing
    exact absurd hclosing (by decide)
  obtain ⟨before, u, hdoc, hbefore⟩ := (getElem?_bytes_eq_some_iff (by decide)).mp hopening
  obtain ⟨v, after, hdoc', hv⟩ := (getElem?_bytes_eq_some_iff (by decide)).mp hclosing
  obtain ⟨x, y, hdoc'', hx, hlength⟩ := (slice?_eq_some_iff (by omega)).mp ht
  -- The three ways to cut the document are cuts at the same bytes.
  have hcut : (before ++ ['{']) ++ u = x ++ (t ++ y) := by
    rw [← List.append_assoc, ← hdoc'', hdoc, List.append_assoc]
    rfl
  obtain ⟨rfl, rfl⟩ := append_inj_of_byteLength_eq hcut (by rw [byteLength_opening]; omega)
  have hcut' : (before ++ ['{'] ++ t) ++ y = v ++ '}' :: after := by rw [← hdoc', hdoc'']
  obtain ⟨rfl, rfl⟩ := append_inj_of_byteLength_eq hcut'
    (by rw [byteLength_append, byteLength_opening]; omega)
  refine ⟨before, t, after, fun c hc => ?_, hpipe, by rw [hdoc'']; simp [braced], hbefore, ?_⟩
  · rw [Bool.eq_false_iff]
    intro hbrace
    obtain ⟨l, r, rfl⟩ := List.append_of_mem hc
    have hi := hbetween (before ++ ['{'] ++ l).byteLength
      (by rw [byteLength_append, byteLength_opening]; omega)
      (by
        rw [byteLength_append] at hlength
        have := c.utf8Size_pos
        rw [byteLength_append, byteLength_opening]
        simp only [byteLength_cons] at hlength
        omega)
    have hsplit : document = (before ++ ['{'] ++ l) ++ c :: (r ++ '}' :: after) := by
      rw [hdoc'']
      simp
    rcases isBrace_iff.mp hbrace with rfl | rfl
    · exact hi.1 ((getElem?_bytes_eq_some_iff (by decide)).mpr ⟨_, _, hsplit, rfl⟩)
    · exact hi.2 ((getElem?_bytes_eq_some_iff (by decide)).mpr ⟨_, _, hsplit, rfl⟩)
  · rw [byteLength_braced]
    omega

theorem isPipeSpan_of_braced (before : Text) {t : Text} (after : Text) (ht : BraceFree t)
    (hpipe : offsets .pipe t ≠ []) :
    IsPipeSpan (before ++ braced t ++ after) before.byteLength
      (before.byteLength + (braced t).byteLength) := by
  have hdoc : before ++ braced t ++ after = (before ++ ['{']) ++ t ++ ('}' :: after) := by
    simp [braced]
  rw [byteLength_braced]
  refine ⟨by omega, ?_, ?_, fun i hlo hhi => ?_, t, ?_, hpipe⟩
  · exact (getElem?_bytes_eq_some_iff (by decide)).mpr
      ⟨before, t ++ '}' :: after, by rw [hdoc]; simp, rfl⟩
  · exact (getElem?_bytes_eq_some_iff (by decide)).mpr
      ⟨before ++ ['{'] ++ t, after, hdoc, by rw [byteLength_append, byteLength_opening]; omega⟩
  · -- Inside, a byte is one of the bytes of `t`.
    have hfree : ∀ d : Char, isBrace d = true → d.toNat < 128 →
        (before ++ braced t ++ after).bytes[i]? ≠ some d.toUInt8 := by
      intro d hbrace hd h
      have hi : (before ++ ['{']).bytes.length ≤ i := by
        rw [length_bytes, byteLength_opening]
        omega
      rw [hdoc, List.append_assoc, bytes_append, List.getElem?_append_right hi, bytes_append,
        List.getElem?_append_left (by rw [length_bytes, length_bytes, byteLength_opening]; omega)] at h
      obtain ⟨l, r, rfl, -⟩ := (getElem?_bytes_eq_some_iff hd).mp h
      have := ht d (by simp)
      rw [hbrace] at this
      cases this
    exact ⟨hfree '{' (by decide) (by decide), hfree '}' (by decide) (by decide)⟩
  · rw [hdoc]
    refine (slice?_eq_some_iff (by omega)).mpr ⟨before ++ ['{'], '}' :: after, rfl, ?_, by omega⟩
    exact byteLength_opening before

/-- The blocks stand exactly at the pipe spans. -/
theorem exists_mem_blocks_iff {document : Text} {s e : Nat} :
    (∃ b ∈ blocks document, b.start = s ∧ b.stop = e) ↔ IsPipeSpan document s e := by
  rw [blocks_eq]
  constructor
  · rintro ⟨b, hb, rfl, rfl⟩
    obtain ⟨before, t, after, ht, rfl, hstart, hraw, hparse⟩ := exists_of_mem_blocksFrom hb
    obtain ⟨x, y, cut, -⟩ := Block.parse?_braced_eq_some_iff.mp hparse
    have hpipe : offsets .pipe t ≠ [] := by
      rw [ne_eq, offsets_eq_nil_iff, Whole, splitOnceFrom_eq_some_iff.mpr cut]
      simp
    have h := isPipeSpan_of_braced before after ht hpipe
    rwa [Block.stop, hraw, hstart, Nat.zero_add]
  · intro h
    obtain ⟨before, t, after, ht, hpipe, rfl, rfl, rfl⟩ := h.exists_braced
    rcases whole_or_cut .pipe .start t with hw | ⟨x, y, cut⟩
    · exact absurd (offsets_eq_nil_iff.mpr hw) hpipe
    · refine ⟨⟨braced t, x.trim, y.trim, before.byteLength⟩, ?_, rfl, rfl⟩
      rw [blocksFrom, gather_span textAdditive_blocks ht, Nat.zero_add, blocks_spanSegment,
        Block.parse?_braced_of_cut cut]
      simp

/-- A block is the slice of the document at its place. -/
theorem slice?_of_mem_blocks {document : Text} {b : Block} (h : b ∈ blocks document) :
    document.slice? b.start b.stop = some b.raw := by
  rw [blocks_eq] at h
  obtain ⟨before, t, after, -, rfl, hstart, hraw, -⟩ := exists_of_mem_blocksFrom h
  rw [Block.stop, hraw, hstart, Nat.zero_add]
  exact slice?_middle before (braced t) after

end PipeBlocks
