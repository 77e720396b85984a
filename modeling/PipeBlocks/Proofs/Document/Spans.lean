import PipeBlocks.Proofs.Block.Braced

/-! A document and its brace spans.

A document is read from left to right as single characters and brace spans, texts without braces
in a pair of braces. `document_induction` is that reading as an induction rule. Whatever is
gathered from the segments, and does not depend on where text is cut, is gathered character by
character and span by span (`gather_loose`, `gather_braced`), and over the two parts of a document
that is cut outside spans (`gather_append`). -/
namespace PipeBlocks
open Text

/-! ### Brace spans -/

theorem span?_braced {t : Text} (ht : BraceFree t) (rest : Text) :
    span? (braced t ++ rest) = some (braced t, rest) := by
  have hall : ∀ c ∈ t, (!isBrace c) = true := fun c hc => by simp [ht c hc]
  have hdrop : (t ++ '}' :: rest).dropWhile (!isBrace ·) = '}' :: rest := by
    rw [List.dropWhile_append_of_pos hall]
    rfl
  have htake : (t ++ '}' :: rest).takeWhile (!isBrace ·) = t := by
    rw [List.takeWhile_append_of_pos hall]
    simp [isBrace]
  rw [braced_append, span?, hdrop, htake]
  rfl

/-- A span at the head of a text is a brace-free text in braces. -/
theorem exists_of_span?_eq_some {document raw rest : Text} (h : span? document = some (raw, rest)) :
    ∃ t, BraceFree t ∧ raw = braced t ∧ document = braced t ++ rest := by
  have heq := span?_eq_append h
  unfold span? at h
  split at h
  · rename_i r
    split at h
    · obtain ⟨rfl, rfl⟩ := Prod.mk.inj (Option.some.inj h)
      refine ⟨r.takeWhile (!isBrace ·), fun c hc => ?_, rfl, heq⟩
      have := List.all_eq_true.mp (List.all_takeWhile (p := (!isBrace ·)) (l := r)) c hc
      simpa using this
    · cases h
  · cases h

/-- Every document is built from single characters that begin no span, and spans. -/
@[elab_as_elim]
theorem document_induction {P : Text → Prop} (nil : P [])
    (loose : ∀ c r, span? (c :: r) = none → P r → P (c :: r))
    (span : ∀ t rest, BraceFree t → P rest → P (braced t ++ rest)) (document : Text) : P document := by
  induction hn : document.length using Nat.strongRecOn generalizing document with
  | _ n ih =>
    cases document with
    | nil => exact nil
    | cons c r =>
      cases hs : span? (c :: r) with
      | none => exact loose c r hs (ih r.length (by rw [← hn]; exact Nat.lt_succ_self _) r rfl)
      | some p =>
        obtain ⟨t, ht, -, heq⟩ := exists_of_span?_eq_some hs
        rw [heq]
        refine span t p.2 ht (ih p.2.length ?_ p.2 rfl)
        rw [← hn]
        exact length_lt_of_span? hs

/-! ### Where a document can be cut -/

def firstBrace? (t : Text) : Option Char := t.find? isBrace

def lastBrace? (t : Text) : Option Char := t.reverse.find? isBrace

/-- No span reaches from the one part into the other. -/
def Separable (t u : Text) : Prop := ¬ (lastBrace? t = some '{' ∧ firstBrace? u = some '}')

instance (t u : Text) : Decidable (Separable t u) := inferInstanceAs (Decidable (¬ _))

theorem firstBrace?_cons (c : Char) (r : Text) :
    firstBrace? (c :: r) = if isBrace c then some c else firstBrace? r := by
  cases h : isBrace c <;> simp [firstBrace?, h]

theorem firstBrace?_append (t u : Text) :
    firstBrace? (t ++ u) = (firstBrace? t).or (firstBrace? u) := List.find?_append

theorem lastBrace?_append (t u : Text) : lastBrace? (t ++ u) = (lastBrace? u).or (lastBrace? t) := by
  simp [lastBrace?]

theorem firstBrace?_of_braceFree {t : Text} (h : BraceFree t) : firstBrace? t = none := by
  simpa [firstBrace?, BraceFree] using h

theorem firstBrace?_braced (t u : Text) : firstBrace? (braced t ++ u) = some '{' := rfl

theorem lastBrace?_braced (t u : Text) : lastBrace? (t ++ braced u) = some '}' := by
  simp [lastBrace?, braced, isBrace]

/-- A document can be cut before a pair of braces, and after one. -/
theorem separable_braced_left (t u rest : Text) : Separable t (braced u ++ rest) := by
  rintro ⟨-, h⟩
  rw [firstBrace?_braced] at h
  cases h

theorem separable_braced_right (t u rest : Text) : Separable (t ++ braced u) rest := by
  rintro ⟨h, -⟩
  rw [lastBrace?_braced] at h
  cases h

/-- A character begins a span if it opens one and the next brace closes it. -/
theorem span?_cons_eq_none_iff {c : Char} {r : Text} :
    span? (c :: r) = none ↔ ¬ (c = '{' ∧ firstBrace? r = some '}') := by
  constructor
  · rintro h ⟨rfl, hr⟩
    obtain ⟨-, t, rest, rfl, ht⟩ := List.find?_eq_some_iff_append.mp hr
    have := span?_braced (t := t) (fun c hc => by simpa using ht c hc) rest
    rw [braced_append, h] at this
    cases this
  · intro h
    cases hs : span? (c :: r) with
    | none => rfl
    | some p =>
      obtain ⟨t, ht, -, heq⟩ := exists_of_span?_eq_some hs
      rw [braced_append] at heq
      obtain ⟨rfl, rfl⟩ := List.cons.inj heq
      refine absurd ⟨rfl, ?_⟩ h
      rw [firstBrace?_append, firstBrace?_of_braceFree ht, firstBrace?_cons]
      rfl

/-! ### One step of the segments -/

theorem segmentsFrom_loose (pos : Nat) {c : Char} {r : Text} (h : span? (c :: r) = none) :
    segmentsFrom pos (c :: r) = Segment.prependText [c] (segmentsFrom (pos + c.utf8Size) r) := by
  rw [segmentsFrom]
  split
  · rename_i raw rest hs
    rw [h] at hs
    cases hs
  · rfl

theorem segmentsFrom_braced (pos : Nat) {t : Text} (ht : BraceFree t) (rest : Text) :
    segmentsFrom pos (braced t ++ rest) =
      match Block.parse? (braced t) pos with
      | some b => .block b :: segmentsFrom (pos + (braced t).byteLength) rest
      | none => Segment.prependText (braced t) (segmentsFrom (pos + (braced t).byteLength) rest) := by
  have hs := span?_braced ht rest
  rw [braced_append] at hs ⊢
  rw [segmentsFrom]
  split
  · rename_i raw rest' hs'
    rw [hs] at hs'
    cases hs'
    rfl
  · rename_i hs'
    rw [hs] at hs'
    cases hs'

/-! ### Gathering from segments -/

section Gather
variable {α : Type} {f : Segment → List α}

/-- What `f` gives for the segments of a document that stands at byte `pos`. -/
def gather (f : Segment → List α) (pos : Nat) (document : Text) : List α :=
  (segmentsFrom pos document).flatMap f

/-- Cutting a text in two makes no difference to `f`. -/
def TextAdditive (f : Segment → List α) : Prop := ∀ t u, f (.text (t ++ u)) = f (.text t) ++ f (.text u)

/-- The segment that a brace span is, if it is one of its own. -/
def spanSegment (pos : Nat) (t : Text) : Segment :=
  match Block.parse? (braced t) pos with
  | some b => .block b
  | none => .text (braced t)

theorem spanSegment_of_whole {t : Text} (h : Scan.Whole .pipe .start t) (pos : Nat) :
    spanSegment pos t = .text (braced t) := by
  rw [spanSegment, Block.parse?_braced_of_whole h]

theorem spanSegment_of_cut {t x y : Text} (cut : Scan.CutAt .pipe .start t x y) (pos : Nat) :
    spanSegment pos t = .block ⟨braced t, x.trim, y.trim, pos⟩ := by
  rw [spanSegment, Block.parse?_braced_of_cut cut]

theorem flatMap_prependText (hf : TextAdditive f) (t : Text) (l : List Segment) :
    (Segment.prependText t l).flatMap f = f (.text t) ++ l.flatMap f := by
  unfold Segment.prependText
  split
  · rw [List.flatMap_cons, hf, List.append_assoc, List.flatMap_cons]
  · rw [List.flatMap_cons]

@[simp] theorem gather_nil (pos : Nat) : gather f pos [] = [] := by simp [gather, segmentsFrom]

theorem gather_loose (hf : TextAdditive f) (pos : Nat) {c : Char} {r : Text}
    (h : span? (c :: r) = none) :
    gather f pos (c :: r) = f (.text [c]) ++ gather f (pos + c.utf8Size) r := by
  unfold gather
  rw [segmentsFrom_loose pos h]
  exact flatMap_prependText hf [c] _

theorem gather_braced (hf : TextAdditive f) (pos : Nat) {t : Text} (ht : BraceFree t) (rest : Text) :
    gather f pos (braced t ++ rest) =
      f (spanSegment pos t) ++ gather f (pos + (braced t).byteLength) rest := by
  unfold gather spanSegment
  rw [segmentsFrom_braced pos ht]
  cases Block.parse? (braced t) pos with
  | some b => rfl
  | none => exact flatMap_prependText hf _ _

/-! ### Moving a document -/

/-- The segment, `k` bytes further on. -/
def Segment.shift (k : Nat) : Segment → Segment
  | .text t => .text t
  | .block b => .block { b with start := b.start + k }

theorem spanSegment_add (pos k : Nat) (t : Text) :
    spanSegment (pos + k) t = (spanSegment pos t).shift k := by
  rcases Scan.whole_or_cut .pipe .start t with h | ⟨x, y, cut⟩
  · rw [spanSegment_of_whole h, spanSegment_of_whole h]
    rfl
  · rw [spanSegment_of_cut cut, spanSegment_of_cut cut]
    rfl

/-- Moving a document moves its segments. -/
theorem gather_add (hf : TextAdditive f) (pos k : Nat) (document : Text) :
    gather f (pos + k) document = gather (fun s => f (s.shift k)) pos document := by
  have hf' : TextAdditive fun s => f (s.shift k) := hf
  induction document using document_induction generalizing pos with
  | nil => rw [gather_nil, gather_nil]
  | loose c r hs ih =>
    rw [gather_loose hf _ hs, gather_loose hf' _ hs, Nat.add_right_comm, ih]
    rfl
  | span t rest ht ih =>
    rw [gather_braced hf _ ht, gather_braced hf' _ ht, Nat.add_right_comm, ih, spanSegment_add]

/-- If `f` gives the same for a moved segment but for `g`, so does a moved document. -/
theorem gather_add_map (hf : TextAdditive f) {k : Nat} {g : α → α}
    (hg : ∀ s : Segment, f (s.shift k) = (f s).map g) (pos : Nat) (document : Text) :
    gather f (pos + k) document = (gather f pos document).map g := by
  rw [gather_add hf]
  simp only [gather, hg, List.map_flatMap]

/-! ### Cutting a document -/

/-- What a document gives is what its two parts give, unless a span is cut. -/
theorem gather_append (hf : TextAdditive f) {t u : Text} (h : Separable t u) (pos : Nat) :
    gather f pos (t ++ u) = gather f pos t ++ gather f (pos + t.byteLength) u := by
  induction t using document_induction generalizing pos with
  | nil => simp
  | loose c r hs ih =>
    have hs' : span? (c :: (r ++ u)) = none := by
      rw [span?_cons_eq_none_iff] at hs ⊢
      rintro ⟨rfl, hr⟩
      rw [firstBrace?_append] at hr
      cases hb : firstBrace? r with
      | some b => exact hs ⟨rfl, by rw [hb] at hr ⊢; exact hr⟩
      | none =>
        -- The opened span would end in `u`, across the cut.
        rw [hb] at hr
        refine h ⟨?_, hr⟩
        rw [show '{' :: r = ['{'] ++ r from rfl, lastBrace?_append]
        simp only [firstBrace?, List.find?_eq_none] at hb
        have : lastBrace? r = none := by simpa [lastBrace?] using hb
        rw [this]
        rfl
    have hr : Separable r u := by
      rintro ⟨hl, hu⟩
      refine h ⟨?_, hu⟩
      rw [show c :: r = [c] ++ r from rfl, lastBrace?_append, hl]
      rfl
    rw [List.cons_append, gather_loose hf pos hs', gather_loose hf pos hs, ih hr, List.append_assoc,
      byteLength_cons, Nat.add_assoc]
  | span t rest ht ih =>
    have hr : Separable rest u := by
      rintro ⟨hl, hu⟩
      refine h ⟨?_, hu⟩
      rw [lastBrace?_append, hl]
      rfl
    rw [List.append_assoc, gather_braced hf pos ht, gather_braced hf pos ht, ih hr, List.append_assoc,
      byteLength_append, Nat.add_assoc]

/-- A span is cut out of the document around it. -/
theorem gather_span (hf : TextAdditive f) {t : Text} (ht : BraceFree t) (before after : Text)
    (pos : Nat) :
    gather f pos (before ++ braced t ++ after) =
      gather f pos before ++ f (spanSegment (pos + before.byteLength) t) ++
        gather f (pos + (before ++ braced t).byteLength) after := by
  rw [List.append_assoc, gather_append hf (separable_braced_left before t after),
    gather_braced hf _ ht, byteLength_append, Nat.add_assoc, List.append_assoc]

end Gather

end PipeBlocks
