import PipeBlocks.Proofs.Count
import PipeBlocks.Proofs.Document.Expansion

/-! What becomes of one brace span.

The decision takes several steps: a span is cut into expression and chain, checked, the chain is cut
into stages and the stages are named. `expand_outcome` says what the steps come to, read off one
split of the span's content at its pipes: `Attempted` is when an expansion tries to write calls,
`Callable` when it succeeds, and `Refused` which error it reports when it does not. The rest of the
document has no say in it. -/
namespace PipeBlocks
open Text Scan

/-- The place in the document that an event is about. -/
def Event.offset? : Event → Option Nat
  | .unchanged _ offset _ _ => some offset
  | _ => none

/-- What is reported for the byte `offset`. -/
def Expansion.reports (x : Expansion) (offset : Nat) : List Event :=
  x.events.filter (·.offset? = some offset)

/-- A content whose pieces are `first` and `rest` is written as calls. -/
structure Callable (t first : Text) (rest : List Text) : Prop where
  cut : rest ≠ []
  expression : first.isBlank = false
  filled : ∃ p ∈ rest, p.isBlank = false
  named : ∀ p ∈ rest, p.isBlank = false → p.trim.head? ≠ some ':'
  closed : leavesStringOpen t = false

/-- A content whose first piece is `first` has text on both sides of its first separating pipe, and
its strings are closed. -/
structure Attempted (t first : Text) : Prop where
  expression : first.isBlank = false
  chain : ∃ tail, splitOnce? .pipe t = some (first, tail) ∧ tail.trim ≠ []
  closed : leavesStringOpen t = false

/-- Why the pieces behind the first pipe make no calls. -/
inductive Refused (rest : List Text) : CallError → Prop where
  | blank (h : ∀ p ∈ rest, p.isBlank = true) : Refused rest .emptyChain
  /-- The first piece that begins with a colon is reported by its place among those not blank. -/
  | unnamed {before after : List Text} {p : Text}
      (h : (rest.filter fun p => !p.isBlank) = before ++ p :: after)
      (hbefore : ∀ q ∈ before, q.trim.head? ≠ some ':') (hp : p.trim.head? = some ':') :
      Refused rest (.unnamedStage before.length (trim p.trim.tail))

/-! ### Stages and the pieces they are read from -/

section Pieces
variable {y : Text}

theorem stages_ne_nil_iff : stages y ≠ [] ↔ ∃ p ∈ split .pipe y, p.isBlank = false := by
  rw [stages_eq, ne_eq, List.map_eq_nil_iff, List.filter_eq_nil_iff]
  simp

theorem isBlank_of_mem_filter {l : List Text} {p : Text} (h : p ∈ l.filter fun p => !p.isBlank) :
    p.isBlank = false := by
  simpa using (List.mem_filter.mp h).2

theorem forall_stages_named_iff : (∀ s ∈ stages y, s.name ≠ []) ↔
    ∀ p ∈ split .pipe y, p.isBlank = false → p.trim.head? ≠ some ':' := by
  rw [stages_eq]
  constructor
  · intro h p hp hblank hhead
    refine h (Stage.parse p) (List.mem_map_of_mem (List.mem_filter.mpr ⟨hp, by simp [hblank]⟩)) ?_
    exact (Stage.name_parse_eq_nil_iff hblank).mpr hhead
  · intro h s hs hname
    obtain ⟨p, hp, rfl⟩ := List.mem_map.mp hs
    have hblank := isBlank_of_mem_filter hp
    exact h p (List.mem_filter.mp hp).1 hblank ((Stage.name_parse_eq_nil_iff hblank).mp hname)

/-- What the pieces are refused for is what writing their calls fails with. -/
theorem callExpression_of_refused {expression namePrefix : Text} {e : CallError}
    (he : expression.isBlank = false) (h : Refused (split .pipe y) e) :
    callExpression expression (stages y) namePrefix = .error e := by
  cases h with
  | blank h =>
    have hstages : stages y = [] := by
      rw [stages_eq, List.filter_eq_nil_iff.mpr fun p hp => by simp [h p hp]]
      rfl
    rw [hstages, callExpression, he, if_neg (by simp), if_pos rfl]
  | @unnamed before after p h hbefore hp =>
    obtain ⟨r, hr⟩ := List.head?_eq_some_iff.mp hp
    have hnamed : ∀ s ∈ before.map Stage.parse, s.name ≠ [] := by
      intro s hs hname
      obtain ⟨q, hq, rfl⟩ := List.mem_map.mp hs
      have hblank : q.isBlank = false := by
        refine isBlank_of_mem_filter (l := split .pipe y) ?_
        rw [h]
        exact List.mem_append_left _ hq
      exact hbefore q hq ((Stage.name_parse_eq_nil_iff hblank).mp hname)
    have hparse := Stage.parse_of_trim_eq_cons hr
    rw [stages_eq, h, List.map_append, List.map_cons, callExpression_unnamed he hnamed (by rw [hparse]),
      List.length_map, hparse, hr]
    rfl

/-- Pieces are refused, or they are stages that all have names. -/
theorem refused_or_named (y : Text) :
    (∃ e, Refused (split .pipe y) e) ∨ stages y ≠ [] ∧ ∀ s ∈ stages y, s.name ≠ [] := by
  by_cases hne : ∃ p ∈ split .pipe y, p.isBlank = false
  · rcases forall_not_or_first (fun p : Text => p.trim.head? = some ':')
      ((split .pipe y).filter fun p => !p.isBlank) with h | ⟨before, p, after, heq, hbefore, hp⟩
    · refine .inr ⟨stages_ne_nil_iff.mpr hne, forall_stages_named_iff.mpr fun p hp hblank => ?_⟩
      exact h p (List.mem_filter.mpr ⟨hp, by simp [hblank]⟩)
    · exact .inl ⟨_, .unnamed heq hbefore hp⟩
  · refine .inl ⟨_, .blank fun p hp => ?_⟩
    by_cases hblank : p.isBlank = true
    · exact hblank
    · exact absurd ⟨p, hp, by simpa using hblank⟩ hne

end Pieces

/-! ### The outcome of a span -/

theorem callable_iff_replaced {t x y : Text} (namePrefix : Text) (pos : Nat) :
    Callable t x (split .pipe y) ↔
      ∃ after, Block.Replaced ⟨braced t, x.trim, y.trim, pos⟩ namePrefix after := by
  constructor
  · intro h
    exact ⟨_, Block.replaced_iff.mpr ⟨h.expression, h.closed, stages_ne_nil_iff.mpr h.filled,
      forall_stages_named_iff.mpr h.named, rfl⟩⟩
  · rintro ⟨after, h⟩
    obtain ⟨hx, hclosed, hne, hnamed, -⟩ := Block.replaced_iff.mp h
    exact ⟨splitFrom_ne_nil .pipe .start y, hx, stages_ne_nil_iff.mp hne,
      forall_stages_named_iff.mp hnamed, hclosed⟩

theorem attempted_iff_isComplete {t x y : Text} (cut : CutAt .pipe .start t x y) (pos : Nat) :
    Attempted t x ↔ Block.isComplete ⟨braced t, x.trim, y.trim, pos⟩ = true := by
  have hcut : splitOnce? .pipe t = some (x, y) := splitOnceFrom_eq_some_iff.mpr cut
  rw [Block.isComplete_of_cut]
  constructor
  · rintro ⟨hx, ⟨tail, htail, hne⟩, hclosed⟩
    obtain rfl : y = tail := by simpa [hcut] using htail
    exact ⟨hx, by simpa [trim_eq_nil_iff] using hne, hclosed⟩
  · rintro ⟨hx, hy, hclosed⟩
    exact ⟨hx, ⟨y, hcut, by simp [trim_eq_nil_iff, hy]⟩, hclosed⟩

section Span
variable {o : Options} {t first : Text} {rest : List Text}

/-- A span changes exactly if it can be written as calls: calls never read like their span. -/
theorem codeOf_spanSegment_ne_iff (h : split .pipe t = first :: rest) (pos : Nat) :
    o.codeOf (spanSegment pos t) ≠ braced t ↔ Callable t first rest := by
  rcases whole_or_cut_of_splitFrom h with ⟨hw, rfl, rfl⟩ | ⟨y, cut, rfl⟩
  · rw [spanSegment_of_whole hw]
    constructor
    · intro hne
      exact absurd rfl hne
    · intro hc
      exact absurd rfl hc.cut
  · rw [spanSegment_of_cut cut, callable_iff_replaced o.namePrefix pos]
    constructor
    · intro hne
      rcases Block.replaced_or_not ⟨braced t, first.trim, y.trim, pos⟩ o.namePrefix with hr | hr
      · exact hr
      · exact absurd (contribution_of_not_replaced hr).1 hne
    · rintro ⟨after, hr⟩ heq
      obtain ⟨-, -, hne, -, rfl⟩ := Block.replaced_iff.mp hr
      rw [codeOf_replaced hr] at heq
      exact nest_ne_of_cut cut hne _ (braced_injective heq)

/-- An attempt that fails is reported once, with the error that its pieces give. -/
theorem eventsOf_spanSegment_failed (h : split .pipe t = first :: rest) (ha : Attempted t first)
    (hc : ¬ Callable t first rest) (filename : Text) (pos : Nat) :
    (∃ e, Refused rest e) ∧ ∀ e, Refused rest e ↔
      o.eventsOf filename (spanSegment pos t) = [.unchanged filename pos (braced t) e] := by
  rcases whole_or_cut_of_splitFrom h with ⟨hw, rfl, rfl⟩ | ⟨y, cut, rfl⟩
  · obtain ⟨tail, htail, -⟩ := ha.chain
    rw [splitOnce?, hw] at htail
    cases htail
  · have hcomplete := (attempted_iff_isComplete cut pos).mp ha
    have hexists : ∃ e, Refused (split .pipe y) e := by
      rcases refused_or_named y with he | ⟨hne, hnamed⟩
      · exact he
      · refine absurd ?_ hc
        exact ⟨splitFrom_ne_nil .pipe .start y, ha.expression, stages_ne_nil_iff.mp hne,
          forall_stages_named_iff.mp hnamed, ha.closed⟩
    have hevents (e : CallError) (he : Refused (split .pipe y) e) :
        o.eventsOf filename (spanSegment pos t) = [.unchanged filename pos (braced t) e] := by
      rw [spanSegment_of_cut cut]
      refine eventsOf_failed hcomplete (Block.replacement_eq_error_iff.mpr ?_) filename
      rw [stages_trim]
      exact callExpression_of_refused (by rw [isBlank_trim]; exact ha.expression) he
    refine ⟨hexists, fun e => ⟨hevents e, fun h => ?_⟩⟩
    obtain ⟨e', he'⟩ := hexists
    rw [hevents e' he'] at h
    obtain rfl : e' = e := by simpa using h
    exact he'

/-- Nothing else is reported. -/
theorem offset?_of_mem_eventsOf_spanSegment (h : split .pipe t = first :: rest)
    (hs : ¬ (Attempted t first ∧ ¬ Callable t first rest)) {filename : Text} {pos : Nat} {e : Event}
    (he : e ∈ o.eventsOf filename (spanSegment pos t)) : e.offset? = none := by
  rcases whole_or_cut_of_splitFrom h with ⟨hw, rfl, rfl⟩ | ⟨y, cut, rfl⟩
  · rw [spanSegment_of_whole hw] at he
    cases he
  · rw [spanSegment_of_cut cut] at he
    rcases cases_of_mem_eventsOf he with ⟨after, -, rfl⟩ | ⟨cause, hcomplete, hr, -⟩
    · rfl
    · refine absurd ⟨(attempted_iff_isComplete cut pos).mpr hcomplete, fun hc => ?_⟩ hs
      obtain ⟨after, hafter⟩ := (callable_iff_replaced o.namePrefix pos).mp hc
      rw [hafter.replacement] at hr
      cases hr

end Span

/-! ### The outcome in a document -/

section Document
variable {o : Options} {filename : Text}

theorem bounds_of_mem_events {pos n : Nat} {document : Text} {e : Event}
    (he : e ∈ gather (o.eventsOf filename) pos document) (hn : e.offset? = some n) :
    pos ≤ n ∧ n < pos + document.byteLength := by
  rw [gather_eq_flatMap_blocksFrom (fun _ => rfl), List.mem_flatMap] at he
  obtain ⟨b, hb, he⟩ := he
  have hbounds := bounds_of_mem_blocksFrom hb
  rcases cases_of_mem_eventsOf he with ⟨after, -, rfl⟩ | ⟨cause, -, -, rfl⟩
  · cases hn
  · obtain rfl : b.start = n := by simpa [Event.offset?] using hn
    omega

/-- Nothing is reported for places outside the document. -/
theorem filter_events_eq_nil {pos n : Nat} {document : Text}
    (h : n < pos ∨ pos + document.byteLength ≤ n) :
    (gather (o.eventsOf filename) pos document).filter (·.offset? = some n) = [] := by
  refine List.filter_eq_nil_iff.mpr fun e he hn => ?_
  have := bounds_of_mem_events he (by simpa using hn)
  omega

variable {p : Expander} {t : Text}

/-- The code of a document around a span is the code of what stands before and after it. -/
theorem code_expand_span (hx : p.exclusions.firstMatch? filename = none) (ht : BraceFree t)
    (before after : Text) : (p.expand (before ++ braced t ++ after) filename).code =
      (p.expand before filename).code ++ p.options.codeOf (spanSegment before.byteLength t) ++
        (p.expand after filename).code := by
  rw [Expander.expand_eq hx, Expander.expand_eq hx, Expander.expand_eq hx]
  show gather p.options.codeOf 0 _ = gather _ 0 before ++ _ ++ gather _ 0 after
  rw [gather_span textAdditive_code ht, gather_codeOf_add, Nat.zero_add]

/-- What is reported for the place of a span is what is reported for the span. -/
theorem reports_expand_span (hx : p.exclusions.firstMatch? filename = none) (ht : BraceFree t)
    (before after : Text) :
    (p.expand (before ++ braced t ++ after) filename).reports before.byteLength =
      (p.options.eventsOf filename (spanSegment before.byteLength t)).filter
        (·.offset? = some before.byteLength) := by
  have hspan := byteLength_braced_pos t
  have hbefore : (gather (p.options.eventsOf filename) 0 before).filter
      (·.offset? = some before.byteLength) = [] :=
    filter_events_eq_nil (.inr (by omega))
  have hafter : (gather (p.options.eventsOf filename) (before ++ braced t).byteLength after).filter
      (·.offset? = some before.byteLength) = [] :=
    filter_events_eq_nil (.inl (by rw [byteLength_append]; omega))
  have hdebug : (if p.options.debug then [Event.processing filename] else []).filter
      (·.offset? = some before.byteLength) = [] := by
    cases p.options.debug <;> rfl
  rw [Expander.expand_eq hx, Expansion.reports, gather_span (textAdditive_events filename) ht]
  simp only [List.filter_append, hdebug, hbefore, hafter, List.nil_append, List.append_nil,
    Nat.zero_add]

/-- An expansion only tries to write calls around an expression. -/
theorem Expander.emptyExpression_not_mem_events (p : Expander) (document filename : Text) :
    ∀ f offset block, Event.unchanged f offset block .emptyExpression ∉
      (p.expand document filename).events := by
  intro f offset block hmem
  cases hx : p.exclusions.firstMatch? filename with
  | some pattern =>
    rw [Expander.expand, hx] at hmem
    simp at hmem
  | none =>
    rw [Expander.expand_eq hx] at hmem
    rcases List.mem_append.mp hmem with hmem | hmem
    · split at hmem <;> simp at hmem
    rw [gather_eq_flatMap_blocksFrom (fun _ => rfl), List.mem_flatMap] at hmem
    obtain ⟨b, hb, hmem⟩ := hmem
    obtain ⟨t, x, y, start, -, rfl⟩ := exists_cut_of_mem_blocksFrom hb
    rcases cases_of_mem_eventsOf hmem with ⟨after, -, h⟩ | ⟨cause, hcomplete, hr, h⟩
    · cases h
    · cases h
      have hexpression := (Block.isComplete_of_cut.mp hcomplete).1
      rw [← isBlank_trim] at hexpression
      exact callExpression_ne_emptyExpression hexpression (Block.replacement_eq_error_iff.mp hr)

/-- **What becomes of a span is read off one split of its content.** In a document that is not
excluded, a brace span changes exactly if it is `Callable`; if it is not but was `Attempted`, the
one event at its place is the error for which its pieces are `Refused`, and in all other cases there
is none. An empty expression is never reported. -/
theorem expand_outcome (p : Expander) (filename : Text) :
    (p.exclusions.firstMatch? filename = none → ∀ before t after, BraceFree t →
      ∃ first rest code, split .pipe t = first :: rest ∧
        (p.expand (before ++ braced t ++ after) filename).code =
          (p.expand before filename).code ++ code ++ (p.expand after filename).code ∧
        (code ≠ braced t ↔ Callable t first rest) ∧
        (Attempted t first → code = braced t → (∃ e, Refused rest e) ∧ ∀ e, Refused rest e ↔
          (p.expand (before ++ braced t ++ after) filename).reports before.byteLength =
            [.unchanged filename before.byteLength (braced t) e]) ∧
        (¬ (Attempted t first ∧ code = braced t) →
          (p.expand (before ++ braced t ++ after) filename).reports before.byteLength = [])) ∧
    ∀ document f offset block, Event.unchanged f offset block .emptyExpression ∉
      (p.expand document filename).events := by
  refine ⟨fun hx before t after ht => ?_,
    fun document => p.emptyExpression_not_mem_events document filename⟩
  obtain ⟨first, rest, hsplit⟩ := List.exists_cons_of_ne_nil (splitFrom_ne_nil .pipe .start t)
  have hcallable := codeOf_spanSegment_ne_iff (o := p.options) hsplit before.byteLength
  refine ⟨first, rest, _, hsplit, code_expand_span hx ht before after, hcallable, ?_, ?_⟩
  · intro ha hcode
    have hc : ¬ Callable t first rest := fun hc => hcallable.mpr hc hcode
    obtain ⟨hexists, hevents⟩ := eventsOf_spanSegment_failed (o := p.options) hsplit ha hc filename
      before.byteLength
    refine ⟨hexists, fun e => ?_⟩
    obtain ⟨e', he'⟩ := hexists
    have hreports : (p.expand (before ++ braced t ++ after) filename).reports before.byteLength =
        p.options.eventsOf filename (spanSegment before.byteLength t) := by
      rw [reports_expand_span hx ht, (hevents e').mp he']
      simp [Event.offset?]
    rw [hreports]
    exact hevents e
  · intro hs
    rw [reports_expand_span hx ht]
    refine List.filter_eq_nil_iff.mpr fun e he hn => ?_
    have hnone := offset?_of_mem_eventsOf_spanSegment hsplit (fun h => hs ⟨h.1, ?_⟩) he
    · rw [hnone] at hn
      simp at hn
    · by_cases hcode : p.options.codeOf (spanSegment before.byteLength t) = braced t
      · exact hcode
      · exact absurd (hcallable.mp hcode) h.2

/-- Blank pieces do not count: the second stage is the first without a name. -/
theorem expand_outcome_unnamed :
    let p : Expander := { options := { namePrefix := "u.".toList } }
    let t : Text := "a | f | | :x | :y".toList
    p.exclusions.firstMatch? "App.svelte".toList = none ∧ BraceFree t ∧
      (p.expand ("é".toList ++ braced t ++ "\x7bb | g\x7d".toList) "App.svelte".toList).reports 2 =
        [.unchanged "App.svelte".toList 2 (braced t) (.unnamedStage 1 "x".toList)] := by
  intro p t
  have hx : p.exclusions.firstMatch? "App.svelte".toList = none := rfl
  have ht : BraceFree t := by decide +kernel
  obtain ⟨first, rest, code, hsplit, -, hcode, hfailed, -⟩ :=
    (expand_outcome p "App.svelte".toList).1 hx "é".toList t "\x7bb | g\x7d".toList ht
  have hpieces : split .pipe t = "a ".toList :: [" f ", " ", " :x ", " :y"].map String.toList := by
    decide +kernel
  rw [hpieces] at hsplit
  obtain ⟨rfl, rfl⟩ := List.cons.inj hsplit
  have ha : Attempted t "a ".toList :=
    ⟨by decide, ⟨" f | | :x | :y".toList, by decide +kernel, by decide +kernel⟩, by decide +kernel⟩
  have hc : ¬ Callable t "a ".toList ([" f ", " ", " :x ", " :y"].map String.toList) :=
    fun hc => hc.named " :x ".toList (by decide) (by decide) (by decide)
  have hkept : code = braced t := by
    by_cases h : code = braced t
    · exact h
    · exact absurd (hcode.mp h) hc
  refine ⟨hx, ht, ((hfailed ha hkept).2 _).mp ?_⟩
  exact @Refused.unnamed _ [" f ".toList] [" :y".toList] " :x ".toList
    (by decide) (by decide) (by decide)

end Document

end PipeBlocks
