import PipeBlocks.Block.Segments

/-! Locating blocks one call at a time.

A `Locator` gives out the segments of a document one by one. It looks for brace spans
from byte `search` on and skips those that are no block; when the block that it finds has
text in front, it gives out the text and keeps the block for the next call. The document
is cut by byte positions, and a call has no result if one of them cuts a character. -/
namespace PipeBlocks

/-- The first brace span of a text that begins at byte `pos`, with the byte it begins at. -/
def firstSpan? (pos : Nat) : Text → Option (Nat × Text)
  | [] => none
  | c :: r =>
    match span? (c :: r) with
    | some (raw, _) => some (pos, raw)
    | none => firstSpan? (pos + c.utf8Size) r

/-- Spans take room. -/
theorem byteLength_pos_of_span? {t raw rest : Text} (h : span? t = some (raw, rest)) :
    0 < raw.byteLength := by
  cases raw with
  | nil =>
    have hlt := length_lt_of_span? h
    rw [span?_eq_append h, List.nil_append] at hlt
    exact absurd hlt (Nat.lt_irrefl _)
  | cons c r => exact Nat.lt_of_lt_of_le c.utf8Size_pos (Nat.le_add_right _ _)

theorem bounds_of_firstSpan? {pos start : Nat} {t raw : Text}
    (h : firstSpan? pos t = some (start, raw)) : pos ≤ start ∧ 0 < raw.byteLength := by
  induction t generalizing pos with
  | nil => cases h
  | cons c r ih =>
    unfold firstSpan? at h
    split at h
    · rename_i hs
      obtain ⟨rfl, rfl⟩ := Prod.mk.inj (Option.some.inj h)
      exact ⟨Nat.le_refl _, byteLength_pos_of_span? hs⟩
    · have := ih h
      omega

structure Locator where
  document : Text
  /-- Where the text begins that is not given out yet. -/
  pos : Nat := 0
  /-- Where the next search begins. -/
  search : Nat := 0
  /-- A block that was found behind a text which is given out first. -/
  pending : Option Block := none
deriving DecidableEq, Repr

namespace Locator

def ofDocument (document : Text) : Locator := { document }

/-- Searches on to the next block. -/
def nextBlock? (l : Locator) : Option (Option Block × Locator) :=
  if l.search < l.document.byteLength then
    match l.document.dropBytes? l.search with
    | none => none
    | some rest =>
      match h : firstSpan? l.search rest with
      | none => some (none, l)
      | some (start, raw) =>
        have := bounds_of_firstSpan? h
        match Block.parse? raw start with
        | some b => some (some b, { l with search := start + raw.byteLength })
        | none => nextBlock? { l with search := start + raw.byteLength }
  else some (none, l)
termination_by l.document.byteLength - l.search
decreasing_by omega

/-- One call: the next segment, if there is one, and the locator after it. -/
def next? (l : Locator) : Option (Option Segment × Locator) :=
  match l.pending with
  | some b => some (some (.block b), { l with pos := b.stop, pending := none })
  | none =>
    if l.document.byteLength ≤ l.pos then some (none, l)
    else do
      match ← l.nextBlock? with
      | (some b, l) =>
        if l.pos < b.start then
          let t ← l.document.slice? l.pos b.start
          return (some (.text t), { l with pos := b.start, pending := some b })
        else return (some (.block b), { l with pos := b.stop })
      | (none, l) =>
        let t ← l.document.dropBytes? l.pos
        return (some (.text t), { l with pos := l.document.byteLength })

/-- What the next `n` calls give. -/
def calls (l : Locator) : Nat → Option (List (Option Segment))
  | 0 => some []
  | n + 1 => do
    let (s, l) ← l.next?
    let rest ← l.calls n
    return s :: rest

end Locator

end PipeBlocks
