import PipeBlocks.Block.Basic

/-! Locating blocks in a document.

`segments` cuts a document into blocks and the text between them. Candidates are
brace spans, an opening brace and the next closing one with no brace between; a
span that is no block belongs to the text around it. The segments' raw texts,
joined, are the document. -/
namespace PipeBlocks

inductive Segment where
  | text (t : Text)
  | block (b : Block)
deriving DecidableEq, Repr

/-- The segment as it stands in the document. -/
def Segment.raw : Segment → Text
  | .text t => t
  | .block b => b.raw

def isBrace (c : Char) : Bool := c == '{' || c == '}'

/-- The brace span at the head of a text, and what follows it. -/
def span? : Text → Option (Text × Text)
  | '{' :: r =>
    match r.dropWhile (!isBrace ·) with
    | '}' :: rest => some ('{' :: r.takeWhile (!isBrace ·) ++ ['}'], rest)
    | _ => none
  | _ => none

theorem span?_eq_append {t raw rest : Text} (h : span? t = some (raw, rest)) : t = raw ++ rest := by
  unfold span? at h
  split at h
  · rename_i r
    split at h
    · rename_i rest' hd
      obtain ⟨rfl, rfl⟩ : '{' :: r.takeWhile (!isBrace ·) ++ ['}'] = raw ∧ rest' = rest := by
        simpa using h
      have := List.takeWhile_append_dropWhile (p := (!isBrace ·)) (l := r)
      rw [hd] at this
      simp [this]
    · simp at h
  · simp at h

theorem length_lt_of_span? {t raw rest : Text} (h : span? t = some (raw, rest)) :
    rest.length < t.length := by
  have hne : raw ≠ [] := by
    unfold span? at h
    split at h
    · split at h
      · obtain ⟨rfl, _⟩ := Prod.mk.inj (Option.some.inj h)
        simp
      · simp at h
    · simp at h
  rw [span?_eq_append h, List.length_append]
  have := List.length_pos_iff.mpr hne
  omega

/-- Puts text in front of segments, joining it to a text already there. -/
def Segment.prependText (t : Text) : List Segment → List Segment
  | .text u :: rest => .text (t ++ u) :: rest
  | rest => .text t :: rest

/-- The segments of a document whose first character is at byte `pos`. -/
def segmentsFrom (pos : Nat) : Text → List Segment
  | [] => []
  | c :: r =>
    match h : span? (c :: r) with
    | some (raw, rest) =>
      have := length_lt_of_span? h
      let following := segmentsFrom (pos + raw.byteLength) rest
      match Block.parse? raw pos with
      | some b => .block b :: following
      | none => Segment.prependText raw following
    | none => Segment.prependText [c] (segmentsFrom (pos + c.utf8Size) r)
termination_by t => t.length
decreasing_by
  · assumption
  · exact Nat.lt_succ_self _

def segments (document : Text) : List Segment := segmentsFrom 0 document

/-- The blocks of a document, in order. -/
def blocks (document : Text) : List Block :=
  (segments document).filterMap fun
    | .block b => some b
    | .text _ => none

end PipeBlocks
