import PipeBlocks.Names
import PipeBlocks.Proofs.Text.Bytes

/-! The order of names, and how a set of names is laid out.

UTF-8 keeps the order of code points: where two characters differ, so do their bytes, the same way
around, whatever follows them. So texts that ascend ascend byte by byte (`bytes_lt_bytes`). A set
of names ascends strictly (`Names.pairwise_ofList`), and only its members decide how it is laid out
(`Names.ofList_eq_of_mem_iff`). -/
namespace PipeBlocks

namespace Text

theorem ofNat_cons_lt_iff {a b : Nat} (ha : a < 256) (hb : b < 256) {r s : List UInt8} :
    UInt8.ofNat a :: r < UInt8.ofNat b :: s ↔ a < b ∨ a = b ∧ r < s := by
  rw [List.cons_lt_cons_iff, UInt8.lt_iff_toNat_lt, ← UInt8.toNat_inj, UInt8.toNat_ofNat_of_lt' ha,
    UInt8.toNat_ofNat_of_lt' hb]

/-- The bytes of the lesser character are lesser, whatever follows either. -/
theorem utf8EncodeChar_append_lt {c d : Char} (h : c < d) (r s : List UInt8) :
    String.utf8EncodeChar c ++ r < String.utf8EncodeChar d ++ s := by
  have hlt : c.val.toNat < d.val.toNat := h
  have hmax : d.val.toNat < 1114112 := by
    have := d.valid
    unfold UInt32.isValidChar Nat.isValidChar at this
    omega
  unfold String.utf8EncodeChar
  dsimp only
  generalize c.val.toNat = m at hlt
  generalize d.val.toNat = n at hlt hmax
  have h4096 (k : Nat) : k / 4096 = k / 64 / 64 := (Nat.div_div_eq_div_mul k 64 64).symm
  have h262144 (k : Nat) : k / 262144 = k / 64 / 64 / 64 := by
    rw [← h4096, Nat.div_div_eq_div_mul]
  -- with as many bytes on both sides the first that differ decide, else the first ones do
  repeat' split
  all_goals
    simp (disch := omega) only [List.cons_append, List.nil_append, ofNat_cons_lt_iff, h4096, h262144]
    omega

theorem bytes_lt_bytes {t u : Text} (h : t < u) : t.bytes < u.bytes := by
  induction t generalizing u with
  | nil =>
    cases u with
    | nil => exact absurd h (List.lt_irrefl _)
    | cons d s =>
      rw [bytes_cons]
      cases hbytes : String.utf8EncodeChar d with
      | nil => exact absurd hbytes String.utf8EncodeChar_ne_nil
      | cons b bs => exact List.nil_lt_cons _ _
  | cons c r ih =>
    cases u with
    | nil => exact absurd h (List.not_lt_nil _)
    | cons d s =>
      rw [bytes_cons, bytes_cons]
      rcases List.cons_lt_cons_iff.mp h with hcd | ⟨rfl, hrs⟩
      · exact utf8EncodeChar_append_lt hcd _ _
      · exact List.append_left_lt (ih hrs)

end Text

namespace Names

theorem pairwise_insert {x : Text} {l : List Text} (h : l.Pairwise (· < ·)) :
    (insert x l).Pairwise (· < ·) := by
  induction l with
  | nil => exact List.pairwise_singleton _ _
  | cons y rest ih =>
    obtain ⟨hy, hrest⟩ := List.pairwise_cons.mp h
    rw [insert]
    split
    · rename_i hxy
      apply List.Pairwise.cons _ h
      intro z hz
      rcases List.mem_cons.mp hz with rfl | hz
      · exact hxy
      · exact List.lt_trans hxy (hy z hz)
    · rename_i hxy
      split
      · exact h
      · rename_i hne
        apply List.Pairwise.cons _ (ih hrest)
        intro z hz
        rcases mem_insert.mp hz with rfl | hz
        · rcases List.le_iff_lt_or_eq.mp (List.not_lt.mp hxy) with hlt | heq
          · exact hlt
          · exact absurd heq.symm hne
        · exact hy z hz

/-- A set of names ascends strictly. -/
theorem pairwise_ofList (l : List Text) : (ofList l).Pairwise (· < ·) := by
  induction l with
  | nil => exact List.Pairwise.nil
  | cons x rest ih => exact pairwise_insert ih

/-- Only its members decide how a set of names is laid out. -/
theorem ofList_eq_of_mem_iff {l l' : List Text} (h : ∀ x, x ∈ l ↔ x ∈ l') : ofList l = ofList l' := by
  have hnodup (l : List Text) : (ofList l).Nodup :=
    (pairwise_ofList l).imp (by
      intro x y hlt heq
      exact List.lt_irrefl x (heq ▸ hlt))
  have hperm : (ofList l).Perm (ofList l') := by
    rw [List.perm_ext_iff_of_nodup (hnodup l) (hnodup l')]
    intro x
    rw [mem_ofList, mem_ofList, h]
  refine List.Perm.eq_of_pairwise ?_ (pairwise_ofList l) (pairwise_ofList l') hperm
  intro x y _ _ hxy hyx
  exact absurd hyx (List.lt_asymm hxy)

end Names

end PipeBlocks
