import PipeBlocks.Text.Basic

/-! Slices of a text by byte positions.

Where a text is written as parts, a slice between the parts' ends is what stands there
(`slice?_middle`), and a slice that begins with a part is that part and the slice behind it
(`slice?_append`). A slice there is comes from such parts (`slice?_eq_some_iff`), and positions
determine the parts (`append_inj_of_byteLength_eq`). -/
namespace PipeBlocks.Text

theorem dropBytes?_append (t u : Text) : (t ++ u).dropBytes? t.byteLength = some u := by
  induction t with
  | nil => cases u <;> rfl
  | cons c r ih =>
    obtain ⟨n, hn⟩ := Nat.exists_eq_add_of_lt c.utf8Size_pos
    rw [List.cons_append, byteLength_cons,
      show c.utf8Size + byteLength r = n + byteLength r + 1 by omega, dropBytes?, if_pos (by omega),
      show n + byteLength r + 1 - c.utf8Size = byteLength r by omega, ih]

theorem takeBytes?_append (t u : Text) (n : Nat) :
    (t ++ u).takeBytes? (t.byteLength + n) = (u.takeBytes? n).map (t ++ ·) := by
  induction t with
  | nil => simp
  | cons c r ih =>
    obtain ⟨k, hk⟩ := Nat.exists_eq_add_of_lt c.utf8Size_pos
    rw [List.cons_append, byteLength_cons,
      show c.utf8Size + byteLength r + n = k + byteLength r + n + 1 by omega,
      takeBytes?, if_pos (by omega),
      show k + byteLength r + n + 1 - c.utf8Size = byteLength r + n by omega, ih, Option.map_map]
    rfl

theorem slice?_self (t u : Text) : (t ++ u).slice? t.byteLength t.byteLength = some [] := by
  rw [slice?, dropBytes?_append, Nat.sub_self]
  cases u <;> rfl

/-- A slice that begins with a part of the text goes on behind that part. -/
theorem slice?_append (t u v : Text) {j : Nat} (hj : t.byteLength + u.byteLength ≤ j) :
    (t ++ u ++ v).slice? t.byteLength j =
      ((t ++ u ++ v).slice? (t ++ u).byteLength j).map (u ++ ·) := by
  have hsub : j - t.byteLength = u.byteLength + (j - (t ++ u).byteLength) := by
    rw [byteLength_append]
    omega
  rw [slice?, slice?, dropBytes?_append (t ++ u) v, List.append_assoc, dropBytes?_append, hsub]
  exact takeBytes?_append u v _

theorem slice?_middle (t u v : Text) :
    (t ++ u ++ v).slice? t.byteLength (t.byteLength + u.byteLength) = some u := by
  rw [slice?_append t u v (Nat.le_refl _), ← byteLength_append, slice?_self, Option.map_some,
    List.append_nil]

theorem byteLength_pos {t : Text} (h : t ≠ []) : 0 < t.byteLength := by
  cases t with
  | nil => exact absurd rfl h
  | cons c r => exact Nat.lt_of_lt_of_le c.utf8Size_pos (Nat.le_add_right _ _)

/-! ### Slices that exist -/

theorem dropBytes?_eq_some_iff {t u : Text} {n : Nat} :
    t.dropBytes? n = some u ↔ ∃ before, t = before ++ u ∧ before.byteLength = n := by
  constructor
  · intro h
    fun_induction dropBytes? n t with
    | case1 t =>
      obtain rfl := Option.some.inj h
      exact ⟨[], rfl, rfl⟩
    | case2 => cases h
    | case3 n c r hc ih =>
      obtain ⟨before, rfl, hbefore⟩ := ih h
      exact ⟨c :: before, rfl, by rw [byteLength_cons]; omega⟩
    | case4 => cases h
  · rintro ⟨before, rfl, rfl⟩
    exact dropBytes?_append before u

theorem takeBytes?_eq_some_iff {t u : Text} {n : Nat} :
    t.takeBytes? n = some u ↔ ∃ after, t = u ++ after ∧ u.byteLength = n := by
  constructor
  · intro h
    fun_induction takeBytes? n t generalizing u with
    | case1 t =>
      obtain rfl := Option.some.inj h
      exact ⟨t, rfl, rfl⟩
    | case2 => cases h
    | case3 n c r hc ih =>
      obtain ⟨v, hv, rfl⟩ := Option.map_eq_some_iff.mp h
      obtain ⟨after, rfl, hafter⟩ := ih hv
      exact ⟨after, rfl, by rw [byteLength_cons]; omega⟩
    | case4 => cases h
  · rintro ⟨after, rfl, rfl⟩
    have h := takeBytes?_append u after 0
    rw [Nat.add_zero] at h
    rw [h]
    cases after <;> simp [takeBytes?]

theorem slice?_eq_some_iff {t u : Text} {i j : Nat} (hij : i ≤ j) :
    t.slice? i j = some u ↔
      ∃ before after, t = before ++ u ++ after ∧ before.byteLength = i ∧ i + u.byteLength = j := by
  rw [slice?, Option.bind_eq_some_iff]
  constructor
  · rintro ⟨v, hdrop, htake⟩
    obtain ⟨before, rfl, hbefore⟩ := dropBytes?_eq_some_iff.mp hdrop
    obtain ⟨after, rfl, hu⟩ := takeBytes?_eq_some_iff.mp htake
    exact ⟨before, after, by rw [List.append_assoc], hbefore, by omega⟩
  · rintro ⟨before, after, rfl, hbefore, hu⟩
    refine ⟨u ++ after, dropBytes?_eq_some_iff.mpr ⟨before, by rw [List.append_assoc], hbefore⟩, ?_⟩
    exact takeBytes?_eq_some_iff.mpr ⟨after, rfl, by omega⟩

/-- A text is cut at a byte in one way only. -/
theorem append_inj_of_byteLength_eq {t u v w : Text} (h : t ++ u = v ++ w)
    (hlength : t.byteLength = v.byteLength) : t = v ∧ u = w := by
  have hdrop := dropBytes?_append t u
  rw [h, hlength, dropBytes?_append] at hdrop
  obtain rfl := Option.some.inj hdrop
  exact ⟨List.append_cancel_right h, rfl⟩

end PipeBlocks.Text
