import PipeBlocks.Text.Blank

/-! What trimming does to a text.

A text is blank space, its trimmed form and blank space again (`exists_eq_append_trim`), and
blank space added at either end makes no difference (`trim_append_left`, `trim_append_right`).
So trimming never looks inside: it keeps every character that is no white space. -/
namespace PipeBlocks.Text

/-! ### Blank texts -/

@[simp] theorem isBlank_nil : isBlank [] = true := rfl

@[simp] theorem isBlank_cons (c : Char) (r : Text) : isBlank (c :: r) = (isSpace c && isBlank r) := rfl

@[simp] theorem isBlank_append (t u : Text) : isBlank (t ++ u) = (isBlank t && isBlank u) :=
  List.all_append

theorem isSpace_of_mem_isBlank {t : Text} (h : t.isBlank = true) : ∀ c ∈ t, isSpace c = true :=
  List.all_eq_true.mp h

/-- What is no white space does not stand in a blank text. -/
theorem not_mem_of_isBlank {t : Text} (h : t.isBlank = true) {c : Char} (hc : isSpace c = false) :
    c ∉ t := by
  intro hm
  rw [isSpace_of_mem_isBlank h c hm] at hc
  cases hc

theorem isBlank_reverse (t : Text) : isBlank t.reverse = isBlank t := List.all_reverse

theorem trimStart_eq_nil_iff (t : Text) : trimStart t = [] ↔ t.isBlank = true := by
  induction t with
  | nil => simp [trimStart]
  | cons c r ih =>
    cases hc : isSpace c
    · simp [trimStart, hc]
    · simpa [trimStart, hc] using ih

/-! ### Blank space at the ends -/

theorem trimStart_append_left {l : Text} (hl : l.isBlank = true) (t : Text) :
    trimStart (l ++ t) = trimStart t :=
  List.dropWhile_append_of_pos (isSpace_of_mem_isBlank hl)

theorem trimEnd_append_right {r : Text} (hr : r.isBlank = true) (t : Text) :
    trimEnd (t ++ r) = trimEnd t := by
  unfold trimEnd
  rw [List.reverse_append, trimStart_append_left (by rw [isBlank_reverse]; exact hr)]

theorem trim_append_left {l : Text} (hl : l.isBlank = true) (t : Text) : trim (l ++ t) = trim t := by
  unfold trim
  rw [trimStart_append_left hl]

theorem trim_append_right {r : Text} (hr : r.isBlank = true) (t : Text) : trim (t ++ r) = trim t := by
  unfold trim
  cases hb : t.isBlank with
  | true =>
    rw [trimStart_append_left hb, (trimStart_eq_nil_iff t).mpr hb, (trimStart_eq_nil_iff r).mpr hr]
  | false =>
    have hne : trimStart t ≠ [] := by
      intro h
      rw [(trimStart_eq_nil_iff t).mp h] at hb
      cases hb
    have hstart : trimStart (t ++ r) = trimStart t ++ r := by
      unfold trimStart at hne ⊢
      rw [List.dropWhile_append, if_neg (by simpa using hne)]
    rw [hstart, trimEnd_append_right hr]

theorem trim_eq_nil_iff (t : Text) : trim t = [] ↔ t.isBlank = true := by
  constructor
  · intro h
    unfold trim trimEnd at h
    have hback := (trimStart_eq_nil_iff _).mp (List.reverse_eq_nil_iff.mp h)
    rw [isBlank_reverse] at hback
    -- What is left after trimming the start is blank, so nothing is left.
    cases hs : trimStart t with
    | nil => exact (trimStart_eq_nil_iff t).mp hs
    | cons c r =>
      have hc := List.head?_dropWhile_not isSpace t
      unfold trimStart at hs hback
      rw [hs] at hc hback
      simp_all
  · intro h
    have := trim_append_left h []
    simpa [trim, trimStart, trimEnd] using this

/-- A text is its trimmed form between two blank texts. -/
theorem exists_eq_append_trim (t : Text) :
    ∃ l r : Text, l.isBlank = true ∧ r.isBlank = true ∧ t = l ++ (t.trim ++ r) := by
  have htake (u : Text) : isBlank (u.takeWhile isSpace) = true := by simp [isBlank]
  refine ⟨t.takeWhile isSpace, ((trimStart t).reverse.takeWhile isSpace).reverse, htake t, ?_, ?_⟩
  · rw [isBlank_reverse]
    exact htake _
  · unfold trim trimEnd
    rw [← List.reverse_append]
    unfold trimStart
    rw [List.takeWhile_append_dropWhile, List.reverse_reverse, List.takeWhile_append_dropWhile]

@[simp] theorem trim_nil : trim [] = [] := rfl

@[simp] theorem trim_trim (t : Text) : t.trim.trim = t.trim := by
  obtain ⟨l, r, hl, hr, ht⟩ := exists_eq_append_trim t
  have := congrArg trim ht
  rw [trim_append_left hl, trim_append_right hr] at this
  exact this.symm

@[simp] theorem isBlank_trim (t : Text) : t.trim.isBlank = t.isBlank := by
  rw [Bool.eq_iff_iff, ← trim_eq_nil_iff, trim_trim, trim_eq_nil_iff]

/-- A trimmed text does not begin with white space. -/
theorem isSpace_of_head?_trim {t : Text} {c : Char} (h : t.trim.head? = some c) :
    isSpace c = false := by
  obtain ⟨r, hr⟩ := List.head?_eq_some_iff.mp h
  cases hs : isSpace c
  · rfl
  -- Otherwise trimming once more would shorten the text.
  have hblank : isBlank [c] = true := by simp [hs]
  have htrim : t.trim = trim r := by
    rw [← trim_trim t, hr]
    exact trim_append_left hblank r
  have hlen : (trim r).length ≤ r.length := by
    obtain ⟨l', r', -, -, hr'⟩ := exists_eq_append_trim r
    have := congrArg List.length hr'
    simp only [List.length_append] at this
    omega
  have := congrArg List.length hr
  rw [htrim, List.length_cons] at this
  omega

/-! ### What stands in the way of trimming -/

/-- Trimming the start stops where something other than white space stands. -/
theorem trimStart_append_of_head? {u : Text} (hu : ∀ c, u.head? = some c → isSpace c = false)
    (t : Text) : trimStart (t ++ u) = trimStart t ++ u := by
  unfold trimStart
  rw [List.dropWhile_append]
  split
  · rename_i ht
    rw [List.isEmpty_iff.mp ht, List.nil_append]
    cases u with
    | nil => rfl
    | cons c r => rw [List.dropWhile_cons_of_neg (by simp [hu c rfl])]
  · rfl

theorem trimEnd_append_of_getLast? {t : Text} (ht : ∀ c, t.getLast? = some c → isSpace c = false)
    (u : Text) : trimEnd (t ++ u) = t ++ trimEnd u := by
  unfold trimEnd
  rw [List.reverse_append, trimStart_append_of_head?, List.reverse_append, List.reverse_reverse]
  intro c hc
  exact ht c (by rwa [List.head?_reverse] at hc)

/-- Around a text that begins and ends with something other than white space, trimming only works
on what stands before it and what stands behind it. -/
theorem trim_around {m : Text} (hm : m ≠ []) (hhead : ∀ c, m.head? = some c → isSpace c = false)
    (hlast : ∀ c, m.getLast? = some c → isSpace c = false) (l r : Text) :
    trim (l ++ m ++ r) = trimStart l ++ m ++ trimEnd r := by
  have hmr : ∀ c, (m ++ r).head? = some c → isSpace c = false := by
    intro c hc
    rw [List.head?_append, List.head?_eq_some_head hm] at hc
    exact hhead c (by rwa [List.head?_eq_some_head hm])
  have hlm : ∀ c, (trimStart l ++ m).getLast? = some c → isSpace c = false := by
    intro c hc
    rw [List.getLast?_append, List.getLast?_eq_some_getLast hm] at hc
    exact hlast c (by rwa [List.getLast?_eq_some_getLast hm])
  unfold trim
  rw [List.append_assoc, trimStart_append_of_head? hmr, ← List.append_assoc,
    trimEnd_append_of_getLast? hlm]

theorem trim_eq_self {t : Text} (hhead : ∀ c, t.head? = some c → isSpace c = false)
    (hlast : ∀ c, t.getLast? = some c → isSpace c = false) : t.trim = t := by
  by_cases ht : t = []
  · rw [ht]
    rfl
  · have := trim_around ht hhead hlast [] []
    simpa [trimStart, trimEnd] using this

/-! ### What trimming keeps -/

theorem mem_of_mem_trim {t : Text} {c : Char} (h : c ∈ t.trim) : c ∈ t := by
  obtain ⟨l, r, -, -, ht⟩ := exists_eq_append_trim t
  rw [ht]
  simp [h]

theorem count_eq_zero_of_isBlank {t : Text} (h : t.isBlank = true) {c : Char}
    (hc : isSpace c = false) : t.count c = 0 :=
  List.count_eq_zero.mpr (not_mem_of_isBlank h hc)

theorem count_trim {c : Char} (hc : isSpace c = false) (t : Text) : t.trim.count c = t.count c := by
  obtain ⟨l, r, hl, hr, ht⟩ := exists_eq_append_trim t
  have := congrArg (List.count c) ht
  rw [List.count_append, List.count_append, count_eq_zero_of_isBlank hl hc,
    count_eq_zero_of_isBlank hr hc] at this
  omega

end PipeBlocks.Text
