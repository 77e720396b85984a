import PipeBlocks.Proofs.Scan.Separators
import PipeBlocks.Proofs.Text.Bytes
import PipeBlocks.Scan.Scanner

/-! What a scanner finds.

A scanner reads bytes and a scan reads characters, but the two stand alike (`standing`): the bytes
of a character take the scanner where the character takes the scan (`next_skip`). So a call finds
the first cut of the text that is left and goes on behind it (`next_of_cut`), and the calls give the
offsets of the text (`calls_standing`). `calls_give_separators` says which these are. -/
namespace PipeBlocks.Scan
open Text

variable {d : Delimiter} {s : State}

/-! ### Bytes and characters -/

theorem ofUInt8_toUInt8 {c : Char} (h : c.toNat < 128) : Char.ofUInt8 c.toUInt8 = c := by
  apply Char.toNat_inj.mp
  show c.toUInt8.toUInt32.toNat = c.toNat
  rw [UInt8.toNat_toUInt32, toNat_toUInt8_of_isAscii h]

theorem isAscii_of_isStructural {c : Char} (h : isStructural c = true) : c.toNat < 128 := by
  simp only [isStructural, isQuote, isOpener, isCloser, Bool.or_eq_true, beq_iff_eq] at h
  rcases h with ((rfl | rfl) | (rfl | rfl) | rfl) | (rfl | rfl) | rfl <;> decide

/-- No byte of a character that is not ASCII has a meaning. -/
theorem isStructural_ofUInt8 {b : UInt8} (h : 128 ≤ b.toNat) : isStructural (.ofUInt8 b) = false := by
  rw [Bool.eq_false_iff]
  intro hs
  have hlt : b.toUInt32.toNat < 128 := isAscii_of_isStructural hs
  rw [UInt8.toNat_toUInt32] at hlt
  omega

theorem ne_toUInt8 {b : UInt8} {c : Char} (hb : 128 ≤ b.toNat) (hc : c.toNat < 128) :
    b ≠ c.toUInt8 := by
  rintro rfl
  rw [toNat_toUInt8_of_isAscii hc] at hb
  omega

namespace Scanner

/-- The scanner that has read `given` and has `t` to read, as a scan in state `s` has. -/
def standing (d : Delimiter) (given t : Text) : State → Scanner
  | .code depth =>
    { bytes := (given ++ t).bytes, delimiter := d, pos := given.byteLength, depth }
  | .string quote escaped depth =>
    { bytes := (given ++ t).bytes, delimiter := d, pos := given.byteLength, depth,
      quote := some quote.toUInt8, escaped }

section Standing
variable {given t : Text}

theorem ofText_eq (d : Delimiter) (t : Text) : ofText d t = standing d [] t .start := rfl

@[simp] theorem bytes_standing : (standing d given t s).bytes = (given ++ t).bytes := by cases s <;> rfl

@[simp] theorem pos_standing : (standing d given t s).pos = given.byteLength := by cases s <;> rfl

@[simp] theorem inString_standing : (standing d given t s).inString = s.inString := by cases s <;> rfl

end Standing

/-! ### One byte -/

section Step
variable {sc : Scanner} {b : UInt8}

theorem next_of_end (h : sc.bytes[sc.pos]? = none) : sc.next = (none, sc) := by
  rw [next]
  split
  · rfl
  · rename_i hb
    rw [h] at hb
    cases hb

theorem next_of_byte (hb : sc.bytes[sc.pos]? = some b) :
    sc.next = if sc.separates b then
        if b = '|'.toUInt8 ∧ sc.bytes[sc.pos + 1]? = some '|'.toUInt8 then
          next { sc with pos := sc.pos + 2 }
        else (some sc.pos, { sc with pos := sc.pos + 1 })
      else (sc.advance b).next := by
  rw [next]
  split
  · rename_i hn
    rw [hb] at hn
    cases hn
  · rename_i b' hb'
    obtain rfl := Option.some.inj (hb.symm.trans hb')
    rfl

theorem next_of_not_separates (hb : sc.bytes[sc.pos]? = some b) (h : sc.separates b = false) :
    sc.next = (sc.advance b).next := by
  rw [next_of_byte hb, h, if_neg Bool.false_ne_true]

theorem separates_of_le (h : 128 ≤ b.toNat) : sc.separates b = false := by
  have hne : b ≠ sc.delimiter.char.toUInt8 := ne_toUInt8 h sc.delimiter.isAscii
  simp [separates, hne]

/-- What is always so of a scanner: a quote is ASCII, and nothing is hidden outside strings. -/
structure Sane (sc : Scanner) : Prop where
  escaped : sc.quote = none → sc.escaped = false
  quote : ∀ b, sc.quote = some b → b.toNat < 128

theorem advance_of_le (hs : sc.Sane) (h : 128 ≤ b.toNat) :
    sc.advance b = { sc with pos := sc.pos + 1, escaped := false } := by
  have hplain := isStructural_ofUInt8 h
  simp only [isStructural, Bool.or_eq_false_iff] at hplain
  have hbackslash : b ≠ '\\'.toUInt8 := ne_toUInt8 h (by decide)
  unfold advance
  cases hq : sc.quote with
  | none => simp [hplain, hs.escaped hq]
  | some quote =>
    have hne : b ≠ quote := by
      rintro rfl
      have := hs.quote b hq
      omega
    cases he : sc.escaped <;> simp [hbackslash, hne]

/-- Bytes of no meaning are passed over, and what was hidden is behind. -/
theorem next_of_forall_le (sc : Scanner) (front bs back : List UInt8)
    (hbytes : sc.bytes = front ++ (bs ++ back)) (hpos : sc.pos = front.length) (hs : sc.Sane)
    (hbs : ∀ b ∈ bs, 128 ≤ b.toNat) (hne : bs ≠ []) :
    sc.next = next { sc with pos := sc.pos + bs.length, escaped := false } := by
  induction bs generalizing sc front with
  | nil => exact absurd rfl hne
  | cons b bs ih =>
    have hb : sc.bytes[sc.pos]? = some b := by simp [hbytes, hpos]
    have hle := hbs b (List.mem_cons_self ..)
    rw [next_of_not_separates hb (separates_of_le hle), advance_of_le hs hle]
    by_cases hbs' : bs = []
    · rw [hbs', List.length_singleton]
    · have hrest := ih { sc with pos := sc.pos + 1, escaped := false } (front ++ [b]) (by simp [hbytes])
        (by simp [hpos]) ⟨fun _ => rfl, hs.quote⟩ (fun b hb => hbs b (List.mem_cons_of_mem _ hb)) hbs'
      rw [hrest]
      dsimp only
      rw [List.length_cons, Nat.add_assoc, Nat.add_comm 1]

end Step

/-! ### One character -/

section Character
variable {given r : Text} {c : Char}

theorem getElem?_bytes_standing (h : c.toNat < 128) :
    (standing d given (c :: r) s).bytes[(standing d given (c :: r) s).pos]? = some c.toUInt8 := by
  rw [bytes_standing, pos_standing]
  exact (getElem?_bytes_eq_some_iff h).mpr ⟨given, r, rfl, rfl⟩

theorem separates_standing (h : c.toNat < 128) :
    (standing d given (c :: r) s).separates c.toUInt8 = s.separates d c := by
  have heq : (c.toUInt8 == d.char.toUInt8) = (c == d.char) := by
    rw [Bool.eq_iff_iff, beq_iff_eq, beq_iff_eq]
    exact ⟨toUInt8_injective_of_isAscii h d.isAscii, congrArg _⟩
  cases s with
  | code n => simp [standing, separates, State.separates, ofUInt8_toUInt8 h, heq, Bool.beq_eq_decide_eq]
  | string quote escaped n => rfl

theorem advance_standing (h : c.toNat < 128) (hv : s.Valid) :
    (standing d given (c :: r) s).advance c.toUInt8 = standing d (given ++ [c]) r (s.step c) := by
  have hbytes : (given ++ c :: r).bytes = (given ++ [c] ++ r).bytes := by simp
  have hpos : given.byteLength + 1 = (given ++ [c]).byteLength :=
    (byteLength_concat_of_isAscii h given).symm
  have hbackslash : c.toUInt8 = '\\'.toUInt8 ↔ c = '\\' :=
    ⟨toUInt8_injective_of_isAscii h (by decide), congrArg _⟩
  have hclass := ofUInt8_toUInt8 h
  fun_cases State.step c s with
  | case1 n hq => simp [standing, advance, hclass, hq, hbytes, hpos]
  | case2 n hq ho => simp [standing, advance, hclass, hq, ho, hbytes, hpos]
  | case3 n hq ho hc => simp [standing, advance, hclass, hq, ho, hc, hbytes, hpos]
  | case4 n hq ho hc => simp [standing, advance, hclass, hq, ho, hc, hbytes, hpos]
  | case5 quote n => simp [standing, advance, hbytes, hpos]
  | case6 quote n hb => simp [standing, advance, hbackslash.mpr hb, hbytes, hpos]
  | case7 n hb => simp [standing, advance, hbackslash, hb, hbytes, hpos]
  | case8 quote n hb hq =>
    have hquote : quote.toNat < 128 := isAscii_of_isStructural (isStructural_of_isQuote hv)
    have hne : c.toUInt8 ≠ quote.toUInt8 := fun heq => hq (toUInt8_injective_of_isAscii h hquote heq)
    simp [standing, advance, hbackslash, hb, hne, hbytes, hpos]

theorem sane_standing (hv : s.Valid) {t : Text} : (standing d given t s).Sane := by
  cases s with
  | code n => exact ⟨fun _ => rfl, nofun⟩
  | string quote escaped n =>
    have hascii : quote.toNat < 128 := isAscii_of_isStructural (isStructural_of_isQuote hv)
    refine ⟨nofun, fun b hb => ?_⟩
    obtain rfl := Option.some.inj hb
    rwa [toNat_toUInt8_of_isAscii hascii]

/-- A character that is not ASCII has no meaning, but a backslash may hide it. -/
theorem standing_step_of_le (h : 128 ≤ c.toNat) (hv : s.Valid) :
    standing d (given ++ [c]) r (s.step c) =
      { standing d given (c :: r) s with pos := given.byteLength + c.utf8Size, escaped := false } := by
  have hne (a : Char) (ha : a.toNat < 128) : c ≠ a := by
    rintro rfl
    omega
  have hpos : (given ++ [c]).byteLength = given.byteLength + c.utf8Size := by simp
  cases s with
  | code n =>
    have hplain : isStructural c = false := by
      rw [Bool.eq_false_iff]
      intro hs
      exact absurd (isAscii_of_isStructural hs) (Nat.not_lt.mpr h)
    simp [State.step_code_of_plain hplain, standing]
  | string quote escaped n =>
    have hquote := hne quote (isAscii_of_isStructural (isStructural_of_isQuote hv))
    cases escaped <;> simp [State.step, hne '\\' (by decide), hquote, standing]

theorem next_skip (hv : s.Valid) (h : s.separates d c = false) :
    (standing d given (c :: r) s).next = (standing d (given ++ [c]) r (s.step c)).next := by
  by_cases hc : c.toNat < 128
  · rw [next_of_not_separates (getElem?_bytes_standing hc) (by rw [separates_standing hc, h]),
      advance_standing hc hv]
  · have hle := Nat.not_lt.mp hc
    rw [next_of_forall_le _ given.bytes (String.utf8EncodeChar c) r.bytes (by simp) (by simp)
      (sane_standing hv) (fun b hb => le_of_mem_utf8EncodeChar hle hb) String.utf8EncodeChar_ne_nil,
      standing_step_of_le hle hv, pos_standing, String.length_utf8EncodeChar]

/-- The scanner sees the next byte, and the scan the next character: a pipe is the same to both. -/
theorem getElem?_bytes_standing_succ (h : c.toNat < 128) :
    (standing d given (c :: r) s).bytes[(standing d given (c :: r) s).pos + 1]? = some '|'.toUInt8 ↔
      r.head? = some '|' := by
  rw [bytes_standing, pos_standing, List.append_cons, ← byteLength_concat_of_isAscii h given,
    getElem?_bytes_eq_some_iff (by decide)]
  constructor
  · rintro ⟨before, after, heq, hbefore⟩
    rw [(append_inj_of_byteLength_eq heq hbefore.symm).2]
    rfl
  · intro hr
    obtain ⟨r', rfl⟩ := List.head?_eq_some_iff.mp hr
    exact ⟨given ++ [c], r', rfl, rfl⟩

theorem next_pair (h : s.separates d '|' = true) :
    (standing d given ('|' :: '|' :: r) s).next = (standing d (given ++ ['|', '|']) r s).next := by
  have hascii : '|'.toNat < 128 := by decide
  have hpair : (standing d given ('|' :: '|' :: r) s).bytes[
      (standing d given ('|' :: '|' :: r) s).pos + 1]? = some '|'.toUInt8 :=
    (getElem?_bytes_standing_succ hascii).mpr rfl
  have hpos : given.byteLength + 2 = (given ++ ['|', '|']).byteLength := by
    rw [byteLength_append]
    rfl
  rw [next_of_byte (getElem?_bytes_standing hascii), separates_standing hascii, if_pos h,
    if_pos ⟨rfl, hpair⟩, pos_standing, hpos]
  obtain ⟨rfl, -, -⟩ := separates_iff.mp h
  simp [standing, State.start]

theorem next_separator (h : s.separates d c = true) (hp : c = '|' → r.head? ≠ some '|') :
    (standing d given (c :: r) s).next = (some given.byteLength, standing d (given ++ [c]) r s) := by
  obtain ⟨rfl, rfl, -⟩ := separates_iff.mp h
  have hsingle : ¬ (d.char.toUInt8 = '|'.toUInt8 ∧ (standing d given (d.char :: r) .start).bytes[
      (standing d given (d.char :: r) .start).pos + 1]? = some '|'.toUInt8) := by
    rintro ⟨hd, hnext⟩
    exact hp (toUInt8_injective_of_isAscii d.isAscii (by decide) hd)
      ((getElem?_bytes_standing_succ d.isAscii).mp hnext)
  rw [next_of_byte (getElem?_bytes_standing d.isAscii), separates_standing d.isAscii, if_pos h,
    if_neg hsingle, pos_standing, ← byteLength_concat_of_isAscii d.isAscii]
  simp [standing, State.start]

end Character

/-! ### One call -/

section Call
variable {given t : Text}

/-- A whole text is passed over. -/
theorem next_of_whole_append {a : Text} (hv : s.Valid) (h : Whole d s a) (b : Text) :
    (standing d given (a ++ b) s).next = (standing d (given ++ a) b (s.run a)).next := by
  unfold Whole at h
  fun_induction splitOnceFrom d s a generalizing given with
  | case1 s => simp
  | case2 s r hs ih =>
    have hstep : s.run ('|' :: '|' :: r) = s.run r := by simp [step_of_separates hs]
    rw [List.cons_append, List.cons_append, next_pair hs, ih hv (by simpa using h), hstep,
      List.append_assoc]
    rfl
  | case3 => cases h
  | case4 s c r hs ih =>
    rw [List.cons_append, next_skip hv (by simpa using hs), ih (hv.step c) (by simpa using h),
      State.run_cons, List.append_assoc]
    rfl

theorem next_of_whole (hv : s.Valid) (h : Whole d s t) :
    (standing d given t s).next = (none, standing d (given ++ t) [] (s.run t)) := by
  have hend : (standing d given (t ++ []) s).next = _ := next_of_whole_append hv h []
  rw [List.append_nil] at hend
  rw [hend, next_of_end]
  simp

/-- A call finds the first cut. -/
theorem next_of_cut {x y : Text} (hv : s.Valid) (h : CutAt d s t x y) :
    (standing d given t s).next =
      (some (given.byteLength + x.byteLength), standing d (given ++ x ++ [d.char]) y .start) := by
  rw [h.eq, next_of_whole_append hv h.whole, h.run_before, next_separator h.separates h.single,
    byteLength_append]

/-- The calls give the offsets one by one, and then nothing. -/
theorem calls_standing (hv : s.Valid) (n : Nat) :
    (standing d given t s).calls n = (List.range n).map fun i =>
      ((offsetsFrom d given.byteLength s t)[i]?,
        (offsetsFrom d given.byteLength s t)[i]?.isNone && (s.run t).inString) := by
  induction n generalizing given t s with
  | zero => rfl
  | succ n ih =>
    rw [calls, List.range_succ_eq_map, List.map_cons, List.map_map]
    rcases whole_or_cut d s t with h | ⟨x, y, cut⟩
    · rw [next_of_whole hv h, offsetsFrom_of_whole h]
      dsimp only
      rw [ih (hv.run t), offsetsFrom_of_whole whole_nil]
      simp [Function.comp_def]
    · have hpos : (given ++ x ++ [d.char]).byteLength =
          given.byteLength + x.byteLength + d.char.utf8Size := by simp [Nat.add_assoc]
      rw [next_of_cut hv cut, offsetsFrom_of_cut cut]
      dsimp only
      rw [ih State.valid_start, hpos, cut.run]
      simp [Function.comp_def, State.inString, State.start]

end Call

end Scanner

/-- **A scanner gives the places where a text is cut.** Its calls give the offsets one by one, none in a
string, and then nothing; in the end the scanner stands in a string if the text leaves one open,
whatever it was looking for. The offsets ascend, and at each the delimiter stands as a character. No
quote or bracket separates; a pipe does if it is the last of an odd run of pipes at top level, and
any other delimiter does wherever it stands at top level. -/
theorem calls_give_separators (d : Delimiter) (t : Text) :
    (∀ n, (Scanner.ofText d t).calls n = (List.range n).map fun i =>
      ((offsets d t)[i]?, (offsets d t)[i]?.isNone && leavesStringOpen t)) ∧
    (offsets d t).Pairwise (· < ·) ∧
    (∀ o ∈ offsets d t, ∃ before after, t = before ++ d.char :: after ∧ o = before.byteLength) ∧
    (isStructural d.char = true → offsets d t = []) ∧
    (isStructural d.char = false → d.char ≠ '|' → ∀ o, o ∈ offsets d t ↔
      ∃ before after, t = before ++ d.char :: after ∧ AtTopLevel before ∧ o = before.byteLength) ∧
    (d.char = '|' → ∀ o, o ∈ offsets d t ↔ ∃ before n after, PipeRun t before n after ∧
      AtTopLevel before ∧ n % 2 = 1 ∧ o = before.byteLength + (n - 1)) := by
  refine ⟨fun n => ?_, pairwise_offsetsFrom d 0 .start t, fun o ho => ?_,
    fun h => offsets_of_isStructural h t, fun h hd o => mem_offsets_iff_of_ne h hd,
    fun hd o => mem_offsets_iff_run hd⟩
  · rw [Scanner.ofText_eq]
    exact Scanner.calls_standing State.valid_start n
  · obtain ⟨before, after, ht, -, rfl⟩ := mem_offsets_iff.mp ho
    exact ⟨before, after, ht, rfl⟩

/-- In the string a backslash hides the character `é`, both bytes of it, and in the end a string is
open; of the three pipes in a row the last one separates. -/
example : (Scanner.ofText .pipe "'\\é|'||| \"|".toList).calls 3 =
    [(some 8, false), (none, true), (none, true)] := by decide +kernel

end PipeBlocks.Scan
