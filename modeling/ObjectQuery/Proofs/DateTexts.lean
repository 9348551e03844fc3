import Mathlib.Algebra.Group.Nat.Defs
import ObjectQuery.Calendar.Printing
import ObjectQuery.Calendar.Reading

/-!
# The texts of date-times

The exact text of a date-time is read back as the date-time that it was written for.  Each part
of the text is read by the reader of its part, which stops in front of the next separator.

## Main Statements

* `natOfDecimal_padded`, `takeDigits_append` — a padded number, and a run of digits
* `readNumber_padded`, `readYear_yearText`, `readFraction_fractionText` — the parts of a text
* `DateTime.ofValue?_iso` — date-times are read back from their texts
-/

namespace ObjectQuery.Calendar

open ObjectQuery.Text ObjectQuery.Number

/-! ### Digits -/

theorem isBlank_of_isDigit {c : Char} (h : isDigit c = true) : isBlank c = false := by
  have hrange : 48 ≤ c.toNat ∧ c.toNat ≤ 57 := by
    simpa [isDigit, Char.le_def, UInt32.le_iff_toNat_le] using h
  unfold isBlank
  simp
  omega

/-- The characters of a padded number. -/
theorem toList_padded (width n : Nat) : (padded width n).toList =
    List.replicate (width - (Nat.toDigits 10 n).length) '0' ++ Nat.toDigits 10 n :=
  String.toList_ofList

/-- A padded number is made of digits. -/
theorem isDigit_of_mem_padded {width n : Nat} {c : Char} (h : c ∈ (padded width n).toList) :
    isDigit c = true := by
  rw [toList_padded] at h
  rcases List.mem_append.mp h with hzero | hdigit
  · rw [List.eq_of_mem_replicate hzero]
    rfl
  · exact Nat.isDigit_of_mem_toDigits (by decide) (by decide) hdigit

theorem padded_ne_nil (width n : Nat) : (padded width n).toList ≠ [] := by
  rw [toList_padded]
  exact List.append_ne_nil_of_right_ne_nil _ Nat.toDigits_ne_nil

theorem isEmpty_padded (width n : Nat) : (padded width n).toList.isEmpty = false :=
  List.isEmpty_eq_false_iff.mpr (padded_ne_nil width n)

/-- A number that fits its width is padded to the width. -/
theorem length_padded {width n : Nat} (hwidth : 0 < width) (h : n < 10 ^ width) :
    (padded width n).toList.length = width := by
  have hdigits := (Nat.length_toDigits_le_iff (by decide) hwidth).mpr h
  rw [toList_padded, List.length_append, List.length_replicate]
  omega

/-- A padded number writes the number. -/
theorem natOfDecimal_padded (width n : Nat) : natOfDecimal (padded width n).toList = n := by
  have hfold : ∀ cs : List Char, natOfDecimal cs = Nat.ofDigitChars 10 cs 0 := by
    intro cs
    rw [natOfDecimal, Nat.ofDigitChars_eq_foldl]
    simp only [Nat.mul_comm]
  rw [hfold, toList_padded, Nat.ofDigitChars_append, Nat.ofDigitChars_replicate_zero,
    Nat.mul_zero, Nat.ofDigitChars_ten_toDigits]

/-- A run of digits is taken up to its end if it is as long as it may be, or if no digit
follows. -/
theorem takeDigits_append {limit : Nat} {run rest : List Char}
    (hrun : ∀ c ∈ run, isDigit c = true) (hlimit : run.length ≤ limit)
    (hrest : run.length = limit ∨ ∀ c ∈ rest.head?, isDigit c = false) :
    takeDigits limit (run ++ rest) = (run, rest) := by
  induction run generalizing limit with
  | nil =>
    cases limit with
    | zero => rw [List.nil_append, takeDigits]
    | succ limit =>
      cases rest with
      | nil => rfl
      | cons c rest =>
        have hc : isDigit c = false := by
          rcases hrest with hzero | hhead
          · exact absurd hzero (Nat.succ_ne_zero limit).symm
          · exact hhead c rfl
        rw [List.nil_append, takeDigits, if_neg (by rw [hc]; exact Bool.false_ne_true)]
  | cons c run ih =>
    rw [List.forall_mem_cons] at hrun
    rw [List.length_cons] at hlimit hrest
    obtain ⟨limit, rfl⟩ : ∃ k, limit = k + 1 := ⟨limit - 1, by omega⟩
    have hnext := ih hrun.2 (Nat.le_of_succ_le_succ hlimit) (hrest.imp_left Nat.succ.inj)
    rw [List.cons_append, takeDigits, if_pos hrun.1, hnext]

/-- No blanks stand in front of a digit. -/
theorem trimStart_append_of_digits {run : List Char} (hrun : ∀ c ∈ run, isDigit c = true)
    (hne : run ≠ []) (rest : List Char) : trimStart (run ++ rest) = run ++ rest := by
  obtain ⟨c, run, rfl⟩ := List.exists_cons_of_ne_nil hne
  have hc := isBlank_of_isDigit (hrun c List.mem_cons_self)
  rw [trimStart, List.cons_append, List.dropWhile_cons_of_neg]
  rw [hc]
  exact Bool.false_ne_true

/-! ### The parts of a text -/

/-- A number of two digits is read back, whatever follows. -/
theorem readNumber_padded {n : Nat} (h : n < 100) (rest : List Char) :
    readNumber 2 ((padded 2 n).toList ++ rest) = some (n, rest) := by
  have hdigits : ∀ c ∈ (padded 2 n).toList, isDigit c = true := fun _ => isDigit_of_mem_padded
  have hlength : (padded 2 n).toList.length = 2 := length_padded (by decide) h
  have htake : takeDigits 2 ((padded 2 n).toList ++ rest) = ((padded 2 n).toList, rest) :=
    takeDigits_append hdigits (Nat.le_of_eq hlength) (Or.inl hlength)
  rw [readNumber, trimStart_append_of_digits hdigits (padded_ne_nil 2 n), htake]
  dsimp only
  rw [isEmpty_padded, natOfDecimal_padded]
  rfl

/-- The digits of a year are taken up to the separator behind them. -/
theorem takeDigits_year {limit n : Nat} (hlimit : (padded 4 n).toList.length ≤ limit)
    (rest : List Char) :
    takeDigits limit ((padded 4 n).toList ++ '-' :: rest) = ((padded 4 n).toList, '-' :: rest) := by
  refine takeDigits_append (fun _ => isDigit_of_mem_padded) hlimit (Or.inr ?_)
  intro c hc
  cases hc
  rfl

/-- Behind a sign all digits of a year are read. -/
theorem readYear_cons {sign : Char} (hsign : sign = '-' ∨ sign = '+') (n : Nat)
    (rest : List Char) : readYear (sign :: ((padded 4 n).toList ++ '-' :: rest)) =
      some (if sign = '-' then -(n : Int) else n, '-' :: rest) := by
  generalize hcs : (padded 4 n).toList ++ '-' :: rest = cs
  have htake : takeDigits cs.length cs = ((padded 4 n).toList, '-' :: rest) := by
    rw [← hcs]
    refine takeDigits_year ?_ rest
    rw [List.length_append]
    exact Nat.le_add_right _ _
  rcases hsign with rfl | rfl
  · show (if (takeDigits cs.length cs).1.isEmpty then none
      else some (-(natOfDecimal (takeDigits cs.length cs).1 : Int),
        (takeDigits cs.length cs).2)) = _
    rw [htake, isEmpty_padded, natOfDecimal_padded]
    rfl
  · show (if (takeDigits cs.length cs).1.isEmpty then none
      else some ((natOfDecimal (takeDigits cs.length cs).1 : Int),
        (takeDigits cs.length cs).2)) = _
    rw [htake, isEmpty_padded, natOfDecimal_padded]
    rfl

/-- Without a sign four digits of a year are read. -/
theorem readYear_padded {n : Nat} (h : n < 10000) (rest : List Char) :
    readYear ((padded 4 n).toList ++ '-' :: rest) = some ((n : Int), '-' :: rest) := by
  have hdigits : ∀ c ∈ (padded 4 n).toList, isDigit c = true := fun _ => isDigit_of_mem_padded
  have htake : takeDigits 4 ((padded 4 n).toList ++ '-' :: rest) =
      ((padded 4 n).toList, '-' :: rest) :=
    takeDigits_year (Nat.le_of_eq (length_padded (by decide) h)) rest
  obtain ⟨c, run, hrun⟩ := List.exists_cons_of_ne_nil (padded_ne_nil 4 n)
  have hc : isDigit c = true := hdigits c (hrun ▸ List.mem_cons_self)
  have hunsigned : ∀ sign cs, isDigit sign = false →
      (padded 4 n).toList ++ '-' :: rest ≠ sign :: cs := by
    rintro sign cs hsign heq
    rw [hrun, List.cons_append] at heq
    rw [(List.cons.inj heq).1, hsign] at hc
    cases hc
  unfold readYear
  rw [trimStart_append_of_digits hdigits (padded_ne_nil 4 n)]
  -- A digit is no sign, so that the third way to read a year is taken.
  split
  · next hhead => exact absurd hhead (hunsigned '-' _ rfl)
  · next hhead => exact absurd hhead (hunsigned '+' _ rfl)
  · rw [htake]
    dsimp only
    rw [isEmpty_padded, natOfDecimal_padded]
    rfl

/-- A year is read back up to the separator behind it. -/
theorem readYear_yearText (year : Int) (rest : List Char) :
    readYear ((yearText year).toList ++ '-' :: rest) = some (year, '-' :: rest) := by
  unfold yearText
  by_cases hrange : 0 ≤ year ∧ year ≤ 9999
  · obtain ⟨n, rfl⟩ := Int.eq_ofNat_of_zero_le hrange.1
    rw [if_pos hrange, Int.toNat_natCast]
    exact readYear_padded (by omega) rest
  · rw [if_neg hrange]
    by_cases hneg : year < 0
    · have hsigned := readYear_cons (Or.inl rfl) year.natAbs rest
      have hyear : -(year.natAbs : Int) = year := by omega
      rw [if_pos rfl, hyear] at hsigned
      rw [if_pos hneg, String.toList_append]
      exact hsigned
    · have hsigned := readYear_cons (Or.inr rfl) year.natAbs rest
      have hyear : (year.natAbs : Int) = year := by omega
      rw [if_neg (by decide), hyear] at hsigned
      rw [if_neg hneg, String.toList_append]
      exact hsigned

/-- A fraction of as many places as it has digits is read back. -/
theorem readFraction_padded {places n : Nat} (hplaces : 0 < places) (hnine : places ≤ 9)
    (h : n < 10 ^ places) :
    readFraction ('.' :: (padded places n).toList) = some (n * 10 ^ (9 - places), []) := by
  have hlength : (padded places n).toList.length = places := length_padded hplaces h
  have htake : takeDigits 9 (padded places n).toList = ((padded places n).toList, []) := by
    have hend : takeDigits 9 ((padded places n).toList ++ []) = ((padded places n).toList, []) :=
      takeDigits_append (fun _ => isDigit_of_mem_padded)
        (Nat.le_trans (Nat.le_of_eq hlength) hnine) (Or.inr (by simp))
    rwa [List.append_nil] at hend
  rw [readFraction, htake]
  dsimp only
  rw [isEmpty_padded, natOfDecimal_padded, hlength]
  rfl

/-- The fraction of a second is read back at the end of a text. -/
theorem readFraction_fractionText {nanosecond : Nat} (h : nanosecond < 1000000000) :
    readFraction (fractionText nanosecond).toList = some (nanosecond, []) := by
  have hread : ∀ {places n : Nat}, 0 < places → places ≤ 9 → n < 10 ^ places →
      n * 10 ^ (9 - places) = nanosecond →
      readFraction ("." ++ padded places n).toList = some (nanosecond, []) := by
    intro places n hplaces hnine hn heq
    rw [String.toList_append, ← heq]
    exact readFraction_padded hplaces hnine hn
  unfold fractionText
  by_cases hzero : nanosecond = 0
  · rw [if_pos hzero, hzero]
    rfl
  · rw [if_neg hzero]
    by_cases hmillis : nanosecond % 1000000 = 0
    · rw [if_pos hmillis]
      exact hread (by decide) (by decide) (by omega) (by omega)
    · rw [if_neg hmillis]
      by_cases hmicros : nanosecond % 1000 = 0
      · rw [if_pos hmicros]
        exact hread (by decide) (by decide) (by omega) (by omega)
      · rw [if_neg hmicros]
        exact hread (by decide) (by decide) (by omega) (by omega)

/-! ### Whole texts -/

/-- The characters of the text of a date-time, part by part. -/
theorem DateTime.toList_iso (d : DateTime) :
    d.iso.toList = (yearText d.year).toList ++ '-' :: ((padded 2 d.month).toList ++
      '-' :: ((padded 2 d.day).toList ++ 'T' :: ((padded 2 d.hour).toList ++
        ':' :: ((padded 2 d.minute).toList ++ ':' :: ((padded 2 d.second).toList ++
          (fractionText d.nanosecond).toList))))) := by
  simp [iso, dateText, timeText]

/-- A date-time is read back from its text. -/
theorem DateTime.ofValue?_iso (d : DateTime) : DateTime.ofValue? d.iso = some d := by
  obtain ⟨-, hmonth, hday, hhour, hminute, hsecond, hnanosecond⟩ := d.valid
  have hdays : daysIn d.year d.month ≤ 31 := by
    unfold daysIn
    split
    · split <;> omega
    · split <;> omega
  have hseparator : ∀ c : Char, isBlank c = false → ∀ rest : List Char,
      readChar c (trimStart (c :: rest)) = some rest := by
    intro c hc rest
    rw [trimStart, List.dropWhile_cons_of_neg (by rw [hc]; exact Bool.false_ne_true), readChar,
      if_pos rfl]
  have hvalid : DateTime.of? d.year d.month d.day d.hour d.minute d.second d.nanosecond =
      some d := dif_pos d.valid
  unfold DateTime.ofValue?
  rw [d.toList_iso]
  simp only [Option.bind_eq_bind, Option.bind_some, readYear_yearText,
    hseparator '-' rfl, hseparator 'T' rfl, hseparator ':' rfl,
    readNumber_padded (Nat.lt_of_le_of_lt hmonth.2 (by decide)),
    readNumber_padded (Nat.lt_of_le_of_lt (Nat.le_trans hday.2 hdays) (by decide)),
    readNumber_padded (Nat.lt_trans hhour (by decide)),
    readNumber_padded (Nat.lt_trans hminute (by decide)),
    readNumber_padded (Nat.lt_of_le_of_lt hsecond (by decide)),
    readFraction_fractionText hnanosecond]
  exact hvalid

end ObjectQuery.Calendar
