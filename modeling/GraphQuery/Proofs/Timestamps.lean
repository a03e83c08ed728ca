import GraphQuery.Proofs.Dates
import GraphQuery.Timestamp.Reader
import GraphQuery.Value
import Mathlib.Data.List.Induction
import Mathlib.Data.List.TakeWhile

/-!
# Timestamps read back

What a timestamp becomes when its text is read again. Main statement: the text of a timestamp is the
same instant if and only if the timestamp has no fraction of a second and is shown at whole minutes
from UTC.
-/

namespace GraphQuery.Timestamp

open Text

/-! ## Numbers -/

/-- Zeros before a number do not change it. -/
theorem digitsValue_padded (width n : Nat) : digitsValue (padded width n) = n := by
  show Nat.ofDigitChars 10 (List.replicate _ '0' ++ Nat.toDigits 10 n) 0 = n
  rw [Nat.ofDigitChars_append, Nat.ofDigitChars_replicate_zero, Nat.mul_zero, Nat.ofDigitChars_ten_toDigits]

theorem isDigit_of_mem_padded {width n : Nat} {c : Char} (member : c ∈ padded width n) : c.isDigit = true := by
  rcases List.mem_append.1 member with zero | digit
  · rw [List.eq_of_mem_replicate zero]
    rfl
  · exact Nat.isDigit_of_mem_toDigits (by omega) (by omega) digit

theorem length_padded {width n : Nat} (filled : 0 < width) (short : n < 10 ^ width) :
    (padded width n).length = width := by
  have digits := (Nat.length_toDigits_le_iff (by omega) filled).2 short
  rw [padded, List.length_append, List.length_replicate]
  omega

section Padded

variable {width n : Nat} (filled : 0 < width) (short : n < 10 ^ width) (rest : List Char)

include filled short

theorem exists_padded : ∃ c cs, padded width n = c :: cs ∧ c.isDigit = true := by
  cases digits : padded width n with
  | nil =>
    have length := length_padded filled short
    rw [digits] at length
    exact absurd length (Nat.ne_of_lt filled)
  | cons c cs => exact ⟨c, cs, rfl, isDigit_of_mem_padded (digits ▸ List.mem_cons_self)⟩

theorem digits?_padded : digits? width (padded width n ++ rest) = some (n, rest) := by
  have length := length_padded filled short
  have whole : (padded width n).takeWhile Char.isDigit = padded width n :=
    List.takeWhile_eq_self_iff.2 fun c member => isDigit_of_mem_padded member
  have some : (padded width n).isEmpty = false := by
    obtain ⟨c, cs, digits, -⟩ := exists_padded filled short
    rw [digits]
    rfl
  rw [digits?, List.take_left' length, whole, some, if_neg Bool.false_ne_true, digitsValue_padded, List.drop_left]

theorem trimStart_padded : trimStart (padded width n ++ rest) = padded width n ++ rest := by
  obtain ⟨c, cs, digits, digit⟩ := exists_padded filled short
  rw [digits]
  exact trimStart_cons_of_not_blank _ (isBlank_eq_false_of_isDigit digit)

end Padded

theorem field?_padded {n : Nat} (short : n < 100) (rest : List Char) :
    field? (padded 2 n ++ rest) = some (n, rest) := by
  rw [field?, trimStart_padded (by omega) short, digits?_padded (by omega) short]

theorem mark?_self {mark : Char} (filled : isBlank mark = false) (rest : List Char) :
    mark? mark (mark :: rest) = some rest := by
  rw [mark?, trimStart_cons_of_not_blank rest filled]
  dsimp only
  rw [if_pos rfl]

theorem year?_yearText {year : Int} (early : 0 ≤ year) (late : year ≤ 9999) (rest : List Char) :
    year? (yearText year ++ rest) = some (year, rest) := by
  have short : year.toNat < 10 ^ 4 := by omega
  obtain ⟨c, cs, digits, digit⟩ := exists_padded (show 0 < 4 by omega) short
  have read := digits?_padded (by omega) short rest
  rw [yearText, if_pos ⟨early, late⟩, year?, trimStart_padded (by omega) short, digits, List.cons_append]
  rw [digits, List.cons_append] at read
  split
  · rename_i minus
    cases minus
    cases digit
  · rename_i plus
    cases plus
    cases digit
  · rw [read, Option.map_some]
    dsimp only
    rw [Int.toNat_of_nonneg early]

/-! ## Offsets -/

theorem padded_two {n : Nat} (short : n < 100) : padded 2 n = [Nat.digitChar (n / 10), Nat.digitChar (n % 10)] := by
  have checked : ∀ n < 100, padded 2 n = [Nat.digitChar (n / 10), Nat.digitChar (n % 10)] := by decide
  exact checked n short

theorem pair?_padded {top : Char} {n : Nat} (short : n < 100) (low : Nat.digitChar (n / 10) ≤ top)
    (rest : List Char) : pair? top (padded 2 n ++ rest) = some (n, rest) := by
  have digits : ∀ c ∈ padded 2 n, c.isDigit = true := fun c member => isDigit_of_mem_padded member
  have value := digitsValue_padded 2 n
  rw [padded_two short] at digits value ⊢
  simp only [List.cons_append, List.nil_append, pair?]
  rw [if_pos ⟨digits _ (by simp), low, digits _ (by simp)⟩, value]

theorem offsetBody?_padded {hours minutes : Nat} (few : hours < 100) (short : minutes < 60) :
    offsetBody? (padded 2 hours ++ ':' :: padded 2 minutes) = some (hours * 3600 + minutes * 60, []) := by
  have top : ∀ n < 100, Nat.digitChar (n / 10) ≤ '9' := by decide
  have top' : ∀ n < 60, Nat.digitChar (n / 10) ≤ '5' := by decide
  have marks : (':' :: padded 2 minutes).dropWhile (fun c => c == ':' || isBlank c) = padded 2 minutes := by
    obtain ⟨c, cs, digits, digit⟩ := exists_padded (show 0 < 2 by omega) (show minutes < 10 ^ 2 by omega)
    have noColon : (c == ':') = false := by
      rw [beq_eq_false_iff_ne]
      rintro rfl
      cases digit
    rw [List.dropWhile_cons_of_pos rfl, digits, List.dropWhile_cons_of_neg]
    rw [noColon, isBlank_eq_false_of_isDigit digit]
    exact Bool.false_ne_true
  have read := pair?_padded (show minutes < 100 by omega) (top' _ short) []
  rw [List.append_nil] at read
  rw [offsetBody?, pair?_padded few (top _ few)]
  simp only [Option.bind_eq_bind, Option.bind_some]
  rw [marks, read]
  rfl

/-- An offset to the minute, as its text shows it. -/
def shownOffset (offset : Int) : Int :=
  let minutes := (offset.natAbs + 30) / 60
  if offset < 0 then -((minutes * 60 : Nat) : Int) else (minutes * 60 : Nat)

theorem shownOffset_eq_self_iff {offset : Int} : shownOffset offset = offset ↔ offset % 60 = 0 := by
  unfold shownOffset
  dsimp only
  split <;> omega

theorem offset?_offsetText {offset : Int} (small : offset.natAbs < 86400) :
    offset? (trimStart (offsetText offset)) = some (shownOffset offset, []) := by
  unfold offsetText
  split
  · rename_i zero
    rw [zero]
    rfl
  · dsimp only
    have few : (offset.natAbs + 30) / 60 / 60 < 100 := by omega
    have short : (offset.natAbs + 30) / 60 % 60 < 60 := Nat.mod_lt _ (by omega)
    have total : (offset.natAbs + 30) / 60 / 60 * 3600 + (offset.natAbs + 30) / 60 % 60 * 60 =
        (offset.natAbs + 30) / 60 * 60 := by omega
    have body := offsetBody?_padded few short
    rw [total] at body
    rw [List.cons_append]
    by_cases west : offset < 0
    · rw [if_pos west, trimStart_cons_of_not_blank _ (by decide)]
      simp [offset?, body, shownOffset, west]
    · rw [if_neg west, trimStart_cons_of_not_blank _ (by decide)]
      simp [offset?, body, shownOffset, west]

/-! ## Texts of timestamps -/

theorem fraction?_offsetText (offset : Int) : fraction? (offsetText offset) = some (0, offsetText offset) := by
  unfold offsetText
  split
  · rfl
  · split
    · rfl
    · rfl

theorem localSecond_le (t : Timestamp) : t.localSecond ≤ 60 := by
  unfold localSecond
  split <;> omega

/-- The parts of a text in full are read as they were written. -/
theorem ofText?_padded {date : Date} (valid : date.isValid = true) (early : 0 ≤ date.year) (late : date.year ≤ 9999)
    {hour minute second : Nat} (hours : hour < 100) (minutes : minute < 100) (seconds : second < 100)
    {offset : Int} (small : offset.natAbs < 86400) :
    ofText? (yearText date.year ++ '-' :: padded 2 date.month ++ '-' :: padded 2 date.day ++
      'T' :: padded 2 hour ++ ':' :: padded 2 minute ++ ':' :: padded 2 second ++ offsetText offset) =
      ofLocal? date hour minute second 0 (shownOffset offset) := by
  obtain ⟨month, day⟩ := Date.month_le_and_day_le valid
  have months : date.month < 100 := by omega
  have days : date.day < 100 := by omega
  have dash : isBlank '-' = false := by decide
  have colon : isBlank ':' = false := by decide
  have separator (rest : List Char) : separator? ('T' :: rest) = some rest := rfl
  have spelled : yearText date.year ++ '-' :: padded 2 date.month ++ '-' :: padded 2 date.day ++
      'T' :: padded 2 hour ++ ':' :: padded 2 minute ++ ':' :: padded 2 second ++ offsetText offset =
      yearText date.year ++ ('-' :: (padded 2 date.month ++ ('-' :: (padded 2 date.day ++ ('T' :: (padded 2 hour ++
        (':' :: (padded 2 minute ++ (':' :: (padded 2 second ++ offsetText offset)))))))))) := by
    simp only [List.append_assoc, List.cons_append]
  -- Each reader takes off what its writer wrote, one after the other.
  rw [spelled, ofText?]
  dsimp only [bind]
  rw [year?_yearText early late, Option.bind_some]
  dsimp only
  rw [mark?_self dash, Option.bind_some, field?_padded months, Option.bind_some]
  dsimp only
  rw [mark?_self dash, Option.bind_some, field?_padded days, Option.bind_some]
  dsimp only
  rw [separator, Option.bind_some, field?_padded hours, Option.bind_some]
  dsimp only
  rw [mark?_self colon, Option.bind_some, field?_padded minutes, Option.bind_some]
  dsimp only
  rw [mark?_self colon, Option.bind_some, field?_padded seconds, Option.bind_some]
  dsimp only
  rw [fraction?_offsetText, Option.bind_some]
  dsimp only
  rw [offset?_offsetText small, Option.bind_some]
  dsimp only
  rw [if_pos]
  decide

/-! ## Instants of local times -/

/-- The second that a leap second, numbered 60, is counted under, and whether it is one. -/
def leapOf (second : Nat) : Nat := if second = 60 then 1 else 0

theorem ofLocal?_eq_some_iff {date : Date} {hour minute second nanos : Nat} {offset : Int} {u : Timestamp} :
    ofLocal? date hour minute second nanos offset = some u ↔
      (date.isValid = true ∧ hour < 24 ∧ minute < 60 ∧ second ≤ 60 ∧ isYearInRange date.year = true ∧
        isYearInRange (Date.ofDays (u.seconds / 86400)).year = true) ∧
      u.seconds = date.toDays * 86400 + hour * 3600 + minute * 60 + (second - leapOf second : Nat) - offset ∧
      u.nanos = nanos + leapOf second * 1000000000 ∧ u.offset = offset := by
  rw [ofLocal?, Option.ite_none_right_eq_some, Option.dite_none_right_eq_some]
  simp only [Bool.and_eq_true, decide_eq_true_eq]
  constructor
  · rintro ⟨⟨⟨⟨⟨⟨valid, hours⟩, minutes⟩, seconds⟩, years⟩, utc⟩, _, found⟩
    cases found
    exact ⟨⟨valid, hours, minutes, seconds, years, utc⟩, rfl, rfl, rfl⟩
  · rintro ⟨⟨valid, hours, minutes, seconds, years, utc⟩, instant, fraction, shift⟩
    obtain ⟨s, n, o, n_lt, o_lt⟩ := u
    dsimp only at *
    subst instant fraction shift
    exact ⟨⟨⟨⟨⟨⟨valid, hours⟩, minutes⟩, seconds⟩, years⟩, utc⟩, ⟨n_lt, o_lt⟩, rfl⟩

theorem isYearInRange_ofDays {days : Int} (early : -1000000 ≤ days) (late : days ≤ 4000000) :
    isYearInRange (Date.ofDays days).year = true := by
  obtain ⟨lower, upper⟩ := Date.year_ofDays days
  unfold Date.epochDays Date.periodDays at lower upper
  simp only [isYearInRange, Bool.and_eq_true, decide_eq_true_eq]
  omega

theorem natAbs_shownOffset_le {offset : Int} (small : offset.natAbs < 86400) :
    (shownOffset offset).natAbs ≤ 86400 := by
  unfold shownOffset
  dsimp only
  split <;> omega

/-- The second of the local minute is 60 for a leap second after second 59. -/
theorem leapOf_localSecond (t : Timestamp) :
    leapOf t.localSecond = if 1000000000 ≤ t.nanos ∧ (t.seconds + t.offset) % 60 = 59 then 1 else 0 := by
  unfold leapOf localSecond
  split_ifs <;> omega

/-- The second by which a leap second after another second than 59 is shown too late. -/
def carry (t : Timestamp) : Int := if 1000000000 ≤ t.nanos ∧ (t.seconds + t.offset) % 60 ≠ 59 then 1 else 0

theorem carry_bounds (t : Timestamp) : 0 ≤ t.carry ∧ t.carry ≤ 1 := by
  unfold carry
  split_ifs <;> omega

theorem counted_localSecond (t : Timestamp) :
    ((t.localSecond - leapOf t.localSecond : Nat) : Int) = (t.seconds + t.offset) % 60 + t.carry := by
  rw [leapOf_localSecond]
  unfold localSecond carry
  split_ifs <;> omega

/-- A timestamp whose local year has four digits is read back with its local time in whole seconds,
    at the offset that its text shows. A leap second is one again only after second 59. -/
theorem ofText?_text_eq_some_iff {t : Timestamp} (early : 0 ≤ t.localDate.year) (late : t.localDate.year ≤ 9999)
    {u : Timestamp} :
    ofText? t.text = some u ↔
      u.offset = shownOffset t.offset ∧
      u.seconds + u.offset = t.seconds + t.offset + t.carry ∧
      u.nanos = if 1000000000 ≤ t.nanos ∧ (t.seconds + t.offset) % 60 = 59 then 1000000000 else 0 := by
  have valid := Date.isValid_ofDays ((t.seconds + t.offset) / 86400)
  have days := Date.toDays_ofDays ((t.seconds + t.offset) / 86400)
  have years := Date.year_ofDays ((t.seconds + t.offset) / 86400)
  unfold localDate at early late
  unfold Date.epochDays Date.periodDays at years
  have short := t.offset_lt
  have second := localSecond_le t
  have shift := natAbs_shownOffset_le short
  rw [text, localDate, ofText?_padded valid early late (by omega) (by omega) (by omega) short, ofLocal?_eq_some_iff,
    days, counted_localSecond, leapOf_localSecond]
  generalize shownOffset t.offset = shown at shift ⊢
  have late_by := carry_bounds t
  constructor
  · rintro ⟨-, instant, fraction, rfl⟩
    refine ⟨rfl, by omega, ?_⟩
    rw [fraction]
    split_ifs <;> rfl
  · rintro ⟨rfl, instant, fraction⟩
    refine ⟨⟨valid, by omega, by omega, second, ?_, isYearInRange_ofDays (by omega) (by omega)⟩, by omega, ?_, rfl⟩
    · simp only [isYearInRange, Bool.and_eq_true, decide_eq_true_eq]
      omega
    · rw [fraction]
      split_ifs <;> rfl

/-! ## Timestamps that were read -/

theorem digitsValue_lt {ds : List Char} (digits : ∀ c ∈ ds, c.isDigit = true) : digitsValue ds < 10 ^ ds.length := by
  induction ds using List.reverseRecOn with
  | nil => decide
  | append_singleton ds c ih =>
    have start := ih fun d member => digits d (List.mem_append_left _ member)
    have digit : c.toNat - '0'.toNat ≤ 9 := by
      have low : 48 ≤ c.toNat ∧ c.toNat ≤ 57 := by
        simpa [Char.isDigit, UInt32.le_iff_toNat_le] using digits c (by simp)
      have zero : '0'.toNat = 48 := rfl
      omega
    have value : digitsValue (ds ++ [c]) = 10 * digitsValue ds + (c.toNat - '0'.toNat) := by
      simp [digitsValue]
    rw [value, List.length_append, List.length_singleton, Nat.pow_succ]
    omega

theorem fraction?_lt {cs rest : List Char} {nanos : Nat} (found : fraction? cs = some (nanos, rest)) :
    nanos < 1000000000 := by
  unfold fraction? at found
  split at found
  · rename_i cs
    dsimp only at found
    split at found
    · cases found
    · have kept : ∀ c ∈ (cs.takeWhile Char.isDigit).take 9, c.isDigit = true := fun c member =>
        List.all_eq_true.1 List.all_takeWhile c (List.mem_of_mem_take member)
      have few : ((cs.takeWhile Char.isDigit).take 9).length ≤ 9 := List.length_take_le 9 _
      cases found
      calc digitsValue ((cs.takeWhile Char.isDigit).take 9) * 10 ^ (9 - ((cs.takeWhile Char.isDigit).take 9).length)
        _ < 10 ^ ((cs.takeWhile Char.isDigit).take 9).length * 10 ^ (9 - ((cs.takeWhile Char.isDigit).take 9).length) :=
          Nat.mul_lt_mul_of_pos_right (digitsValue_lt kept) (Nat.pow_pos (by omega))
        _ = 10 ^ 9 := by rw [← Nat.pow_add, Nat.add_sub_cancel' few]
  · cases found
    decide

theorem offsetBody?_mod {cs rest : List Char} {n : Nat} (found : offsetBody? cs = some (n, rest)) : n % 60 = 0 := by
  unfold offsetBody? at found
  dsimp only [bind] at found
  obtain ⟨⟨hours, more⟩, -, found⟩ := Option.bind_eq_some_iff.1 found
  obtain ⟨⟨minutes, more⟩, -, found⟩ := Option.bind_eq_some_iff.1 found
  cases found
  omega

theorem offset?_mod {cs rest : List Char} {offset : Int} (found : offset? cs = some (offset, rest)) :
    offset % 60 = 0 := by
  unfold offset? at found
  split at found
  · cases found
    rfl
  · split at found
    · split_ifs at found
      · cases found
        rfl
      · obtain ⟨⟨n, more⟩, body, same⟩ := Option.map_eq_some_iff.1 found
        have whole := offsetBody?_mod body
        cases same
        omega
      · obtain ⟨⟨n, more⟩, body, same⟩ := Option.map_eq_some_iff.1 found
        have whole := offsetBody?_mod body
        cases same
        omega
    · cases found

/-- A timestamp that was read is that of a local time with what `fraction?` and `offset?` gave. -/
theorem exists_ofLocal? {cs : List Char} {t : Timestamp} (found : ofText? cs = some t) :
    ∃ (date : Date) (hour minute second nanos : Nat) (offset : Int),
      (∃ cs rest, fraction? cs = some (nanos, rest)) ∧ (∃ cs rest, offset? cs = some (offset, rest)) ∧
      ofLocal? date hour minute second nanos offset = some t := by
  unfold ofText? at found
  dsimp only [bind] at found
  obtain ⟨⟨year, _⟩, -, found⟩ := Option.bind_eq_some_iff.1 found
  obtain ⟨_, -, found⟩ := Option.bind_eq_some_iff.1 found
  obtain ⟨⟨month, _⟩, -, found⟩ := Option.bind_eq_some_iff.1 found
  obtain ⟨_, -, found⟩ := Option.bind_eq_some_iff.1 found
  obtain ⟨⟨day, _⟩, -, found⟩ := Option.bind_eq_some_iff.1 found
  obtain ⟨_, -, found⟩ := Option.bind_eq_some_iff.1 found
  obtain ⟨⟨hour, _⟩, -, found⟩ := Option.bind_eq_some_iff.1 found
  obtain ⟨_, -, found⟩ := Option.bind_eq_some_iff.1 found
  obtain ⟨⟨minute, _⟩, -, found⟩ := Option.bind_eq_some_iff.1 found
  obtain ⟨_, -, found⟩ := Option.bind_eq_some_iff.1 found
  obtain ⟨⟨second, _⟩, -, found⟩ := Option.bind_eq_some_iff.1 found
  obtain ⟨⟨nanos, _⟩, fraction, found⟩ := Option.bind_eq_some_iff.1 found
  obtain ⟨⟨offset, _⟩, shift, found⟩ := Option.bind_eq_some_iff.1 found
  rw [Option.ite_none_right_eq_some] at found
  exact ⟨⟨year, month, day⟩, hour, minute, second, nanos, offset, ⟨_, _, fraction⟩, ⟨_, _, shift⟩, found.2⟩

/-- A timestamp that was read is shown at whole minutes from UTC, and a leap second in it follows
    second 59. -/
theorem whole_of_ofText? {cs : List Char} {t : Timestamp} (found : ofText? cs = some t) :
    t.offset % 60 = 0 ∧ (1000000000 ≤ t.nanos → (t.seconds + t.offset) % 60 = 59) := by
  obtain ⟨date, hour, minute, second, nanos, offset, ⟨_, _, fraction⟩, ⟨_, _, shift⟩, found⟩ := exists_ofLocal? found
  obtain ⟨⟨-, hours, minutes, seconds, -, -⟩, instant, total, same⟩ := ofLocal?_eq_some_iff.1 found
  have whole := offset?_mod shift
  have below := fraction?_lt fraction
  refine ⟨same ▸ whole, fun leap => ?_⟩
  by_cases sixty : second = 60
  · have one : leapOf second = 1 := if_pos sixty
    rw [one] at instant
    omega
  · have none : leapOf second = 0 := if_neg sixty
    rw [none] at total
    omega

/-! ## Timestamps that are bound -/

/-- A timestamp without its fraction of a second; a leap second stays one. -/
def inWholeSeconds (t : Timestamp) : Timestamp :=
  { t with
    nanos := t.nanos / 1000000000 * 1000000000
    nanos_lt := Nat.lt_of_le_of_lt (Nat.div_mul_le_self ..) t.nanos_lt }

theorem inWholeSeconds_sameInstant_iff {t : Timestamp} :
    t.inWholeSeconds.sameInstant t = true ↔ t.nanos % 1000000000 = 0 := by
  simp only [sameInstant, inWholeSeconds, BEq.rfl, Bool.true_and, beq_iff_eq]
  omega

theorem toList_format (t : Timestamp) : (Value.datetime t).format.toList = t.text := by
  rw [Value.format, format, String.toList_ofList]

section FourDigits

variable {t : Timestamp} (early : 0 ≤ t.localDate.year) (late : t.localDate.year ≤ 9999)

include early late

theorem ofText?_text_of_whole (whole : t.offset % 60 = 0)
    (leap : 1000000000 ≤ t.nanos → (t.seconds + t.offset) % 60 = 59) : ofText? t.text = some t.inWholeSeconds := by
  have bound := t.nanos_lt
  refine (ofText?_text_eq_some_iff early late).2 ⟨(shownOffset_eq_self_iff.2 whole).symm, ?_, ?_⟩
  · rw [carry, if_neg fun skipped => skipped.2 (leap skipped.1)]
    exact (Int.add_zero _).symm
  · show t.nanos / 1000000000 * 1000000000 = _
    split_ifs <;> omega

theorem sameInstant_reread :
    (∃ u, ofText? t.text = some u ∧ u.sameInstant t = true) ↔
      t.offset % 60 = 0 ∧ (t.nanos = 0 ∨ t.nanos = 1000000000 ∧ (t.seconds + t.offset) % 60 = 59) := by
  constructor
  · rintro ⟨u, read, same⟩
    obtain ⟨shift, seconds, nanos⟩ := (ofText?_text_eq_some_iff early late).1 read
    simp only [sameInstant, Bool.and_eq_true, beq_iff_eq] at same
    rw [← shownOffset_eq_self_iff]
    unfold carry at seconds
    split_ifs at seconds nanos <;> omega
  · rintro ⟨whole, nanos⟩
    have leap : 1000000000 ≤ t.nanos → (t.seconds + t.offset) % 60 = 59 := by omega
    exact ⟨_, ofText?_text_of_whole early late whole leap, inWholeSeconds_sameInstant_iff.2 (by omega)⟩

/-- The text that a timestamp is bound as, its local year having four digits, is read as the same
    instant if and only if the timestamp has no fraction of a second and is shown at whole minutes
    from UTC. One at whole minutes is read in whole seconds, so that a timestamp that was read is
    the same instant if and only if it has no fraction of a second. -/
theorem format_reread :
    ((∃ u, ofText? (Value.datetime t).format.toList = some u ∧ u.sameInstant t = true) ↔
      t.offset % 60 = 0 ∧ (t.nanos = 0 ∨ t.nanos = 1000000000 ∧ (t.seconds + t.offset) % 60 = 59)) ∧
    (t.offset % 60 = 0 → (1000000000 ≤ t.nanos → (t.seconds + t.offset) % 60 = 59) →
      ofText? (Value.datetime t).format.toList = some t.inWholeSeconds) ∧
    ∀ cs, ofText? cs = some t →
      ((∃ u, ofText? (Value.datetime t).format.toList = some u ∧ u.sameInstant t = true) ↔
        t.nanos % 1000000000 = 0) := by
  rw [toList_format]
  refine ⟨sameInstant_reread early late, ofText?_text_of_whole early late, fun cs read => ?_⟩
  obtain ⟨whole, leap⟩ := whole_of_ofText? read
  rw [ofText?_text_of_whole early late whole leap]
  constructor
  · rintro ⟨u, reread, same⟩
    cases reread
    exact inWholeSeconds_sameInstant_iff.1 same
  · exact fun none => ⟨_, rfl, inWholeSeconds_sameInstant_iff.2 none⟩

end FourDigits

/-- The numbers that make up a timestamp. -/
def parts (t : Timestamp) : Int × Nat × Int := (t.seconds, t.nanos, t.offset)

theorem parts_injective : Function.Injective parts := by
  rintro ⟨_, _, _, _, _⟩ ⟨_, _, _, _, _⟩ same
  cases same
  rfl

/-- The middle of a leap second at the end of 2016, two hours east of Greenwich. -/
def leapHalf : Timestamp := { seconds := 1483221599, nanos := 1500000000, offset := 7200 }

theorem format_reread_leapHalf :
    (0 ≤ leapHalf.localDate.year ∧ leapHalf.localDate.year ≤ 9999) ∧
    ofText? "2016-12-31T23:59:60.5+02:00".toList = some leapHalf ∧
    ofText? (Value.datetime leapHalf).format.toList = some leapHalf.inWholeSeconds ∧
    ¬ ∃ u, ofText? (Value.datetime leapHalf).format.toList = some u ∧ u.sameInstant leapHalf = true := by
  have early : 0 ≤ leapHalf.localDate.year := by decide +kernel
  have late : leapHalf.localDate.year ≤ 9999 := by decide +kernel
  have read : ofText? "2016-12-31T23:59:60.5+02:00".toList = some leapHalf :=
    Option.map_injective parts_injective (by decide +kernel)
  obtain ⟨-, inSeconds, wasRead⟩ := format_reread early late
  refine ⟨⟨early, late⟩, read, inSeconds (by decide) (by decide), ?_⟩
  rw [wasRead _ read]
  decide

/-- A timestamp with a fraction of a second, and one at half a minute from UTC, are bound as other
    instants. -/
theorem format_lossy :
    let half : Timestamp := { seconds := 0, nanos := 500000000, offset := 0 }
    let thirty : Timestamp := { seconds := 0, nanos := 0, offset := 30 }
    ofText? "1970-01-01T00:00:00.5Z".toList = some half ∧
    (Value.datetime half).format = "1970-01-01T00:00:00Z" ∧
    (Value.datetime thirty).format = "1970-01-01T00:00:30+00:01" ∧
    ∀ t ∈ [half, thirty], (0 ≤ t.localDate.year ∧ t.localDate.year ≤ 9999) ∧
      ¬ ∃ u, ofText? (Value.datetime t).format.toList = some u ∧ u.sameInstant t = true := by
  intro half thirty
  refine ⟨Option.map_injective parts_injective (by decide +kernel), by decide +kernel, by decide +kernel, ?_⟩
  intro t member
  have years : 0 ≤ t.localDate.year ∧ t.localDate.year ≤ 9999 := by
    revert t
    decide +kernel
  rw [toList_format, sameInstant_reread years.1 years.2]
  refine ⟨years, ?_⟩
  revert t
  decide

end GraphQuery.Timestamp
