import WebClient.Cookie.Expiry
import WebClient.Proofs.FoldedSearch
import WebClient.Proofs.Weekday

/-!
# Expiry dates read back

A time that is written in one of the styles for expiry dates is read back as that time. The
style with a two-digit year is tried first; it stops behind the first two digits of a longer
year, where it finds no hour.
-/

set_option autoImplicit false

namespace WebClient

namespace Text

/-! ## Numbers of a fixed width -/

def lastDigits : Nat → Nat → Text
  | 0, _ => []
  | count + 1, value => lastDigits count (value / 10) ++ [Nat.digitChar (value % 10)]

theorem length_lastDigits (count value : Nat) : (lastDigits count value).length = count := by
  induction count generalizing value with
  | zero => rfl
  | succ count ih => rw [lastDigits, List.length_append, ih, List.length_singleton]

theorem digitChar_of_lt : ∀ digit < 10, (Nat.digitChar digit).isDigit = true ∧
    (Nat.digitChar digit).toNat - 48 = digit := by
  decide

theorem isDigit_digitChar_mod (value : Nat) : (Nat.digitChar (value % 10)).isDigit = true :=
  (digitChar_of_lt _ (Nat.mod_lt value (by decide))).1

theorem isDigit_of_mem_lastDigits {count value : Nat} {c : Char}
    (member : c ∈ lastDigits count value) : c.isDigit = true := by
  induction count generalizing value with
  | zero => cases member
  | succ count ih =>
    rw [lastDigits, List.mem_append, List.mem_singleton] at member
    rcases member with earlier | rfl
    · exact ih earlier
    · exact isDigit_digitChar_mod value

theorem isBlank_of_isDigit {c : Char} (digit : c.isDigit = true) : isBlank c = false := by
  simp only [Char.isDigit, Bool.and_eq_true, decide_eq_true_eq, UInt32.le_iff_toNat_le] at digit
  exact isBlank_of_printable (Nat.le_trans (by decide) digit.1) (Nat.le_trans digit.2 (by decide))

private theorem digitsValue_concat (digits : Text) (digit : Char) :
    digitsValue (digits ++ [digit]) = 10 * digitsValue digits + (digit.toNat - 48) := by
  rw [digitsValue, List.foldl_append]
  rfl

private theorem digitsValue_lastDigits (count value : Nat) :
    digitsValue (lastDigits count value) = value % 10 ^ count := by
  induction count generalizing value with
  | zero => rw [Nat.pow_zero, Nat.mod_one]; rfl
  | succ count ih =>
    have digit := (digitChar_of_lt _ (Nat.mod_lt value (by decide))).2
    rw [lastDigits, digitsValue_concat, ih, digit, Nat.pow_succ', Nat.mod_mul]
    omega

private theorem lastDigits_add (more count value : Nat) : lastDigits (more + count) value =
    lastDigits more (value / 10 ^ count) ++ lastDigits count value := by
  induction count generalizing value with
  | zero => simp [lastDigits]
  | succ count ih =>
    rw [← Nat.add_assoc, lastDigits, ih, lastDigits, List.append_assoc, Nat.div_div_eq_div_mul,
      Nat.pow_succ']

theorem exists_lastDigits_eq_cons {count : Nat} (nonzero : count ≠ 0) (value : Nat) :
    ∃ first others, lastDigits count value = first :: others ∧ first.isDigit = true := by
  have occupied : 0 < (lastDigits count value).length := by
    rw [length_lastDigits]
    exact Nat.pos_of_ne_zero nonzero
  obtain ⟨first, others, shape⟩ := List.exists_cons_of_length_pos occupied
  exact ⟨first, others, shape, isDigit_of_mem_lastDigits (shape ▸ List.mem_cons_self)⟩

theorem trimStart_lastDigits {count : Nat} (nonzero : count ≠ 0) (value : Nat) (rest : Text) :
    trimStart (lastDigits count value ++ rest) = lastDigits count value ++ rest := by
  obtain ⟨first, others, shape, digit⟩ := exists_lastDigits_eq_cons nonzero value
  rw [shape, List.cons_append, trimStart_cons (isBlank_of_isDigit digit)]

end Text

namespace Expiry

/-! ## Parts of a date -/

theorem digits?_lastDigits {count : Nat} (nonzero : count ≠ 0) (value : Nat) (rest : Text) :
    digits? count (Text.lastDigits count value ++ rest) = some (value % 10 ^ count, rest) := by
  have run : ((Text.lastDigits count value ++ rest).take count).takeWhile Char.isDigit =
      Text.lastDigits count value := by
    rw [List.take_left' (Text.length_lastDigits count value), List.takeWhile_eq_self_iff]
    exact fun c => Text.isDigit_of_mem_lastDigits
  have occupied : (Text.lastDigits count value).isEmpty = false := by
    rw [List.isEmpty_eq_false_iff, ← List.length_pos_iff, Text.length_lastDigits]
    exact Nat.pos_of_ne_zero nonzero
  simp only [digits?, run, occupied, Text.digitsValue_lastDigits, Text.length_lastDigits]
  rw [List.drop_left' (Text.length_lastDigits count value)]
  rfl

theorem twoDigits?_lastDigits (value : Nat) (rest : Text) :
    twoDigits? (Text.lastDigits 2 value ++ rest) = some (value % 100, rest) := by
  rw [twoDigits?, Text.trimStart_lastDigits two_ne_zero]
  exact digits?_lastDigits two_ne_zero value rest

private theorem year?_lastDigits (value : Nat) (rest : Text) :
    year? (Text.lastDigits 4 value ++ rest) = some (Int.ofNat (value % 10000), rest) := by
  have unsigned {sign : Char} (mark : sign.isDigit = false) (others : Text) :
      Text.lastDigits 4 value ++ rest ≠ sign :: others := by
    obtain ⟨first, digits, shape, digit⟩ := Text.exists_lastDigits_eq_cons four_ne_zero value
    rw [shape, List.cons_append]
    rintro ⟨⟩
    rw [digit] at mark
    cases mark
  unfold year?
  rw [Text.trimStart_lastDigits four_ne_zero]
  split
  · rename_i signed
    exact absurd signed (unsigned (by decide) _)
  · rename_i signed
    exact absurd signed (unsigned (by decide) _)
  · rw [digits?_lastDigits four_ne_zero]
    rfl

def Spells (names : List Text) (place : Nat) (written : Text) : Prop :=
  names[place]? = some (Text.lower written)

structure AreDistinct (names : List Text) (width : Nat) : Prop where
  nodup : names.Nodup
  length : ∀ name ∈ names, name.length = width
  solid : ∀ name ∈ names, ∀ c ∈ name, Text.isBlank c = false
  occupied : width ≠ 0

section

variable {names : List Text} {place width : Nat} {written : Text}

private theorem findSome?_zipIdx {name text rest : Text} (nodup : names.Nodup)
    (listed : names[place]? = some name) (found : Text.dropFolded? name text = some rest)
    (others : ∀ other ∈ names, other ≠ name → Text.dropFolded? other text = none) (start : Nat) :
    (names.zipIdx start).findSome? (fun (name, place) =>
      (Text.dropFolded? name text).map fun rest => (place, rest)) = some (start + place, rest) := by
  induction names generalizing place start with
  | nil => cases listed
  | cons first names ih =>
    rw [List.nodup_cons] at nodup
    rw [List.forall_mem_cons] at others
    rw [List.zipIdx_cons, List.findSome?_cons]
    cases place with
    | zero =>
      cases listed
      simp only [found, Option.map_some, Nat.add_zero]
    | succ place =>
      have inside : name ∈ names := List.mem_of_getElem? listed
      have different : first ≠ name := by
        rintro rfl
        exact nodup.1 inside
      simp only [others.1 different, Option.map_none]
      rw [ih nodup.2 listed others.2, Nat.add_right_comm, Nat.add_assoc]

theorem name?_append (distinct : AreDistinct names width) (spells : Spells names place written)
    (rest : Text) : name? names (written ++ rest) = some (place, rest) := by
  have found : Text.dropFolded? (Text.lower written) (written ++ rest) = some rest :=
    Text.dropFolded?_eq_some_iff.2 ⟨written, rfl, rfl⟩
  have length := distinct.length _ (List.mem_of_getElem? spells)
  have others : ∀ other ∈ names, other ≠ Text.lower written →
      Text.dropFolded? other (written ++ rest) = none := by
    intro other member different
    rw [Text.dropFolded?_eq_none_iff, Text.lower_append]
    intro begins
    have same := List.prefix_of_prefix_length_le begins (List.prefix_append _ _)
      (by rw [distinct.length other member, length])
    exact different (same.eq_of_length (by rw [distinct.length other member, length]))
  have first := findSome?_zipIdx distinct.nodup spells found others 0
  rwa [Nat.zero_add] at first

private theorem solid_of_spells (distinct : AreDistinct names width)
    (spells : Spells names place written) : ∀ c ∈ written, Text.isBlank c = false := by
  intro c member
  rw [← Text.isBlank_toLower]
  exact distinct.solid _ (List.mem_of_getElem? spells) _ (List.mem_map_of_mem member)

theorem exists_cons_of_spells (distinct : AreDistinct names width)
    (spells : Spells names place written) :
    ∃ first others, written = first :: others ∧ Text.isBlank first = false := by
  have length := distinct.length _ (List.mem_of_getElem? spells)
  rw [Text.length_lower] at length
  obtain ⟨first, others, rfl⟩ := List.exists_cons_of_length_pos
    (Nat.pos_of_ne_zero (length ▸ distinct.occupied))
  exact ⟨first, others, rfl, solid_of_spells distinct spells first (.head _)⟩

end

theorem solid_of_all {names : List Text}
    (solid : names.all (fun name => name.all fun c => !Text.isBlank c) = true) :
    ∀ name ∈ names, ∀ c ∈ name, Text.isBlank c = false := by
  simpa using solid

theorem areDistinct_weekdayNames : AreDistinct weekdayNames 3 :=
  ⟨by decide, by decide, solid_of_all (by decide), by decide⟩

theorem areDistinct_monthNames : AreDistinct monthNames 3 :=
  ⟨by decide, by decide, solid_of_all (by decide), by decide⟩

/-! ## Dates as they are written -/

inductive Style
  | short
  | dashed
  | spaced
  deriving DecidableEq, Repr

namespace Style

def mark : Style → Char
  | .short | .dashed => '-'
  | .spaced => ' '

def separator : Style → Part
  | .short | .dashed => .mark '-'
  | .spaced => .blank

def width : Style → Nat
  | .short => 2
  | .dashed | .spaced => 4

def yearPart : Style → Part
  | .short => .shortYear
  | .dashed | .spaced => .longYear

def Fits (year : Int) : Style → Prop
  | .short => 1970 ≤ year ∧ year ≤ 2069
  | .dashed | .spaced => 0 ≤ year ∧ year ≤ 9999

def pattern (style : Style) : List Part :=
  .weekday :: .mark ',' :: .blank :: .day :: style.separator :: .month :: style.separator ::
    style.yearPart :: .blank :: timeOfDay

private theorem width_ne_zero (style : Style) : style.width ≠ 0 := by
  cases style <;> decide

end Style

private theorem patterns_eq : patterns = [Style.short, .dashed, .spaced].map Style.pattern :=
  rfl

def clock (time : DateTime) : Text :=
  Text.lastDigits 2 time.hour ++ ':' ::
    (Text.lastDigits 2 time.minute ++ ':' :: Text.lastDigits 2 time.second)

/-- A time as it is written in a style, given the names of its weekday and of its month. -/
def written (style : Style) (weekday month : Text) (time : DateTime) : Text :=
  weekday ++ ',' :: ' ' :: (Text.lastDigits 2 time.date.day ++
    style.mark :: (month ++
    style.mark :: (Text.lastDigits style.width time.date.year.toNat ++ ' ' :: clock time)))

/-! ## Dates as they are read -/

section

variable {style : Style} {parts : List Part} {reading : Reading} {place : Nat} {name : Text}

theorem trimStart_blank (rest : Text) : Text.trimStart (' ' :: rest) = Text.trimStart rest :=
  rfl

private theorem trimStart_name (month : Spells monthNames place name) (rest : Text) :
    Text.trimStart (name ++ rest) = name ++ rest := by
  obtain ⟨first, others, rfl, solid⟩ := exists_cons_of_spells areDistinct_monthNames month
  rw [List.cons_append, Text.trimStart_cons solid]

theorem readAll?_opening (weekday : Spells weekdayNames place name) (day : Nat) (rest : Text) :
    readAll? (.weekday :: .mark ',' :: .blank :: .day :: parts) .blank
        (name ++ ',' :: ' ' :: (Text.lastDigits 2 day ++ rest)) =
      readAll? parts ⟨place, ⟨⟨0, 0, day % 100⟩, 0, 0, 0⟩⟩ rest := by
  simp only [readAll?, Part.read?, name?_append areDistinct_weekdayNames weekday, Option.map_some,
    if_true, trimStart_blank, Text.trimStart_lastDigits two_ne_zero, twoDigits?_lastDigits]
  rfl

private theorem readAll?_separator (style : Style) {rest : Text}
    (begun : Text.trimStart rest = rest) :
    readAll? (style.separator :: parts) reading (style.mark :: rest) =
      readAll? parts reading rest := by
  cases style with
  | short | dashed => rfl
  | spaced => exact congrArg (readAll? parts reading) begun

private theorem readAll?_month (month : Spells monthNames place name) (rest : Text) :
    readAll? (.month :: parts) reading (name ++ rest) =
      readAll? parts { reading with time.date.month := place + 1 } rest := by
  simp only [readAll?, Part.read?, name?_append areDistinct_monthNames month, Option.map_some]

private theorem readAll?_year {year : Int} (fits : style.Fits year) (rest : Text) :
    readAll? (style.yearPart :: parts) reading
        (Text.lastDigits style.width year.toNat ++ rest) =
      readAll? parts { reading with time.date.year := year } rest := by
  cases style with
  | short =>
    obtain ⟨low, high⟩ := fits
    have meant : fullYear (year.toNat % 100) = year := by
      unfold fullYear
      split <;> omega
    simp only [Style.yearPart, Style.width, readAll?, Part.read?, twoDigits?_lastDigits,
      Option.map_some, meant]
  | dashed | spaced =>
    obtain ⟨low, high⟩ := fits
    have meant : Int.ofNat (year.toNat % 10000) = year := by
      rw [Int.ofNat_eq_natCast]
      omega
    simp only [Style.yearPart, Style.width, readAll?, Part.read?, year?_lastDigits,
      Option.map_some, meant]

private theorem readAll?_clock {time : DateTime} (hour : time.hour ≤ 23) (minute : time.minute ≤ 59)
    (second : time.second ≤ 60) :
    readAll? (.blank :: timeOfDay) reading (' ' :: clock time) =
      some { reading with time := { time with date := reading.time.date } } := by
  have last (value : Nat) : twoDigits? (Text.lastDigits 2 value) = some (value % 100, []) := by
    simpa using twoDigits?_lastDigits value []
  simp only [clock, timeOfDay, readAll?, Part.read?, trimStart_blank,
    Text.trimStart_lastDigits two_ne_zero, twoDigits?_lastDigits, Option.map_some, if_true, last,
    List.isEmpty_nil, Nat.mod_eq_of_lt (Nat.lt_of_le_of_lt hour (by decide : 23 < 100)),
    Nat.mod_eq_of_lt (Nat.lt_of_le_of_lt minute (by decide : 59 < 100)),
    Nat.mod_eq_of_lt (Nat.lt_of_le_of_lt second (by decide : 60 < 100))]

end

private theorem readAll?_shortYear (reading : Reading) (year : Nat) (rest : Text) :
    readAll? (.shortYear :: .blank :: timeOfDay) reading
      (Text.lastDigits 4 year ++ ' ' :: rest) = none := by
  -- The second half of the year is read as the hour, and a blank comes where the colon should be.
  have different : (' ' = ':') = False := by decide
  rw [Text.lastDigits_add 2 2, List.append_assoc]
  simp only [timeOfDay, readAll?, Part.read?, twoDigits?_lastDigits, Option.map_some,
    Text.trimStart_lastDigits two_ne_zero, different, if_false]

section

variable {style other : Style} {day : Nat} {weekday month : Text} {time : DateTime}
  (weekdays : Spells weekdayNames day weekday)
  (months : Spells monthNames (time.date.month - 1) month)

include weekdays

/-- A pattern with dashes stops behind the day of a date without dashes. -/
theorem match?_of_spaced (dashed : other ≠ .spaced) :
    match? other.pattern (written .spaced weekday month time) = none := by
  have stuck : readAll? other.pattern .blank (written .spaced weekday month time) = none := by
    rw [Style.pattern, written, readAll?_opening weekdays]
    cases other with
    | short | dashed => rfl
    | spaced => exact absurd rfl dashed
  rw [match?, stuck]

include months

/-- Styles with the same marks differ in the year only. -/
theorem readAll?_toYear (same : style.mark = other.mark) :
    readAll? other.pattern .blank (written style weekday month time) =
      readAll? (other.yearPart :: .blank :: timeOfDay)
        ⟨day, ⟨⟨0, time.date.month - 1 + 1, time.date.day % 100⟩, 0, 0, 0⟩⟩
        (Text.lastDigits style.width time.date.year.toNat ++ ' ' :: clock time) := by
  rw [Style.pattern, written, same, readAll?_opening weekdays,
    readAll?_separator other (trimStart_name months _), readAll?_month months,
    readAll?_separator other (Text.trimStart_lastDigits style.width_ne_zero _ _)]

/-- The pattern with a two-digit year takes the first half of a longer one, and finds no hour
in the second half. -/
theorem match?_of_dashed :
    match? Style.short.pattern (written .dashed weekday month time) = none := by
  have same : Style.dashed.mark = Style.short.mark := rfl
  rw [match?, (readAll?_toYear weekdays months same).trans (readAll?_shortYear _ _ _)]

private theorem match?_written (valid : time.IsValid) (fits : style.Fits time.date.year)
    (falls : time.date.FallsOn day) :
    match? style.pattern (written style weekday month time) = some time := by
  have read : readAll? style.pattern .blank (written style weekday month time) =
      some ⟨day, time⟩ := by
    obtain ⟨⟨-, first, -, -, last⟩, hour, minute, second⟩ := valid
    have short := Date.daysInMonth_le time.date.year time.date.month
    rw [readAll?_toYear weekdays months rfl, readAll?_year fits, readAll?_clock hour minute second,
      Nat.sub_add_cancel first, Nat.mod_eq_of_lt (by omega)]
  rw [match?, read]
  exact if_pos ⟨valid, (Date.fallsOn_iff valid.1).1 falls⟩

end

/-! ## Zones and blanks around a date -/

def zones : List Text :=
  ["", " GMT", " UTC"].map String.toList

private theorem not_suffix_of_isDigit {inner zone : Text} {digit last : Char}
    (number : digit.isDigit = true) (letter : last.isDigit = false) :
    ¬ zone ++ [last] <:+ inner ++ [digit] := by
  rintro ⟨front, whole⟩
  rw [← List.append_assoc] at whole
  have same : [last] = [digit] := (List.append_inj' whole rfl).2
  rw [List.singleton_inj.1 same, number] at letter
  cases letter

/-- What ends with a digit has no zone. -/
theorem dropZone_of_isDigit {inner : Text} {digit : Char} (number : digit.isDigit = true) :
    dropZone (inner ++ [digit]) = inner ++ [digit] := by
  have gmt : ¬ "GM".toList ++ ['T'] <:+ inner ++ [digit] :=
    not_suffix_of_isDigit number (by decide)
  have utc : ¬ "UT".toList ++ ['C'] <:+ inner ++ [digit] :=
    not_suffix_of_isDigit number (by decide)
  refine if_neg ?_
  rw [Bool.or_eq_true, List.isSuffixOf_iff_suffix, List.isSuffixOf_iff_suffix]
  exact not_or.2 ⟨gmt, utc⟩

private theorem dropZone_append (text : Text) {zone : Text}
    (listed : zone ∈ ["GMT", "UTC"].map String.toList) : dropZone (text ++ zone) = text := by
  have length : zone.length = 3 := by
    revert zone
    decide
  have ends : ("GMT".toList.isSuffixOf (text ++ zone) || "UTC".toList.isSuffixOf (text ++ zone)) =
      true := by
    rw [Bool.or_eq_true, List.isSuffixOf_iff_suffix, List.isSuffixOf_iff_suffix]
    rcases List.mem_pair.1 listed with rfl | rfl
    · exact .inl (List.suffix_append _ _)
    · exact .inr (List.suffix_append _ _)
  rw [dropZone, if_pos ends, List.length_append, length, Nat.add_sub_cancel, List.take_left']
  rfl

section

variable {first digit : Char} {inner : Text} (begun : Text.isBlank first = false)
  (number : digit.isDigit = true)

include begun

private theorem trim_zoned {zone : Text} (listed : zone ∈ ["GMT", "UTC"].map String.toList) :
    Text.trim (dropZone (Text.trim (first :: (inner ++ ' ' :: zone)))) =
      Text.trim (first :: inner) := by
  have ended : Text.IsEnded zone :=
    Text.isEnded_of_solid (solid_of_all (by decide) zone listed)
  have occupied : zone ≠ [] := by
    rintro rfl
    exact absurd listed (by decide)
  have whole : Text.IsEnded (first :: (inner ++ ' ' :: zone)) :=
    (Text.isEnded_append_cons (first :: inner)).2
      (Text.isEnded_cons (fun empty => absurd empty occupied) ended)
  rw [Text.trim_eq_self begun whole, List.append_cons, ← List.cons_append, dropZone_append _ listed,
    ← List.cons_append, Text.trim_concat rfl]

include number

private theorem trim_unzoned :
    Text.trim (first :: (inner ++ [digit])) = first :: (inner ++ [digit]) := by
  have solid : Text.IsEnded [digit] := Text.isEnded_of_solid
    (List.forall_mem_singleton.2 (Text.isBlank_of_isDigit number))
  exact Text.trim_eq_self begun ((Text.isEnded_append_cons (first :: inner)).2 solid)

/-- Blanks around a date and a zone behind it are no part of it. -/
theorem trim_dropZone {front back zone : Text} (listed : zone ∈ zones)
    (blankFront : ∀ c ∈ front, Text.isBlank c = true)
    (blankBack : ∀ c ∈ back, Text.isBlank c = true) :
    Text.trim (dropZone (Text.trim (front ++ first :: (inner ++ [digit]) ++ zone ++ back))) =
      first :: (inner ++ [digit]) := by
  rw [Text.trim_append_of_blank blankBack, List.append_assoc, Text.trim_of_blank_append blankFront]
  obtain rfl | ⟨name, known, rfl⟩ :
      zone = [] ∨ ∃ name ∈ ["GMT", "UTC"].map String.toList, zone = ' ' :: name := by
    revert zone
    decide
  · rw [List.append_nil, trim_unzoned begun number, ← List.cons_append, dropZone_of_isDigit number,
      List.cons_append, trim_unzoned begun number]
  · rw [List.cons_append, trim_zoned begun known, trim_unzoned begun number]

end

/-! ## Round trip -/

private theorem exists_written_eq {day : Nat} {weekday : Text}
    (weekdays : Spells weekdayNames day weekday)
    (style : Style) (month : Text) (time : DateTime) : ∃ first inner digit,
    written style weekday month time = first :: (inner ++ [digit]) ∧
      Text.isBlank first = false ∧ digit.isDigit = true := by
  obtain ⟨first, others, rfl, solid⟩ := exists_cons_of_spells areDistinct_weekdayNames weekdays
  refine ⟨first, others ++ ',' :: ' ' :: (Text.lastDigits 2 time.date.day ++
    style.mark :: (month ++
    style.mark :: (Text.lastDigits style.width time.date.year.toNat ++ ' ' ::
    (Text.lastDigits 2 time.hour ++ ':' :: (Text.lastDigits 2 time.minute ++ ':' ::
    Text.lastDigits 1 (time.second / 10)))))), Nat.digitChar (time.second % 10), ?_, solid,
    Text.isDigit_digitChar_mod time.second⟩
  simp only [written, clock, List.append_assoc, List.cons_append]
  rfl

section

variable {style : Style} {day : Nat} {weekday month : Text} {time : DateTime}
  (weekdays : Spells weekdayNames day weekday)
  (months : Spells monthNames (time.date.month - 1) month)

include weekdays months

private theorem findSome?_written (valid : time.IsValid) (fits : style.Fits time.date.year)
    (falls : time.date.FallsOn day) :
    patterns.findSome? (match? · (written style weekday month time)) = some time := by
  have own : match? style.pattern (written style weekday month time) = some time :=
    match?_written weekdays months valid fits falls
  rw [patterns_eq, List.map_cons, List.map_cons, List.map_singleton, List.findSome?_cons]
  cases style with
  | short => rw [own]
  | dashed => rw [match?_of_dashed weekdays months, List.findSome?_cons, own]
  | spaced =>
    rw [match?_of_spaced weekdays (by decide), List.findSome?_cons,
      match?_of_spaced weekdays (by decide), List.findSome?_cons, own]

/-- A time that is written in one of the styles is read back, with any case of the names, with or
without a zone and with any blanks around it; the pattern that is tried first takes none of the
longer years. -/
theorem parse?_written (valid : time.IsValid) (fits : style.Fits time.date.year)
    (falls : time.date.FallsOn day) {front back zone : Text} (listed : zone ∈ zones)
    (blankFront : ∀ c ∈ front, Text.isBlank c = true)
    (blankBack : ∀ c ∈ back, Text.isBlank c = true) :
    parse? (front ++ written style weekday month time ++ zone ++ back) = some time ∧
      (style ≠ .short → ∀ pattern ∈ patterns.head?,
        match? pattern (written style weekday month time) = none) := by
  constructor
  · have cleaned : Text.trim (dropZone (Text.trim
        (front ++ written style weekday month time ++ zone ++ back))) =
          written style weekday month time := by
      obtain ⟨first, inner, digit, shape, begun, number⟩ :=
        exists_written_eq weekdays style month time
      rw [shape, trim_dropZone begun number listed blankFront blankBack]
    rw [parse?, cleaned]
    exact findSome?_written weekdays months valid fits falls
  · rintro long pattern ⟨⟩
    cases style with
    | short => exact absurd rfl long
    | dashed => exact match?_of_dashed weekdays months
    | spaced =>
      have dashed : Style.short ≠ .spaced := by decide
      exact match?_of_spaced weekdays dashed

end

theorem parse?_written_of_capitals :
    parse? " sAT, 05 JAN 2030 08:00:59 GMT\t".toList = some ⟨⟨2030, 1, 5⟩, 8, 0, 59⟩ := by
  have weekdays : Spells weekdayNames 6 "sAT".toList := rfl
  have months : Spells monthNames 0 "JAN".toList := rfl
  have fits : Style.Fits 2030 .spaced := ⟨by decide, by decide⟩
  have falls : Date.FallsOn ⟨2030, 1, 5⟩ 6 := (Date.fallsOn_iff (by decide)).2 rfl
  have read : parse? ([' '] ++ written .spaced "sAT".toList "JAN".toList ⟨⟨2030, 1, 5⟩, 8, 0, 59⟩ ++
      " GMT".toList ++ ['\t']) = some ⟨⟨2030, 1, 5⟩, 8, 0, 59⟩ :=
    (@parse?_written .spaced 6 "sAT".toList "JAN".toList ⟨⟨2030, 1, 5⟩, 8, 0, 59⟩ weekdays months
      (by decide) fits falls [' '] ['\t'] _ (by decide) (List.forall_mem_singleton.2 rfl)
      (List.forall_mem_singleton.2 rfl)).1
  exact read

end Expiry

end WebClient
