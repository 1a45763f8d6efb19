import WebClient.Calendar
import WebClient.Text.Blank
import WebClient.Text.Decimal
import WebClient.Text.Fold

/-!
# Expiry dates

An expiry date is written in one of three patterns, which are tried in order; a
`GMT` or `UTC` at the end is ignored and every date is UTC. A blank in a pattern
stands for any run of blanks, also an empty one, and a number may have blanks in
front of it. The weekday has to be the date's own.
-/

set_option autoImplicit false

namespace WebClient.Expiry

inductive Part
  | weekday
  | day
  | month
  | shortYear
  | longYear
  | hour
  | minute
  | second
  | blank
  | mark (c : Char)
  deriving DecidableEq, Repr

def timeOfDay : List Part :=
  [.hour, .mark ':', .minute, .mark ':', .second]

/-- The patterns in the order they are tried. The one with a two-digit year comes
first, since four digits are also allowed to be two. -/
def patterns : List (List Part) :=
  [ [.weekday, .mark ',', .blank, .day, .mark '-', .month, .mark '-', .shortYear, .blank]
      ++ timeOfDay,
    [.weekday, .mark ',', .blank, .day, .mark '-', .month, .mark '-', .longYear, .blank]
      ++ timeOfDay,
    [.weekday, .mark ',', .blank, .day, .blank, .month, .blank, .longYear, .blank]
      ++ timeOfDay ]

def weekdayNames : List Text :=
  ["sun", "mon", "tue", "wed", "thu", "fri", "sat"].map String.toList

def monthNames : List Text :=
  ["jan", "feb", "mar", "apr", "may", "jun", "jul", "aug", "sep", "oct", "nov", "dec"].map
    String.toList

structure Reading where
  weekday : Nat
  time : DateTime
  deriving DecidableEq, Repr

def Reading.blank : Reading :=
  ⟨0, ⟨⟨0, 0, 0⟩, 0, 0, 0⟩⟩

def name? (names : List Text) (text : Text) : Option (Nat × Text) :=
  names.zipIdx.findSome? fun (name, place) =>
    (Text.dropFolded? name text).map fun rest => (place, rest)

/-- The number written by the digits in front, at most `most` of them and at
least one. -/
def digits? (most : Nat) (text : Text) : Option (Nat × Text) :=
  let run := (text.take most).takeWhile Char.isDigit
  if run.isEmpty then none else some (Text.digitsValue run, text.drop run.length)

def twoDigits? (text : Text) : Option (Nat × Text) :=
  digits? 2 (Text.trimStart text)

/-- A year of one to four digits, or of any number of digits after a sign. -/
def year? (text : Text) : Option (Int × Text) :=
  match Text.trimStart text with
  | '+' :: rest => (digits? rest.length rest).map fun (year, rest) => (Int.ofNat year, rest)
  | '-' :: rest => (digits? rest.length rest).map fun (year, rest) => (-Int.ofNat year, rest)
  | text => (digits? 4 text).map fun (year, rest) => (Int.ofNat year, rest)

def fullYear (short : Nat) : Int :=
  if short < 70 then 2000 + short else 1900 + short

def Part.read? (part : Part) (reading : Reading) (text : Text) : Option (Reading × Text) :=
  match part with
  | .weekday => (name? weekdayNames text).map fun (place, rest) =>
    ({ reading with weekday := place }, rest)
  | .day => (twoDigits? text).map fun (count, rest) =>
    ({ reading with time.date.day := count }, rest)
  | .month => (name? monthNames text).map fun (place, rest) =>
    ({ reading with time.date.month := place + 1 }, rest)
  | .shortYear => (twoDigits? text).map fun (short, rest) =>
    ({ reading with time.date.year := fullYear short }, rest)
  | .longYear => (year? text).map fun (year, rest) =>
    ({ reading with time.date.year := year }, rest)
  | .hour => (twoDigits? text).map fun (count, rest) =>
    ({ reading with time.hour := count }, rest)
  | .minute => (twoDigits? text).map fun (count, rest) =>
    ({ reading with time.minute := count }, rest)
  | .second => (twoDigits? text).map fun (count, rest) =>
    ({ reading with time.second := count }, rest)
  | .blank => some (reading, Text.trimStart text)
  | .mark c =>
    match text with
    | [] => none
    | first :: rest => if first = c then some (reading, rest) else none

def readAll? : List Part → Reading → Text → Option Reading
  | [], reading, text => if text.isEmpty then some reading else none
  | part :: parts, reading, text =>
    match part.read? reading text with
    | some (reading, rest) => readAll? parts reading rest
    | none => none

def match? (pattern : List Part) (text : Text) : Option DateTime :=
  match readAll? pattern .blank text with
  | some reading =>
    if reading.time.IsValid ∧ reading.time.date.weekday = reading.weekday then some reading.time
    else none
  | none => none

def dropZone (text : Text) : Text :=
  if "GMT".toList.isSuffixOf text || "UTC".toList.isSuffixOf text then
    text.take (text.length - 3)
  else text

def parse? (text : Text) : Option DateTime :=
  let text := Text.trim (dropZone (Text.trim text))
  patterns.findSome? fun pattern => match? pattern text

end WebClient.Expiry
