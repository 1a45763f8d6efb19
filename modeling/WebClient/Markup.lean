import WebClient.Text.Blank
import WebClient.Text.Cut
import WebClient.Text.Fold

/-!
# Markup

Just enough markup is understood to find a few tags and their attributes. Every
`>` ends a tag wherever it stands, so a document is a list of segments that each
end with a `>`, and a tail without one.
-/

set_option autoImplicit false

namespace WebClient.Markup

/-- How many characters the test for markup looks at, blanks not counted. -/
def sampleSize : Nat := 50

def isMarkupChar (c : Char) : Bool :=
  c.isAlphanum || "/'\"=<>-!:.;?,".toList.contains c

/-- Whether a text is taken for markup: after blanks it opens with `<`, and its
first characters that are not blank are letters, digits or markup punctuation. -/
def isMarkup (text : Text) : Bool :=
  match Text.trimStart text with
  | '<' :: rest =>
    (('<' :: rest).filter (fun c => !Text.isBlank c)).take sampleSize |>.all isMarkupChar
  | _ => false

/-- The segments of a document, each without its `>`, and the tail. -/
def segments : Text → List Text × Text
  | [] => ([], [])
  | '>' :: rest =>
    let (closed, tail) := segments rest
    ([] :: closed, tail)
  | c :: rest =>
    match segments rest with
    | (first :: closed, tail) => ((c :: first) :: closed, tail)
    | ([], tail) => ([], c :: tail)

/-- The value at the start of a text: up to the closing quote if it is quoted,
else up to a blank or a `>`. -/
def attributeValue (text : Text) : Text :=
  match Text.trimStart text with
  | '"' :: rest => Text.before '"' rest
  | '\'' :: rest => Text.before '\'' rest
  | bare => bare.takeWhile fun c => !(Text.isBlank c || c == '>')

/-- The value that follows a name, if an `=` comes between, perhaps among blanks. -/
def valueAfter? (text : Text) : Option Text :=
  match Text.trimStart text with
  | '=' :: rest => some (attributeValue rest)
  | _ => none

/-- The value of an attribute of a tag. The name, given in small letters, is
looked for in any ASCII case, at the beginning and after every blank; the first
place where an `=` follows counts. -/
def attributeFrom? (name : Text) (atBoundary : Bool) : Text → Option Text
  | [] => none
  | c :: rest =>
    let here :=
      if atBoundary then (Text.dropFolded? name (c :: rest)).bind valueAfter? else none
    match here with
    | some value => some value
    | none => attributeFrom? name (Text.isBlank c) rest

def attribute? (name tag : Text) : Option Text :=
  attributeFrom? name true tag

theorem segments_flatten (text : Text) :
    ((segments text).1.flatMap fun segment => segment ++ ['>']) ++ (segments text).2 = text := by
  fun_induction segments text with
  | case1 => rfl
  | case2 rest closed tail found ih => simpa [found] using ih
  | case3 c rest plain first closed tail found ih => simpa [found] using ih
  | case4 c rest plain tail found ih => simpa [found] using ih

end WebClient.Markup
