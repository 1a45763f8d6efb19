import WebClient.Feed
import WebClient.Text.Cut

/-!
# Multipart forms

A form with several parts is sent with a boundary between them that occurs in
none of the values. The boundary is a fixed beginning and sixteen random letters
or digits; a boundary that occurs in a value is drawn again as a whole. Random
numbers come from a list, of which the unused rest is handed back.
-/

set_option autoImplicit false

namespace WebClient.Multipart

abbrev Draws := List UInt32

inductive Value
  | text (text : Text)
  | binary (bytes : Bytes)
  deriving DecidableEq, Repr

def Value.bytes : Value → Bytes
  | .text content => content.utf8
  | .binary data => data

abbrev Parts := List (Text × Value)

/-- Content types by part name, and file names under the part name followed by
`_filename`. Of several entries with one name the last counts. -/
abbrev Types := List (Text × Text)

def type? (types : Types) (name : Text) : Option Text :=
  (types.reverse.find? fun (key, _) => key == name).map Prod.snd

def marker : Text := "----SondaFormBoundary".toList

def tokenLength : Nat := 16

def alphabet : Text :=
  "ABCDEFGHIJKLMNOPQRSTUVWXYZabcdefghijklmnopqrstuvwxyz0123456789".toList

/-- The character a random number stands for: its six highest bits choose one of
the alphabet. Numbers that choose none stand for nothing. -/
def drawn? (number : UInt32) : Option Char :=
  alphabet[(number >>> 26).toNat]?

def drawToken? : Nat → Draws → Option (Text × Draws)
  | 0, draws => some ([], draws)
  | _ + 1, [] => none
  | count + 1, number :: draws =>
    match drawn? number with
    | some c => (drawToken? count draws).map fun (token, rest) => (c :: token, rest)
    | none => drawToken? (count + 1) draws

def collides (parts : Parts) (boundary : Text) : Bool :=
  parts.any fun (_, value) => Text.occurs boundary.utf8 value.bytes

theorem length_of_drawToken? {count : Nat} {draws rest : Draws} {token : Text}
    (drawn : drawToken? count draws = some (token, rest)) :
    rest.length + count ≤ draws.length := by
  fun_induction drawToken? count draws generalizing token rest with
  | case1 draws => simp at drawn; simp [drawn]
  | case2 => simp at drawn
  | case3 count number draws c found ih =>
    simp only [Option.map_eq_some_iff] at drawn
    obtain ⟨⟨token', rest'⟩, inner, joined⟩ := drawn
    obtain ⟨rfl, rfl⟩ := Prod.mk.inj joined
    have step := ih inner
    simp; omega
  | case4 count number draws found ih =>
    have step := ih drawn
    simp; omega

/-- Draws boundaries until one does not occur in any value. There is none if the
numbers run out before. -/
def boundary? (parts : Parts) (draws : Draws) : Option (Text × Draws) :=
  match _drawn : drawToken? tokenLength draws with
  | none => none
  | some (token, rest) =>
    if collides parts (marker ++ token) then boundary? parts rest
    else some (marker ++ token, rest)
termination_by draws.length
decreasing_by
  have shorter := length_of_drawToken? _drawn
  simp only [tokenLength] at shorter
  omega

def lineEnd : Text := ['\r', '\n']

/-- The lines in front of a part's value, with the blank one. -/
def partHead (types : Types) (name : Text) : Text :=
  "Content-Disposition: form-data; name=\"".toList ++ name ++ ['"']
    ++ (match type? types (name ++ "_filename".toList) with
      | some file => "; filename=\"".toList ++ file ++ ['"']
      | none => [])
    ++ lineEnd
    ++ (match type? types name with
      | some type => "Content-Type: ".toList ++ type ++ lineEnd
      | none => [])
    ++ lineEnd

/-- What follows a value: a line end, unless the value ends with a line feed. -/
def closing (value : Bytes) : Bytes :=
  if value.getLast? = some 10 then [] else lineEnd.utf8

def partBytes (boundary : Text) (types : Types) (name : Text) (value : Value) : Bytes :=
  Text.utf8 ("--".toList ++ boundary ++ lineEnd ++ partHead types name)
    ++ value.bytes ++ closing value.bytes

def body (boundary : Text) (types : Types) (parts : Parts) : Bytes :=
  (parts.flatMap fun (name, value) => partBytes boundary types name value)
    ++ Text.utf8 ("--".toList ++ boundary ++ "--".toList ++ lineEnd)

structure Encoded where
  boundary : Text
  body : Bytes
  deriving DecidableEq, Repr

def Encoded.contentType (encoded : Encoded) : Text :=
  "multipart/form-data; boundary=".toList ++ encoded.boundary

def encode? (parts : Parts) (types : Types) (draws : Draws) : Option (Encoded × Draws) :=
  (boundary? parts draws).map fun (boundary, rest) =>
    (⟨boundary, body boundary types parts⟩, rest)

end WebClient.Multipart
