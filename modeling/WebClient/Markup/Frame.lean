import WebClient.Markup

/-!
# Frames

A document may show other documents in frames. Each frame tag with a source is
found together with the place where it ends, and the documents fetched for the
frames are put in at these places.
-/

set_option autoImplicit false

namespace WebClient.Markup

structure Frame where
  /-- Where the tag ends, in UTF-8 bytes from the beginning of the text. -/
  tagEnd : Nat
  source : Text
  deriving DecidableEq, Repr

/-- Whether a text opens with the name of a frame tag, and the name ends there. -/
def opensFrame (text : Text) : Bool :=
  let closes : Option Text → Bool
    | some (c :: _) => Text.isBlank c || c == '/' || c == '>'
    | _ => false
  closes (Text.dropFolded? "<frame".toList text) || closes (Text.dropFolded? "<iframe".toList text)

def frameTag? : Text → Option Text
  | [] => none
  | c :: rest => if opensFrame (c :: rest) then some (c :: rest) else frameTag? rest

def frameSource? (tag : Text) : Option Text :=
  match attribute? "src".toList tag with
  | some value =>
    let source := Text.trim value
    if source.isEmpty then none else some source
  | none => none

/-- The frames of closed segments; `start` is where the first of them begins. -/
def framesFrom (start : Nat) : List Text → List Frame
  | [] => []
  | segment :: rest =>
    let closed := segment ++ ['>']
    let tagEnd := start + Text.byteLength closed
    match (frameTag? closed).bind frameSource? with
    | some source => ⟨tagEnd, source⟩ :: framesFrom tagEnd rest
    | none => framesFrom tagEnd rest

def frames (text : Text) : List Frame :=
  framesFrom 0 (segments text).1

structure Inset where
  frame : Frame
  url : Text
  content : Text
  deriving DecidableEq, Repr

/-- What is put in for a frame: the content, between comments that name the URL. -/
def Inset.text (inset : Inset) : Text :=
  "<!-- begin frame: ".toList ++ inset.url ++ " -->".toList ++ inset.content
    ++ "<!-- end frame: ".toList ++ inset.url ++ " -->".toList

/-- Puts insets in after their tags; `start` is where the rest of the text begins. -/
def spliceFrom (start : Nat) (text : Text) : List Inset → Text
  | [] => text
  | inset :: rest =>
    let (before, after) := Text.splitAtByte (inset.frame.tagEnd - start) text
    before ++ inset.text ++ spliceFrom inset.frame.tagEnd after rest

/-- The document with an inset after each of the frames, which come in order. -/
def splice (text : Text) (insets : List Inset) : Text :=
  spliceFrom 0 text insets

end WebClient.Markup
