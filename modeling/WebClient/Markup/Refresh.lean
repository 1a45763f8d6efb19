import WebClient.Markup

/-!
# Refresh tags

A page may ask to be replaced by another one with a tag such as
`<meta http-equiv="refresh" content="5; url=/next">`. The first such tag that
names a URL counts.
-/

set_option autoImplicit false

namespace WebClient.Markup

def trimQuotes (text : Text) : Text :=
  let isQuote (c : Char) : Bool := c == '\'' || c == '"'
  ((text.dropWhile isQuote).reverse.dropWhile isQuote).reverse

/-- The URL in the content of a refresh tag, what follows `url=`, if it is not empty. -/
def contentUrl? (content : Text) : Option Text :=
  match Text.cutFolded? "url=".toList content with
  | some (_, after) =>
    let url := trimQuotes (Text.trim after)
    if url.isEmpty then none else some url
  | none => none

def refreshUrl? (tag : Text) : Option Text :=
  match attribute? "http-equiv".toList tag with
  | some kind =>
    if Text.sameFolded kind "refresh".toList then
      (attribute? "content".toList tag).bind contentUrl?
    else none
  | none => none

/-- The tag in a segment that opens with `<meta`, without its `>`. -/
def metaTag? (segment : Text) : Option Text :=
  (Text.cutFolded? "<meta".toList segment).map fun (before, _) => segment.drop before.length

/-- The URL of the first refresh tag that has one. A tag at the end of the text
need not be closed. -/
def refresh? (text : Text) : Option Text :=
  let (closed, tail) := segments text
  (closed ++ [tail]).findSome? fun segment => (metaTag? segment).bind refreshUrl?

end WebClient.Markup
