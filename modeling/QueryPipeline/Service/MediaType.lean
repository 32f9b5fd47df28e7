/-!
# Media types

The service takes bodies whose media type is JSON: `application/json`, or a type of `application`
with the suffix `json`, with any parameters. A text that is no media type is not JSON either.
-/

namespace QueryPipeline.MediaType

/-- A character that a token of a media type may hold. -/
def isTokenChar (c : Char) : Bool :=
  c.isAlphanum || "!#$%&'*+-.^_`|~".toList.contains c

/-- A character that may stand between quotes. -/
def isQuotedChar (c : Char) : Bool :=
  31 < c.toNat && c.toNat < 127

/-- Drops the spaces between a quoted value and the next parameter. -/
def afterQuoted (text : List Char) : Option (List Char) :=
  match text.dropWhile (· == ' ') with
  | [] => some []
  | ';' :: rest => some rest
  | _ => none

/-- Reads the rest of a quoted value, of which `isEmpty` says that nothing was read yet. There are
no escapes: the value ends with the first quote that has something in front of it. -/
def quotedValue? (isEmpty : Bool) : List Char → Option (List Char)
  | [] => none
  | '"' :: rest => if isEmpty then quotedValue? false rest else afterQuoted rest
  | c :: rest => if isQuotedChar c then quotedValue? false rest else none

/-- Reads the value of a parameter and gives the text of the next one. -/
def value? : List Char → Option (List Char)
  | '"' :: rest => quotedValue? true rest
  | text =>
    match text.dropWhile isTokenChar with
    | [] => some []
    | ';' :: rest => if (text.takeWhile isTokenChar).isEmpty then none else some rest
    | _ => none

/-- Reads one parameter, or nothing but spaces, and gives the text of the next one. -/
def parameter? (text : List Char) : Option (List Char) :=
  let text := text.dropWhile (· == ' ')
  match text.takeWhile isTokenChar, text.dropWhile isTokenChar with
  | [], [] => some []
  | _ :: _, '=' :: rest => value? rest
  | _, _ => none

/-- The text holds parameters only, in the given number of steps at most. -/
def areParameters : Nat → List Char → Bool
  | _, [] => true
  | 0, _ => false
  | steps + 1, text =>
    match parameter? text with
    | some rest => areParameters steps rest
    | none => false

/-- The part after the last plus sign, and the part before it; a plus sign in front counts for
nothing. -/
def splitSuffix (subtype : List Char) : List Char × Option (List Char) :=
  let after := (subtype.reverse.takeWhile (· != '+')).reverse
  let before := (subtype.reverse.dropWhile (· != '+')).reverse.dropLast
  if before.isEmpty then (subtype, none) else (before, some after)

/-- The text is a media type of JSON. -/
def isJson (text : String) : Bool :=
  let lower := text.toList.map Char.toLower
  let kind := lower.takeWhile (· != '/')
  let rest := (lower.dropWhile (· != '/')).drop 1
  let subtype := rest.takeWhile (· != ';')
  let parameters := (rest.dropWhile (· != ';')).drop 1
  let (name, suffix) := splitSuffix subtype
  kind == "application".toList && !subtype.isEmpty && subtype.all isTokenChar &&
    (name == "json".toList || suffix == some "json".toList) &&
    areParameters (parameters.length + 1) parameters

end QueryPipeline.MediaType
