/-!
# Targets of requests

A target names what a request is for: a path with a query and a fragment, or the same behind a
scheme and an authority. `Target.path` is the path alone, by which the service chooses the answer.
-/

namespace QueryPipeline.Target

/-- A character of a scheme. -/
def isSchemeChar (c : Char) : Bool :=
  c.isAlphanum || c == '+' || c == '-' || c == '.' || c == '~'

/-- A target without its query and its fragment. -/
def withoutQuery (target : List Char) : List Char :=
  target.takeWhile fun c => c != '?' && c != '#'

/-- A character of an authority, which ends where a path, a query or a fragment begins. -/
def isAuthorityChar (c : Char) : Bool :=
  c != '/' && c != '?' && c != '#'

/-- The authority of a target and all that follows, if a scheme stands before it. -/
def afterScheme? (target : List Char) : Option (List Char) :=
  match target.dropWhile isSchemeChar with
  | ':' :: '/' :: '/' :: rest => some rest
  | _ => none

/-- The path of a target. Behind an authority an empty path is the root; a target without a scheme
that does not begin with a slash has no path. -/
def path (target : String) : String :=
  match target.toList with
  | '/' :: rest => String.ofList (withoutQuery ('/' :: rest))
  | text =>
    match afterScheme? text with
    | none => ""
    | some rest =>
      match withoutQuery (rest.dropWhile isAuthorityChar) with
      | [] => "/"
      | path => String.ofList path

end QueryPipeline.Target
