/-!
# Patterns that match a text literally

The store matches patterns, the client means plain text. `Pattern.escape` puts a backslash before
each character that a pattern would not take for itself.
-/

namespace QueryPipeline.Pattern

/-- The characters that have a meaning of their own in some pattern. -/
def metaChars : List Char :=
  ['\\', '.', '+', '*', '?', '(', ')', '|', '[', ']', '\x7b', '\x7d', '^', '$', '#', '&', '-', '~']

/-- One character as a pattern that matches it alone. -/
def escapeChar (c : Char) : List Char :=
  if c ∈ metaChars then ['\\', c] else [c]

/-- A text as a pattern that matches it alone. -/
def escape (text : List Char) : List Char :=
  text.flatMap escapeChar

/-- The pattern of texts that begin with the given one. -/
def beginning (text : String) : String :=
  String.ofList ('^' :: escape text.toList)

/-- The pattern of texts that end with the given one. -/
def ending (text : String) : String :=
  String.ofList (escape text.toList ++ ['$'])

/-- The pattern of texts that hold the given one. -/
def within (text : String) : String :=
  String.ofList (escape text.toList)

end QueryPipeline.Pattern
