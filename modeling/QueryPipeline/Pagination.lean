import QueryPipeline.Text.Blank
import QueryPipeline.Text.Digits

/-!
# Pagination

A client asks for a page by number and size, both as texts. Pages count from one; page zero stands
for no page and skips nothing. What is no number, or a number out of range, counts as not given.
-/

namespace QueryPipeline

/-- A page and the number of records on it. -/
structure Pagination where
  page : Int64
  pageSize : Int64
deriving DecidableEq

/-- The greatest and the least number of 64 bits bound a number from above and below. -/
def saturate (n : Int) : Int64 :=
  Int64.ofInt (max (-0x8000000000000000) (min n 0x7fffffffffffffff))

namespace Pagination

/-- Reads a number of 64 bits between blanks. -/
def number? (text : Option String) : Option Int64 :=
  text.bind fun t => Text.int64? (Text.trimBlanks t.toList)

/-- The pagination of the texts of a request. -/
def ofTexts (page pageSize : Option String) (defaultPageSize : Int64) : Pagination where
  page := ((number? page).filter fun n => decide (0 ≤ n)).getD 0
  pageSize := ((number? pageSize).filter fun n => decide (0 < n)).getD defaultPageSize

/-- The number of records before the page, bounded by what 64 bits hold. -/
def skip (pagination : Pagination) : Int64 :=
  if pagination.page = 0 then 0
  else saturate ((pagination.page - 1).toInt * pagination.pageSize.toInt)

end Pagination

end QueryPipeline
