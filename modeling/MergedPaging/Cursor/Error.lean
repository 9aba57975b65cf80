/-
What can be wrong with a continuation that a client sends.  Every such error carries
the text that was sent and the cause; each is the client's fault.
-/
import MergedPaging.Decimal.Reader
import MergedPaging.Text.Numeral

namespace MergedPaging

/-- Why the text of one source's cursor cannot be read. -/
inductive CursorFault where
  | dateKey (fault : Text.NumeralFault)
  | dateOutOfRange
  | priceKey (fault : Decimal.Fault)
  /-- A fault that a source reports in words of its own. -/
  | reported (reason : String)
  deriving DecidableEq

def CursorFault.message : CursorFault → String
  | dateKey fault => "date key: " ++ fault.message
  | dateOutOfRange => "date out of range"
  | priceKey fault => "price key: " ++ fault.message
  | reported reason => reason

/-- Why the text of a combined continuation cannot be read. -/
inductive BookmarkFault where
  | missingColon (piece : String)
  | emptySource (piece : String)
  | emptyCursor (source : String)
  /-- A fault that a source reports in words of its own. -/
  | reported (reason : String)
  deriving DecidableEq

def BookmarkFault.message : BookmarkFault → String
  | missingColon piece => s!"missing ':' in '{piece}'"
  | emptySource piece => s!"empty source id in '{piece}'"
  | emptyCursor source => s!"empty cursor for source '{source}'"
  | reported reason => reason

/-- A continuation that cannot be read. -/
inductive CursorError where
  | malformed (input : String) (fault : CursorFault)
  | malformedCombined (input : String) (fault : BookmarkFault)
  deriving DecidableEq

def CursorError.message : CursorError → String
  | malformed input fault => "malformed continuation '" ++ input ++ "': " ++ fault.message
  | malformedCombined input fault =>
    "malformed combined continuation '" ++ input ++ "': " ++ fault.message

end MergedPaging
