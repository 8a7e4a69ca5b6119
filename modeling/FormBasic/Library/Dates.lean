import FormBasic.Calendar.Format
import FormBasic.Error
import FormBasic.Text.Case

/-!
# Date functions

Moving dates by an interval, and writing them in a format.
-/

namespace FormBasic.Library

open Calendar

/-- A moment in a named format, or by format letters. -/
def formatDate (t : Moment) (format : String) : String :=
  match Text.lower format with
  | "" => t.format "01/02/2006 15:04:05"
  | "general date" => t.format "01/02/2006 15:04:05"
  | "short date" => t.format "1/2/2006"
  | "d" => t.format "1/2/2006"
  | "long date" => t.format "Monday, January 2, 2006"
  | "dddddd" => t.format "Monday, January 2, 2006"
  | "short time" => t.format "15:04"
  | "long time" => t.format "3:04:05 PM"
  | _ => t.format (String.ofList (sampleFrom 0 format.toList))

/-- Move by nanoseconds counted in a 64-bit word. -/
def addNanoseconds (t : Moment) (n : Int) : Moment :=
  let total := t.nanosecond + Int.bmod n (twoTo 64)
  { t.addSeconds (total.fdiv 1000000000) with nanosecond := (total.fmod 1000000000).toNat }

/-- Move a moment by so many intervals; `none` for an interval that is not known. -/
def addInterval? (interval : String) (n : Int) (t : Moment) : Option Moment :=
  match Text.lower interval with
  | "yyyy" => some (t.addDate n 0 0)
  | "q" => some (t.addDate 0 (3 * n) 0)
  | "m" => some (t.addDate 0 n 0)
  | "ww" => some (t.addDate 0 0 (7 * n))
  | "d" => some (t.addDate 0 0 n)
  | "y" => some (t.addDate 0 0 n)
  | "w" => some (t.addDate 0 0 n)
  | "h" => some (addNanoseconds t (n * 3600000000000))
  | "n" => some (addNanoseconds t (n * 60000000000))
  | "s" => some (addNanoseconds t (n * 1000000000))
  | _ => none

end FormBasic.Library
