import Smqueue.PduLayout
import Smqueue.Lib.Calendar

/-!
# Time stamps

A time stamp is written from the seconds of a time and read back to them. Here the parser and the writer
are put together with the conversions between the seconds and the calendar.
-/

namespace Smqueue

/-- `TimeType` -/
inductive TimeType
  | localTime
  | utcTime
deriving DecidableEq, Repr

/-! ## The conversions of the C library -/

/-- The calendar time with the given offset, and the years counted from 1900. -/
def Tm.ofCivil (c : Calendar.Civil) (gmtoff : Int) : Tm :=
  ⟨c.year - 1900, c.month, c.day, c.hour, c.minute, c.second, gmtoff⟩

/-- `gmtime_r`, for a time after the beginning of 1970 -/
def gmtime (seconds : Int) : Tm := .ofCivil (Calendar.ofSeconds seconds.toNat) 0

/-- `localtime_r`, where the local time is ahead by the given number of seconds -/
def localtime (gmtoff seconds : Int) : Tm :=
  .ofCivil (Calendar.ofSeconds (seconds + gmtoff).toNat) gmtoff

/-- `timegm`, which counts months beyond the year as months of later years and does not look at the
offset -/
def timegm (fields : Tm) : Int :=
  Calendar.Civil.seconds ⟨1900 + fields.year + fields.mon / 12, fields.mon % 12, fields.mday,
    fields.hour, fields.min, fields.sec⟩

example : gmtime 1344255612 = ⟨112, 7, 6, 12, 20, 12, 0⟩ := by decide +kernel

/-! ## Writing and reading -/

namespace L3TimeZoneAndTime

/-- The fields that `writeV` writes: in either case the zone is the local one. -/
def fieldsOf (mType : TimeType) (gmtoff seconds : Int) : Tm :=
  match mType with
  | .localTime => localtime gmtoff seconds
  | .utcTime => { gmtime seconds with gmtoff := gmtoff }

/-- `writeV` for the seconds of a time -/
def writeTime (mType : TimeType) (gmtoff seconds : Int) : Write Unit :=
  writeV (fieldsOf mType gmtoff seconds)

/-- `parseV` up to the seconds of the time -/
def parseTime (src : List Bool) : Read Int := do
  let fields ← parseV src
  return timegm fields

/-- The bits that are written for a time. -/
def written (mType : TimeType) (gmtoff seconds : Int) : List Bool :=
  (fieldsOf mType gmtoff seconds).bits

/-- What is found where a time was written, between anything in front of it and behind it. -/
def reread (mType : TimeType) (gmtoff seconds : Int) (pre rest : List Bool) :
    Except Fault (Int × Nat) :=
  parseTime (pre ++ written mType gmtoff seconds ++ rest) pre.length

end L3TimeZoneAndTime

end Smqueue
