import TenantQueue.Decimal.Digits

/-! Moments, and their text as date and time of day in UTC. -/
namespace TenantQueue
open Decimal

/-- Seconds since the start of 1970, and billionths of a second. A whole second more in the
billionths makes the moment part of a leap second. -/
structure Moment where
  seconds : Int
  nanos : Nat := 0
  deriving DecidableEq, Repr

structure Date where
  year : Int
  month : Nat
  day : Nat
  deriving DecidableEq, Repr

/-- The date so many days after the start of 1970. Years are counted from March, so that a leap day
ends its year, in periods of 400 years or 146097 days. -/
def Date.ofDays (days : Int) : Date :=
  let shifted := days + 719468
  let period := shifted / 146097
  let day := (shifted % 146097).toNat
  let year := (day - day / 1460 + day / 36524 - day / 146096) / 365
  let dayOfYear := day - (365 * year + year / 4 - year / 100)
  let month := (5 * dayOfYear + 2) / 153
  { year := period * 400 + year + if month < 10 then 0 else 1
    month := if month < 10 then month + 3 else month - 9
    day := dayOfYear - (153 * month + 2) / 5 + 1 }

namespace Moment

def yearText (year : Int) : List Char :=
  if year < 0 then '-' :: padded 4 year.natAbs
  else if 9999 < year then '+' :: padded 5 year.natAbs
  else padded 4 year.natAbs

def fractionText (nanos : Nat) : List Char :=
  if nanos = 0 then []
  else if nanos % 1000000 = 0 then '.' :: padded 3 (nanos / 1000000)
  else if nanos % 1000 = 0 then '.' :: padded 6 (nanos / 1000)
  else '.' :: padded 9 nanos

def text (m : Moment) : String :=
  let date := Date.ofDays (m.seconds / 86400)
  let second := (m.seconds % 86400).toNat
  let leap := m.nanos / 1000000000
  String.ofList (yearText date.year ++ '-' :: padded 2 date.month ++ '-' :: padded 2 date.day ++
    'T' :: padded 2 (second / 3600) ++ ':' :: padded 2 (second / 60 % 60) ++
    ':' :: padded 2 (second % 60 + leap) ++ fractionText (m.nanos % 1000000000) ++ ['Z'])

end Moment

end TenantQueue
