/-!
# Days and times

Which dates and times of day exist.
-/

namespace SourceSurvey.Calendar

/-- A number lies between two others, both included. -/
def isWithin (n least most : Int) : Bool :=
  least ≤ n && n ≤ most

/-- How many days a month has. -/
def daysIn (year month : Int) : Int :=
  if month == 2 then
    if year % 4 == 0 && (year % 100 != 0 || year % 400 == 0) then 29 else 28
  else if month == 4 || month == 6 || month == 9 || month == 11 then 30
  else 31

/-- A year, a month and a day are a date. -/
def isDate (year month day : Int) : Bool :=
  isWithin year 1 9999 && isWithin month 1 12 && isWithin day 1 (daysIn year month)

/-- An hour, a minute and a second are a time of day. -/
def isTime (hour minute second : Int) : Bool :=
  isWithin hour 0 23 && isWithin minute 0 59 && isWithin second 0 59

end SourceSurvey.Calendar
