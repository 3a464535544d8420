import Mathlib.Data.Int.Notation
import Mathlib.Data.List.Basic

/-!
# Reading timestamps

`fromIsoFormat` is `datetime.fromisoformat` of version 3.11: dates by month or by ISO week, with
or without hyphens, any one character before the time, times with or without colons, a fraction
cut to microseconds, and an offset. It reads the UTF-8 bytes of the text as the interpreter
does, a byte past the end being zero, and so accepts what the interpreter accepts beyond ISO
8601. The result is the wall time in microseconds since the first day of year 1 and the offset
of the wall time, if the text has one.
-/

namespace Python

/-- A `datetime`: the wall time, and how far it is ahead of UTC. -/
structure DateTime where
  wall : ℤ
  offset : Option ℤ
deriving DecidableEq

namespace DateTime

/-- The instant that a time with an offset denotes. -/
def instant? (t : DateTime) : Option ℤ :=
  t.offset.map fun offset => t.wall - offset

/-- `datetime.min`. -/
def min : DateTime where
  wall := 0
  offset := none

/-- `t.replace(tzinfo=None)`. -/
def naive (t : DateTime) : DateTime where
  wall := t.wall
  offset := none

end DateTime

/-! ### The calendar -/

def isLeap (year : ℕ) : Bool :=
  year % 4 = 0 && (year % 100 != 0 || year % 400 = 0)

def daysInMonth (year month : ℕ) : ℕ :=
  if month = 2 && isLeap year then 29
  else [0, 31, 28, 31, 30, 31, 30, 31, 31, 30, 31, 30, 31].getD month 0

def daysBeforeMonth (year month : ℕ) : ℕ :=
  [0, 0, 31, 59, 90, 120, 151, 181, 212, 243, 273, 304, 334].getD month 0
    + (if 2 < month && isLeap year then 1 else 0)

/-- The number of a day, the first day of year 1 being 1. -/
def ymdToOrd (year month day : ℕ) : ℕ :=
  (year - 1) * 365 + (year - 1) / 4 - (year - 1) / 100 + (year - 1) / 400
    + daysBeforeMonth year month + day

/-- The number of the last day of year 9999. -/
def maxOrdinal : ℕ := 3652059

/-- The Monday of the first ISO week of a year. -/
def isoWeek1Monday (year : ℕ) : ℕ :=
  let firstDay := ymdToOrd year 1 1
  let firstWeekday := (firstDay + 6) % 7
  if 3 < firstWeekday then firstDay - firstWeekday + 7 else firstDay - firstWeekday

/-- Whether a year has 53 ISO weeks. -/
def hasWeek53 (year : ℕ) : Bool :=
  let firstWeekday := (ymdToOrd year 1 1 + 6) % 7
  firstWeekday = 3 || (firstWeekday = 2 && isLeap year)

/-! ### Bytes -/

/-- The UTF-8 bytes of a text. -/
def utf8 (text : String) : List ℕ :=
  (text.toList.flatMap String.utf8EncodeChar).map UInt8.toNat

/-- The byte `i` places ahead. -/
def byteAt (bytes : List ℕ) (i : ℕ) : ℕ :=
  bytes.getD i 0

def isAsciiDigit (byte : ℕ) : Bool :=
  48 ≤ byte && byte ≤ 57

/-- `parse_digits`: the value of the next `count` digits after `value`, and the bytes after
them. -/
def parseDigits : ℕ → ℕ → List ℕ → Option (ℕ × List ℕ)
  | 0, value, bytes => some (value, bytes)
  | count + 1, value, byte :: bytes =>
      if isAsciiDigit byte then parseDigits count (value * 10 + (byte - 48)) bytes else none
  | _ + 1, _, [] => none

/-! ### Dates -/

/-- `iso_to_ymd`, as the number of the day. -/
def isoToOrd (year week day : ℕ) : Option ℕ :=
  if year < 1 then none
  else if (week < 1 || 53 ≤ week) && !(week = 53 && hasWeek53 year) then none
  else if day < 1 || 8 ≤ day then none
  else
    let ordinal := isoWeek1Monday year + (week - 1) * 7 + (day - 1)
    if ordinal ≤ maxOrdinal then some ordinal else none

/-- The day of a month of a year. -/
def ymdToOrd? (year month day : ℕ) : Option ℕ :=
  if 1 ≤ year && 1 ≤ month && month ≤ 12 && 1 ≤ day && day ≤ daysInMonth year month then
    some (ymdToOrd year month day)
  else none

/-- A hyphen, where the date uses hyphens. -/
def expectHyphen (usesSeparator : Bool) (bytes : List ℕ) : Option (List ℕ) :=
  if !usesSeparator then some bytes
  else if byteAt bytes 0 = 45 then some bytes.tail else none

/-- `parse_isoformat_date`, as the number of the day. -/
def parseIsoDate (bytes : List ℕ) (len : ℕ) : Option ℕ := do
  let (year, rest) ← parseDigits 4 0 bytes
  let usesSeparator := byteAt rest 0 = 45
  let rest := if usesSeparator then rest.tail else rest
  if byteAt rest 0 = 87 then
    let (week, rest) ← parseDigits 2 0 rest.tail
    if bytes.length - rest.length < len then
      let rest ← expectHyphen usesSeparator rest
      let (day, _) ← parseDigits 1 0 rest
      isoToOrd year week day
    else isoToOrd year week 1
  else
    let (month, rest) ← parseDigits 2 0 rest
    let rest ← expectHyphen usesSeparator rest
    let (day, _) ← parseDigits 2 0 rest
    ymdToOrd? year month day

/-- `_find_isoformat_datetime_separator`. -/
def findSeparator (bytes : List ℕ) : Option ℕ :=
  let len := bytes.length
  if len = 7 then some 7
  else if byteAt bytes 4 = 45 then
    if byteAt bytes 5 = 87 then
      if 8 < len && byteAt bytes 8 = 45 then
        if len = 9 then none
        else if 10 < len && isAsciiDigit (byteAt bytes 10) then some 8
        else some 10
      else some 8
    else some 10
  else if byteAt bytes 4 = 87 then
    let pos := 7 + ((bytes.drop 7).takeWhile isAsciiDigit).length
    if pos < 9 then some pos
    else if pos % 2 = 0 then some 7 else some 8
  else some 8

/-! ### Times -/

/-- A time of day as read: its fields, and whether bytes are left after it. -/
structure Clock where
  hour : ℕ
  minute : ℕ
  second : ℕ
  microsecond : ℕ
  more : Bool

/-- A clock of the fields that were read, the others being zero. -/
def Clock.ofFields (fields : List ℕ) (microsecond : ℕ) (more : Bool) : Clock where
  hour := fields.getD 0 0
  minute := fields.getD 1 0
  second := fields.getD 2 0
  microsecond := microsecond
  more := more

/-- The fraction of a second in the next `room` bytes. -/
def parseFraction (fields : List ℕ) (bytes : List ℕ) (room : ℕ) : Option Clock := do
  let digits := Nat.min room 6
  let (value, rest) ← parseDigits digits 0 bytes
  some (.ofFields fields (value * Nat.pow 10 (6 - digits))
    (byteAt (rest.dropWhile isAsciiDigit) 0 != 0))

/-- The loop of `parse_hh_mm_ss_ff`: `count` fields may follow those read so far, `room` bytes
are left before the end of the time, and the first field settles whether colons are used. -/
def parseClock : ℕ → List ℕ → Option Bool → List ℕ → ℕ → Option Clock
  | 0, fields, _, bytes, room => parseFraction fields bytes room
  | count + 1, fields, separated, bytes, room => do
    let (value, rest) ← parseDigits 2 0 bytes
    let c := byteAt rest 0
    let hasSeparator := separated.getD (c = 58)
    let fields := fields ++ [value]
    if room ≤ 3 then some (.ofFields fields 0 (c != 0))
    else if hasSeparator && c = 58 then
      parseClock count fields (some hasSeparator) rest.tail (room - 3)
    else if c = 46 || c = 44 then parseFraction fields rest.tail (room - 3)
    else if !hasSeparator then parseClock count fields (some hasSeparator) rest (room - 2)
    else none

/-- The bytes that start an offset. -/
def startsOffset (byte : ℕ) : Bool :=
  byte = 43 || byte = 45 || byte = 90

/-- The length of a time in seconds. -/
def Clock.seconds (clock : Clock) : ℕ :=
  clock.hour * 3600 + clock.minute * 60 + clock.second

/-- The microseconds since midnight, when the fields are in range. -/
def Clock.timeOfDay? (clock : Clock) : Option ℤ :=
  if clock.hour < 24 && clock.minute < 60 && clock.second < 60 then
    some (clock.seconds * 1000000 + clock.microsecond)
  else none

/-- The offset of a sign and a clock; an offset of no whole second is UTC. -/
def offset? (sign : ℤ) (clock : Clock) : Option ℤ :=
  let offset := sign * (clock.seconds * 1000000 + clock.microsecond)
  if clock.seconds = 0 then some 0
  else if -86400000000 < offset && offset < 86400000000 then some offset else none

/-- `parse_isoformat_time`: the microseconds since midnight, and the offset. -/
def parseIsoTime (bytes : List ℕ) : Option (ℤ × Option ℤ) := do
  let before := (bytes.takeWhile fun byte => !startsOffset byte).length
  let clock ← parseClock 3 [] none bytes before
  let time ← clock.timeOfDay?
  match bytes.drop before with
  | [] => if clock.more then none else some (time, none)
  | sign :: rest =>
    if sign = 90 then (if byteAt rest 0 = 0 then some (time, some 0) else none)
    else do
      let ahead ← parseClock 3 [] none rest rest.length
      if ahead.more then none
      else
        let offset ← offset? (if sign = 45 then -1 else 1) ahead
        some (time, some offset)

/-- The bytes of the character that separates date and time. -/
def separatorWidth (byte : ℕ) : ℕ :=
  if byte < 128 then 1
  else if byte / 16 = 14 then 3
  else if byte / 16 = 15 then 4
  else 2

/-- `datetime.fromisoformat(text)`, or nothing when it raises `ValueError`. -/
def fromIsoFormat (text : String) : Option DateTime := do
  let bytes := utf8 text
  if text.length < 7 then none
  let separator ← findSeparator bytes
  let ordinal ← parseIsoDate bytes separator
  let midnight : ℤ := ((ordinal : ℤ) - 1) * 86400000000
  if bytes.length ≤ separator then some ⟨midnight, none⟩
  else
    let (time, offset) ←
      parseIsoTime (bytes.drop (separator + separatorWidth (byteAt bytes separator)))
    some ⟨midnight + time, offset⟩

end Python
