import SyncEngine.Util.Encoding

/-! Instants as seconds from 1970 on in UTC, their days in the Gregorian calendar, and how Python
writes them. -/
namespace SyncEngine.Calendar

def dayOf (instant : Int) : Int := instant / 86400

def midnight (day : Int) : Int := day * 86400

/-- Year, month and day. The calendar repeats itself every 146097 days; the year is counted from its
first of March on, so that the leap day comes last. -/
def civil (day : Int) : Int × Int × Int :=
  let era := (day + 719468) / 146097
  let dayOfEra := (day + 719468) % 146097
  let yearOfEra := (dayOfEra - dayOfEra / 1460 + dayOfEra / 36524 - dayOfEra / 146096) / 365
  let dayOfYear := dayOfEra - (365 * yearOfEra + yearOfEra / 4 - yearOfEra / 100)
  let month := (5 * dayOfYear + 2) / 153
  let dayOfMonth := dayOfYear - (153 * month + 2) / 5 + 1
  let year := yearOfEra + era * 400
  if month < 10 then (year, month + 3, dayOfMonth) else (year + 1, month - 9, dayOfMonth)

def yearOf (instant : Int) : Int := (civil (dayOf instant)).1

def digits (width : Nat) (n : Int) : Unicode := (Nat.repr n.toNat).toList.leftpad width '0'

/-- `%Y-%m-%d` -/
def isoDate (day : Int) : Unicode :=
  let (year, month, dayOfMonth) := civil day
  digits 4 year ++ '-' :: digits 2 month ++ '-' :: digits 2 dayOfMonth

/-- `isoformat('T')` of a time in UTC. -/
def isoformat (instant : Int) : Unicode :=
  let second := instant % 86400
  isoDate (dayOf instant) ++ 'T' :: digits 2 (second / 3600) ++ ':' :: digits 2 (second / 60 % 60) ++
    ':' :: digits 2 (second % 60) ++ "+00:00".toList

/-- `%Y%m%dT%H%M%SZ` -/
def basicFormat (instant : Int) : Unicode :=
  let (year, month, dayOfMonth) := civil (dayOf instant)
  let second := instant % 86400
  digits 4 year ++ digits 2 month ++ digits 2 dayOfMonth ++ 'T' :: digits 2 (second / 3600) ++
    digits 2 (second / 60 % 60) ++ digits 2 (second % 60) ++ "Z".toList

/-- Python 2 formats no year before 1900. -/
def strftime (format : Int → Unicode) (instant : Int) : Option Unicode :=
  if yearOf instant < 1900 then none else some (format instant)

@[simp] theorem dayOf_midnight (day : Int) : dayOf (midnight day) = day := by
  unfold dayOf midnight
  omega

theorem dayOf_mono {a b : Int} (ordered : a ≤ b) : dayOf a ≤ dayOf b := by
  unfold dayOf
  omega

theorem midnight_le_iff {a b : Int} : midnight a ≤ midnight b ↔ a ≤ b := by
  unfold midnight
  omega

end SyncEngine.Calendar
