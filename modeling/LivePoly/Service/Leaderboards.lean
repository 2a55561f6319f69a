import LivePoly.Lib.Calendar
import LivePoly.Service.Database
import Mathlib.Data.Rat.Floor

/-!
# Service.Leaderboards

`LeaderboardsService.refreshPeriod` with the notifications it creates. A date is its time value, in
milliseconds since 1 January 1970; the accessors of `Date` in UTC and `Date.UTC` follow the
calendar.
-/

namespace LivePoly
namespace Service

open Calendar

/-! ## Dates -/

def msPerDay : Int := 86400000

/-- The day a date lies in. -/
def dayOf (date : Int) : Int := date / msPerDay

def getUTCFullYear (date : Int) : Int := yearFromDay (dayOf date)

/-- From 0, as in JavaScript. -/
def getUTCMonth (date : Int) : Int := monthFromDay (dayOf date)

def getUTCDate (date : Int) : Int := dateFromDay (dayOf date)

def getUTCDay (date : Int) : Int := weekDay (dayOf date)

/-- `Date.UTC(year, month, date)`, which takes the years 0 to 99 for 1900 to 1999. -/
def dateUTC (year month date : Int) : Int :=
  makeDay (if 0 ≤ year ∧ year ≤ 99 then 1900 + year else year) month date * msPerDay

def setUTCDate (date newDate : Int) : Int :=
  makeDay (getUTCFullYear date) (getUTCMonth date) newDate * msPerDay + date % msPerDay

/-! ## Keys -/

/-- `LEADERBOARD_PERIODS` -/
inductive LeaderboardPeriod where
  | weekly | monthly
  deriving DecidableEq

def LeaderboardPeriod.text : LeaderboardPeriod → String
  | weekly => "weekly"
  | monthly => "monthly"

/-- `LEADERBOARD_WINDOWS` -/
def LeaderboardPeriod.window : LeaderboardPeriod → Int
  | weekly => 7 * 24 * 60 * 60 * 1000
  | monthly => 30 * 24 * 60 * 60 * 1000

/-- `String(n).padStart(2, '0')` -/
def padStart2 (n : Int) : String :=
  if n.repr.length < 2 then "0" ++ n.repr else n.repr

def getUtcIsoWeek (date : Int) : Int :=
  let normalizedDate := dateUTC (getUTCFullYear date) (getUTCMonth date) (getUTCDate date)
  let day := if getUTCDay normalizedDate = 0 then 7 else getUTCDay normalizedDate
  let thursday := setUTCDate normalizedDate (getUTCDate normalizedDate + 4 - day)
  let yearStart := dateUTC (getUTCFullYear thursday) 0 1
  ⌈((((thursday - yearStart : Int) : ℚ) / 86400000 + 1) / 7 : ℚ)⌉

def leaderboardPeriodBucket (period : LeaderboardPeriod) (date : Int) : String :=
  if period = .monthly then
    (getUTCFullYear date).repr ++ "-" ++ padStart2 (getUTCMonth date + 1)
  else (getUTCFullYear date).repr ++ "-W" ++ padStart2 (getUtcIsoWeek date)

/-! ## Refreshes -/

/-- The fields of an entry that the notification reads. -/
structure LeaderboardEntry where
  rank : Nat
  userId : UserId
  rating : Int
  gamesPlayed : Nat
  wins : Nat
  deriving DecidableEq

structure LeaderboardSnapshot where
  period : LeaderboardPeriod
  periodStart : Int
  periodEnd : Int
  entries : List LeaderboardEntry
  deriving DecidableEq

def leaderboardNotificationKey (snapshot : LeaderboardSnapshot) : String :=
  snapshot.period.text ++ ":" ++ leaderboardPeriodBucket snapshot.period snapshot.periodEnd

structure LeaderboardNotificationData where
  period : LeaderboardPeriod
  leaderboardKey : String
  rank : Nat
  rating : Int
  gamesPlayed : Nat
  wins : Nat
  link : String
  deriving DecidableEq

/-- A notification of the type `leaderboard`. -/
structure LeaderboardNotification where
  userId : UserId
  title : String
  body : String
  data : LeaderboardNotificationData
  deriving DecidableEq

def findLeaderboardNotification (notifications : List LeaderboardNotification) (userId : UserId)
    (leaderboardKey : String) : Option LeaderboardNotification :=
  notifications.find? fun notification =>
    notification.userId = userId && notification.data.leaderboardKey = leaderboardKey

def leaderboardNotification (period : LeaderboardPeriod) (leaderboardKey : String)
    (entry : LeaderboardEntry) : LeaderboardNotification where
  userId := entry.userId
  title := "You made the " ++ period.text ++ " leaderboard"
  body := "You placed #" ++ entry.rank.repr ++ " with a " ++ entry.rating.repr ++ " rating"
  data := {
    period
    leaderboardKey
    rank := entry.rank
    rating := entry.rating
    gamesPlayed := entry.gamesPlayed
    wins := entry.wins
    link := "/leaderboard?period=" ++ period.text }

def createLeaderboardNotification (notifications : List LeaderboardNotification)
    (period : LeaderboardPeriod) (leaderboardKey : String) (entry : LeaderboardEntry) :
    List LeaderboardNotification :=
  match findLeaderboardNotification notifications entry.userId leaderboardKey with
  | some _ => notifications
  | none => notifications ++ [leaderboardNotification period leaderboardKey entry]

/-- One entry after the other. -/
def notifyLeaderboardEntries (notifications : List LeaderboardNotification)
    (snapshot : LeaderboardSnapshot) : List LeaderboardNotification :=
  snapshot.entries.foldl (fun notifications entry =>
    createLeaderboardNotification notifications snapshot.period
      (leaderboardNotificationKey snapshot) entry) notifications

/-- `entries` is what the query of the window finds. -/
def refreshPeriod (notifications : List LeaderboardNotification) (period : LeaderboardPeriod)
    (now : Int) (entries : List LeaderboardEntry) :
    LeaderboardSnapshot × List LeaderboardNotification :=
  let snapshot := { period, periodStart := now - period.window, periodEnd := now, entries }
  (snapshot, notifyLeaderboardEntries notifications snapshot)

end Service
end LivePoly
