import LivePoly.Service.Leaderboards
import Mathlib.Data.Rat.Floor
import Mathlib.Tactic.Linarith
import Mathlib.Tactic.NormNum
import Mathlib.Tactic.Positivity

/-!
# Rules.Buckets

The buckets of leaderboard notifications. The monthly key names the month. The weekly key is the
number of the ISO week with the calendar year of the date, while the number belongs to the ISO year:
the key is right for the weeks that lie within a year and whose number no other week of that year's
days has.
-/

namespace LivePoly
namespace Rules

open Service Calendar

/-! ## The week of a date -/

section Weeks

variable {date : Int}

theorem dayOf_mul (d : Int) : dayOf (d * msPerDay) = d := by
  unfold dayOf msPerDay
  omega

theorem dateUTC_fromDay {d : Int} (h : ¬ (0 ≤ yearFromDay d ∧ yearFromDay d ≤ 99)) :
    dateUTC (yearFromDay d) (monthFromDay d) (dateFromDay d) = d * msPerDay := by
  have hday := makeDay_fromDay d 0
  rw [Int.add_zero, Int.add_zero] at hday
  rw [dateUTC, if_neg h, hday]

theorem dateUTC_yearStart {y : Int} (h : ¬ (0 ≤ y ∧ y ≤ 99)) :
    dateUTC y 0 1 = dayFromYear y * msPerDay := by
  have hmonth : monthStart (decide (IsLeapYear y)) 0 = 0 := by simp [monthStart]
  rw [dateUTC, if_neg h]
  simp only [makeDay, Int.zero_ediv, Int.zero_emod, Int.add_zero, hmonth]
  congr 1
  omega

theorem setUTCDate_mul (d n : Int) :
    setUTCDate (d * msPerDay) (dateFromDay d + n) = (d + n) * msPerDay := by
  have hrest : d * msPerDay % msPerDay = 0 := Int.mul_emod_left _ _
  simp only [setUTCDate, getUTCFullYear, getUTCMonth, dayOf_mul, hrest, Int.add_zero]
  rw [makeDay_fromDay]

theorem thursday_eq (d : Int) :
    d + 4 - (if weekDay d = 0 then 7 else weekDay d) = mondayOf d + 3 := by
  unfold weekDay mondayOf
  split <;> omega

theorem ceil_week (k : Int) :
    ⌈((((k * msPerDay : Int) : ℚ) / 86400000 + 1) / 7 : ℚ)⌉ = k / 7 + 1 := by
  have hscaled : ((((k * msPerDay : Int) : ℚ) / 86400000 + 1) / 7 : ℚ) =
      ((k + 1 : Int) : ℚ) / ((7 : Nat) : ℚ) := by
    unfold msPerDay
    push_cast
    field_simp
  rw [hscaled, Rat.ceil_intCast_div_natCast]
  omega

/-- Outside the years 0 to 99 the service's week is the ISO week. -/
theorem getUtcIsoWeek_eq (hyear : ¬ (0 ≤ yearFromDay (dayOf date) ∧ yearFromDay (dayOf date) ≤ 99))
    (hisoYear : ¬ (0 ≤ isoYear (dayOf date) ∧ isoYear (dayOf date) ≤ 99)) :
    getUtcIsoWeek date = isoWeek (dayOf date) := by
  generalize hd : dayOf date = d at *
  simp only [getUtcIsoWeek, getUTCFullYear, getUTCMonth, getUTCDate, getUTCDay, hd,
    dateUTC_fromDay hyear, dayOf_mul]
  rw [Int.add_sub_assoc, setUTCDate_mul, dayOf_mul, ← Int.add_sub_assoc, thursday_eq,
    show yearFromDay (mondayOf d + 3) = isoYear d from rfl, dateUTC_yearStart hisoYear,
    ← Int.sub_mul, ceil_week]
  rfl

end Weeks

/-! ## Texts -/

section Texts

theorem not_mem_natRepr {c : Char} (hdigit : c.isDigit = false) (n : Nat) : c ∉ n.repr.toList := by
  intro hc
  rw [Nat.toList_repr] at hc
  have hdigit' := Nat.isDigit_of_mem_toDigits (by decide) (by decide) hc
  rw [hdigit] at hdigit'
  cases hdigit'

theorem not_mem_repr {c : Char} (hdigit : c.isDigit = false) (hminus : c ≠ '-') (n : Int) :
    c ∉ n.repr.toList := by
  rw [Int.repr_eq_if]
  split
  · exact not_mem_natRepr hdigit _
  · rw [String.toList_append]
    intro hc
    rcases List.mem_append.mp hc with hc | hc
    · exact hminus (by simpa using hc)
    · exact not_mem_natRepr hdigit _ hc

theorem natRepr_inj {m n : Nat} (h : m.repr.toList = n.repr.toList) : m = n := by
  rw [Nat.toList_repr, Nat.toList_repr] at h
  rw [← Nat.ofDigitChars_ten_toDigits (n := m), h, Nat.ofDigitChars_ten_toDigits]

/-- The sign and the digits tell which number it is. -/
theorem intRepr_inj {m n : Int} (h : m.repr.toList = n.repr.toList) : m = n := by
  have hminus : ∀ k : Nat, '-' ∉ k.repr.toList := not_mem_natRepr (by decide)
  have hsign : ∀ k : Nat, ("-" ++ k.repr).toList = '-' :: k.repr.toList := by simp
  rw [Int.repr_eq_if, Int.repr_eq_if] at h
  by_cases hm : 0 ≤ m
  · by_cases hn : 0 ≤ n
    · rw [if_pos hm, if_pos hn] at h
      have heq := natRepr_inj h
      omega
    · rw [if_pos hm, if_neg hn, hsign] at h
      exact absurd (h ▸ List.mem_cons_self) (hminus _)
  · by_cases hn : 0 ≤ n
    · rw [if_neg hm, if_pos hn, hsign] at h
      exact absurd (h ▸ List.mem_cons_self) (hminus _)
    · rw [if_neg hm, if_neg hn, hsign, hsign] at h
      have heq := natRepr_inj (List.cons.inj h).2
      omega

theorem append_cons_inj {α : Type} {c : α} {xs xs' ys ys' : List α} (hxs : c ∉ xs)
    (hxs' : c ∉ xs') (h : xs ++ c :: ys = xs' ++ c :: ys') : xs = xs' ∧ ys = ys' := by
  induction xs generalizing xs' with
  | nil =>
    cases xs' with
    | nil => exact ⟨rfl, (List.cons.inj h).2⟩
    | cons x xs' =>
      have hhead : c = x := (List.cons.inj h).1
      exact absurd (hhead ▸ List.mem_cons_self) hxs'
  | cons x xs ih =>
    cases xs' with
    | nil =>
      have hhead : x = c := (List.cons.inj h).1
      exact absurd (hhead ▸ List.mem_cons_self) hxs
    | cons x' xs' =>
      obtain ⟨hhead, htail⟩ := List.cons.inj h
      obtain ⟨hfront, hback⟩ := ih (fun hc => hxs (List.mem_cons_of_mem _ hc))
        (fun hc => hxs' (List.mem_cons_of_mem _ hc)) htail
      exact ⟨by rw [hhead, hfront], hback⟩

theorem padStart2_inj {m n : Int} (hm : 1 ≤ m ∧ m ≤ 53) (hn : 1 ≤ n ∧ n ≤ 53)
    (h : padStart2 m = padStart2 n) : m = n := by
  have hall : ∀ i < 53, ∀ j < 53,
      padStart2 (((i : Nat) : Int) + 1) = padStart2 (((j : Nat) : Int) + 1) → i = j := by
    decide +kernel
  obtain ⟨i, rfl⟩ : ∃ i : Nat, m = (i : Int) + 1 := ⟨(m - 1).toNat, by omega⟩
  obtain ⟨j, rfl⟩ : ∃ j : Nat, n = (j : Int) + 1 := ⟨(n - 1).toNat, by omega⟩
  rw [hall i (by omega) j (by omega) h]

theorem padStart2_length {n : Int} (hn : 1 ≤ n ∧ n ≤ 53) : (padStart2 n).toList.length = 2 := by
  have hall : ∀ i < 53, (padStart2 (((i : Nat) : Int) + 1)).toList.length = 2 := by
    decide +kernel
  obtain ⟨i, rfl⟩ : ∃ i : Nat, n = (i : Int) + 1 := ⟨(n - 1).toNat, by omega⟩
  exact hall i (by omega)

/-- The year stands before the first `W`. -/
theorem weekText_inj {y y' : Int} {w w' : String}
    (h : y.repr ++ "-W" ++ w = y'.repr ++ "-W" ++ w') : y = y' ∧ w = w' := by
  have hlist := congrArg String.toList h
  simp only [String.toList_append, List.append_assoc] at hlist
  have hsplit : (y.repr.toList ++ ['-']) ++ 'W' :: w.toList =
      (y'.repr.toList ++ ['-']) ++ 'W' :: w'.toList := by
    simpa using hlist
  have hW : ∀ z : Int, 'W' ∉ z.repr.toList ++ ['-'] := by
    intro z hc
    rcases List.mem_append.mp hc with hc | hc
    · exact not_mem_repr (by decide) (by decide) z hc
    · simp at hc
  obtain ⟨hyear, hweek⟩ := append_cons_inj (hW y) (hW y') hsplit
  have hrepr := List.append_cancel_right hyear
  exact ⟨intRepr_inj hrepr, String.toList_inj.mp hweek⟩

theorem monthText_inj {y y' m m' : Int} (hm : 1 ≤ m ∧ m ≤ 53) (hm' : 1 ≤ m' ∧ m' ≤ 53)
    (h : y.repr ++ "-" ++ padStart2 m = y'.repr ++ "-" ++ padStart2 m') : y = y' ∧ m = m' := by
  have hlist := congrArg String.toList h
  rw [String.toList_append, String.toList_append (t := padStart2 m')] at hlist
  obtain ⟨hyear, hmonth⟩ := List.append_inj' hlist
    ((padStart2_length hm).trans (padStart2_length hm').symm)
  rw [String.toList_inj, String.append_left_inj, ← String.toList_inj] at hyear
  exact ⟨intRepr_inj hyear, padStart2_inj hm hm' (String.toList_inj.mp hmonth)⟩

end Texts

/-! ## Buckets -/

def SameIsoWeek (a b : Int) : Prop := mondayOf (dayOf a) = mondayOf (dayOf b)

def SameUtcMonth (a b : Int) : Prop :=
  getUTCFullYear a = getUTCFullYear b ∧ getUTCMonth a = getUTCMonth b

/-- Away from the years 0 to 99, which `Date.UTC` takes for others. -/
def Modern (date : Int) : Prop := getUTCFullYear date < -1 ∨ 100 < getUTCFullYear date

/-- The ISO week of the date lies within a year, and where the first or the last day of that year
is in a week of another year, that week has another number. -/
structure InnerWeek (date : Int) : Prop where
  oneYear : yearFromDay (mondayOf (dayOf date)) = yearFromDay (mondayOf (dayOf date) + 6)
  edges : ∀ edge, edge = dayFromYear (getUTCFullYear date) ∨
    edge = dayFromYear (getUTCFullYear date + 1) - 1 →
      isoYear edge ≠ getUTCFullYear date → isoWeek edge ≠ isoWeek (dayOf date)

section Buckets

variable {a b : Int}

theorem isoYear_bounds (d : Int) : yearFromDay d - 1 ≤ isoYear d ∧ isoYear d ≤ yearFromDay d + 1 := by
  obtain ⟨hlow, hhigh⟩ := yearFromDay_spec d
  obtain ⟨hmonday, hsunday⟩ := mondayOf_bounds d
  have hbefore := dayFromYear_add_le (y := yearFromDay d - 1) (z := yearFromDay d) (by omega)
  have hafter := dayFromYear_add_le (y := yearFromDay d + 1) (z := yearFromDay d + 1 + 1) (by omega)
  constructor
  · rw [← yearFromDay_dayFromYear (yearFromDay d - 1)]
    exact yearFromDay_mono (by omega)
  · have hlt : mondayOf d + 3 < dayFromYear (yearFromDay d + 1 + 1) := by omega
    by_contra hyear
    obtain ⟨hlow', _⟩ := yearFromDay_spec (mondayOf d + 3)
    have := dayFromYear_le (y := yearFromDay d + 1 + 1) (z := yearFromDay (mondayOf d + 3)) (by
      unfold isoYear at hyear
      omega)
    omega

theorem Modern.getUtcIsoWeek (h : Modern a) : getUtcIsoWeek a = isoWeek (dayOf a) := by
  obtain ⟨hlow, hhigh⟩ := isoYear_bounds (dayOf a)
  unfold Modern getUTCFullYear at h
  exact getUtcIsoWeek_eq (by omega) (by omega)

theorem weeklyBucket_eq_iff (ha : Modern a) :
    leaderboardPeriodBucket .weekly a = leaderboardPeriodBucket .weekly b ↔
      getUTCFullYear a = getUTCFullYear b ∧ isoWeek (dayOf a) = isoWeek (dayOf b) := by
  have htext : ∀ date, leaderboardPeriodBucket .weekly date =
      (getUTCFullYear date).repr ++ "-W" ++ padStart2 (Service.getUtcIsoWeek date) :=
    fun _ => rfl
  rw [htext, htext]
  constructor
  · intro h
    obtain ⟨hyear, hweek⟩ := weekText_inj h
    have hb : Modern b := by
      unfold Modern at ha ⊢
      rwa [← hyear]
    rw [ha.getUtcIsoWeek, hb.getUtcIsoWeek] at hweek
    exact ⟨hyear, padStart2_inj (isoWeek_bounds _) (isoWeek_bounds _) hweek⟩
  · rintro ⟨hyear, hweek⟩
    have hb : Modern b := by
      unfold Modern at ha ⊢
      rwa [← hyear]
    rw [ha.getUtcIsoWeek, hb.getUtcIsoWeek, hyear, hweek]

theorem monthlyBucket_eq_iff :
    leaderboardPeriodBucket .monthly a = leaderboardPeriodBucket .monthly b ↔ SameUtcMonth a b := by
  have hmonth : ∀ date, 1 ≤ getUTCMonth date + 1 ∧ getUTCMonth date + 1 ≤ 53 := by
    intro date
    obtain ⟨hlow, hhigh⟩ := monthFromDay_bounds (dayOf date)
    unfold getUTCMonth
    omega
  simp only [leaderboardPeriodBucket, if_true]
  constructor
  · intro h
    obtain ⟨hyear, hmonths⟩ := monthText_inj (hmonth a) (hmonth b) h
    exact ⟨hyear, by omega⟩
  · rintro ⟨hyear, hmonths⟩
    rw [hyear, hmonths]

theorem InnerWeek.year {d : Int} (h : InnerWeek a) (hlow : mondayOf (dayOf a) ≤ d)
    (hhigh : d ≤ mondayOf (dayOf a) + 6) : yearFromDay d = getUTCFullYear a := by
  obtain ⟨hmonday, hsunday⟩ := mondayOf_bounds (dayOf a)
  have hone := h.oneYear
  have h1 := yearFromDay_mono hlow
  have h2 := yearFromDay_mono hhigh
  have h3 := yearFromDay_mono hmonday
  have h4 := yearFromDay_mono hsunday
  unfold getUTCFullYear
  omega

/-- A day in a week of another year is in the week of the first or the last day of its year. -/
theorem exists_edge {d : Int} (h : isoYear d ≠ yearFromDay d) :
    ∃ edge, (edge = dayFromYear (yearFromDay d) ∨ edge = dayFromYear (yearFromDay d + 1) - 1) ∧
      mondayOf edge = mondayOf d := by
  obtain ⟨hlow, hhigh⟩ := yearFromDay_spec d
  obtain ⟨hmonday, hsunday⟩ := mondayOf_bounds d
  obtain ⟨hlow', hhigh'⟩ := yearFromDay_spec (mondayOf d + 3)
  rcases Int.lt_or_gt_of_ne h with hlt | hgt
  · refine ⟨_, .inl rfl, mondayOf_eq_iff.mpr ?_⟩
    have := dayFromYear_le (y := yearFromDay (mondayOf d + 3) + 1) (z := yearFromDay d) hlt
    omega
  · refine ⟨_, .inr rfl, mondayOf_eq_iff.mpr ?_⟩
    have := dayFromYear_le (y := yearFromDay d + 1) (z := yearFromDay (mondayOf d + 3)) hgt
    omega

theorem weeklyBucket_inner (ha : Modern a) (h : InnerWeek a) :
    leaderboardPeriodBucket .weekly a = leaderboardPeriodBucket .weekly b ↔ SameIsoWeek a b := by
  obtain ⟨hmonday, hsunday⟩ := mondayOf_bounds (dayOf b)
  have hiso : isoYear (dayOf a) = getUTCFullYear a := h.year (by omega) (by omega)
  rw [weeklyBucket_eq_iff ha]
  constructor
  · rintro ⟨hyear, hweek⟩
    by_cases hb : isoYear (dayOf b) = getUTCFullYear b
    · exact mondayOf_eq (hiso.trans (hyear.trans hb.symm)) hweek
    · obtain ⟨edge, hedge, hsame⟩ := exists_edge hb
      have hother : isoYear edge ≠ getUTCFullYear a := by
        rw [isoYear_eq hsame, hyear]
        exact hb
      rw [show yearFromDay (dayOf b) = getUTCFullYear b from rfl, ← hyear] at hedge
      exact absurd ((isoWeek_eq hsame).trans hweek.symm) (h.edges edge hedge hother)
  · intro hsame
    rw [SameIsoWeek] at hsame
    exact ⟨(h.year (by omega) (by omega)).symm, isoWeek_eq hsame⟩

/-- What the weekly key has to be for all other dates makes the week an inner one. -/
theorem innerWeek_of_bucket (ha : Modern a)
    (h : ∀ b, leaderboardPeriodBucket .weekly a = leaderboardPeriodBucket .weekly b ↔
      SameIsoWeek a b) : InnerWeek a := by
  obtain ⟨hmonday, hsunday⟩ := mondayOf_bounds (dayOf a)
  have hday : ∀ d, mondayOf d = mondayOf (dayOf a) → yearFromDay d = getUTCFullYear a := by
    intro d hd
    have hkey := (h (d * msPerDay)).mpr (by rw [SameIsoWeek, dayOf_mul, hd])
    obtain ⟨hyear, _⟩ := (weeklyBucket_eq_iff ha).mp hkey
    rw [hyear, getUTCFullYear, dayOf_mul]
  refine ⟨?_, fun edge hedge hother hweek => ?_⟩
  · rw [hday _ (mondayOf_eq_iff.mpr (by omega)), hday _ (mondayOf_eq_iff.mpr (by omega))]
  · have hyear : yearFromDay edge = getUTCFullYear a := by
      have hlength := dayFromYear_add_le (y := getUTCFullYear a) (z := getUTCFullYear a + 1)
        (by omega)
      rcases hedge with rfl | rfl
      · exact yearFromDay_dayFromYear _
      · exact yearFromDay_unique (by omega) (by omega)
    have hkey : leaderboardPeriodBucket .weekly a =
        leaderboardPeriodBucket .weekly (edge * msPerDay) := by
      rw [weeklyBucket_eq_iff ha, dayOf_mul, getUTCFullYear, getUTCFullYear, dayOf_mul]
      exact ⟨hyear.symm, hweek.symm⟩
    have hsame := (h _).mp hkey
    rw [SameIsoWeek, dayOf_mul] at hsame
    refine hother ((isoYear_eq hsame).symm.trans (hday _ ?_))
    exact mondayOf_eq_iff.mpr (by omega)

end Buckets

/-! ## Refreshes -/

def LeaderboardSnapshot.users (snapshot : LeaderboardSnapshot) : List UserId :=
  snapshot.entries.map LeaderboardEntry.userId

/-- The notifications of a user. -/
def notificationsOf (userId : UserId) (notifications : List LeaderboardNotification) :
    List LeaderboardNotification :=
  notifications.filter fun notification => notification.userId = userId

/-- The user has a notification with the key. -/
def HasNotification (notifications : List LeaderboardNotification) (userId : UserId)
    (leaderboardKey : String) : Prop :=
  ∃ notification ∈ notifications, notification.userId = userId ∧
    notification.data.leaderboardKey = leaderboardKey

section Refreshes

variable {notifications : List LeaderboardNotification} {userId : UserId} {key : String}
  {period : LeaderboardPeriod}

theorem findLeaderboardNotification_eq_none :
    findLeaderboardNotification notifications userId key = none ↔
      ¬ HasNotification notifications userId key := by
  unfold findLeaderboardNotification HasNotification
  rw [List.find?_eq_none]
  simp only [Bool.and_eq_true, decide_eq_true_eq, not_exists, not_and]

theorem HasNotification.append {fresh : List LeaderboardNotification} :
    HasNotification (notifications ++ fresh) userId key ↔
      HasNotification notifications userId key ∨ HasNotification fresh userId key := by
  unfold HasNotification
  simp only [List.mem_append, or_and_right, exists_or]

theorem createLeaderboardNotifications (period : LeaderboardPeriod) (key : String)
    (entries : List LeaderboardEntry) (notifications : List LeaderboardNotification) : ∃ fresh,
      entries.foldl (fun notifications entry =>
        createLeaderboardNotification notifications period key entry) notifications =
          notifications ++ fresh ∧
      (∀ notification ∈ fresh, notification.data.leaderboardKey = key) ∧
      ∀ userId, (notificationsOf userId fresh).length ≤ 1 ∧
        ((notificationsOf userId fresh).length = 1 ↔
          userId ∈ entries.map LeaderboardEntry.userId ∧
            ¬ HasNotification notifications userId key) := by
  induction entries generalizing notifications with
  | nil => exact ⟨[], (List.append_nil _).symm, nofun, fun _ => ⟨Nat.zero_le _, by simp [notificationsOf]⟩⟩
  | cons entry entries ih =>
    rw [List.foldl_cons]
    by_cases hhas : HasNotification notifications entry.userId key
    · have hsame : createLeaderboardNotification notifications period key entry = notifications := by
        unfold createLeaderboardNotification
        split
        · rfl
        · rename_i hnone
          exact absurd hhas (findLeaderboardNotification_eq_none.mp hnone)
      rw [hsame]
      obtain ⟨fresh, hfold, hkeys, hcount⟩ := ih notifications
      refine ⟨fresh, hfold, hkeys, fun userId => ⟨(hcount userId).1, ?_⟩⟩
      rw [(hcount userId).2, List.map_cons, List.mem_cons]
      constructor
      · rintro ⟨huser, hnot⟩
        exact ⟨.inr huser, hnot⟩
      · rintro ⟨rfl | huser, hnot⟩
        · exact absurd hhas hnot
        · exact ⟨huser, hnot⟩
    · have hnew : createLeaderboardNotification notifications period key entry =
          notifications ++ [leaderboardNotification period key entry] := by
        unfold createLeaderboardNotification
        rw [findLeaderboardNotification_eq_none.mpr hhas]
      rw [hnew]
      obtain ⟨fresh, hfold, hkeys, hcount⟩ :=
        ih (notifications ++ [leaderboardNotification period key entry])
      refine ⟨leaderboardNotification period key entry :: fresh, ?_, ?_, fun userId => ?_⟩
      · rw [hfold, List.append_assoc, List.singleton_append]
      · rintro notification (_ | ⟨_, hmem⟩)
        · rfl
        · exact hkeys notification hmem
      · obtain ⟨hle, hone⟩ := hcount userId
        rw [HasNotification.append] at hone
        by_cases huser : entry.userId = userId
        · have hzero : (notificationsOf userId fresh).length = 0 := by
            have hnot : ¬ (notificationsOf userId fresh).length = 1 := by
              rw [hone]
              rintro ⟨_, hnone⟩
              exact hnone (.inr ⟨_, List.mem_cons_self, huser, rfl⟩)
            omega
          have hlist : notificationsOf userId (leaderboardNotification period key entry :: fresh) =
              leaderboardNotification period key entry :: notificationsOf userId fresh :=
            List.filter_cons_of_pos (decide_eq_true huser)
          rw [hlist, List.length_cons, hzero, ← huser]
          refine ⟨Nat.le_refl _, fun _ => ⟨List.mem_cons_self, hhas⟩, fun _ => rfl⟩
        · have hlist : notificationsOf userId (leaderboardNotification period key entry :: fresh) =
              notificationsOf userId fresh :=
            List.filter_cons_of_neg fun h => huser (of_decide_eq_true h)
          have hother : ¬ HasNotification [leaderboardNotification period key entry] userId key := by
            rintro ⟨_, hmem, hsame, _⟩
            cases List.mem_singleton.mp hmem
            exact huser hsame
          rw [hlist, hone, List.map_cons, List.mem_cons]
          refine ⟨hle, ?_, ?_⟩
          · rintro ⟨hmem, hnot⟩
            exact ⟨.inr hmem, fun h => hnot (.inl h)⟩
          · rintro ⟨rfl | hmem, hnot⟩
            · exact absurd rfl huser
            · exact ⟨hmem, not_or.mpr ⟨hnot, hother⟩⟩

/-- The notifications after the refreshes. -/
def refreshed (snapshots : List LeaderboardSnapshot) : List LeaderboardNotification :=
  snapshots.foldl notifyLeaderboardEntries []

theorem refreshed_append (snapshots : List LeaderboardSnapshot) (snapshot : LeaderboardSnapshot) :
    refreshed (snapshots ++ [snapshot]) =
      notifyLeaderboardEntries (refreshed snapshots) snapshot := by
  rw [refreshed, List.foldl_append]
  rfl

theorem hasNotification_refreshed (snapshots : List LeaderboardSnapshot) :
    HasNotification (refreshed snapshots) userId key ↔
      ∃ snapshot ∈ snapshots, userId ∈ LeaderboardSnapshot.users snapshot ∧
        leaderboardNotificationKey snapshot = key := by
  induction snapshots using List.reverseRecOn with
  | nil => simp [refreshed, HasNotification]
  | append_singleton snapshots snapshot ih =>
    obtain ⟨fresh, hfold, hkeys, hcount⟩ :=
      createLeaderboardNotifications snapshot.period (leaderboardNotificationKey snapshot)
        snapshot.entries (refreshed snapshots)
    have hfresh : HasNotification fresh userId (leaderboardNotificationKey snapshot) ↔
        (notificationsOf userId fresh).length = 1 := by
      have hle := (hcount userId).1
      have hpos : 0 < (notificationsOf userId fresh).length ↔
          HasNotification fresh userId (leaderboardNotificationKey snapshot) := by
        rw [List.length_pos_iff_exists_mem]
        constructor
        · rintro ⟨notification, hmem⟩
          obtain ⟨hmem, huser⟩ := List.mem_filter.mp hmem
          exact ⟨notification, hmem, of_decide_eq_true huser, hkeys _ hmem⟩
        · rintro ⟨notification, hmem, huser, _⟩
          exact ⟨notification, List.mem_filter.mpr ⟨hmem, decide_eq_true huser⟩⟩
      rw [← hpos]
      omega
    rw [refreshed_append, notifyLeaderboardEntries, hfold, HasNotification.append, ih]
    constructor
    · rintro (⟨earlier, hmem, hearlier⟩ | hnew)
      · exact ⟨earlier, List.mem_append_left _ hmem, hearlier⟩
      · obtain ⟨notification, hmem, huser, rfl⟩ := hnew
        have hkey := hkeys _ hmem
        refine ⟨snapshot, List.mem_append_right _ List.mem_cons_self, ?_, hkey.symm⟩
        exact ((hcount userId).2.mp (hfresh.mp ⟨notification, hmem, huser, hkey⟩)).1
    · rintro ⟨earlier, hmem, huser, rfl⟩
      rcases List.mem_append.mp hmem with hmem | hmem
      · exact .inl ⟨earlier, hmem, huser, rfl⟩
      · cases List.mem_singleton.mp hmem
        by_cases hhas : HasNotification (refreshed snapshots) userId
            (leaderboardNotificationKey snapshot)
        · exact .inl (ih.mp hhas)
        · exact .inr (hfresh.mpr ((hcount userId).2.mpr ⟨huser, hhas⟩))

/-- What a refresh sends to a user after the earlier ones. -/
def sentTo (earlier : List LeaderboardSnapshot) (snapshot : LeaderboardSnapshot)
    (userId : UserId) : List LeaderboardNotification :=
  notificationsOf userId
    ((refreshed (earlier ++ [snapshot])).drop (refreshed earlier).length)

/-- A user of the snapshot is sent a notification unless an earlier snapshot with the key had it. -/
theorem sentTo_spec (earlier : List LeaderboardSnapshot) (snapshot : LeaderboardSnapshot)
    (userId : UserId) :
    (sentTo earlier snapshot userId).length ≤ 1 ∧
      ((sentTo earlier snapshot userId).length = 1 ↔
        userId ∈ LeaderboardSnapshot.users snapshot ∧
          ¬ ∃ s ∈ earlier, userId ∈ LeaderboardSnapshot.users s ∧
            leaderboardNotificationKey s = leaderboardNotificationKey snapshot) := by
  obtain ⟨fresh, hfold, _, hcount⟩ :=
    createLeaderboardNotifications snapshot.period (leaderboardNotificationKey snapshot)
      snapshot.entries (refreshed earlier)
  have hsent : sentTo earlier snapshot userId = notificationsOf userId fresh := by
    rw [sentTo, refreshed_append, notifyLeaderboardEntries, hfold, List.drop_left]
  rw [hsent, ← hasNotification_refreshed]
  exact hcount userId

end Refreshes

/-! ## One notification per bucket -/

def snapshotAt (period : LeaderboardPeriod) (date : Int) (entries : List LeaderboardEntry) :
    LeaderboardSnapshot :=
  (refreshPeriod [] period date entries).1

/-- The notification key of a snapshot that ends at the date. -/
def keyAt (period : LeaderboardPeriod) (date : Int) : String :=
  leaderboardNotificationKey (snapshotAt period date [])

def SameBucket : LeaderboardPeriod → Int → Int → Prop
  | .weekly => SameIsoWeek
  | .monthly => SameUtcMonth

/-- Whatever was refreshed before, a refresh at the date sends each user of its snapshot one
notification, unless the user was in an earlier snapshot of the bucket. -/
def OncePerBucket (period : LeaderboardPeriod) (date : Int) : Prop :=
  ∀ earlier entries userId,
    (sentTo earlier (snapshotAt period date entries) userId).length ≤ 1 ∧
    ((sentTo earlier (snapshotAt period date entries) userId).length = 1 ↔
      userId ∈ entries.map LeaderboardEntry.userId ∧
        ¬ ∃ s ∈ earlier, s.period = period ∧ userId ∈ LeaderboardSnapshot.users s ∧
          SameBucket period date s.periodEnd)

section OnceABucket

variable {period : LeaderboardPeriod} {a b : Int}

theorem keyAt_eq_iff :
    keyAt period a = keyAt period b ↔
      leaderboardPeriodBucket period a = leaderboardPeriodBucket period b := by
  rw [show keyAt period a = period.text ++ ":" ++ leaderboardPeriodBucket period a from rfl,
    show keyAt period b = period.text ++ ":" ++ leaderboardPeriodBucket period b from rfl,
    String.append_right_inj]

theorem leaderboardNotificationKey_eq_iff (s : LeaderboardSnapshot) :
    leaderboardNotificationKey s = keyAt period a ↔
      s.period = period ∧ keyAt period a = keyAt period s.periodEnd := by
  have hkey : leaderboardNotificationKey s = keyAt s.period s.periodEnd := rfl
  rw [hkey]
  constructor
  · intro h
    have hperiod : s.period = period := by
      have hhead := congrArg (fun text => text.toList.head?) h
      have htext : ∀ p date, (keyAt p date).toList.head? = p.text.toList.head? := by
        intro p date
        rw [show keyAt p date = p.text ++ (":" ++ leaderboardPeriodBucket p date) from
          String.append_assoc .., String.toList_append]
        cases p <;> rfl
      simp only [htext] at hhead
      revert hhead
      cases s.period <;> cases period <;> decide
    rw [hperiod] at h
    exact ⟨hperiod, h.symm⟩
  · rintro ⟨rfl, h⟩
    exact h.symm

/-- A leaderboard with one user, who may have been on it at another date. -/
def oneEntry : List LeaderboardEntry := [⟨1, ⟨1⟩, 500, 1, 1⟩]

/-- The key of a date is right for all others exactly if the refreshes are. -/
theorem oncePerBucket_iff :
    OncePerBucket period a ↔ ∀ b, keyAt period a = keyAt period b ↔ SameBucket period a b := by
  have hkeyAt : ∀ entries, leaderboardNotificationKey (snapshotAt period a entries) =
      keyAt period a := fun _ => rfl
  constructor
  · intro h b
    obtain ⟨_, hdue⟩ := h [snapshotAt period b oneEntry] oneEntry ⟨1⟩
    obtain ⟨_, hsent⟩ :=
      sentTo_spec [snapshotAt period b oneEntry] (snapshotAt period a oneEntry) ⟨1⟩
    have hmem : (⟨1⟩ : UserId) ∈ oneEntry.map LeaderboardEntry.userId := List.mem_cons_self
    have hkey : leaderboardNotificationKey (snapshotAt period b oneEntry) =
        leaderboardNotificationKey (snapshotAt period a oneEntry) ↔
          keyAt period a = keyAt period b := eq_comm
    rw [hdue] at hsent
    simp only [List.mem_singleton, exists_eq_left] at hsent
    constructor
    · intro heq
      by_contra hother
      exact (hsent.mp ⟨hmem, fun hs => hother hs.2.2⟩).2 ⟨hmem, hkey.mpr heq⟩
    · intro hsame
      by_contra hne
      exact (hsent.mpr ⟨hmem, fun hs => hne (hkey.mp hs.2)⟩).2 ⟨rfl, hmem, hsame⟩
  · intro h earlier entries userId
    obtain ⟨hle, hone⟩ := sentTo_spec earlier (snapshotAt period a entries) userId
    refine ⟨hle, hone.trans (and_congr_right fun _ => not_congr ?_)⟩
    refine exists_congr fun s => and_congr_right fun _ => ?_
    rw [hkeyAt, leaderboardNotificationKey_eq_iff, h]
    constructor
    · rintro ⟨huser, hperiod, hsame⟩
      exact ⟨hperiod, huser, hsame⟩
    · rintro ⟨hperiod, huser, hsame⟩
      exact ⟨huser, hperiod, hsame⟩

/-- The monthly keys are calendar months. The weekly key of a date is an ISO week, and refreshes at
the date notify once a week, exactly if its week is an inner one. -/
theorem leaderboard_buckets (a : Int) (h : Modern a) :
    ((∀ b, keyAt .weekly a = keyAt .weekly b ↔ SameIsoWeek a b) ↔ InnerWeek a) ∧
    (OncePerBucket .weekly a ↔ InnerWeek a) ∧
    (∀ b, keyAt .monthly a = keyAt .monthly b ↔ SameUtcMonth a b) ∧
    OncePerBucket .monthly a := by
  have hweekly : (∀ b, keyAt .weekly a = keyAt .weekly b ↔ SameIsoWeek a b) ↔ InnerWeek a := by
    simp only [keyAt_eq_iff]
    exact ⟨innerWeek_of_bucket h, fun hinner b => weeklyBucket_inner h hinner⟩
  have hmonthly : ∀ b, keyAt .monthly a = keyAt .monthly b ↔ SameUtcMonth a b := by
    intro b
    rw [keyAt_eq_iff]
    exact monthlyBucket_eq_iff
  exact ⟨hweekly, oncePerBucket_iff.trans hweekly, hmonthly, oncePerBucket_iff.mpr hmonthly⟩

/-- Noon of 3 June 2026, a Wednesday. -/
theorem juneWeek : OncePerBucket .weekly 1780488000000 ∧ OncePerBucket .monthly 1780488000000 := by
  have hmodern : Modern 1780488000000 := .inr (by decide +kernel)
  obtain ⟨_, hweekly, _, hmonthly⟩ := leaderboard_buckets 1780488000000 hmodern
  refine ⟨hweekly.mpr ⟨by decide +kernel, ?_⟩, hmonthly⟩
  rintro edge (rfl | rfl) _
  · decide +kernel
  · decide +kernel

/-- 29 December 2025 and 1 January 2026 are in one ISO week and have two keys; 1 January 2025, a
year before, has the key of the former. -/
theorem newYearWeek :
    (SameIsoWeek 1766966400000 1767225600000 ∧
      keyAt .weekly 1766966400000 ≠ keyAt .weekly 1767225600000) ∧
    (keyAt .weekly 1766966400000 = keyAt .weekly 1735689600000 ∧
      ¬ SameIsoWeek 1766966400000 1735689600000) := by
  unfold SameIsoWeek
  refine ⟨⟨by decide +kernel, by decide +kernel⟩, by decide +kernel, by decide +kernel⟩

end OnceABucket

end Rules
end LivePoly
