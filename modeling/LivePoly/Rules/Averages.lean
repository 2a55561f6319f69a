import LivePoly.Service.ExactStats
import Mathlib.Data.Rat.Floor
import Mathlib.Data.List.Dedup
import Mathlib.Tactic.Linarith
import Mathlib.Tactic.FieldSimp
import Mathlib.Tactic.Ring
import Mathlib.Tactic.NormNum

/-!
# Rules.Averages

The average position of a career in exact arithmetic. Each game is averaged with the stored value,
which is rounded to hundredths; the roundings add up, and from some game on a game no longer moves
the stored value. In the scale of hundredths all of this is arithmetic of natural numbers.
-/

namespace LivePoly
namespace Rules

open Service Service.GameStatsService

/-- What a finished game adds to the statistics of a user. -/
structure FinishedGame where
  placement : Nat
  finalNetWorth : Int
  ratingAfter : Int

/-- The statistics of a user after the games, from none. -/
def careerStats (userId : UserId) (games : List FinishedGame) : PlayerStats :=
  games.foldl (fun stats game =>
    buildUpdatedStatsIn id stats game.finalNetWorth game.placement game.ratingAfter)
    (initialPlayerStats userId)

/-- The true mean. -/
def meanPlacement (games : List FinishedGame) : ℚ :=
  (games.map FinishedGame.placement).sum / games.length

def AccurateAverage (userId : UserId) (games : List FinishedGame) : Prop :=
  |(careerStats userId games).avgPosition - meanPlacement games| ≤ 1 / 100

/-! ## Hundredths -/

/-- The games, the stored average in hundredths, and the sum of the placements. -/
structure Tally where
  games : Nat
  hundredths : Nat
  total : Nat
  deriving DecidableEq

def Tally.add (t : Tally) (placement : Nat) : Tally where
  games := t.games + 1
  hundredths :=
    (2 * (t.hundredths * t.games + 100 * placement) + (t.games + 1)) / (2 * (t.games + 1))
  total := t.total + placement

/-- The stored average is at most one hundredth off. -/
def Tally.within (t : Tally) : Bool :=
  t.hundredths * t.games ≤ 100 * t.total + t.games &&
    100 * t.total ≤ t.hundredths * t.games + t.games

def tallyOf (placements : List Nat) : Tally := placements.foldl Tally.add ⟨0, 0, 0⟩

theorem tallyOf_append (placements : List Nat) (placement : Nat) :
    tallyOf (placements ++ [placement]) = (tallyOf placements).add placement := by
  rw [tallyOf, List.foldl_append]
  rfl

/-- Rounding a quotient to hundredths is a division. -/
theorem toFixed2_hundredths (hundredths games placement : Nat) :
    toFixed2 (avgPositionIn id (hundredths / 100) games placement) =
      (((2 * (hundredths * games + 100 * placement) + (games + 1)) / (2 * (games + 1)) : Nat) : ℚ)
        / 100 := by
  have hpos : ((games : ℚ) + 1) ≠ 0 := by positivity
  have hquotient : 100 * avgPositionIn id ((hundredths : ℚ) / 100) games placement + 1 / 2 =
      ((2 * (hundredths * games + 100 * placement) + (games + 1) : Nat) : ℚ) /
        ((2 * (games + 1) : Nat) : ℚ) := by
    simp only [avgPositionIn, id]
    push_cast
    field_simp
  rw [toFixed2, hquotient]
  have hfloor := Rat.floor_natCast_div_natCast
    (2 * (hundredths * games + 100 * placement) + (games + 1)) (2 * (games + 1))
  rw [show Rat.floor _ = ⌊(_ : ℚ)⌋ from rfl, hfloor, ← Int.natCast_div, Int.cast_natCast]

theorem careerStats_append (userId : UserId) (games : List FinishedGame) (game : FinishedGame) :
    careerStats userId (games ++ [game]) = buildUpdatedStatsIn id (careerStats userId games)
      game.finalNetWorth game.placement game.ratingAfter := by
  rw [careerStats, List.foldl_append]
  rfl

theorem careerStats_tally (userId : UserId) (games : List FinishedGame) :
    (careerStats userId games).gamesPlayed = games.length ∧
    (tallyOf (games.map FinishedGame.placement)).games = games.length ∧
    (tallyOf (games.map FinishedGame.placement)).total =
      (games.map FinishedGame.placement).sum ∧
    (careerStats userId games).avgPosition =
      ((tallyOf (games.map FinishedGame.placement)).hundredths : ℚ) / 100 := by
  induction games using List.reverseRecOn with
  | nil => simp [careerStats, initialPlayerStats, tallyOf]
  | append_singleton games game ih =>
    obtain ⟨hplayed, hgames, htotal, haverage⟩ := ih
    rw [careerStats_append, List.map_append, List.map_cons, List.map_nil, tallyOf_append]
    refine ⟨?_, ?_, ?_, ?_⟩
    · simp [buildUpdatedStatsIn, hplayed]
    · simp [Tally.add, hgames]
    · simp [Tally.add, htotal]
    · simp only [buildUpdatedStatsIn, hplayed, haverage, toFixed2_hundredths, Tally.add, hgames]

theorem accurateAverage_iff (userId : UserId) {games : List FinishedGame}
    (h : games ≠ []) : AccurateAverage userId games ↔
      (tallyOf (games.map FinishedGame.placement)).within = true := by
  obtain ⟨_, hgames, htotal, haverage⟩ := careerStats_tally userId games
  have hpos : (0 : ℚ) < games.length := by exact_mod_cast List.length_pos_iff.mpr h
  unfold AccurateAverage
  rw [haverage, meanPlacement, ← htotal, ← hgames] at *
  generalize tallyOf (games.map FinishedGame.placement) = t at *
  have hscaled : (t.hundredths : ℚ) / 100 - t.total / t.games =
      ((t.hundredths * t.games : ℚ) - 100 * t.total) / (100 * t.games) := by
    field_simp
  rw [hscaled, abs_le, le_div_iff₀ (by positivity), div_le_iff₀ (by positivity)]
  simp only [Tally.within, Bool.and_eq_true, decide_eq_true_eq]
  rw [← Nat.cast_le (α := ℚ), ← Nat.cast_le (α := ℚ)]
  push_cast
  constructor
  · rintro ⟨hlow, hhigh⟩
    constructor <;> linarith
  · rintro ⟨hhigh, hlow⟩
    constructor <;> linarith

/-! ## Few games -/

/-- The tallies of all sequences of `n` placements between 1 and 4. -/
def tallies : Nat → List Tally
  | 0 => [⟨0, 0, 0⟩]
  | n + 1 => ((tallies n).flatMap fun t => [1, 2, 3, 4].map t.add).dedup

theorem mem_tallies {placements : List Nat} (h : ∀ p ∈ placements, 1 ≤ p ∧ p ≤ 4) :
    tallyOf placements ∈ tallies placements.length := by
  induction placements using List.reverseRecOn with
  | nil => exact List.mem_singleton_self _
  | append_singleton placements p ih =>
    rw [tallyOf_append, List.length_append, List.length_singleton, tallies, List.mem_dedup]
    have hprefix := ih fun q hq => h q (List.mem_append_left _ hq)
    refine List.mem_flatMap.mpr ⟨_, hprefix, List.mem_map_of_mem ?_⟩
    obtain ⟨hlow, hhigh⟩ := h p (List.mem_append_right _ List.mem_cons_self)
    simp only [List.mem_cons, List.not_mem_nil, or_false]
    omega

/-- Up to eight games no rounding adds up to more than a hundredth, and ten games make up for what
nine may miss. -/
theorem tallies_within {n : Nat} (h : n ≤ 8 ∨ n = 10) : ∀ t ∈ tallies n, t.within = true := by
  have hall : ∀ m ∈ [0, 1, 2, 3, 4, 5, 6, 7, 8, 10], (tallies m).all Tally.within = true := by
    decide +kernel
  have hmem : n ∈ [0, 1, 2, 3, 4, 5, 6, 7, 8, 10] := by
    simp only [List.mem_cons, List.not_mem_nil, or_false]
    omega
  exact List.all_eq_true.mp (hall n hmem)

/-! ## Many games -/

/-- Three wins, and then second, second, third, second over and over. -/
def slowPlacement (i : Nat) : Nat := if i < 3 then 1 else if i % 4 = 1 then 3 else 2

def slowTally : Nat → Tally
  | 0 => ⟨0, 0, 0⟩
  | n + 1 => (slowTally n).add (slowPlacement n)

theorem tallyOf_slow (n : Nat) : tallyOf ((List.range n).map slowPlacement) = slowTally n := by
  induction n with
  | zero => rfl
  | succ n ih =>
    rw [List.range_succ, List.map_append, List.map_cons, List.map_nil, tallyOf_append, ih,
      slowTally]

theorem slowTally_games (n : Nat) : (slowTally n).games = n := by
  induction n with
  | zero => rfl
  | succ n ih => rw [slowTally, Tally.add, ih]

theorem slowTally_total {n : Nat} (h : 3 ≤ n) :
    (slowTally n).total = 2 * n - 3 + (n - 2) / 4 := by
  induction n, h using Nat.le_induction with
  | base => rfl
  | succ n h ih =>
    simp only [slowTally, Tally.add, ih, slowPlacement, if_neg (Nat.not_lt.mpr h)]
    split <;> omega

theorem slowTally_frozen {n : Nat} (h : 160 ≤ n) : (slowTally n).hundredths = 242 := by
  induction n, h using Nat.le_induction with
  | base => decide +kernel
  | succ n h ih =>
    have hplacement : slowPlacement n = 2 ∨ slowPlacement n = 3 := by
      unfold slowPlacement
      split
      · omega
      · split
        · exact .inr rfl
        · exact .inl rfl
    simp only [slowTally, Tally.add, ih, slowTally_games]
    rcases hplacement with hp | hp
    · rw [hp, Nat.div_eq_iff (by omega)]
      omega
    · rw [hp, Nat.div_eq_iff (by omega)]
      omega

theorem slowTally_off {n : Nat} (h : n = 9 ∨ 11 ≤ n) : (slowTally n).within = false := by
  by_cases hfew : n < 160
  · have hall : ∀ m < 160, m = 9 ∨ 11 ≤ m → (slowTally m).within = false := by
      decide +kernel
    exact hall n hfew h
  · have hn : 160 ≤ n := Nat.not_lt.mp hfew
    have htotal := slowTally_total (n := n) (by omega)
    simp only [Tally.within, slowTally_frozen hn, slowTally_games, htotal, Bool.and_eq_false_iff,
      decide_eq_false_iff_not]
    omega

/-! ## Careers -/

def slowCareer (n : Nat) : List FinishedGame :=
  (List.range n).map fun i => ⟨slowPlacement i, 0, defaultRating⟩

theorem slowCareer_placements (n : Nat) :
    (slowCareer n).map FinishedGame.placement = (List.range n).map slowPlacement := by
  rw [slowCareer, List.map_map]
  rfl

theorem slowPlacement_bounds (i : Nat) : 1 ≤ slowPlacement i ∧ slowPlacement i ≤ 4 := by
  unfold slowPlacement
  split
  · omega
  · split <;> omega

theorem slowCareer_inaccurate (userId : UserId) {n : Nat} (h : n = 9 ∨ 11 ≤ n) :
    ¬ AccurateAverage userId (slowCareer n) := by
  have hlength : (slowCareer n).length = n := by rw [slowCareer, List.length_map, List.length_range]
  have hgames : slowCareer n ≠ [] := by
    intro hnone
    rw [hnone, List.length_nil] at hlength
    omega
  rw [accurateAverage_iff userId hgames, slowCareer_placements, tallyOf_slow, slowTally_off h]
  exact Bool.false_ne_true

/-- The stored average of every career of `n` games is accurate exactly if there are at most eight
games, or ten. -/
theorem average_accurate_iff (userId : UserId) (n : Nat) :
    (∀ games : List FinishedGame, games.length = n →
      (∀ game ∈ games, 1 ≤ game.placement ∧ game.placement ≤ 4) → AccurateAverage userId games) ↔
      n ≤ 8 ∨ n = 10 := by
  constructor
  · intro haccurate
    by_contra hmany
    refine slowCareer_inaccurate userId (n := n) (by omega) (haccurate _ ?_ ?_)
    · rw [slowCareer, List.length_map, List.length_range]
    · intro game hgame
      obtain ⟨i, _, rfl⟩ := List.mem_map.mp hgame
      exact slowPlacement_bounds i
  · rintro hfew games rfl hplacements
    by_cases hgames : games = []
    · subst hgames
      simp [AccurateAverage, careerStats, initialPlayerStats, meanPlacement]
    · rw [accurateAverage_iff userId hgames]
      refine tallies_within hfew _ ?_
      rw [← List.length_map FinishedGame.placement]
      refine mem_tallies ?_
      intro p hp
      obtain ⟨game, hgame, rfl⟩ := List.mem_map.mp hp
      exact hplacements game hgame

/-- After 160 games the stored average is 2.42; the mean is below 2.25. -/
theorem slowCareer_160 : ¬ AccurateAverage ⟨1⟩ (slowCareer 160) ∧
    ∀ game ∈ slowCareer 160, 1 ≤ game.placement ∧ game.placement ≤ 4 := by
  refine ⟨slowCareer_inaccurate ⟨1⟩ (.inr (by decide)), fun game hgame => ?_⟩
  obtain ⟨i, _, rfl⟩ := List.mem_map.mp hgame
  exact slowPlacement_bounds i

end Rules
end LivePoly
