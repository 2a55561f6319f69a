import LivePoly.Service.Stats
import Mathlib.Algebra.Order.Floor.Ring

/-!
# Service.ExactStats

The arithmetic of `GameRatingService` and of the averages of `GameStatsService`, with what each
operation rounds to, the expected score and the K factor left open. Rounded to binary64 it is what
the service computes; with nothing rounded it is exact.
-/

namespace LivePoly
namespace Service

open Binary64

/-- Where the arithmetic is done. -/
structure Arithmetic (𝕜 : Type) where
  rounded : 𝕜 → 𝕜
  getExpectedScore : Int → Int → 𝕜

/-- Nothing is rounded. -/
def exactArithmetic {𝕜 : Type} (expected : Int → Int → 𝕜) : Arithmetic 𝕜 := ⟨id, expected⟩

def binary64Arithmetic (exp10 : Rat → Rat) : Arithmetic Rat :=
  ⟨fl, GameRatingService.getExpectedScore exp10⟩

/-- A change with the placement it is for. -/
structure PlacedRatingChange extends RatingChange where
  placement : Nat
  deriving DecidableEq

namespace GameRatingService

section Field

variable {𝕜 : Type} [Field 𝕜] [LinearOrder 𝕜] [FloorRing 𝕜]

def actualScore (participant opponent : RatingParticipant) : 𝕜 :=
  if participant.placement < opponent.placement then 1 else 0

def performanceDeltaIn (arithmetic : Arithmetic 𝕜) (participant : RatingParticipant)
    (opponents : List RatingParticipant) : 𝕜 :=
  opponents.foldl (fun total opponent =>
    arithmetic.rounded (arithmetic.rounded (total + actualScore participant opponent) -
      arithmetic.getExpectedScore participant.rating opponent.rating)) 0

def opponentsOf (participants : List RatingParticipant) (participant : RatingParticipant) :
    List RatingParticipant :=
  participants.filter fun opponent => opponent.userId ≠ participant.userId

/-- What is rounded to the delta of the rating. -/
def unroundedDelta (arithmetic : Arithmetic 𝕜) (kFactor : 𝕜)
    (participants : List RatingParticipant) (participant : RatingParticipant) : 𝕜 :=
  let opponents := opponentsOf participants participant
  arithmetic.rounded (arithmetic.rounded (kFactor / opponents.length) *
    performanceDeltaIn arithmetic participant opponents)

/-- `Math.round` -/
def mathRound (x : 𝕜) : Int := ⌊x + 1 / 2⌋

def ratingChangeIn (arithmetic : Arithmetic 𝕜) (kFactor : 𝕜)
    (participants : List RatingParticipant) (participant : RatingParticipant) :
    PlacedRatingChange :=
  let ratingDelta := mathRound (unroundedDelta arithmetic kFactor participants participant)
  let ratingAfter := max minRating (participant.rating + ratingDelta)
  { userId := participant.userId
    placement := participant.placement
    ratingBefore := participant.rating
    ratingAfter
    ratingDelta := ratingAfter - participant.rating }

def calculateRatingChangesIn (arithmetic : Arithmetic 𝕜) (kFactor : 𝕜)
    (participants : List RatingParticipant) : Except StatsError (List PlacedRatingChange) :=
  if participants.length < 2 then .ok []
  else if ¬ (participants.map RatingParticipant.placement).Nodup then
    .error .ratingRequiresUniquePlacements
  else .ok (participants.map (ratingChangeIn arithmetic kFactor participants))

end Field

/-- The service calculates in binary64, with the default K factor. -/
theorem calculateRatingChanges_eq (exp10 : Rat → Rat) (participants : List RatingParticipant) :
    calculateRatingChanges exp10 participants =
      (calculateRatingChangesIn (binary64Arithmetic exp10) defaultKFactor participants).map
        (List.map PlacedRatingChange.toRatingChange) := by
  unfold calculateRatingChanges calculateRatingChangesIn
  split
  · rfl
  · split
    · rfl
    · rw [Except.map, List.map_map]
      rfl

end GameRatingService

namespace GameStatsService

/-- The average after one more game, before it is stored. -/
def avgPositionIn (rounded : Rat → Rat) (avgPosition : Rat) (gamesPlayed placement : Nat) : Rat :=
  rounded (rounded (rounded (rounded avgPosition * gamesPlayed) + placement) /
    ((gamesPlayed + 1 : Nat) : Rat))

def buildUpdatedStatsIn (rounded : Rat → Rat) (stats : PlayerStats) (finalNetWorth : Int)
    (placement : Nat) (ratingAfter : Int) : PlayerStats where
  userId := stats.userId
  gamesPlayed := stats.gamesPlayed + 1
  firstPlace := stats.firstPlace + if placement = 1 then 1 else 0
  secondPlace := stats.secondPlace + if placement = 2 then 1 else 0
  thirdPlace := stats.thirdPlace + if placement = 3 then 1 else 0
  fourthPlace := stats.fourthPlace + if placement = 4 then 1 else 0
  avgPosition := toFixed2 (avgPositionIn rounded stats.avgPosition stats.gamesPlayed placement)
  currentRating := ratingAfter
  peakRating := max stats.peakRating ratingAfter
  totalNetWorth := stats.totalNetWorth + finalNetWorth
  totalRentCollected := stats.totalRentCollected
  totalRentPaid := stats.totalRentPaid

theorem buildUpdatedStats_eq : buildUpdatedStats = buildUpdatedStatsIn fl := rfl

end GameStatsService

end Service
end LivePoly
