import LivePoly.Service.ExactStats
import Mathlib.Algebra.BigOperators.Ring.List
import Mathlib.Algebra.Order.BigOperators.Group.List
import Mathlib.Tactic.Linarith
import Mathlib.Tactic.Ring
import Mathlib.Tactic.FieldSimp

/-!
# Rules.Ratings

Ratings in exact arithmetic. What one participant gains over another the other one loses, so the
unrounded deltas sum to zero. The sum over the opponents of a participant is the sum over all
participants without the part of its own; so of two equal ratings the better placement gains more.
-/

namespace LivePoly
namespace Rules

open Service Service.GameRatingService

section Sums

variable {𝕜 α : Type} [Field 𝕜]

/-- The two orders of a double sum. -/
theorem sum_sum_comm (xs ys : List α) (f : α → α → 𝕜) :
    (xs.map fun x => (ys.map (f x)).sum).sum = (ys.map fun y => (xs.map fun x => f x y).sum).sum := by
  induction xs with
  | nil => simp
  | cons x xs ih =>
    simp only [List.map_cons, List.sum_cons, ih]
    rw [← List.sum_map_add]

variable [LinearOrder 𝕜] [IsStrictOrderedRing 𝕜]

theorem sum_sum_eq_zero {xs : List α} {f : α → α → 𝕜}
    (h : ∀ x ∈ xs, ∀ y ∈ xs, f x y + f y x = 0) :
    (xs.map fun x => (xs.map (f x)).sum).sum = 0 := by
  have hpairs : (xs.map fun x => (xs.map fun y => f x y + f y x).sum).sum = 0 := by
    refine List.sum_eq_zero fun s hs => ?_
    obtain ⟨x, hx, rfl⟩ := List.mem_map.mp hs
    refine List.sum_eq_zero fun s hs => ?_
    obtain ⟨y, hy, rfl⟩ := List.mem_map.mp hs
    exact h x hx y hy
  have htwice : (xs.map fun x => (xs.map (f x)).sum).sum +
      (xs.map fun x => (xs.map (f x)).sum).sum = 0 := by
    calc _ = (xs.map fun x => (xs.map (f x)).sum).sum +
          (xs.map fun x => (xs.map fun y => f y x).sum).sum := by rw [sum_sum_comm xs xs f]
      _ = (xs.map fun x => (xs.map fun y => f x y + f y x).sum).sum := by
        rw [← List.sum_map_add]
        simp only [List.sum_map_add]
      _ = 0 := hpairs
  linarith

theorem abs_sum_map_le {c : 𝕜} {xs : List α} {f : α → 𝕜} (h : ∀ x ∈ xs, |f x| ≤ c) :
    |(xs.map f).sum| ≤ xs.length * c := by
  induction xs with
  | nil => simp
  | cons x xs ih =>
    have hx := h x List.mem_cons_self
    have hxs := ih fun y hy => h y (List.mem_cons_of_mem _ hy)
    rw [List.map_cons, List.sum_cons, List.length_cons, Nat.cast_add, Nat.cast_one]
    calc |f x + (xs.map f).sum| ≤ |f x| + |(xs.map f).sum| := abs_add_le _ _
      _ ≤ c + xs.length * c := add_le_add hx hxs
      _ = (xs.length + 1) * c := by ring

theorem perm_cons_filter_ne {β : Type} [DecidableEq β] {key : α → β} {xs : List α}
    (hkeys : (xs.map key).Nodup) {x : α} (hx : x ∈ xs) :
    xs.Perm (x :: xs.filter fun y => key y ≠ key x) := by
  induction xs with
  | nil => cases hx
  | cons y ys ih =>
    obtain ⟨hnew, hys⟩ := List.nodup_cons.mp hkeys
    rcases List.mem_cons.mp hx with rfl | hx
    · have hothers : (ys.filter fun z => key z ≠ key x) = ys := by
        refine List.filter_eq_self.mpr fun z hz => ?_
        have hne : key z ≠ key x := fun h => hnew (h ▸ List.mem_map_of_mem hz)
        simpa using hne
      rw [List.filter_cons_of_neg (by simp), hothers]
    · have hne : key y ≠ key x := fun h => hnew (h ▸ List.mem_map_of_mem hx)
      rw [List.filter_cons_of_pos (by simpa using hne)]
      exact ((ih hys hx).cons y).trans (List.Perm.swap _ _ _)

end Sums

section Ratings

variable {𝕜 : Type} [Field 𝕜]
  {expected : Int → Int → 𝕜} {kFactor : 𝕜} {participants : List RatingParticipant}
  {participant opponent : RatingParticipant}

/-- What a participant gains over an opponent. -/
def gain (expected : Int → Int → 𝕜) (participant opponent : RatingParticipant) : 𝕜 :=
  actualScore participant opponent - expected participant.rating opponent.rating

theorem performanceDelta_exact (opponents : List RatingParticipant) (start : 𝕜) :
    opponents.foldl (fun total opponent => (exactArithmetic expected).rounded
      ((exactArithmetic expected).rounded (total + actualScore participant opponent) -
        (exactArithmetic expected).getExpectedScore participant.rating opponent.rating)) start =
      start + (opponents.map (gain expected participant)).sum := by
  induction opponents generalizing start with
  | nil => simp
  | cons opponent opponents ih =>
    rw [List.foldl_cons, ih, List.map_cons, List.sum_cons]
    simp only [exactArithmetic, id, gain]
    ring

theorem opponentsOf_length (husers : (participants.map RatingParticipant.userId).Nodup)
    (h : participant ∈ participants) :
    (opponentsOf participants participant).length + 1 = participants.length :=
  (perm_cons_filter_ne husers h).length_eq.symm

/-- Over all participants; the part of the participant itself is taken out. -/
theorem unroundedDelta_exact (husers : (participants.map RatingParticipant.userId).Nodup)
    (h : participant ∈ participants) :
    unroundedDelta (exactArithmetic expected) kFactor participants participant =
      kFactor / ((participants.length - 1 : Nat) : 𝕜) *
        ((participants.map (gain expected participant)).sum - gain expected participant participant)
    := by
  have hlength := opponentsOf_length husers h
  have hcount : (opponentsOf participants participant).length = participants.length - 1 := by
    omega
  have hsum : (participants.map (gain expected participant)).sum =
      gain expected participant participant +
        ((opponentsOf participants participant).map (gain expected participant)).sum := by
    have hperm := (perm_cons_filter_ne husers h).map (gain expected participant)
    exact hperm.sum_eq
  simp only [unroundedDelta, performanceDeltaIn]
  rw [performanceDelta_exact, hcount, hsum]
  simp only [exactArithmetic, id, zero_add, add_sub_cancel_left]

/-- What a participant gains over another one, and nothing over itself. -/
def gainOver (expected : Int → Int → 𝕜) (x y : RatingParticipant) : 𝕜 :=
  if x.placement = y.placement then 0 else gain expected x y

theorem sum_gainOver (hplaces : (participants.map RatingParticipant.placement).Nodup)
    (h : participant ∈ participants) :
    (participants.map (gainOver expected participant)).sum =
      (participants.map (gain expected participant)).sum -
        gain expected participant participant := by
  have hperm := perm_cons_filter_ne hplaces h
  have hrest : ((participants.filter fun y => y.placement ≠ participant.placement).map
      (gainOver expected participant)) =
      (participants.filter fun y => y.placement ≠ participant.placement).map
        (gain expected participant) := by
    refine List.map_congr_left fun y hy => ?_
    have hne : y.placement ≠ participant.placement := by simpa using (List.mem_filter.mp hy).2
    exact if_neg (Ne.symm hne)
  have hself : gainOver expected participant participant = 0 := if_pos rfl
  rw [(hperm.map (gainOver expected participant)).sum_eq,
    (hperm.map (gain expected participant)).sum_eq, List.map_cons, List.map_cons, List.sum_cons,
    List.sum_cons, hrest, hself, zero_add, add_sub_cancel_left]

variable [LinearOrder 𝕜] [IsStrictOrderedRing 𝕜]

/-- Of two participants one wins, and the expected scores share one win. -/
theorem gain_add_gain (hexpected : ∀ a b, expected a b + expected b a = 1)
    (hne : participant.placement ≠ opponent.placement) :
    gain expected participant opponent + gain expected opponent participant = 0 := by
  have hshare := hexpected participant.rating opponent.rating
  have hwin : (actualScore participant opponent : 𝕜) + actualScore opponent participant = 1 := by
    unfold actualScore
    rcases Nat.lt_or_gt_of_ne hne with h | h
    · rw [if_pos h, if_neg (Nat.lt_asymm h), add_zero]
    · rw [if_neg (Nat.lt_asymm h), if_pos h, zero_add]
  unfold gain
  linarith

theorem sum_unroundedDelta (hexpected : ∀ a b, expected a b + expected b a = 1)
    (husers : (participants.map RatingParticipant.userId).Nodup)
    (hplaces : (participants.map RatingParticipant.placement).Nodup) :
    (participants.map (unroundedDelta (exactArithmetic expected) kFactor participants)).sum = 0 := by
  have hothers : ∀ x ∈ participants,
      unroundedDelta (exactArithmetic expected) kFactor participants x =
        kFactor / ((participants.length - 1 : Nat) : 𝕜) *
          (participants.map (gainOver expected x)).sum := by
    intro x hx
    rw [unroundedDelta_exact husers hx, sum_gainOver hplaces hx]
  have hzero : (participants.map fun x => (participants.map (gainOver expected x)).sum).sum = 0 := by
    refine sum_sum_eq_zero fun x hx y hy => ?_
    by_cases hsame : x.placement = y.placement
    · simp [gainOver, hsame]
    · simp only [gainOver, if_neg hsame, if_neg (Ne.symm hsame)]
      exact gain_add_gain hexpected hsame
  rw [List.map_congr_left hothers, List.sum_map_mul_left, hzero, mul_zero]

variable [FloorRing 𝕜]

theorem mathRound_mono {x y : 𝕜} (h : x ≤ y) :
    mathRound x ≤ mathRound y :=
  Int.floor_mono (add_le_add_left h _)

theorem abs_mathRound_sub (x : 𝕜) : |(mathRound x : 𝕜) - x| ≤ 1 / 2 := by
  have hle := Int.floor_le (x + 1 / 2)
  have hlt := Int.lt_floor_add_one (x + 1 / 2)
  unfold mathRound
  refine abs_le.mpr ⟨?_, ?_⟩ <;> linarith

/-- Rounding shifts each delta by at most a half. -/
theorem abs_sum_rounded_le (hexpected : ∀ a b, expected a b + expected b a = 1)
    (husers : (participants.map RatingParticipant.userId).Nodup)
    (hplaces : (participants.map RatingParticipant.placement).Nodup) :
    |(((participants.map fun x => mathRound
      (unroundedDelta (exactArithmetic expected) kFactor participants x)).sum : Int) : 𝕜)| ≤
      participants.length / 2 := by
  let delta := unroundedDelta (exactArithmetic expected) kFactor participants
  have hshift : (((participants.map fun x => mathRound (delta x)).sum : Int) : 𝕜) =
      (participants.map fun x => (mathRound (delta x) : 𝕜) - delta x).sum := by
    have hcast : ∀ xs : List RatingParticipant,
        (((xs.map fun x => mathRound (delta x)).sum : Int) : 𝕜) =
          (xs.map fun x => (mathRound (delta x) : 𝕜) - delta x).sum + (xs.map delta).sum := by
      intro xs
      induction xs with
      | nil => simp
      | cons x xs ih =>
        simp only [List.map_cons, List.sum_cons, Int.cast_add, ih]
        ring
    rw [hcast, sum_unroundedDelta hexpected husers hplaces, add_zero]
  rw [hshift]
  calc |(participants.map fun x => (mathRound (delta x) : 𝕜) - delta x).sum|
      ≤ participants.length * (1 / 2) := abs_sum_map_le fun x _ => abs_mathRound_sub (delta x)
    _ = participants.length / 2 := by ring

/-- Of two equal ratings the better placement beats at least the same opponents. -/
theorem unroundedDelta_le (husers : (participants.map RatingParticipant.userId).Nodup)
    (hk : 0 ≤ kFactor) (h : participant ∈ participants) (h' : opponent ∈ participants)
    (hrating : participant.rating = opponent.rating)
    (hplace : participant.placement < opponent.placement) :
    unroundedDelta (exactArithmetic expected) kFactor participants opponent ≤
      unroundedDelta (exactArithmetic expected) kFactor participants participant := by
  have hgain : ∀ y, gain expected opponent y ≤ gain expected participant y := by
    intro y
    unfold gain actualScore
    rw [hrating]
    refine sub_le_sub_right ?_ _
    by_cases hwin : opponent.placement < y.placement
    · rw [if_pos hwin, if_pos (hplace.trans hwin)]
    · rw [if_neg hwin]
      split
      · exact zero_le_one
      · exact le_refl _
  have hself : ∀ x : RatingParticipant, gain expected x x = -expected x.rating x.rating := by
    intro x
    rw [gain, actualScore, if_neg (Nat.lt_irrefl _), zero_sub]
  rw [unroundedDelta_exact husers h, unroundedDelta_exact husers h', hself, hself, hrating]
  refine mul_le_mul_of_nonneg_left (sub_le_sub_right ?_ _) (div_nonneg hk (Nat.cast_nonneg _))
  exact List.sum_le_sum fun y _ => hgain y

/-- Fair changes: what is gained is lost, up to the rounding; of two equal ratings the better
placement never has the smaller delta; and no rating falls below 300. -/
theorem ratingChanges_fair (hexpected : ∀ a b, expected a b + expected b a = 1)
    (hmany : 2 ≤ participants.length)
    (husers : (participants.map RatingParticipant.userId).Nodup)
    (hplaces : (participants.map RatingParticipant.placement).Nodup) :
    let delta := unroundedDelta (exactArithmetic expected) kFactor participants
    let change := ratingChangeIn (exactArithmetic expected) kFactor participants
    calculateRatingChangesIn (exactArithmetic expected) kFactor participants =
      .ok (participants.map change) ∧
    (participants.map delta).sum = 0 ∧
    |(((participants.map fun x => mathRound (delta x)).sum : Int) : 𝕜)| ≤
      participants.length / 2 ∧
    (0 ≤ kFactor → ∀ x ∈ participants, ∀ y ∈ participants, x.rating = y.rating →
      x.placement < y.placement → (change y).ratingDelta ≤ (change x).ratingDelta) ∧
    ∀ x ∈ participants, 300 ≤ (change x).ratingAfter ∧
      (change x).ratingAfter = (change x).ratingBefore + (change x).ratingDelta := by
  refine ⟨?_, sum_unroundedDelta hexpected husers hplaces,
    abs_sum_rounded_le hexpected husers hplaces, ?_, ?_⟩
  · rw [calculateRatingChangesIn, if_neg (Nat.not_lt.mpr hmany), if_neg (not_not.mpr hplaces)]
  · intro hk x hx y hy hrating hplace
    have hdelta : unroundedDelta (exactArithmetic expected) kFactor participants y ≤
        unroundedDelta (exactArithmetic expected) kFactor participants x :=
      unroundedDelta_le husers hk hx hy hrating hplace
    have hrounded := mathRound_mono hdelta
    simp only [ratingChangeIn, hrating]
    omega
  · intro x _
    refine ⟨le_max_left _ _, ?_⟩
    simp only [ratingChangeIn]
    omega

end Ratings

/-! ## Two equal ratings -/

/-- A user first and a user second, both rated 500. -/
def equalPair : List RatingParticipant := [⟨⟨1⟩, 1, 500⟩, ⟨⟨2⟩, 2, 500⟩]

theorem equalPair_fair :
    let change := ratingChangeIn (exactArithmetic fun _ _ => (1 / 2 : ℚ)) 32 equalPair
    (equalPair.map (unroundedDelta (exactArithmetic fun _ _ => (1 / 2 : ℚ)) 32 equalPair)).sum = 0 ∧
    (change ⟨⟨2⟩, 2, 500⟩).ratingDelta ≤ (change ⟨⟨1⟩, 1, 500⟩).ratingDelta := by
  obtain ⟨_, hsum, _, hbetter, _⟩ := @ratingChanges_fair ℚ _ (fun _ _ => 1 / 2) 32
    equalPair _ _ _ (fun _ _ => add_halves 1) (by decide) (by decide)
    (by decide)
  exact ⟨hsum, hbetter (by norm_num) ⟨⟨1⟩, 1, 500⟩ (by decide) ⟨⟨2⟩, 2, 500⟩ (by decide) rfl
    (by decide)⟩

/-- With a negative K factor the winner loses what the other one gains. -/
theorem equalPair_negative :
    let change := ratingChangeIn (exactArithmetic fun _ _ => (1 / 2 : ℚ)) (-32) equalPair
    ∃ x ∈ equalPair, ∃ y ∈ equalPair, x.rating = y.rating ∧ x.placement < y.placement ∧
      (change x).ratingDelta < (change y).ratingDelta := by
  refine ⟨⟨⟨1⟩, 1, 500⟩, by decide, ⟨⟨2⟩, 2, 500⟩, by decide, rfl, by decide, ?_⟩
  decide +kernel

end Rules
end LivePoly
