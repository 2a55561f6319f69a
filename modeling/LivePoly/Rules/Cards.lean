import LivePoly.Rules.Updates

/-!
# Rules.Cards

The two cards that move money between players. Each is a loop of transfers; with distinct
players and enough cash it adds to every player's cash what `cardShare` says.
-/

namespace LivePoly
namespace Rules

open Engine Checked

/-- A state as the log shows it; of the offers only the pending one is kept. -/
def replicaOf (s : GameEngineState) : Replica where
  seats := s.players.map seatOf
  tiles := s.properties
  offers := fun id => (s.tradeOffer.filter fun trade => trade.id = id).map termsOf
  total := (s.players.map GameEnginePlayer.cash).sum

/-- The players with what a card drawn by `p` gives them. -/
def settleCard (s : GameEngineState) (p : RoomPlayerId) (effect : GameCardEffect) :
    List GameEnginePlayer :=
  s.players.map fun pl =>
    { pl with cash := pl.cash + cardShare (replicaOf s) p effect (seatOf pl) }

theorem otherSeats_replicaOf (s : GameEngineState) (p : RoomPlayerId) :
    otherSeats (replicaOf s).seats p = (otherActivePlayers s p).map seatOf := by
  rw [otherSeats, replicaOf, otherActivePlayers, List.filter_map]
  rfl

theorem mem_otherActivePlayers {s : GameEngineState} {p : RoomPlayerId} {pl : GameEnginePlayer} :
    pl ∈ otherActivePlayers s p ↔
      pl ∈ s.players ∧ pl.roomPlayerId ≠ p ∧ pl.bankrupt = false := by
  simp [otherActivePlayers]

theorem otherActivePlayers_nodup {s : GameEngineState} (p : RoomPlayerId)
    (hnd : (s.players.map GameEnginePlayer.roomPlayerId).Nodup) :
    ((otherActivePlayers s p).map GameEnginePlayer.roomPlayerId).Nodup :=
  (List.filter_sublist.map _).nodup hnd

theorem received_append (xs ys : List (RoomPlayerId × Int)) (q : RoomPlayerId) :
    received (xs ++ ys) q = received xs q + received ys q := by
  simp [received]

/-- What a player outside the payers receives of transfers from each of them to `p`, and what a
payer loses. -/
theorem received_transfers {l : List GameEnginePlayer} {p : RoomPlayerId}
    (hnd : (l.map GameEnginePlayer.roomPlayerId).Nodup) (hp : ∀ x ∈ l, x.roomPlayerId ≠ p)
    (amount : GameEnginePlayer → Int) {payments : GameEnginePlayer → List (RoomPlayerId × Int)}
    (hpay : ∀ x q, received (payments x) q =
      (if x.roomPlayerId = q then -amount x else 0) + (if p = q then amount x else 0))
    (pl : GameEnginePlayer) :
    (pl.roomPlayerId = p → received (l.flatMap payments) pl.roomPlayerId = (l.map amount).sum) ∧
    (pl ∈ l → received (l.flatMap payments) pl.roomPlayerId = -amount pl) ∧
    (pl.roomPlayerId ≠ p → pl.roomPlayerId ∉ l.map GameEnginePlayer.roomPlayerId →
      received (l.flatMap payments) pl.roomPlayerId = 0) := by
  have hsum : ∀ q, received (l.flatMap payments) q =
      (l.map fun x => if x.roomPlayerId = q then -amount x else 0).sum +
        (l.map fun x => if p = q then amount x else 0).sum := by
    intro q
    clear hnd hp
    induction l with
    | nil => rfl
    | cons x l ih =>
      rw [List.flatMap_cons, received_append, ih, hpay]
      simp only [List.map_cons, List.sum_cons]
      omega
  have hzero : ∀ q, p ≠ q → (l.map fun x => if p = q then amount x else 0).sum = 0 := by
    intro q hq
    simp [hq]
  refine ⟨?_, ?_, ?_⟩
  · intro hpl
    have hnot : p ∉ l.map GameEnginePlayer.roomPlayerId := by
      intro hmem
      obtain ⟨x, hx, hxp⟩ := List.mem_map.mp hmem
      exact hp x hx hxp
    rw [hsum, hpl, Keyed.sum_ite_of_notMem _ hnot]
    simp
  · intro hpl
    rw [hsum, hzero _ (Ne.symm (hp pl hpl)),
      Keyed.sum_ite_of_mem GameEnginePlayer.roomPlayerId hnd hpl fun x => -amount x]
    simp
  · intro hpl hnot
    rw [hsum, hzero _ (Ne.symm hpl), Keyed.sum_ite_of_notMem _ hnot]
    simp

theorem foldl_transfers {s : GameEngineState} {p : RoomPlayerId}
    (hnd : (s.players.map GameEnginePlayer.roomPlayerId).Nodup)
    (amount : GameEnginePlayer → Int) (effect : GameCardEffect)
    {payments : GameEnginePlayer → List (RoomPlayerId × Int)}
    (hpay : ∀ x q, received (payments x) q =
      (if x.roomPlayerId = q then -amount x else 0) + (if p = q then amount x else 0))
    (hshare : ∀ pl ∈ s.players, cardShare (replicaOf s) p effect (seatOf pl) =
      if pl.roomPlayerId = p then ((otherActivePlayers s p).map amount).sum
      else if pl.bankrupt then 0 else -amount pl) :
    ((otherActivePlayers s p).flatMap payments).foldl
        (fun s payment => s.addCash payment.1 payment.2) s =
      { s with players := settleCard s p effect } := by
  rw [foldl_addCash]
  congr 1
  apply List.map_congr_left
  intro pl hpl
  rw [hshare pl hpl]
  have hothers : ∀ x ∈ otherActivePlayers s p, x.roomPlayerId ≠ p := fun x hx =>
    (mem_otherActivePlayers.mp hx).2.1
  obtain ⟨hself, hpayer, hrest⟩ :=
    received_transfers (otherActivePlayers_nodup p hnd) hothers amount hpay pl
  by_cases hp : pl.roomPlayerId = p
  · rw [hself hp, if_pos hp]
  · rw [if_neg hp]
    cases hb : pl.bankrupt with
    | false => rw [hpayer (mem_otherActivePlayers.mpr ⟨hpl, hp, hb⟩)]; rfl
    | true =>
      rw [hrest hp]
      · rfl
      · intro hmem
        obtain ⟨x, hx, hid⟩ := List.mem_map.mp hmem
        obtain ⟨hxs, _, hxb⟩ := mem_otherActivePlayers.mp hx
        have : x = pl := List.inj_on_of_nodup_map hnd hxs hpl hid
        rw [this, hb] at hxb
        cases hxb

section Each

variable {s : GameEngineState} {p : RoomPlayerId} {pl : GameEnginePlayer} {amount : Int}

/-- Each of the players in `l` can pay its share to `p`, one after the other. -/
theorem foldlM_collect (h0 : 0 ≤ amount) :
    ∀ (l : List GameEnginePlayer) (s : GameEngineState),
      (s.player? p).isSome → (l.map GameEnginePlayer.roomPlayerId).Nodup →
      (∀ x ∈ l, x.roomPlayerId ≠ p ∧ 0 ≤ x.cash ∧ s.player? x.roomPlayerId = some x) →
      l.foldlM (fun currentState player =>
          transferPlayerCash currentState player.roomPlayerId p (min player.cash amount)) s =
        .ok ((l.flatMap fun x =>
            [(x.roomPlayerId, -min x.cash amount), (p, min x.cash amount)]).foldl
          (fun s payment => s.addCash payment.1 payment.2) s) := by
  intro l
  induction l with
  | nil => intro s _ _ _; rfl
  | cons x l ih =>
    intro s hp hnd hl
    obtain ⟨hxp, hx0, hx⟩ := hl x List.mem_cons_self
    simp only [List.map_cons, List.nodup_cons] at hnd
    have hstep : transferPlayerCash s x.roomPlayerId p (min x.cash amount) =
        .ok ((s.addCash x.roomPlayerId (-min x.cash amount)).addCash p (min x.cash amount)) :=
      transferPlayerCash_eq_ok.mpr
        ⟨by omega, ⟨x, hx, by omega⟩, Option.isSome_iff_exists.mp hp, rfl⟩
    rw [List.foldlM_cons, hstep, ok_bind]
    refine (ih _ ?_ hnd.2 ?_).trans rfl
    · simpa only [GameEngineState.player?_addCash_isSome] using hp
    · intro y hy
      obtain ⟨hyp, hy0, hyf⟩ := hl y (List.mem_cons_of_mem _ hy)
      have hyx : y.roomPlayerId ≠ x.roomPlayerId := by
        intro he
        exact hnd.1 (he ▸ List.mem_map_of_mem hy)
      refine ⟨hyp, hy0, ?_⟩
      simp only [GameEngineState.player?_addCash, hyp, hyx, if_false, hyf]

theorem foldlM_pay (h0 : 0 ≤ amount) :
    ∀ (l : List GameEnginePlayer) (s : GameEngineState) (pl : GameEnginePlayer),
      s.player? p = some pl → l.length * amount ≤ pl.cash →
      (∀ x ∈ l, x.roomPlayerId ≠ p ∧ ∃ xl, s.player? x.roomPlayerId = some xl) →
      l.foldlM (fun currentState player =>
          transferPlayerCash currentState p player.roomPlayerId amount) s =
        .ok ((l.flatMap fun x => [(p, -amount), (x.roomPlayerId, amount)]).foldl
          (fun s payment => s.addCash payment.1 payment.2) s) := by
  intro l
  induction l with
  | nil => intro s pl _ _ _; rfl
  | cons x l ih =>
    intro s pl hpl hcash hl
    obtain ⟨hxp, hx⟩ := hl x List.mem_cons_self
    have hlen : ((x :: l).length : Int) * amount = l.length * amount + amount := by
      rw [List.length_cons]; push_cast; ring
    have hnonneg : 0 ≤ (l.length : Int) * amount := by positivity
    have hstep : transferPlayerCash s p x.roomPlayerId amount =
        .ok ((s.addCash p (-amount)).addCash x.roomPlayerId amount) :=
      transferPlayerCash_eq_ok.mpr ⟨h0, ⟨pl, hpl, by omega⟩, hx, rfl⟩
    rw [List.foldlM_cons, hstep, ok_bind]
    refine (ih _ { pl with cash := pl.cash + -amount } ?_ ?_ ?_).trans rfl
    · simp only [GameEngineState.player?_addCash, Ne.symm hxp, if_false, if_true, hpl,
        Option.map_some]
    · change (l.length : Int) * amount ≤ pl.cash + -amount
      omega
    · intro y hy
      obtain ⟨hyp, hyf⟩ := hl y (List.mem_cons_of_mem _ hy)
      refine ⟨hyp, ?_⟩
      rw [← Option.isSome_iff_exists] at hyf ⊢
      rw [GameEngineState.player?_addCash_isSome, GameEngineState.player?_addCash_isSome]
      exact hyf

variable (hnd : (s.players.map GameEnginePlayer.roomPlayerId).Nodup)
  (hpl : s.player? p = some pl) (h0 : 0 ≤ amount)

include hnd hpl h0

theorem collectFromEachPlayer_eq (hcash : ∀ x ∈ s.players, 0 ≤ x.cash) :
    collectFromEachPlayer s p amount =
      .ok ⟨{ s with players := settleCard s p (.collectFromEachPlayer amount) }, []⟩ := by
  have hothers : ∀ x ∈ otherActivePlayers s p,
      x.roomPlayerId ≠ p ∧ 0 ≤ x.cash ∧ s.player? x.roomPlayerId = some x := by
    intro x hx
    obtain ⟨hxs, hxp, _⟩ := mem_otherActivePlayers.mp hx
    exact ⟨hxp, hcash x hxs, Keyed.find_of_mem _ hnd hxs⟩
  have hfold := foldlM_collect h0 (otherActivePlayers s p) s (by simp [hpl])
    (otherActivePlayers_nodup p hnd) hothers
  rw [foldl_transfers hnd (fun x => min x.cash amount) (.collectFromEachPlayer amount)]
    at hfold
  · simp only [collectFromEachPlayer, findPlayer_eq_ok.mpr hpl, ok_bind, hfold]
    rfl
  · intro x q
    simp [received]
  · intro x _
    simp only [cardShare, otherSeats_replicaOf, List.map_map]
    rfl

theorem payEachPlayer_eq :
    payEachPlayer s p amount =
      if pl.cash < (otherActivePlayers s p).length * amount then
        payCardCharge s p ((otherActivePlayers s p).length * amount)
      else .ok ⟨{ s with players := settleCard s p (.payEachPlayer amount) }, []⟩ := by
  simp only [payEachPlayer, findPlayer_eq_ok.mpr hpl, ok_bind]
  split
  · rfl
  · rename_i hcash
    have hothers : ∀ x ∈ otherActivePlayers s p,
        x.roomPlayerId ≠ p ∧ ∃ xl, s.player? x.roomPlayerId = some xl := by
      intro x hx
      obtain ⟨hxs, hxp, _⟩ := mem_otherActivePlayers.mp hx
      exact ⟨hxp, x, Keyed.find_of_mem _ hnd hxs⟩
    have hfold := foldlM_pay h0 (otherActivePlayers s p) s pl hpl (by omega) hothers
    rw [foldl_transfers hnd (fun _ => -amount) (.payEachPlayer amount)] at hfold
    · rw [hfold]; rfl
    · intro x q
      simp [received, add_comm]
    · intro x _
      simp only [cardShare, otherSeats_replicaOf, List.length_map, neg_neg]
      simp
      rfl

end Each

end Rules
end LivePoly
