import LivePoly.Rules.Live
import LivePoly.Rules.Workers

/-!
# Rules.Leaving

What a command that leaves a game does: the player goes bankrupt, or the game is over and its
result is saved. The request knows so by a text it has read from Redis or written there
(`knownText`), or by the answer of `finalizeFinishedGame`.
-/

namespace LivePoly
namespace Rules

open Engine Checked Service Process Process.Proc

/-! ## Out of the game -/

/-- What `isRoomPlayerBankruptInGame` looks for. -/
def isBankruptIn (p : RoomPlayerId) (s : GameEngineState) : Bool :=
  (s.player? p).any GameEnginePlayer.bankrupt

/-- The player is bankrupt, or the game is over. -/
def isOut (p : RoomPlayerId) (s : GameEngineState) : Bool :=
  s.phase = .finished || isBankruptIn p s

section Engine

variable {env : Env} {s s' : GameEngineState} {p : RoomPlayerId} {r : GameEngineResult}

theorem isOut_core : isOut p (core s) = isOut p s := by
  unfold isOut isBankruptIn
  rw [core_player?, Option.any_map]
  rfl

theorem isOut_of_core (h : core s' = core s) (hout : isOut p s = true) : isOut p s' = true := by
  rw [← isOut_core, h, isOut_core]
  exact hout

theorem declareBankruptcy_isOut {creditor : Option RoomPlayerId}
    (h : declareBankruptcy s p creditor = .ok r) : isOut p r.state = true := by
  obtain ⟨hsettlement, _, _, hdeclared⟩ : Bankruptcy (fun _ _ => True) p s r.events r.state :=
    declareBankruptcy_bankruptcy trivial h
  have hliquidated : ∀ {pl : GameEnginePlayer} {t : GameEngineState}, s.player? p = some pl →
      t.players = (s.updatePlayer p GameEnginePlayer.liquidated).players → isOut p t = true := by
    intro pl t hpl hplayers
    have hfound : t.player? p = some pl.liquidated := by
      unfold GameEngineState.player?
      rw [hplayers]
      exact (Keyed.find_modify_self _ (f := GameEnginePlayer.liquidated) (fun _ => rfl) _).trans
        (congrArg (Option.map GameEnginePlayer.liquidated) hpl)
    rw [isOut, isBankruptIn, hfound]
    exact Bool.or_true _
  generalize r.events = events at hsettlement hdeclared
  generalize r.state = t at hsettlement
  cases hsettlement with
  | debtPaid =>
    unfold debtPaidEvents at hdeclared
    cases hdeclared
  | lastBankruptcy => exact Bool.true_or _
  | bankruptcy hbankrupt => exact hliquidated hbankrupt.found rfl
  | ownBankruptcy hbankrupt => exact hliquidated hbankrupt.found rfl
  | finished => exact Bool.true_or _

/-- The intents with which a player leaves the game. -/
def isLeaving (p : RoomPlayerId) : GameEngineIntent → Bool
  | .declareBankruptcy q _ => q = p
  | .finishGameByTime _ | .finishGameAfterLastHumanLeft _ => true
  | _ => false

theorem reduceGameEngineIntent_isOut {intent : GameEngineIntent}
    (hleaving : isLeaving p intent = true)
    (h : reduceGameEngineIntent env s intent = .ok r) : isOut p r.state = true := by
  cases intent with
  | declareBankruptcy q creditor =>
    cases of_decide_eq_true (p := q = p) hleaving
    exact declareBankruptcy_isOut h
  | finishGameByTime finishedAt =>
    simp only [reduceGameEngineIntent, finishGameByTime, bind_eq_ok, finishGame, pure_eq_ok] at h
    obtain ⟨_, _, _, _, rfl⟩ := h
    exact Bool.true_or _
  | finishGameAfterLastHumanLeft finishedAt =>
    simp only [reduceGameEngineIntent, finishGameAfterLastHumanLeft, bind_eq_ok, finishGame,
      pure_eq_ok] at h
    obtain ⟨_, _, _, _, rfl⟩ := h
    exact Bool.true_or _
  | _ => cases hleaving

/-- A command that leaves the game, or finishes it because its time has passed. -/
theorem updater_isOut {input : ExecuteGameIntentCommand} {ambient : Ambient}
    {result : GameCommandResult} (hleaving : isLeaving p input.intent = true)
    (h : GameCommandsService.updater input ambient s = .ok (s', result)) : isOut p s' = true := by
  obtain ⟨r, hr, hs', _⟩ := updater_eq_ok.mp h
  refine isOut_of_core (updated_core hs') (reduceGameEngineIntent_isOut ?_ hr)
  unfold playedIntent getEffectiveIntentForCurrentTime
  split
  · exact hleaving
  · split
    · rfl
    · exact hleaving

end Engine

/-! ## What a request knows of the live state -/

section Known

variable {τ : Type}

/-- The text that is known to be stored after an operation. -/
def noteText (text : Option τ) : Act (Op τ) (Ans τ) → Option τ
  | ⟨.get, some read⟩ => some read
  | ⟨.set value, _⟩ => some value
  | ⟨.eval _ next, result⟩ => if hasWritten result then some next else text
  | _ => text

def knownText (past : List (Act (Op τ) (Ans τ))) : Option τ := past.foldl noteText none

theorem knownText_append (past : List (Act (Op τ) (Ans τ))) (act : Act (Op τ) (Ans τ)) :
    knownText (past ++ [act]) = noteText (knownText past) act :=
  List.foldl_concat ..

/-- The result of the game has been saved. -/
def isFinalized : Act (Op τ) (Ans τ) → Bool
  | ⟨.finalizeFinishedGame _ _, .ok _⟩ => true
  | _ => false

variable (json : StateCodec τ) (p : RoomPlayerId)

def bankruptIn (text : τ) : Bool := (json.parse text).any (isBankruptIn p)

/-- The player is known to be bankrupt. -/
def KnowsBankrupt (past : List (Act (Op τ) (Ans τ))) : Prop :=
  ∃ text, knownText past = some text ∧ bankruptIn json p text = true

/-- The player is known to be bankrupt, or the game to be finalized. -/
def GameLeft (past : List (Act (Op τ) (Ans τ))) : Prop :=
  KnowsBankrupt json p past ∨ ∃ act ∈ past, isFinalized act = true

variable {json p} {past : List (Act (Op τ) (Ans τ))}

theorem bankruptIn_stringify {s : GameEngineState} :
    bankruptIn json p (json.stringify s) = isBankruptIn p s := by
  rw [bankruptIn, json.parse_stringify]
  rfl

end Known

/-! ## The services -/

section Services

variable {τ α β : Type} {json : StateCodec τ} {p : RoomPlayerId} {past : List (Act (Op τ) (Ans τ))}

/-- A service that ends with a value leaves what is said of it. -/
abbrev Leaves (past : List (Act (Op τ) (Ans τ))) (post : List (Act (Op τ) (Ans τ)) → α → Prop)
    (task : Task τ α) : Prop :=
  Abides (fun _ _ => True) (fun past result => ∀ a, result = .ok a → post past a) past task

theorem leaves_error {q : α → Prop} {e : ServiceError} :
    ∀ a, (.error e : Except ServiceError α) = .ok a → q a :=
  fun _ h => by cases h

theorem leaves_any (task : Task τ α) : Leaves past (fun _ _ => True) task := by
  induction task generalizing past with
  | ret a => exact fun _ _ => trivial
  | fail e => exact leaves_error
  | op o next ih => exact ⟨trivial, fun a => ih a⟩

theorem Leaves.bind {post : List (Act (Op τ) (Ans τ)) → α → Prop}
    {post' : List (Act (Op τ) (Ans τ)) → β → Prop} {task : Task τ α} {f : α → Task τ β}
    (h : Leaves past post task) (hf : ∀ past a, post past a → Leaves past post' (f a)) :
    Leaves past post' (task >>= f) :=
  keeps_bind _ h (fun _ _ _ => leaves_error) fun past a hpost => hf past a (hpost a rfl)

/-- A state that is read, or restored, is known to be stored. -/
theorem leaves_getOrRecover :
    Leaves past (fun past s => isBankruptIn p s = true → KnowsBankrupt json p past)
      (GameRecoveryService.getOrRecover json) := by
  refine keeps_handle (fun past result => ∀ s, result = .ok s → isBankruptIn p s = true →
    KnowsBankrupt json p past) ?_ (fun _ _ h => h) fun past error _ => ?_
  · refine keeps_perform trivial fun text => ?_
    cases text with
    | none => exact keeps_throw leaves_error
    | some text =>
      dsimp only
      unfold GameStateService.parseState
      cases hparse : json.parse text with
      | none => exact keeps_throw leaves_error
      | some s =>
        refine keeps_pure ?_
        rintro _ ⟨⟩ hbankrupt
        refine ⟨text, knownText_append .., ?_⟩
        rw [bankruptIn, hparse]
        exact hbankrupt
  · split
    · exact keeps_throw leaves_error
    · refine keeps_bind (fun past result => ∀ restored, result = .ok restored →
        ∀ s, restored = some s → isBankruptIn p s = true → KnowsBankrupt json p past) ?_
        (fun _ _ _ => leaves_error) ?_
      · refine keeps_restoreLatestSnapshot trivial (fun _ => leaves_error) ?_ (fun _ => trivial) ?_
        · rintro _ ⟨⟩ _ h
          cases h
        · rintro state _ ⟨⟩ _ ⟨⟩ hbankrupt
          refine ⟨json.stringify state, knownText_append .., ?_⟩
          rw [bankruptIn_stringify]
          exact hbankrupt
      · intro past restored hrestored
        cases restored with
        | none => exact keeps_throw leaves_error
        | some s =>
          refine keeps_pure ?_
          rintro _ ⟨⟩ hbankrupt
          exact hrestored (some s) rfl s rfl hbankrupt

/-- The state of a command is known to be stored, and the player is out of the game in it. -/
structure LeftBy (json : StateCodec τ) (p : RoomPlayerId) (past : List (Act (Op τ) (Ans τ)))
    (result : GameCommandResult) : Prop where
  known : knownText past = some (json.stringify result.state)
  out : isOut p result.state = true

theorem LeftBy.append {result : GameCommandResult} (h : LeftBy json p past result)
    {act : Act (Op τ) (Ans τ)} (hsame : ∀ text, noteText text act = text) :
    LeftBy json p (past ++ [act]) result :=
  ⟨by rw [knownText_append, hsame, h.known], h.out⟩

theorem leaves_query {o : Op τ} {answer : Ans τ o → Except ServiceError Unit}
    {result : GameCommandResult} (hsame : ∀ text a, noteText text ⟨o, a⟩ = text)
    (h : LeftBy json p past result) :
    Abides (fun _ _ => True) (fun past _ => LeftBy json p past result) past (query o answer) :=
  keeps_query trivial fun _ => h.append fun text => hsame text _

/-- A game that is over is finalized. -/
theorem leaves_afterSuccessfulCommand {result : GameCommandResult} (h : LeftBy json p past result) :
    Leaves past (fun past _ => GameLeft json p past)
      (GameCommandsService.afterSuccessfulCommand result : Task τ Unit) := by
  refine keeps_bind _ (keeps_try (leaves_query (fun _ _ => rfl) h)) (fun _ _ _ => leaves_error)
    fun past _ h => ?_
  refine keeps_bind _ (keeps_try (p := GameSnapshotService.createSnapshotAfterCommand result.state)
    (I := fun past => LeftBy json p past result) ?_) (fun _ _ _ => leaves_error) fun past _ h => ?_
  · unfold GameSnapshotService.createSnapshotAfterCommand
    split
    · exact leaves_query (fun _ _ => rfl) h.1
    · split
      · exact keeps_pure h.1
      · exact leaves_query (fun _ _ => rfl) h.1
  · by_cases hfinished : result.state.phase = .finished
    · rw [if_pos hfinished]
      refine keeps_query trivial fun answer => ?_
      rintro _ rfl
      exact .inr ⟨_, List.mem_append_right _ (List.mem_singleton_self _), rfl⟩
    · rw [if_neg hfinished]
      refine keeps_pure fun _ _ => .inl ⟨_, h.1.known, ?_⟩
      rw [bankruptIn_stringify]
      have hout := h.1.out
      rw [isOut, decide_eq_false hfinished] at hout
      exact hout

/-- A command that leaves the game, once it has succeeded. -/
theorem leaves_executeOnce {input : ExecuteGameIntentCommand}
    (hleaving : isLeaving p input.intent = true) :
    Leaves past (fun past _ => GameLeft json p past)
      (GameCommandsService.executeOnce json input) := by
  have hupdate : Leaves past (fun past updated => ∃ result, updated.2 = some result ∧
      LeftBy json p past result) (GameStateService.update json GameStateService.updateMaxAttempts
        (GameCommandsService.updater input)) := by
    refine keeps_updateLoop (I := fun _ => True) (fun _ _ => trivial) (fun _ _ _ => leaves_error)
      (fun _ _ _ _ _ => leaves_error) (fun _ _ _ => trivial) (fun _ _ _ _ _ _ _ _ => leaves_error)
      (fun _ _ _ _ _ _ _ _ _ => trivial) ?_ (fun _ _ _ _ _ _ _ => trivial)
      (fun _ _ _ => leaves_error) _ none trivial
    rintro past text ambient s s' captured _ _ hupdated _ ⟨⟩
    obtain ⟨_, _, _, rfl⟩ := updater_eq_ok.mp hupdated
    exact ⟨_, rfl, knownText_append .., updater_isOut hleaving hupdated⟩
  refine hupdate.bind fun past updated hleft => ?_
  obtain ⟨s, _⟩ := updated
  obtain ⟨result, rfl, hleft⟩ := hleft
  exact (leaves_afterSuccessfulCommand hleft).bind fun _ _ h => keeps_pure fun _ _ => h

theorem leaves_executeIntent {input : ExecuteGameIntentCommand}
    (hleaving : isLeaving p input.intent = true) :
    Leaves past (fun past _ => GameLeft json p past)
      (GameCommandsService.executeIntent json input) := by
  refine keeps_bind (fun _ _ => True) (keeps_lift trivial) (fun _ _ _ => leaves_error)
    fun past _ _ => ?_
  refine keeps_handle (fun past result => ∀ a, result = .ok a → GameLeft json p past)
    (leaves_executeOnce hleaving) (fun _ _ h => h) fun past error _ => ?_
  split
  · refine (leaves_any _).bind fun past _ _ => ?_
    refine keeps_handle (fun past result => ∀ a, result = .ok a → GameLeft json p past)
      (leaves_executeOnce hleaving) (fun _ _ h => h) fun past error _ => ?_
    exact keeps_throw leaves_error
  · exact keeps_throw leaves_error

end Services

end Rules
end LivePoly
