import LivePoly.Rules.Serial

/-!
# Rules.Recovery

Commands and recoveries of a game whose live state was lost. A recovery reads the latest snapshot
and writes it back in a second step, whatever is stored by then. What has been committed stays
exactly as long as no recovery does so after a commit with a snapshot other than the stored state
(`recoveries_keepCommits`); nothing in the code prevents that (`threePlayers_commitLost`).
-/

namespace LivePoly
namespace Rules

open Engine Service Process CompareAndSet

variable {τ κ : Type}

/-! ## The calls -/

inductive Call where
  | command (c : Command)
  | getOrRecover
  | recoverOrThrow

namespace Call

def run (json : StateCodec τ) : Call → Task τ Reply
  | command c => c.run json
  | getOrRecover => do return .recovered (← GameRecoveryService.getOrRecover json)
  | recoverOrThrow => do return .recovered (← GameRecoveryService.recoverOrThrow json)

/-- A recovery has no updater. -/
def updater : Call → Updater
  | command c => c.updater
  | getOrRecover | recoverOrThrow => fun _ _ => .error .notFound

end Call

/-- What a call may do: its scripts are the work of its updater, and what it writes back is a
snapshot it has read. -/
structure Ventured (json : StateCodec τ) (call : Call) (past : List (Act (Op τ) (Ans τ)))
    (o : Op τ) : Prop where
  script : ∀ text next, o = .eval text next → Attempting json call.updater (progress past) text next
  writeBack : ∀ value, o = .set value →
    ∃ state, (progress past).snapshot = some state ∧ value = json.stringify state

section OneCall

variable {json : StateCodec τ} {call : Call} {past : List (Act (Op τ) (Ans τ))}

theorem keeps_restore :
    Abides (Ventured json call) (fun _ _ => True) past
      (GameSnapshotService.restoreLatestSnapshot json) := by
  refine keeps_restoreLatestSnapshot ⟨nofun, nofun⟩ (fun _ => trivial) trivial ?_
    fun _ => trivial
  intro state
  refine ⟨nofun, ?_⟩
  rintro _ ⟨⟩
  refine ⟨state, ?_, rfl⟩
  rw [progress_append]
  rfl

theorem keeps_getOrRecover :
    Abides (Ventured json call) (fun _ _ => True) past (GameRecoveryService.getOrRecover json) := by
  unfold GameRecoveryService.getOrRecover
  refine keeps_handle (fun _ _ => True) ?_ (fun _ _ _ => trivial) fun past error _ => ?_
  · unfold GameStateService.get
    refine keeps_perform ⟨nofun, nofun⟩ fun text => ?_
    cases text with
    | none => exact keeps_throw trivial
    | some text =>
      dsimp only
      unfold GameStateService.parseState
      split
      · exact keeps_throw trivial
      · exact keeps_pure trivial
  · split
    · exact keeps_throw trivial
    · refine keeps_bind _ keeps_restore (fun _ _ _ => trivial) fun past recovered _ => ?_
      cases recovered with
      | none => exact keeps_throw trivial
      | some state => exact keeps_pure trivial

theorem keeps_call (json : StateCodec τ) (call : Call) :
    Abides (Ventured json call) (fun _ _ => True) [] (call.run json) := by
  cases call with
  | command c =>
    refine (keeps_run json c).mono (fun past o hallowed => ?_) fun _ _ _ => trivial
    exact ⟨fun text next ho => (hallowed.script text next ho).1, hallowed.writeBack⟩
  | getOrRecover =>
    exact keeps_bind _ keeps_getOrRecover (fun _ _ _ => trivial) fun _ _ _ => keeps_pure trivial
  | recoverOrThrow =>
    refine keeps_bind (fun _ _ => True) ?_ (fun _ _ _ => trivial) fun _ _ _ =>
      keeps_pure trivial
    refine keeps_bind _ keeps_restore (fun _ _ _ => trivial) fun past recovered _ => ?_
    cases recovered with
    | none => exact keeps_throw trivial
    | some state => exact keeps_pure trivial

end OneCall

/-! ## The stored text -/

/-- The text an operation leaves under the key. -/
def leaves (text : Option τ) : Act (Op τ) (Ans τ) → Option τ
  | ⟨.set value, _⟩ => some value
  | act =>
    match script? act with
    | some write => some write.next
    | none => text

/-- The text under the key after the operations that followed its loss. -/
def storedText (acts : List (κ × Act (Op τ) (Ans τ))) : Option τ :=
  acts.foldl (fun text act => leaves text act.2) none

theorem storedText_append (acts : List (κ × Act (Op τ) (Ans τ))) (k : κ)
    (act : Act (Op τ) (Ans τ)) : storedText (acts ++ [(k, act)]) = leaves (storedText acts) act := by
  unfold storedText
  rw [List.foldl_append]
  rfl

theorem leaves_quiet {act : Act (Op τ) (Ans τ)} (hact : isCommit act = false)
    (hset : ∀ value, act.1 ≠ .set value) (text : Option τ) : leaves text act = text := by
  obtain ⟨o, answer⟩ := act
  cases o with
  | set value => exact absurd rfl (hset value)
  | eval expected next =>
    show (match script? _ with | some (write : Write τ) => some write.next | none => text) = text
    rw [script?_of_quiet hact]
  | _ => rfl

/-! ## What recoveries keep -/

/-- The snapshot was written back. -/
def WrittenBack (json : StateCodec τ) (acts : List (κ × Act (Op τ) (Ans τ)))
    (restored : GameEngineState) : Prop :=
  ∃ act ∈ acts, act.2.1 = .set (json.stringify restored)

/-- Once a command is committed on a restored state, all that have been committed are in the
stored state: it is what their updaters make of the restored one, in the order of their scripts. -/
def CommitsKept (json : StateCodec τ) (updaters : κ → Updater)
    (acts : List (κ × Act (Op τ) (Ans τ))) : Prop :=
  committed acts ≠ [] → ∃ restored log state, WrittenBack json acts restored ∧
    Chained json updaters (some (json.stringify restored)) (storedText acts) acts log ∧
    applyUpdaters updaters (log.map entry) restored = .ok state ∧
    (storedText acts).bind json.parse = some state

/-- Every write-back that comes after a commit writes the text that is stored. -/
def WriteBacksHarmless (acts : List (κ × Act (Op τ) (Ans τ))) : Prop :=
  ∀ before act after value, acts = before ++ act :: after → act.2.1 = .set value →
    committed before ≠ [] → storedText before = some value

/-- A game's calls after its live state was lost. -/
def afterLoss (json : StateCodec τ) (calls : κ → Call) (snapshots : List GameSnapshotRow)
    (eventLog : List GameEngineEvent) :
    Config κ (Stores τ) (Op τ) (Ans τ) ServiceError Reply :=
  ⟨⟨none, snapshots, eventLog⟩, fun k => (calls k).run json⟩

section Kept

variable {json : StateCodec τ} {updaters : κ → Updater} {acts : List (κ × Act (Op τ) (Ans τ))}
  {k : κ} {act : Act (Op τ) (Ans τ)}

theorem WriteBacksHarmless.left {xs ys : List (κ × Act (Op τ) (Ans τ))}
    (h : WriteBacksHarmless (xs ++ ys)) : WriteBacksHarmless xs := by
  rintro before act after value rfl
  refine h before act (after ++ ys) value ?_
  rw [List.append_assoc, List.cons_append]

theorem WrittenBack.append {xs ys : List (κ × Act (Op τ) (Ans τ))} {restored : GameEngineState}
    (h : WrittenBack json xs restored) : WrittenBack json (xs ++ ys) restored := by
  obtain ⟨act, hact, hset⟩ := h
  exact ⟨act, List.mem_append_left _ hact, hset⟩

/-- The stored text goes back to a snapshot that was written back, if there is any. -/
def Restored (json : StateCodec τ) (updaters : κ → Updater)
    (acts : List (κ × Act (Op τ) (Ans τ))) : Prop :=
  storedText acts = none ∧ scripts acts = [] ∨
    ∃ restored log, WrittenBack json acts restored ∧
      Chained json updaters (some (json.stringify restored)) (storedText acts) acts log

theorem Restored.quiet (h : Restored json updaters acts) (hact : isCommit act = false)
    (hset : ∀ value, act.1 ≠ .set value) : Restored json updaters (acts ++ [(k, act)]) := by
  unfold Restored
  rw [storedText_append, leaves_quiet hact hset, scripts_append, script?_of_quiet hact]
  rcases h with ⟨hnone, hscripts⟩ | ⟨restored, log, hback, hchained⟩
  · exact .inl ⟨hnone, by simpa using hscripts⟩
  · exact .inr ⟨restored, log, hback.append, hchained.quiet hact⟩

theorem Restored.commit (h : Restored json updaters acts) {text next : τ}
    (hstored : storedText acts = some text)
    (hscript : ∃ p, Attempting json (updaters k) p text next) :
    Restored json updaters (acts ++ [(k, ⟨.eval text next, (1 : Int)⟩)]) := by
  obtain ⟨p, ambient, state, state', reply, _, hparse, hupdater, rfl⟩ := hscript
  rcases h with ⟨hnone, _⟩ | ⟨restored, log, hback, hchained⟩
  · rw [hnone] at hstored
    cases hstored
  · rw [hstored] at hchained
    have hstore : storedText (acts ++ [(k, ⟨.eval text (json.stringify state'), (1 : Int)⟩)]) =
        some (json.stringify state') := storedText_append ..
    have hcomputed : Computed json (updaters k) ⟨text, ambient, json.stringify state'⟩ reply :=
      ⟨state, state', hparse, hupdater, rfl⟩
    have hcommit := hchained.commit hcomputed
    rw [← hstore] at hcommit
    exact .inr ⟨restored, _, hback.append, hcommit⟩

/-- A write-back before any commit starts anew, a later one leaves the text as it is. -/
theorem Restored.writeBack (h : Restored json updaters acts) {state : GameEngineState}
    (hharmless : committed acts ≠ [] → storedText acts = some (json.stringify state)) :
    Restored json updaters (acts ++ [(k, ⟨.set (json.stringify state), ()⟩)]) := by
  have hset : WrittenBack json (acts ++ [(k, ⟨.set (json.stringify state), ()⟩)]) state :=
    ⟨_, List.mem_append_right _ (List.mem_singleton.mpr rfl), rfl⟩
  refine .inr ?_
  rw [storedText_append]
  by_cases hnone : scripts acts = []
  · refine ⟨state, [], hset, ?_, .nil _, nofun⟩
    rw [scripts_append, hnone]
    rfl
  · have hcommitted : committed acts ≠ [] := fun h0 => hnone (List.map_eq_nil_iff.mp h0)
    rcases h with ⟨_, hscripts⟩ | ⟨restored, log, hback, hchained⟩
    · exact absurd hscripts hnone
    · rw [hharmless hcommitted] at hchained
      exact ⟨restored, log, hback.append, hchained.quiet rfl⟩

theorem Restored.kept (h : Restored json updaters acts) : CommitsKept json updaters acts := by
  intro hcommitted
  rcases h with ⟨_, hscripts⟩ | ⟨restored, log, hback, hchained⟩
  · exact absurd (List.map_eq_nil_iff.mpr hscripts) hcommitted
  · have hstart : (some (json.stringify restored)).bind json.parse = some restored :=
      json.parse_stringify restored
    obtain ⟨state, happlied, hstored⟩ := hchained.applied hstart
    exact ⟨restored, log, state, hback, hchained, happlied, hstored⟩

theorem CommitsKept.storedText_eq (h : CommitsKept json updaters acts)
    (hcommitted : committed acts ≠ []) :
    storedText acts = (scripts acts).getLast?.map fun script => script.2.next := by
  obtain ⟨restored, log, state, _, hchained, _, _⟩ := h hcommitted
  have hne : log ≠ [] := by
    rintro rfl
    unfold committed at hcommitted
    rw [← hchained.order] at hcommitted
    exact hcommitted rfl
  rw [hchained.chain.cell_eq, ← hchained.order, List.getLast?_map, List.getLast?_map,
    List.getLast?_eq_some_getLast hne]
  rfl

/-- A write-back of another text than the stored one loses what was committed. -/
theorem CommitsKept.harmless {value : τ} (h : CommitsKept json updaters acts)
    (h' : CommitsKept json updaters (acts ++ [(k, act)])) (hset : act.1 = .set value)
    (hcommitted : committed acts ≠ []) : storedText acts = some value := by
  obtain ⟨o, answer⟩ := act
  cases hset
  have hscripts : scripts (acts ++ [(k, (⟨.set value, answer⟩ : Act (Op τ) (Ans τ)))]) =
      scripts acts := by
    rw [scripts_append]
    exact List.append_nil _
  have hcommitted' : committed (acts ++ [(k, (⟨.set value, answer⟩ : Act (Op τ) (Ans τ)))]) ≠ [] := by
    unfold committed
    rw [hscripts]
    exact hcommitted
  rw [h.storedText_eq hcommitted, ← hscripts, ← h'.storedText_eq hcommitted', storedText_append]
  rfl

end Kept

variable [DecidableEq τ] [DecidableEq κ]

/-- What the calls leave, at every point of an interleaving. -/
theorem afterLoss_restored {json : StateCodec τ} {calls : κ → Call}
    {snapshots : List GameSnapshotRow} {eventLog : List GameEngineEvent}
    {sched : List (κ × Ambient)} {acts : List (κ × Act (Op τ) (Ans τ))}
    {c' : Config κ (Stores τ) (Op τ) (Ans τ) ServiceError Reply}
    (h : Interleaved exec (afterLoss json calls snapshots eventLog) sched acts c') :
    c'.world.redis = storedText acts ∧
      (WriteBacksHarmless acts → Restored json (fun k => (calls k).updater) acts) := by
  refine interleaved_invariant
    (fun k => Ventured json (calls k)) (fun _ _ _ => True)
    (fun stores acts => stores.redis = storedText acts ∧
      (WriteBacksHarmless acts → Restored json (fun k => (calls k).updater) acts))
    ?_ h (fun k => keeps_call json (calls k)) ⟨rfl, fun _ => .inl ⟨rfl, rfl⟩⟩
  rintro stores acts k o g ⟨hredis, ih⟩ hventured
  rcases exec_redis stores o g with ⟨text, next, hact, hbefore, hafter⟩ | ⟨value, rfl, hafter⟩ |
    ⟨hact, hset, hafter⟩
  · have ho : o = .eval text next := congrArg Sigma.fst hact
    rw [hact, storedText_append]
    refine ⟨hafter, fun hharmless => ?_⟩
    exact (ih hharmless.left).commit (hredis.symm.trans hbefore)
      ⟨_, hventured.script text next ho⟩
  · rw [storedText_append]
    refine ⟨hafter, fun hharmless => ?_⟩
    obtain ⟨state, _, rfl⟩ := hventured.writeBack value rfl
    exact (ih hharmless.left).writeBack (hharmless acts _ [] _ rfl rfl)
  · rw [storedText_append, leaves_quiet hact hset]
    refine ⟨hafter.trans hredis, fun hharmless => ?_⟩
    exact (ih hharmless.left).quiet hact hset

/-- In every interleaving of commands and recoveries after a loss: what has been committed is kept
at every point if and only if every write-back that comes after a commit writes the text that is
stored. -/
theorem recoveries_keepCommits {json : StateCodec τ} {calls : κ → Call}
    {snapshots : List GameSnapshotRow} {eventLog : List GameEngineEvent}
    {sched : List (κ × Ambient)} {acts : List (κ × Act (Op τ) (Ans τ))}
    {c' : Config κ (Stores τ) (Op τ) (Ans τ) ServiceError Reply}
    (h : Interleaved exec (afterLoss json calls snapshots eventLog) sched acts c') :
    c'.world.redis = storedText acts ∧
      ((∀ before after, acts = before ++ after →
          CommitsKept json (fun k => (calls k).updater) before) ↔ WriteBacksHarmless acts) := by
  refine ⟨(afterLoss_restored h).1, ?_, ?_⟩
  · rintro hkept before act after value rfl hset hcommitted
    have hafter := hkept (before ++ [(act.1, act.2)]) after (by simp)
    exact (hkept before _ rfl).harmless hafter hset hcommitted
  · rintro hharmless before after rfl
    obtain ⟨_, _, hbefore⟩ := interleaved_prefix h rfl
    exact ((afterLoss_restored hbefore).2 hharmless.left).kept

omit [DecidableEq τ] [DecidableEq κ] in
theorem WriteBacksHarmless.of_early {xs ys : List (κ × Act (Op τ) (Ans τ))}
    (hearly : scripts xs = []) (hset : NoWriteBack ys) : WriteBacksHarmless (xs ++ ys) := by
  intro before act after value hacts hvalue hcommitted
  rcases List.append_eq_append_iff.mp hacts with ⟨between, rfl, hys⟩ | ⟨between, rfl, _⟩
  · exact absurd hvalue (hset act (by rw [hys]; simp) value)
  · unfold scripts at hearly
    rw [List.filterMap_append] at hearly
    exact absurd (List.map_eq_nil_iff.mpr (List.append_eq_nil_iff.mp hearly).1) hcommitted

/-! ## Two recoveries and a command -/

/-- Two workers recover the game while its first player rolls. -/
def recoverAndRoll : Fin 3 → Call
  | 0 | 1 => .getOrRecover
  | 2 => .command (.executeIntent {
      roomPlayerId := some ⟨1⟩, intent := .rollAndMove ⟨1⟩ [.int 1, .int 2], source := none })

/-- The snapshot of a game's start. -/
def startSnapshot (input : CreateInitialGameStateInput) : List GameSnapshotRow :=
  (createInitialGameState atFirst.engine input).toOption.toList.map fun state =>
    { snapshotType := .start, turnNumber := state.turnNumber, state, createdAt := 0 }

/-- Both workers read the snapshot, one writes it back, the roll is committed, its snapshot is
written, and it is acknowledged; then the other worker writes the old snapshot back. -/
theorem threePlayers_commitLost : ∃ sched acts c' reply,
    Interleaved exec (afterLoss plainTexts recoverAndRoll (startSnapshot threePlayers) []) sched
      acts c' ∧
    (∀ turn ∈ sched, turn.2.failure = none) ∧ c'.procs 2 = .ret reply ∧
    ¬ CommitsKept plainTexts (fun k => (recoverAndRoll k).updater) acts := by
  obtain ⟨⟨c', acts⟩, hplay, htest⟩ := (Option.any_eq_true _ _).mp (by decide +kernel :
    (Process.play exec (afterLoss plainTexts recoverAndRoll (startSnapshot threePlayers) [])
      (([0, 1, 0, 1, 0, 2, 2, 2, 2, 2, 1] : List (Fin 3)).map fun k => (k, atFirst))).any
        (fun last => (match last.1.procs 2 with | .ret _ => true | _ => false) &&
          (committed last.2 = [2] && storedText last.2 ≠
            (scripts last.2).getLast?.map fun script => script.2.next)) = true)
  obtain ⟨hreply, htest⟩ := (Bool.and_eq_true_iff ..).mp htest
  obtain ⟨hcommitted, hlost⟩ := (Bool.and_eq_true_iff ..).mp htest
  obtain ⟨reply, hreply⟩ : ∃ reply, c'.procs 2 = .ret reply := by
    cases hproc : c'.procs 2 with
    | ret reply => exact ⟨reply, rfl⟩
    | fail | op =>
      dsimp only at hreply
      rw [hproc] at hreply
      cases hreply
  refine ⟨_, acts, c', reply, play_interleaved hplay, ?_, hreply, fun hkept => ?_⟩
  · intro turn hturn
    obtain ⟨_, _, rfl⟩ := List.mem_map.mp hturn
    rfl
  · refine of_decide_eq_true hlost (hkept.storedText_eq ?_)
    rw [of_decide_eq_true hcommitted]
    exact List.cons_ne_nil _ _

/-- Both workers write the snapshot back before the roll is committed. -/
theorem threePlayers_commitKept : ∃ sched acts c',
    Interleaved exec (afterLoss plainTexts recoverAndRoll (startSnapshot threePlayers) []) sched
      acts c' ∧
    committed acts = [2] ∧ CommitsKept plainTexts (fun k => (recoverAndRoll k).updater) acts := by
  obtain ⟨⟨c', acts⟩, hplay, htest⟩ := (Option.any_eq_true _ _).mp (by decide +kernel :
    (Process.play exec (afterLoss plainTexts recoverAndRoll (startSnapshot threePlayers) [])
      (([0, 1, 0, 1, 0, 1, 2, 2, 2, 2, 2] : List (Fin 3)).map fun k => (k, atFirst))).any
        (fun last => committed last.2 = [2] && (scripts (last.2.take 6) = [] &&
          (last.2.drop 6).all fun act => !isWriteBack act.2.1)) = true)
  obtain ⟨hcommitted, htest⟩ := (Bool.and_eq_true_iff ..).mp htest
  obtain ⟨hearly, hset⟩ := (Bool.and_eq_true_iff ..).mp htest
  have hrun := play_interleaved hplay
  have hharmless : WriteBacksHarmless (acts.take 6 ++ acts.drop 6) :=
    .of_early (of_decide_eq_true hearly) (noWriteBack_of_all hset)
  rw [List.take_append_drop] at hharmless
  exact ⟨_, acts, c', hrun, of_decide_eq_true hcommitted,
    (recoveries_keepCommits hrun).2.mpr hharmless acts [] (List.append_nil acts).symm⟩

end Rules
end LivePoly
