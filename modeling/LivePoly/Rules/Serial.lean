import LivePoly.Rules.Reachable
import LivePoly.Rules.Workers

/-!
# Rules.Serial

Updates of the live state by compare-and-set are serializable. The scripts that succeed form a
chain (`CompareAndSet.Chain`), each is the work of an updater on the text it expects, so what is
stored is what their updaters make of the initial state, one after the other; and a call replies
what its updater computed at its place in that order.
-/

namespace LivePoly
namespace Rules

open Engine Service Process CompareAndSet

variable {τ κ : Type}

/-! ## One operation -/

/-- What an operation does to the stored text: a script that succeeds finds the text it expects
and writes another; a write-back writes; nothing else does. -/
theorem exec_redis [DecidableEq τ] (stores : Stores τ) (o : Op τ) (g : Ambient) :
    (∃ text next, (⟨o, (exec stores o g).2⟩ : Act (Op τ) (Ans τ)) =
        ⟨.eval text next, (1 : Int)⟩ ∧
      stores.redis = some text ∧ (exec stores o g).1.redis = some next) ∨
    (∃ value, o = .set value ∧ (exec stores o g).1.redis = some value) ∨
    isCommit (⟨o, (exec stores o g).2⟩ : Act (Op τ) (Ans τ)) = false ∧ (∀ value, o ≠ .set value) ∧
      (exec stores o g).1.redis = stores.redis := by
  cases o with
  | set value => exact .inr (.inl ⟨value, rfl, rfl⟩)
  | eval text next =>
    cases hredis : stores.redis with
    | none =>
      refine .inr (.inr ⟨?_, nofun, ?_⟩)
      · simp [exec, compareAndSetState, hredis, isCommit, hasWritten]
      · simp [exec, compareAndSetState, hredis]
    | some current =>
      by_cases hcurrent : current = text
      · subst hcurrent
        refine .inl ⟨current, next, ?_, rfl, ?_⟩
        · simp [exec, compareAndSetState, hredis]
        · simp [exec, compareAndSetState, hredis]
      · refine .inr (.inr ⟨?_, nofun, ?_⟩)
        · simp [exec, compareAndSetState, hredis, hcurrent, isCommit, hasWritten]
        · simp [exec, compareAndSetState, hredis, hcurrent]
  | get | ambient => exact .inr (.inr ⟨rfl, nofun, rfl⟩)
  | findLatestByGameId | createSnapshot | appendEvents | finalizeFinishedGame =>
    refine .inr (.inr ⟨rfl, nofun, ?_⟩)
    unfold exec unlessFailing
    cases g.failure <;> rfl

/-! ## The log of the successful scripts -/

/-- The calls at their start. -/
def started (json : StateCodec τ) (calls : κ → Command) (stores : Stores τ) :
    Config κ (Stores τ) (Op τ) (Ans τ) ServiceError Reply :=
  ⟨stores, fun k => (calls k).run json⟩

/-- The write of a script that has succeeded. -/
def script? : Act (Op τ) (Ans τ) → Option (Write τ)
  | ⟨.eval text next, result⟩ => if hasWritten result then some ⟨text, next⟩ else none
  | _ => none

/-- The successful scripts in their order, each with its call. -/
def scripts (acts : List (κ × Act (Op τ) (Ans τ))) : List (κ × Write τ) :=
  acts.filterMap fun act => (script? act.2).map fun write => (act.1, write)

/-- The calls whose scripts succeeded, in the order of these scripts. -/
def committed (acts : List (κ × Act (Op τ) (Ans τ))) : List κ := (scripts acts).map Prod.fst

/-- No snapshot was written back. -/
def NoWriteBack (acts : List (κ × Act (Op τ) (Ans τ))) : Prop :=
  ∀ act ∈ acts, ∀ value, act.2.1 ≠ .set value

def Attempt.write (a : κ × Attempt τ) : Write τ := ⟨a.2.text, a.2.next⟩

/-- The successful scripts are a chain of texts, each the work of the updater of its call. -/
structure Chained (json : StateCodec τ) (updaters : κ → Updater) (start cell : Option τ)
    (acts : List (κ × Act (Op τ) (Ans τ))) (log : List (κ × Attempt τ)) : Prop where
  order : (log.map fun a => (a.1, Attempt.write a)) = scripts acts
  chain : Chain start (log.map Attempt.write) cell
  computed : ∀ a ∈ log, ∃ reply, Computed json (updaters a.1) a.2 reply

/-- The log, where each call has at most one successful script. -/
structure Logged [DecidableEq κ] (json : StateCodec τ) (updaters : κ → Updater)
    (start cell : Option τ) (acts : List (κ × Act (Op τ) (Ans τ))) (log : List (κ × Attempt τ)) :
    Prop extends Chained json updaters start cell acts log where
  own : ∀ k, (log.filter fun a => a.1 = k).map Prod.snd = (progress (doneBy k acts)).commits
  once : ∀ k, (progress (doneBy k acts)).commits.length ≤ 1

theorem NoWriteBack.left {xs ys : List (κ × Act (Op τ) (Ans τ))} (h : NoWriteBack (xs ++ ys)) :
    NoWriteBack xs :=
  fun act hact => h act (List.mem_append_left _ hact)

def isWriteBack : Op τ → Bool
  | .set _ => true
  | _ => false

theorem noWriteBack_of_all {acts : List (κ × Act (Op τ) (Ans τ))}
    (h : (acts.all fun act => !isWriteBack act.2.1) = true) : NoWriteBack acts := by
  intro act hact value hvalue
  have hall := List.all_eq_true.mp h act hact
  rw [hvalue] at hall
  cases hall

theorem note_unrestored {act : Act (Op τ) (Ans τ)} (h : ∀ value, act.1 ≠ .set value)
    (p : Progress τ) : (p.note act).restored = p.restored := by
  obtain ⟨o, answer⟩ := act
  cases o with
  | set value => exact absurd rfl (h value)
  | get => cases answer <;> rfl
  | ambient =>
    unfold Progress.note
    cases p.stage <;> rfl
  | eval text next =>
    unfold Progress.note
    dsimp only
    cases p.stage with
    | ready text ambient =>
      dsimp only
      split <;> rfl
    | _ => rfl
  | findLatestByGameId => rcases answer with _ | _ | _ <;> rfl
  | finalizeFinishedGame => cases answer <;> rfl
  | _ => rfl

theorem scripts_append (acts : List (κ × Act (Op τ) (Ans τ))) (k : κ) (act : Act (Op τ) (Ans τ)) :
    scripts (acts ++ [(k, act)]) =
      scripts acts ++ ((script? act).map fun write => (k, write)).toList := by
  unfold scripts
  rw [List.filterMap_append]
  cases hact : script? act <;> simp [hact]

theorem script?_of_quiet {act : Act (Op τ) (Ans τ)} (h : isCommit act = false) :
    script? act = none := by
  obtain ⟨o, answer⟩ := act
  cases o with
  | eval text next =>
    have hwritten : hasWritten answer = false := h
    unfold script?
    dsimp only
    rw [hwritten]
    rfl
  | _ => rfl

section Chained

variable {json : StateCodec τ} {updaters : κ → Updater} {start cell : Option τ}
  {acts : List (κ × Act (Op τ) (Ans τ))} {log : List (κ × Attempt τ)} {k : κ}

theorem Chained.quiet (h : Chained json updaters start cell acts log)
    {act : Act (Op τ) (Ans τ)} (hact : isCommit act = false) :
    Chained json updaters start cell (acts ++ [(k, act)]) log where
  order := by
    rw [scripts_append, script?_of_quiet hact, h.order]
    exact (List.append_nil _).symm
  chain := h.chain
  computed := h.computed

theorem Chained.commit {text : τ} (h : Chained json updaters start (some text) acts log)
    {next : τ} {ambient : Ambient} {reply : Reply}
    (hcomputed : Computed json (updaters k) ⟨text, ambient, next⟩ reply) :
    Chained json updaters start (some next) (acts ++ [(k, ⟨.eval text next, (1 : Int)⟩)])
      (log ++ [(k, ⟨text, ambient, next⟩)]) where
  order := by
    rw [scripts_append, List.map_append, h.order]
    rfl
  chain := by
    rw [List.map_append]
    exact .snoc ⟨text, next⟩ h.chain
  computed a ha := by
    rcases List.mem_append.mp ha with ha | ha
    · exact h.computed a ha
    · cases List.mem_singleton.mp ha
      exact ⟨reply, hcomputed⟩

end Chained

section Logged

variable [DecidableEq κ] {json : StateCodec τ} {updaters : κ → Updater} {start cell : Option τ}
  {acts : List (κ × Act (Op τ) (Ans τ))} {log : List (κ × Attempt τ)}

theorem NoWriteBack.unrestored (h : NoWriteBack acts) (k : κ) :
    (progress (doneBy k acts)).restored = false := by
  induction acts using List.reverseRecOn with
  | nil => rfl
  | append_singleton acts act ih =>
    rw [doneBy_append]
    by_cases hk : act.1 = k
    · subst hk
      rw [doneBy_self, progress_append, note_unrestored (h act (by simp))]
      exact ih h.left
    · rw [doneBy_other hk, List.append_nil]
      exact ih h.left

theorem Logged.quiet (h : Logged json updaters start cell acts log) {k : κ}
    {act : Act (Op τ) (Ans τ)} (hact : isCommit act = false) :
    Logged json updaters start cell (acts ++ [(k, act)]) log := by
  have hown : ∀ j, (progress (doneBy j (acts ++ [(k, act)]))).commits =
      (progress (doneBy j acts)).commits := by
    intro j
    rw [doneBy_append]
    by_cases hj : k = j
    · subst hj
      rw [doneBy_self, progress_append, (note_of_not_commit hact).1]
    · rw [doneBy_other hj, List.append_nil]
  refine ⟨h.toChained.quiet hact, fun j => ?_, fun j => ?_⟩
  · rw [hown j]
    exact h.own j
  · rw [hown j]
    exact h.once j

theorem Logged.commit {k : κ} {text next : τ}
    (h : Logged json updaters start (some text) acts log)
    (hscript : Attempting json (updaters k) (progress (doneBy k acts)) text next)
    (hfirst : (progress (doneBy k acts)).commits = []) :
    ∃ ambient, Logged json updaters start (some next)
      (acts ++ [(k, ⟨.eval text next, (1 : Int)⟩)]) (log ++ [(k, ⟨text, ambient, next⟩)]) := by
  obtain ⟨ambient, state, state', reply, hstage, hparse, hupdater, rfl⟩ := hscript
  refine ⟨ambient, h.toChained.commit ⟨state, state', hparse, hupdater, rfl⟩, ?_, ?_⟩
  · intro j
    rw [List.filter_append, List.map_append, h.own j, doneBy_append]
    by_cases hj : k = j
    · subst hj
      rw [doneBy_self, progress_append, note_committed hstage]
      simp
    · rw [doneBy_other hj, List.append_nil]
      simp [hj]
  · intro j
    rw [doneBy_append]
    by_cases hj : k = j
    · subst hj
      rw [doneBy_self, progress_append, note_committed hstage, hfirst]
      exact Nat.le_refl 1
    · rw [doneBy_other hj, List.append_nil]
      exact h.once j

end Logged

theorem exists_log [DecidableEq τ] [DecidableEq κ] {json : StateCodec τ} {calls : κ → Command}
    {start : Stores τ} {sched : List (κ × Ambient)} {acts : List (κ × Act (Op τ) (Ans τ))}
    {c' : Config κ (Stores τ) (Op τ) (Ans τ) ServiceError Reply}
    (h : Interleaved exec (started json calls start) sched acts c') (hset : NoWriteBack acts) :
    ∃ log, Logged json (fun k => (calls k).updater) start.redis c'.world.redis acts log := by
  refine interleaved_invariant
    (fun k => Allowed json (calls k)) (fun k => Done json (calls k))
    (fun stores acts => NoWriteBack acts →
      ∃ log, Logged json (fun k => (calls k).updater) start.redis stores.redis acts log)
    ?_ h (fun k => keeps_run json (calls k)) ?_ hset
  · intro stores acts k o g ih hallowed hset
    obtain ⟨log, hlog⟩ := ih hset.left
    rcases exec_redis stores o g with ⟨text, next, hact, hbefore, hafter⟩ | ⟨value, ho, _⟩ |
      ⟨hact, _, hredis⟩
    · have ho : o = .eval text next := congrArg Sigma.fst hact
      obtain ⟨hscript, hfirst⟩ := hallowed.script text next ho
      rw [hset.left.unrestored k] at hfirst
      rw [hbefore] at hlog
      obtain ⟨ambient, hcommit⟩ := hlog.commit hscript (hfirst.resolve_left nofun)
      rw [hact, hafter]
      exact ⟨_, hcommit⟩
    · exact absurd ho (hset (k, ⟨o, (exec stores o g).2⟩) (by simp) value)
    · rw [hredis]
      exact ⟨log, hlog.quiet hact⟩
  · intro _
    exact ⟨[], ⟨rfl, .nil _, nofun⟩, fun _ => rfl, fun _ => Nat.zero_le 1⟩

/-! ## Serializability -/

/-- The state under the game's key. -/
def stored (json : StateCodec τ) (stores : Stores τ) : Option GameEngineState :=
  stores.redis.bind json.parse

/-- The updaters of the calls, one after the other, each with the ambient it read. -/
def applyUpdaters (updaters : κ → Updater) (log : List (κ × Ambient)) (state : GameEngineState) :
    Except ServiceError GameEngineState :=
  applyAll (fun entry state => (updaters entry.1 entry.2 state).map Prod.fst) log state

/-- The interleaving is the serial execution of the calls in the log. -/
structure Serializable [DecidableEq κ] (json : StateCodec τ) (calls : κ → Command)
    (start : Stores τ) (acts : List (κ × Act (Op τ) (Ans τ)))
    (c' : Config κ (Stores τ) (Op τ) (Ans τ) ServiceError Reply) (log : List (κ × Ambient)) :
    Prop where
  /-- The log has the calls of the successful scripts, in their order, and each call once. -/
  order : log.map Prod.fst = committed acts
  once : (log.map Prod.fst).Nodup
  /-- The updaters of the log make the stored state of the initial one. -/
  applied : ∀ state₀, stored json start = some state₀ →
    ∃ state, applyUpdaters (fun k => (calls k).updater) log state₀ = .ok state ∧
      stored json c'.world = some state
  /-- Where no state is stored, nothing is ever written. -/
  missing : stored json start = none → log = [] ∧ c'.world.redis = start.redis
  /-- A call that has returned is in the log and replies what its updater computed there. -/
  returned : ∀ k reply, c'.procs k = .ret reply → ∃ state₀ before ambient after state state',
    stored json start = some state₀ ∧ log = before ++ (k, ambient) :: after ∧
    applyUpdaters (fun k => (calls k).updater) before state₀ = .ok state ∧
    (calls k).updater ambient state = .ok (state', reply)
  /-- A call of `update` that is in the log has returned. -/
  updated : ∀ k, (calls k).isUpdate = true → k ∈ log.map Prod.fst →
    ∃ reply, c'.procs k = .ret reply
  /-- A command that is in the log fails only when its finished game cannot be finalized. -/
  thrown : ∀ k error, c'.procs k = .fail error → k ∈ log.map Prod.fst →
    (calls k).isUpdate = false ∧ (progress (doneBy k acts)).finalizationFailed = true

section Serializable

variable {json : StateCodec τ} {updaters : κ → Updater} {start cell : Option τ}
  {acts : List (κ × Act (Op τ) (Ans τ))} {log : List (κ × Attempt τ)}

/-- The log as the specification has it. -/
def entry (a : κ × Attempt τ) : κ × Ambient := (a.1, a.2.ambient)

theorem Chained.carriesOut (h : Chained json updaters start cell acts log) :
    ∀ a ∈ log, CarriesOut json.parse
      (fun (a : κ × Attempt τ) state => (updaters a.1 a.2.ambient state).map Prod.fst)
      Attempt.write a := by
  intro a ha
  obtain ⟨reply, state, state', hparse, hupdater, hnext⟩ := h.computed a ha
  refine ⟨state, state', hparse, ?_, ?_⟩
  · show (updaters a.1 a.2.ambient state).map Prod.fst = .ok state'
    rw [hupdater]
    rfl
  · show json.parse a.2.next = some state'
    rw [hnext]
    exact json.parse_stringify state'

theorem applyUpdaters_entry (updaters : κ → Updater) (log : List (κ × Attempt τ))
    (state : GameEngineState) :
    applyUpdaters updaters (log.map entry) state =
      applyAll (fun a state => (updaters a.1 a.2.ambient state).map Prod.fst) log state := by
  unfold applyUpdaters applyAll
  rw [List.foldlM_map]
  rfl

theorem Chained.applied (h : Chained json updaters start cell acts log)
    {state₀ : GameEngineState} (hstart : start.bind json.parse = some state₀) :
    ∃ state, applyUpdaters updaters (log.map entry) state₀ = .ok state ∧
      cell.bind json.parse = some state := by
  rw [applyUpdaters_entry]
  exact h.chain.applied h.carriesOut hstart

theorem Chained.found (h : Chained json updaters start cell acts log)
    {before after : List (κ × Attempt τ)} {a : κ × Attempt τ} (hlog : log = before ++ a :: after)
    {state₀ : GameEngineState} (hstart : start.bind json.parse = some state₀) :
    ∃ state, applyUpdaters updaters (before.map entry) state₀ = .ok state ∧
      json.parse a.2.text = some state := by
  have hchain := h.chain
  rw [hlog, List.map_append, List.map_cons] at hchain
  rw [applyUpdaters_entry]
  refine hchain.split.applied (fun b hb => h.carriesOut b ?_) hstart
  rw [hlog]
  exact List.mem_append_left _ hb

variable [DecidableEq κ]

theorem Logged.place (h : Logged json updaters start cell acts log) {k : κ} {a : Attempt τ}
    (hown : (progress (doneBy k acts)).commits = [a]) :
    ∃ before after, log = before ++ (k, a) :: after := by
  refine List.append_of_mem ?_
  have hmem : a ∈ (log.filter fun b => b.1 = k).map Prod.snd := by
    rw [h.own k, hown]
    exact List.mem_singleton.mpr rfl
  obtain ⟨b, hb, rfl⟩ := List.mem_map.mp hmem
  obtain ⟨hb, hk⟩ := List.mem_filter.mp hb
  rw [← of_decide_eq_true hk]
  exact hb

theorem Logged.mem_iff (h : Logged json updaters start cell acts log) {k : κ} :
    k ∈ (log.map entry).map Prod.fst ↔ (progress (doneBy k acts)).commits ≠ [] := by
  rw [← h.own k, List.map_map]
  constructor
  · intro hk hnil
    obtain ⟨a, ha, rfl⟩ := List.mem_map.mp hk
    have hin : a ∈ log.filter fun b => b.1 = (Prod.fst ∘ entry) a :=
      List.mem_filter.mpr ⟨ha, decide_eq_true rfl⟩
    rw [List.map_eq_nil_iff.mp hnil] at hin
    cases hin
  · intro hne
    obtain ⟨_, hmem⟩ := List.exists_mem_of_ne_nil _ hne
    obtain ⟨a, ha, rfl⟩ := List.mem_map.mp hmem
    obtain ⟨ha, hk⟩ := List.mem_filter.mp ha
    exact List.mem_map.mpr ⟨a, ha, of_decide_eq_true hk⟩

theorem Logged.nodup (h : Logged json updaters start cell acts log) :
    ((log.map entry).map Prod.fst).Nodup := by
  rw [List.nodup_iff_count_le_one]
  intro k
  rw [List.map_map, List.count, List.countP_map, List.countP_eq_length_filter,
    ← List.length_map Prod.snd]
  calc _ = ((log.filter fun a => a.1 = k).map Prod.snd).length := by
        congr 2
    _ ≤ 1 := by
        rw [h.own k]
        exact h.once k

end Serializable

/-- For every interleaving of calls, as long as no snapshot is written back: they are serializable
in the order of the scripts that succeeded. -/
theorem updates_serializable [DecidableEq τ] [DecidableEq κ] {json : StateCodec τ}
    {calls : κ → Command} {start : Stores τ} {sched : List (κ × Ambient)}
    {acts : List (κ × Act (Op τ) (Ans τ))}
    {c' : Config κ (Stores τ) (Op τ) (Ans τ) ServiceError Reply}
    (h : Interleaved exec (started json calls start) sched acts c') (hset : NoWriteBack acts) :
    ∃ log, Serializable json calls start acts c' log := by
  obtain ⟨log, hlog⟩ := exists_log h hset
  have hkeeps := interleaved_keeps (fun k => Allowed json (calls k))
    (fun k => Done json (calls k)) h fun k => keeps_run json (calls k)
  have hmissing : stored json start = none → log = [] ∧ c'.world.redis = start.redis :=
    fun hnone => hlog.chain.viewed hlog.carriesOut hnone
  have hdone : ∀ k reply, c'.procs k = .ret reply →
      ∃ a, (progress (doneBy k acts)).commits = [a] ∧ Computed json (calls k).updater a reply := by
    intro k reply hret
    have hpost := hkeeps k
    rw [hret] at hpost
    exact hpost.unrestored (hset.unrestored k)
  refine ⟨log.map entry, ?_, hlog.nodup, fun _ => hlog.applied, ?_, ?_, ?_, ?_⟩
  · unfold committed
    rw [← hlog.order, List.map_map, List.map_map]
    rfl
  · intro hnone
    obtain ⟨rfl, hredis⟩ := hmissing hnone
    exact ⟨rfl, hredis⟩
  · intro k reply hret
    obtain ⟨a, hown, state, state', hparse, hupdater, _⟩ := hdone k reply hret
    obtain ⟨before, after, rfl⟩ := hlog.place hown
    cases hstart : stored json start with
    | none => exact absurd (hmissing hstart).1 (List.append_ne_nil_of_right_ne_nil _ nofun)
    | some state₀ =>
      obtain ⟨found, happlied, hfound⟩ := hlog.found rfl hstart
      cases hparse.symm.trans hfound
      exact ⟨state₀, before.map entry, a.ambient, after.map entry, state, state', rfl, by simp [entry],
        happlied, hupdater⟩
  · intro k hup hmem
    rw [hlog.mem_iff] at hmem
    have hpost := hkeeps k
    cases hproc : c'.procs k with
    | ret reply => exact ⟨reply, rfl⟩
    | fail error =>
      rw [hproc] at hpost
      rcases hpost.unrestored (hset.unrestored k) with hnone | ⟨hnot, _⟩
      · exact absurd hnone hmem
      · rw [hup] at hnot
        cases hnot
    | op o next =>
      rw [hproc] at hpost
      exact absurd (hpost.1.updating hup) hmem
  · intro k error hfail hmem
    rw [hlog.mem_iff] at hmem
    have hpost := hkeeps k
    rw [hfail] at hpost
    rcases hpost.unrestored (hset.unrestored k) with hnone | hfinal
    · exact absurd hnone hmem
    · exact hfinal

/-! ## Two calls at once -/

/-- States as their own texts. -/
def plainTexts : StateCodec GameEngineState where
  stringify := id
  parse := some
  parse_stringify _ := rfl

/-- A quiet moment: the clock at the game's start and no failure. -/
def atFirst : Ambient where
  now := 0
  engine := { now := 0, randomUUID := "" }
  deadlineNow := 0
  renewedNow := 0
  dice := (1, 2)
  failure := none

/-- The stores of a game that has just started. -/
def freshStores (input : CreateInitialGameStateInput) : Stores GameEngineState where
  redis := (createInitialGameState atFirst.engine input).toOption
  snapshots := []
  eventLog := []

/-- The first player rolls while an update moves the deadline. -/
def rollAndUpdate : Bool → Command
  | false => .executeIntent {
      roomPlayerId := some ⟨1⟩, intent := .rollAndMove ⟨1⟩ [.int 1, .int 2], source := none }
  | true => .update 1 fun _ state => .ok ({ state with turnExpiresAt := some 7 }, ())

/-- The update commits between the read and the script of the command, which then retries. -/
theorem threePlayers_serializable : ∃ sched acts c' log,
    Interleaved exec (started plainTexts rollAndUpdate (freshStores threePlayers)) sched acts c' ∧
    Serializable plainTexts rollAndUpdate (freshStores threePlayers) acts c' log ∧
    log.map Prod.fst = [true, false] := by
  obtain ⟨⟨c', acts⟩, hplay, htest⟩ := (Option.any_eq_true _ _).mp (by decide +kernel :
    (Process.play exec (started plainTexts rollAndUpdate (freshStores threePlayers))
      ([false, false, true, true, true, false, false, false, false, false, false].map
        fun k => (k, atFirst))).any (fun last =>
          last.2.all (fun act => !isWriteBack act.2.1) &&
            committed last.2 = [true, false]) = true)
  obtain ⟨hset, horder⟩ := (Bool.and_eq_true_iff ..).mp htest
  have hrun := play_interleaved hplay
  obtain ⟨log, hlog⟩ := updates_serializable hrun (noWriteBack_of_all hset)
  exact ⟨_, acts, c', log, hrun, hlog, hlog.order.trans (of_decide_eq_true horder)⟩

end Rules
end LivePoly
