import LivePoly.Service.Publishers
import LivePoly.Rules.Outbox

/-!
# Rules.Publishers

Claims on outbox events. A claim is numbered by the attempts it makes of the row, so a worker whose
claim was taken over can be told from the one that took it over. The code does not: it marks an
event as failed whatever has become of the row. Where no worker does so to a published event or to
one that another worker holds, claims are exclusive and `published` is final.
-/

namespace LivePoly
namespace Rules

open Service Trace

variable {ω ι : Type} [DecidableEq ω] [DecidableEq ι]

/-! ## What is claimed of the publishers -/

def rowOf (m : Publishers ω ι) (id : ι) : Option (OutboxEvent ι) :=
  Keyed.find OutboxEvent.id m.rows id

/-- The worker holds a claim on the event that is not stale. -/
def HoldsFresh (m : Publishers ω ι) (worker : ω) (id : ι) : Prop :=
  ∃ stage startedAt, m.workers worker = some stage ∧ stage.event.id = id ∧
    stage.event.startedAt = some startedAt ∧
    m.now ≤ startedAt + OutboxRepository.staleProcessingMs

/-- The event is published, so that it has not failed and cannot be claimed. -/
def IsPublished (m : Publishers ω ι) (id : ι) : Prop :=
  ∃ row, rowOf m id = some row ∧ row.status = .published ∧
    ∀ now, OutboxRepository.isClaimable now row = false

/-- A worker marks an event as failed only if it is not published and no other worker holds a
claim on it that is not stale. -/
def FailsOwn (m : Publishers ω ι) : PublisherInput ω ι → Prop
  | .fail worker true => ∀ stage, m.workers worker = some stage → ∀ row ∈ m.rows,
    row.id = stage.event.id → row.status ≠ .published ∧
      (row.status = .processing → row.attempts = stage.event.attempts ∨
        row.startedAt.any (· + OutboxRepository.staleProcessingMs < m.now) = true)
  | _ => True

/-- Before anything happened. -/
def unstarted (now : Nat) : Publishers ω ι := ⟨now, [], fun _ => none⟩

/-! ## The invariants -/

/-- What holds of rows and claims in every run. -/
structure ClaimsInv (m : Publishers ω ι) : Prop where
  nodup : (m.rows.map OutboxEvent.id).Nodup
  bounded : ∀ row ∈ m.rows, row.attempts ≤ row.maxAttempts
  claimed : ∀ worker stage, m.workers worker = some stage → ∃ row,
    rowOf m stage.event.id = some row ∧ stage.event.startedAt.isSome ∧
      stage.event.attempts ≤ row.attempts ∧
      (row.status = .processing → row.attempts = stage.event.attempts →
        row.startedAt = stage.event.startedAt)
  apart : ∀ worker worker' stage stage', m.workers worker = some stage →
    m.workers worker' = some stage' → stage.event.id = stage'.event.id →
    stage.event.attempts = stage'.event.attempts → worker = worker'

/-- What else holds of claims that are not stale, where no worker fails another one's event. -/
structure FreshInv (m : Publishers ω ι) : Prop where
  held : ∀ worker stage, m.workers worker = some stage → HoldsFresh m worker stage.event.id →
    ∀ row, rowOf m stage.event.id = some row →
      row.status = .published ∨
        row.status = .processing ∧ row.attempts = stage.event.attempts
  single : ∀ id worker worker', HoldsFresh m worker id → HoldsFresh m worker' id →
    worker = worker'

section Steps

variable {m m' : Publishers ω ι} {id : ι}

/-! ## Claims that go on or end -/

/-- The claims are among those of before, and time does not run backwards. -/
structure Inherits (m m' : Publishers ω ι) : Prop where
  rows : m'.rows = m.rows
  now : m.now ≤ m'.now
  claims : ∀ worker stage', m'.workers worker = some stage' →
    ∃ stage, m.workers worker = some stage ∧ stage'.event = stage.event

omit [DecidableEq ω] [DecidableEq ι] in
theorem Inherits.holdsFresh (h : Inherits m m') {worker : ω} (hfresh : HoldsFresh m' worker id) :
    HoldsFresh m worker id := by
  obtain ⟨stage', startedAt, hstage', hid, hstarted, hnow⟩ := hfresh
  obtain ⟨stage, hstage, hevent⟩ := h.claims worker stage' hstage'
  rw [hevent] at hid hstarted
  exact ⟨stage, startedAt, hstage, hid, hstarted, Nat.le_trans h.now hnow⟩

omit [DecidableEq ω] in
theorem Inherits.rowOf (h : Inherits m m') (id : ι) :
    Rules.rowOf m' id = Rules.rowOf m id := by
  unfold Rules.rowOf
  rw [h.rows]

omit [DecidableEq ω] in
theorem Inherits.claimsInv (h : Inherits m m') (hm : ClaimsInv m) : ClaimsInv m' where
  nodup := h.rows ▸ hm.nodup
  bounded := h.rows ▸ hm.bounded
  claimed := by
    intro worker stage' hstage'
    obtain ⟨stage, hstage, hevent⟩ := h.claims worker stage' hstage'
    rw [hevent, h.rowOf]
    exact hm.claimed worker stage hstage
  apart := by
    intro worker worker' stage₁ stage₂ h₁ h₂ hid hattempts
    obtain ⟨old₁, hold₁, hevent₁⟩ := h.claims worker stage₁ h₁
    obtain ⟨old₂, hold₂, hevent₂⟩ := h.claims worker' stage₂ h₂
    rw [hevent₁, hevent₂] at hid hattempts
    exact hm.apart worker worker' old₁ old₂ hold₁ hold₂ hid hattempts

omit [DecidableEq ω] in
theorem Inherits.freshInv (h : Inherits m m') (hm : FreshInv m) : FreshInv m' where
  held := by
    intro worker stage' hstage' hfresh row hrow
    obtain ⟨stage, hstage, hevent⟩ := h.claims worker stage' hstage'
    rw [h.rowOf] at hrow
    rw [hevent] at hfresh hrow ⊢
    exact hm.held worker stage hstage (h.holdsFresh hfresh) row hrow
  single := fun id worker worker' hw hw' =>
    hm.single id worker worker' (h.holdsFresh hw) (h.holdsFresh hw')

omit [DecidableEq ι] in
theorem inherits_set {worker : ω} {stage : PublisherStage ι}
    (hstage : m.workers worker = some stage) {next : Option (PublisherStage ι)}
    (hnext : ∀ stage', next = some stage' → stage'.event = stage.event) :
    Inherits m (m.set worker next) where
  rows := rfl
  now := le_refl _
  claims := by
    intro other stage' hother
    unfold Publishers.set at hother
    by_cases hsame : other = worker
    · subst hsame
      dsimp only at hother
      rw [Function.update_self] at hother
      exact ⟨stage, hstage, hnext stage' hother⟩
    · dsimp only at hother
      rw [Function.update_of_ne hsame] at hother
      exact ⟨stage', hother, rfl⟩

omit [DecidableEq ι] in
theorem inherits_release {worker : ω} {stage : PublisherStage ι}
    (hstage : m.workers worker = some stage) : Inherits m (m.set worker none) :=
  inherits_set hstage fun _ hnext => by cases hnext

/-! ## Rows that are written -/

/-- The outcome of a publication is written to the row of an event. -/
structure Writes (m m' : Publishers ω ι) (id : ι) (f : OutboxEvent ι → OutboxEvent ι) : Prop where
  rows : m'.rows = Keyed.modify OutboxEvent.id m.rows id f
  now : m'.now = m.now
  workers : m'.workers = m.workers
  key : ∀ row, (f row).id = row.id
  attempts : ∀ row, (f row).attempts = row.attempts
  maxAttempts : ∀ row, (f row).maxAttempts = row.maxAttempts
  ends : ∀ row, (f row).status ≠ .processing

omit [DecidableEq ω] in
theorem Writes.rowOf {f : OutboxEvent ι → OutboxEvent ι} (h : Writes m m' id f) (other : ι) :
    Rules.rowOf m' other =
      if other = id then (Rules.rowOf m other).map f else Rules.rowOf m other := by
  unfold Rules.rowOf
  rw [h.rows]
  exact Keyed.find_modify OutboxEvent.id h.key m.rows other

omit [DecidableEq ω] [DecidableEq ι] in
theorem Writes.holdsFresh_iff {f : OutboxEvent ι → OutboxEvent ι} [DecidableEq ι]
    (h : Writes m m' id f) {worker : ω} {other : ι} :
    HoldsFresh m' worker other ↔ HoldsFresh m worker other := by
  unfold HoldsFresh
  rw [h.workers, h.now]

omit [DecidableEq ω] in
theorem Writes.claimsInv {f : OutboxEvent ι → OutboxEvent ι} (h : Writes m m' id f)
    (hm : ClaimsInv m) : ClaimsInv m' where
  nodup := by
    rw [h.rows, Keyed.map_modify OutboxEvent.id h.key]
    exact hm.nodup
  bounded := by
    rw [h.rows]
    intro row hrow
    obtain ⟨old, hold, rfl⟩ := Keyed.mem_modify OutboxEvent.id |>.mp hrow
    split
    · rw [h.attempts, h.maxAttempts]
      exact hm.bounded old hold
    · exact hm.bounded old hold
  claimed := by
    intro worker stage hstage
    rw [h.workers] at hstage
    obtain ⟨row, hrow, hstarted, hattempts, hown⟩ := hm.claimed worker stage hstage
    rw [h.rowOf]
    split
    · rw [hrow]
      refine ⟨f row, rfl, hstarted, ?_, fun hprocessing => absurd hprocessing (h.ends row)⟩
      rw [h.attempts]
      exact hattempts
    · exact ⟨row, hrow, hstarted, hattempts, hown⟩
  apart := by
    rw [h.workers]
    exact hm.apart

omit [DecidableEq ω] in
theorem Writes.freshInv {f : OutboxEvent ι → OutboxEvent ι} (h : Writes m m' id f)
    (hm : FreshInv m)
    (hnobody : ∀ worker, HoldsFresh m worker id → ∀ row, (f row).status = .published) :
    FreshInv m' where
  held := by
    intro worker stage hstage hfresh row hrow
    rw [h.workers] at hstage
    rw [h.holdsFresh_iff] at hfresh
    rw [h.rowOf] at hrow
    split at hrow
    · rename_i hid
      obtain ⟨old, _, rfl⟩ := Option.map_eq_some_iff.mp hrow
      exact .inl (hnobody worker (hid ▸ hfresh) old)
    · exact hm.held worker stage hstage hfresh row hrow
  single := by
    intro other worker worker' hw hw'
    exact hm.single other worker worker' (h.holdsFresh_iff.mp hw) (h.holdsFresh_iff.mp hw')

/-! ## Events that are created -/

/-- Rows are only added. -/
structure Creates (m m' : Publishers ω ι) : Prop where
  nodup : (m'.rows.map OutboxEvent.id).Nodup
  bounded : ∀ row ∈ m'.rows, row ∈ m.rows ∨ row.attempts ≤ row.maxAttempts
  kept : ∀ id row, Rules.rowOf m id = some row → Rules.rowOf m' id = some row
  now : m'.now = m.now
  workers : m'.workers = m.workers

omit [DecidableEq ω] in
theorem creates (hm : ClaimsInv m) {input : CreateOutboxEventInput}
    (hid : id ∉ m.rows.map OutboxEvent.id) :
    Creates m { m with rows := OutboxRepository.createOrGet m.rows id input m.now } := by
  unfold OutboxRepository.createOrGet
  split
  · exact ⟨hm.nodup, fun row hrow => .inl hrow, fun _ _ h => h, rfl, rfl⟩
  · refine ⟨?_, ?_, ?_, rfl, rfl⟩
    · rw [List.map_append]
      exact List.nodup_append.mpr ⟨hm.nodup, List.nodup_singleton _, by
        rintro _ hmem _ hnew rfl
        rw [List.mem_singleton.mp hnew] at hmem
        exact hid hmem⟩
    · intro row hrow
      rcases List.mem_append.mp hrow with hrow | hrow
      · exact .inl hrow
      · rw [List.mem_singleton.mp hrow]
        exact .inr (Nat.zero_le _)
    · intro other row hrow
      unfold Rules.rowOf Keyed.find at hrow ⊢
      rw [List.find?_append, hrow]
      rfl

omit [DecidableEq ω] in
theorem Creates.claimsInv (h : Creates m m') (hm : ClaimsInv m) : ClaimsInv m' where
  nodup := h.nodup
  bounded := by
    intro row hrow
    rcases h.bounded row hrow with hold | hnew
    · exact hm.bounded row hold
    · exact hnew
  claimed := by
    intro worker stage hstage
    rw [h.workers] at hstage
    obtain ⟨row, hrow, hrest⟩ := hm.claimed worker stage hstage
    exact ⟨row, h.kept _ row hrow, hrest⟩
  apart := by
    rw [h.workers]
    exact hm.apart

omit [DecidableEq ω] in
theorem Creates.freshInv (h : Creates m m') (hc : ClaimsInv m) (hm : FreshInv m) :
    FreshInv m' := by
  have hiff : ∀ worker id, HoldsFresh m' worker id ↔ HoldsFresh m worker id := by
    intro worker id
    unfold HoldsFresh
    rw [h.workers, h.now]
  constructor
  · intro worker stage hstage hfresh row hrow
    rw [h.workers] at hstage
    obtain ⟨old, hold, _⟩ := hc.claimed worker stage hstage
    cases (h.kept _ old hold).symm.trans hrow
    exact hm.held worker stage hstage ((hiff _ _).mp hfresh) row hold
  · intro id worker worker' hw hw'
    exact hm.single id worker worker' ((hiff _ _).mp hw) ((hiff _ _).mp hw')

/-! ## Claims that are made -/

/-- An idle worker claims the event of the row. -/
structure Claims (m m' : Publishers ω ι) (worker : ω) (id : ι) (row : OutboxEvent ι) : Prop where
  idle : m.workers worker = none
  found : Rules.rowOf m id = some row
  left : row.attempts < row.maxAttempts
  claimable : OutboxRepository.isClaimable m.now row = true
  now : m'.now = m.now
  rows : m'.rows = Keyed.modify OutboxEvent.id m.rows id (OutboxRepository.claim m.now)
  workers : m'.workers = Function.update m.workers worker
    (some (.claimed (OutboxRepository.claim m.now row)))

section Claim

variable {worker : ω} {row : OutboxEvent ι}

theorem Claims.rowOf (h : Claims m m' worker id row) (other : ι) :
    Rules.rowOf m' other =
      if other = id then some (OutboxRepository.claim m.now row) else Rules.rowOf m other := by
  have hfind : Rules.rowOf m' other = if other = id then
      (Rules.rowOf m other).map (OutboxRepository.claim m.now) else Rules.rowOf m other := by
    unfold Rules.rowOf
    rw [h.rows]
    exact Keyed.find_modify OutboxEvent.id (f := OutboxRepository.claim m.now) (fun _ => rfl)
      m.rows other
  rw [hfind]
  split
  · rename_i hid
    rw [hid, h.found]
    rfl
  · rfl

theorem Claims.key (h : Claims m m' worker id row) : row.id = id := Keyed.find_key _ h.found

theorem Claims.stage (h : Claims m m' worker id row) {other : ω} {stage : PublisherStage ι}
    (hstage : m'.workers other = some stage) :
    (other = worker ∧ stage = .claimed (OutboxRepository.claim m.now row)) ∨
      (other ≠ worker ∧ m.workers other = some stage) := by
  rw [h.workers] at hstage
  by_cases hsame : other = worker
  · subst hsame
    rw [Function.update_self] at hstage
    cases hstage
    exact .inl ⟨rfl, rfl⟩
  · rw [Function.update_of_ne hsame] at hstage
    exact .inr ⟨hsame, hstage⟩

theorem Claims.claimsInv (h : Claims m m' worker id row) (hm : ClaimsInv m) : ClaimsInv m' where
  nodup := by
    rw [h.rows, Keyed.map_modify OutboxEvent.id (f := OutboxRepository.claim m.now)
      (fun _ => rfl)]
    exact hm.nodup
  bounded := by
    rw [h.rows]
    refine Keyed.forall_mem_modify _ hm.nodup h.found hm.bounded ?_
    exact h.left
  claimed := by
    intro other stage hstage
    rcases h.stage hstage with ⟨rfl, rfl⟩ | ⟨_, hstage⟩
    · refine ⟨OutboxRepository.claim m.now row, ?_, rfl, le_refl _, fun _ _ => rfl⟩
      have hid : (OutboxRepository.claim m.now row).id = id := h.key
      rw [h.rowOf]
      exact if_pos hid
    · obtain ⟨old, hold, hstarted, hattempts, hown⟩ := hm.claimed other stage hstage
      rw [h.rowOf]
      split
      · rename_i hid
        rw [hid, h.found] at hold
        cases hold
        refine ⟨_, rfl, hstarted, Nat.le_succ_of_le hattempts, fun _ heq => ?_⟩
        have heq : row.attempts + 1 = stage.event.attempts := heq
        omega
      · exact ⟨old, hold, hstarted, hattempts, hown⟩
  apart := by
    intro first second stage₁ stage₂ h₁ h₂ hid hattempts
    -- an older claim on the event has a smaller number
    have holder : ∀ other stage, m.workers other = some stage → stage.event.id = id →
        stage.event.attempts ≤ row.attempts := by
      intro other stage hstage hevent
      obtain ⟨old, hold, _, hle, _⟩ := hm.claimed other stage hstage
      rw [hevent, h.found] at hold
      cases hold
      exact hle
    rcases h.stage h₁ with ⟨rfl, rfl⟩ | ⟨hne₁, hold₁⟩
    · rcases h.stage h₂ with ⟨rfl, rfl⟩ | ⟨hne₂, hold₂⟩
      · rfl
      · have hle := holder _ _ hold₂ (hid.symm.trans h.key)
        have hattempts : row.attempts + 1 = stage₂.event.attempts := hattempts
        omega
    · rcases h.stage h₂ with ⟨rfl, rfl⟩ | ⟨hne₂, hold₂⟩
      · have hle := holder _ _ hold₁ (hid.trans h.key)
        have hattempts : stage₁.event.attempts = row.attempts + 1 := hattempts
        omega
      · exact hm.apart _ _ _ _ hold₁ hold₂ hid hattempts

omit [DecidableEq ι] in
/-- An event that is being processed can be claimed only when it is stale. -/
theorem stale_of_claimable {now startedAt : Nat} {row : OutboxEvent ι}
    (hstatus : row.status = .processing) (hstarted : row.startedAt = some startedAt)
    (h : OutboxRepository.isClaimable now row = true) :
    startedAt + OutboxRepository.staleProcessingMs < now := by
  unfold OutboxRepository.isClaimable at h
  rw [hstatus, hstarted] at h
  rcases Bool.or_eq_true_iff.mp h with hopen | hstale
  · simp at hopen
  · obtain ⟨_, ⟨⟩, hlate⟩ := (Option.any_eq_true _ _).mp (Bool.and_eq_true_iff.mp hstale).2
    exact of_decide_eq_true hlate

omit [DecidableEq ω] in
theorem nobody_holds (hc : ClaimsInv m) (hm : FreshInv m) (hrow : Rules.rowOf m id = some row)
    (hclaimable : OutboxRepository.isClaimable m.now row = true) (other : ω) :
    ¬ HoldsFresh m other id := by
  rintro ⟨stage, startedAt, hstage, rfl, hstarted, hnow⟩
  obtain ⟨old, hold, _, _, hown⟩ := hc.claimed other stage hstage
  cases hold.symm.trans hrow
  rcases hm.held other stage hstage ⟨stage, startedAt, hstage, rfl, hstarted, hnow⟩ row hrow with
    hpublished | ⟨hprocessing, hattempts⟩
  · unfold OutboxRepository.isClaimable at hclaimable
    rw [hpublished] at hclaimable
    simp at hclaimable
  · have hstale := stale_of_claimable hprocessing
      ((hown hprocessing hattempts).trans hstarted) hclaimable
    exact Nat.not_lt.mpr hnow hstale

theorem Claims.freshInv (h : Claims m m' worker id row) (hc : ClaimsInv m) (hm : FreshInv m) :
    FreshInv m' := by
  have hfresh : ∀ other event, HoldsFresh m' other event →
      (other = worker ∧ event = id) ∨ (event ≠ id ∧ HoldsFresh m other event) := by
    rintro other event ⟨stage, startedAt, hstage, hevent, hstarted, hnow⟩
    rcases h.stage hstage with ⟨rfl, rfl⟩ | ⟨_, hstage⟩
    · exact .inl ⟨rfl, hevent.symm.trans h.key⟩
    · rw [h.now] at hnow
      have hheld : HoldsFresh m other event := ⟨stage, startedAt, hstage, hevent, hstarted, hnow⟩
      refine .inr ⟨?_, hheld⟩
      rintro rfl
      exact nobody_holds hc hm h.found h.claimable other hheld
  constructor
  · intro other stage hstage hheld found hfound
    rw [h.rowOf] at hfound
    rcases h.stage hstage with ⟨rfl, rfl⟩ | ⟨hne, hold⟩
    · have hid : (OutboxRepository.claim m.now row).id = id := h.key
      rw [PublisherStage.event, if_pos hid] at hfound
      cases hfound
      exact .inr ⟨rfl, rfl⟩
    · rcases hfresh _ _ hheld with ⟨hsame, _⟩ | ⟨hother, hheldOld⟩
      · exact absurd hsame hne
      · rw [if_neg hother] at hfound
        exact hm.held other stage hold hheldOld found hfound
  · intro event first second hfirst hsecond
    rcases hfresh _ _ hfirst with ⟨rfl, rfl⟩ | ⟨hne, hold⟩
    · rcases hfresh _ _ hsecond with ⟨rfl, _⟩ | ⟨hne, _⟩
      · rfl
      · exact absurd rfl hne
    · rcases hfresh _ _ hsecond with ⟨_, rfl⟩ | ⟨_, hold'⟩
      · exact absurd rfl hne
      · exact hm.single event first second hold hold'

end Claim

/-! ## One step -/

/-- What a step does to rows and claims. -/
inductive PublisherMove (m m' : Publishers ω ι) (input : PublisherInput ω ι) : Prop
  | inherits (h : Inherits m m')
  | creates (h : Creates m m')
  | claims {worker : ω} {id : ι} {row : OutboxEvent ι} (h : Claims m m' worker id row)
  | published {between : Publishers ω ι} {id : ι} {f : OutboxEvent ι → OutboxEvent ι}
      (hworker : Inherits m between) (h : Writes between m' id f)
      (hstatus : ∀ row, (f row).status = .published)
  | failed {between : Publishers ω ι} {worker : ω} {stage : PublisherStage ι}
      {f : OutboxEvent ι → OutboxEvent ι} (hinput : input = .fail worker true)
      (hstage : m.workers worker = some stage) (hworker : Inherits m between)
      (hgone : between.workers worker = none) (h : Writes between m' stage.event.id f)

theorem publisherStep_move {input : PublisherInput ω ι} {output : List PublisherOutput}
    (hm : ClaimsInv m) (h : PublisherSteps m input output m') : PublisherMove m m' input := by
  unfold PublisherSteps at h
  cases input with
  | pass ms =>
    cases h
    exact .inherits ⟨rfl, Nat.le_add_right _ _, fun _ stage hstage => ⟨stage, hstage, rfl⟩⟩
  | createOrGet id input =>
    simp only [publisherStep] at h
    split at h
    · cases h
    · rename_i hid
      cases h
      exact .creates (Rules.creates hm hid)
  | claimById worker id =>
    simp only [publisherStep] at h
    split at h
    · cases h
    · rename_i hidle
      split at h
      · rename_i rows event hstart
        cases h
        obtain ⟨row, hrow, ⟨hleft, hclaimable⟩, rfl, rfl⟩ := start_eq_some hstart
        exact .claims ⟨hidle, hrow, hleft, hclaimable, rfl, rfl, rfl⟩
      · cases h
        exact .inherits ⟨rfl, le_refl _, fun _ stage hstage => ⟨stage, hstage, rfl⟩⟩
  | publishNotificationCreated worker error =>
    simp only [publisherStep] at h
    split at h
    · rename_i event hstage
      have hset : ∀ stage' : PublisherStage ι, stage'.event = event →
          Inherits m (m.set worker (some stage')) := by
        intro stage' hevent
        exact inherits_set hstage fun _ hnext => by cases hnext; exact hevent
      split at h
      · cases h
        exact .inherits (hset _ rfl)
      · split at h
        · cases h
          exact .inherits (hset _ rfl)
        · cases h
        · cases h
          exact .inherits (hset _ rfl)
    · cases h
  | markPublished worker applied error =>
    simp only [publisherStep] at h
    split at h
    · rename_i event hstage
      have hwrites : ∀ next : Option (PublisherStage ι),
          Writes (m.set worker next) (({ m with
            rows := OutboxRepository.markPublished m.rows event.id m.now }).set worker next)
            event.id fun row =>
              { row with
                status := .published, publishedAt := some m.now, error := none
                updatedAt := m.now } := fun next =>
        ⟨rfl, rfl, rfl, fun _ => rfl, fun _ => rfl, fun _ => rfl, fun _ => by simp⟩
      cases error with
      | none =>
        dsimp only at h
        split at h
        · rename_i happlied
          subst happlied
          cases h
          exact .published (inherits_release hstage) (hwrites none) fun _ => rfl
        · cases h
      | some error =>
        dsimp only at h
        cases h
        have hinherits : Inherits m (m.set worker (some (.caught event error))) :=
          inherits_set hstage fun _ hnext => by cases hnext; rfl
        cases applied with
        | true => exact .published hinherits (hwrites _) fun _ => rfl
        | false => exact .inherits hinherits
    · cases h
  | fail worker applied =>
    simp only [publisherStep] at h
    split at h
    · rename_i event error hstage
      cases h
      have hinherits : Inherits m (m.set worker none) := inherits_release hstage
      cases applied with
      | true =>
        have hgone : (m.set worker none).workers worker = none := Function.update_self _ _ _
        exact .failed rfl hstage hinherits hgone (f := fun row =>
            { row with
              status := .failed, failedAt := some m.now, error := some (errorText error)
              availableAt := m.now + OutboxRepository.retryDelayMs, updatedAt := m.now })
          ⟨rfl, rfl, rfl, fun _ => rfl, fun _ => rfl, fun _ => rfl, fun _ => by simp⟩
      | false => exact .inherits hinherits
    · cases h
  | crash worker =>
    simp only [publisherStep] at h
    split at h
    · rename_i stage hstage
      cases h
      exact .inherits (inherits_release hstage)
    · cases h

theorem PublisherMove.claimsInv {input : PublisherInput ω ι} (h : PublisherMove m m' input)
    (hm : ClaimsInv m) : ClaimsInv m' := by
  cases h with
  | inherits h => exact h.claimsInv hm
  | creates h => exact h.claimsInv hm
  | claims h => exact h.claimsInv hm
  | published hworker h => exact h.claimsInv (hworker.claimsInv hm)
  | failed _ _ hworker _ h => exact h.claimsInv (hworker.claimsInv hm)

omit [DecidableEq ω] in
/-- Nobody else holds an event that a worker may mark as failed. -/
theorem nobody_else_holds {between : Publishers ω ι} {worker : ω} {stage : PublisherStage ι}
    (hc : ClaimsInv m) (hm : FreshInv m) (hstage : m.workers worker = some stage)
    (hguard : FailsOwn m (.fail worker true)) (hworker : Inherits m between)
    (hgone : between.workers worker = none) (other : ω) :
    ¬ HoldsFresh between other stage.event.id := by
  intro hheld
  have hold := hworker.holdsFresh hheld
  have hne : other ≠ worker := by
    rintro rfl
    obtain ⟨stage', _, hstage', _⟩ := hheld
    cases hgone.symm.trans hstage'
  obtain ⟨stage', startedAt, hstage', hid, hstarted, hnow⟩ := hold
  obtain ⟨row, hrow, _, _, hown⟩ := hc.claimed other stage' hstage'
  obtain ⟨hunpublished, hprocessing⟩ := hguard stage hstage row (Keyed.find_mem _ hrow)
    ((Keyed.find_key _ hrow).trans hid)
  rcases hm.held other stage' hstage' ⟨stage', startedAt, hstage', rfl, hstarted, hnow⟩ row hrow
    with hpublished | ⟨hstatus, hattempts⟩
  · exact hunpublished hpublished
  · rcases hprocessing hstatus with hsame | hstale
    · exact hne (hc.apart other worker stage' stage hstage' hstage hid
        (hattempts.symm.trans hsame))
    · rw [hown hstatus hattempts, hstarted, Option.any_some, decide_eq_true_eq] at hstale
      omega

theorem PublisherMove.freshInv {input : PublisherInput ω ι} (h : PublisherMove m m' input)
    (hc : ClaimsInv m) (hm : FreshInv m) (hguard : FailsOwn m input) : FreshInv m' := by
  cases h with
  | inherits h => exact h.freshInv hm
  | creates h => exact h.freshInv hc hm
  | claims h => exact h.freshInv hc hm
  | published hworker h hstatus =>
    exact h.freshInv (hworker.freshInv hm) fun _ _ row => hstatus row
  | failed hinput hstage hworker hgone h =>
    subst hinput
    refine h.freshInv (hworker.freshInv hm) fun other hheld => ?_
    exact absurd hheld (nobody_else_holds hc hm hstage hguard hworker hgone other)

omit [DecidableEq ω] in
theorem isPublished_iff : IsPublished m id ↔
    ∃ row, rowOf m id = some row ∧ row.status = .published := by
  constructor
  · rintro ⟨row, hrow, hstatus, _⟩
    exact ⟨row, hrow, hstatus⟩
  · rintro ⟨row, hrow, hstatus⟩
    refine ⟨row, hrow, hstatus, fun now => ?_⟩
    simp [OutboxRepository.isClaimable, hstatus]

theorem PublisherMove.isPublished {input : PublisherInput ω ι} (h : PublisherMove m m' input)
    (hguard : FailsOwn m input) (hpublished : IsPublished m id) : IsPublished m' id := by
  rw [isPublished_iff] at hpublished ⊢
  obtain ⟨row, hrow, hstatus⟩ := hpublished
  cases h with
  | inherits h => exact ⟨row, (h.rowOf id).trans hrow, hstatus⟩
  | creates h => exact ⟨row, h.kept id row hrow, hstatus⟩
  | @claims worker other claimed h =>
    have hne : id ≠ other := by
      rintro rfl
      cases hrow.symm.trans h.found
      have hclaimable := h.claimable
      simp [OutboxRepository.isClaimable, hstatus] at hclaimable
    exact ⟨row, by rw [h.rowOf, if_neg hne]; exact hrow, hstatus⟩
  | @published between other f hworker h hends =>
    rw [h.rowOf, hworker.rowOf, hrow]
    split
    · exact ⟨f row, rfl, hends row⟩
    · exact ⟨row, rfl, hstatus⟩
  | @failed between worker stage f hinput hstage hworker _ h =>
    subst hinput
    have hne : id ≠ stage.event.id := by
      rintro rfl
      exact (hguard stage hstage row (Keyed.find_mem _ hrow) (Keyed.find_key _ hrow)).1 hstatus
    rw [h.rowOf, hworker.rowOf, if_neg hne]
    exact ⟨row, hrow, hstatus⟩

end Steps

/-! ## Whole runs -/

section Runs

variable {m m' : Publishers ω ι} {inputs : List (PublisherInput ω ι)}
  {outputs : List PublisherOutput}

omit [DecidableEq ω] in
theorem unstarted_claimsInv (now : Nat) : ClaimsInv (unstarted now : Publishers ω ι) where
  nodup := List.nodup_nil
  bounded := List.forall_mem_nil _
  claimed := fun _ _ hstage => by cases hstage
  apart := fun _ _ _ _ hstage => by cases hstage

omit [DecidableEq ω] in
theorem unstarted_freshInv (now : Nat) : FreshInv (unstarted now : Publishers ω ι) where
  held := fun _ _ hstage => by cases hstage
  single := by
    rintro _ _ _ ⟨_, _, hstage, _⟩
    cases hstage

theorem run_claimsInv (h : Run PublisherSteps m inputs outputs m') (hm : ClaimsInv m) :
    ClaimsInv m' :=
  h.invariant (fun _ _ _ _ hs hstep => (publisherStep_move hs hstep).claimsInv hs) hm

theorem run_freshInv (h : Run (Guarded PublisherSteps FailsOwn) m inputs outputs m')
    (hc : ClaimsInv m) (hm : FreshInv m) : ClaimsInv m' ∧ FreshInv m' := by
  refine h.invariant (I := fun s => ClaimsInv s ∧ FreshInv s) ?_ ⟨hc, hm⟩
  intro s input output t hs hstep
  have hmove := publisherStep_move hs.1 hstep.1
  exact ⟨hmove.claimsInv hs.1, hmove.freshInv hs.1 hs.2 hstep.2⟩

/-- Attempts are never more than allowed. Where a worker marks an event as failed only if it is
not published and no other worker holds it, claims that are not stale exclude each other and what
is published stays published. -/
theorem publishers_claims (now : Nat) :
    (∀ inputs outputs (m : Publishers ω ι), Run PublisherSteps (unstarted now) inputs outputs m →
      ∀ row ∈ m.rows, row.attempts ≤ row.maxAttempts) ∧
    ∀ inputs outputs (m : Publishers ω ι),
      Run (Guarded PublisherSteps FailsOwn) (unstarted now) inputs outputs m →
      (∀ id worker worker', HoldsFresh m worker id → HoldsFresh m worker' id →
        worker = worker') ∧
      ∀ inputs' outputs' m', Run (Guarded PublisherSteps FailsOwn) m inputs' outputs' m' →
        ∀ id, IsPublished m id → IsPublished m' id := by
  constructor
  · intro inputs outputs m hrun
    exact (run_claimsInv hrun (unstarted_claimsInv now)).bounded
  · intro inputs outputs m hrun
    obtain ⟨hclaims, hfresh⟩ :=
      run_freshInv hrun (unstarted_claimsInv now) (unstarted_freshInv now)
    refine ⟨hfresh.single, ?_⟩
    intro inputs' outputs' m' hrun' id hpublished
    have hkeep := hrun'.invariant (I := fun s => ClaimsInv s ∧ IsPublished s id) ?_
      ⟨hclaims, hpublished⟩
    · exact hkeep.2
    · intro s input output t hs hstep
      have hmove := publisherStep_move hs.1 hstep.1
      exact ⟨hmove.claimsInv hs.1, hmove.isPublished hstep.2 hs.2⟩

instance (m : Publishers ω ι) : ∀ input, Decidable (FailsOwn m input)
  | .fail worker true => decidable_of_iff ((m.workers worker).all fun stage =>
      m.rows.all fun row => decide (row.id = stage.event.id → row.status ≠ .published ∧
        (row.status = .processing → row.attempts = stage.event.attempts ∨
          row.startedAt.any (· + OutboxRepository.staleProcessingMs < m.now) = true))) (by
      simp only [FailsOwn, Option.all_eq_true, List.all_eq_true, decide_eq_true_eq])
  | .fail _ false | .pass _ | .createOrGet _ _ | .claimById _ _
  | .publishNotificationCreated _ _ | .markPublished _ _ _ | .crash _ =>
    inferInstanceAs (Decidable True)

/-- A notification's event. -/
def notificationEvent : CreateOutboxEventInput :=
  ⟨"notification:1", notificationCreated,
    some [("notificationId", .string "1"), ("userId", .string "2"), ("type", .string "friend"),
      ("createdAt", .string "today")], none⟩

/-- The first worker fails the event, and claims it again. The second worker takes it over and
publishes it; the first one gives up its claim. -/
def takenOver : List (PublisherInput Nat Nat) :=
  [.createOrGet 0 notificationEvent, .claimById 1 0, .publishNotificationCreated 1 (some "timeout"),
    .fail 1 true, .pass 30000, .claimById 1 0, .pass 600001, .claimById 2 0,
    .publishNotificationCreated 2 none, .markPublished 2 true none, .crash 1]

/-- The status of the event in the row. -/
def statusOf (m : Publishers ω ι) (id : ι) : Option OutboxEventStatus :=
  (rowOf m id).map OutboxEvent.status

omit [DecidableEq ω] in
theorem isPublished_of_statusOf {id : ι} (h : statusOf m id = some .published) :
    IsPublished m id := by
  obtain ⟨row, hrow, hstatus⟩ := Option.map_eq_some_iff.mp h
  exact isPublished_iff.mpr ⟨row, hrow, hstatus⟩

/-- The event stays published while time goes on. -/
theorem takenOver_published : ∃ (m m' : Publishers Nat Nat) (outputs : List PublisherOutput),
    Run (Guarded PublisherSteps FailsOwn) (unstarted 0) takenOver outputs m ∧
      m'.now = m.now + 600001 ∧ IsPublished m' 0 := by
  obtain ⟨⟨m, outputs⟩, hplay, htest⟩ := (Option.any_eq_true _ _).mp (by decide +kernel :
    ((Trace.play (fun s i => if FailsOwn s i then publisherStep s i else none)
      (unstarted 0) takenOver).any fun last => statusOf last.1 0 = some .published) = true)
  have hrun := Trace.play_guarded hplay
  have hlater : Run (Guarded PublisherSteps FailsOwn) m [.pass 600001] []
      { m with now := m.now + 600001 } :=
    (Run.refl m).tail (o := []) ⟨rfl, trivial⟩
  exact ⟨m, _, outputs, hrun, rfl,
    ((publishers_claims 0).2 _ _ m hrun).2 _ _ _ hlater 0
      (isPublished_of_statusOf (of_decide_eq_true htest))⟩

/-- The first worker's claim is taken over after ten minutes, and then its publication fails. -/
def overtaken : List (PublisherInput Nat Nat) :=
  [.createOrGet 0 notificationEvent, .claimById 1 0, .pass 600001, .claimById 2 0,
    .publishNotificationCreated 1 (some "timeout")]

/-- The first worker fails the event the second one has published; or it fails the one the second
one is at, and a third one claims that too. -/
theorem overtaken_fails :
    (∃ (m m' : Publishers Nat Nat) (outputs outputs' : List PublisherOutput),
      Run PublisherSteps (unstarted 0)
        (overtaken ++ [.publishNotificationCreated 2 none, .markPublished 2 true none]) outputs m ∧
      Run PublisherSteps m [.fail 1 true] outputs' m' ∧
      IsPublished m 0 ∧ statusOf m' 0 = some .failed) ∧
    ∃ (m : Publishers Nat Nat) (outputs : List PublisherOutput),
      Run PublisherSteps (unstarted 0) (overtaken ++ [.fail 1 true, .pass 30000, .claimById 3 0])
        outputs m ∧ HoldsFresh m 2 0 ∧ HoldsFresh m 3 0 := by
  constructor
  · obtain ⟨⟨m, outputs⟩, hplay, htest⟩ := (Option.any_eq_true _ _).mp (by decide +kernel :
      ((Trace.play publisherStep (unstarted 0)
        (overtaken ++ [.publishNotificationCreated 2 none, .markPublished 2 true none])).any
        fun last => statusOf last.1 0 = some .published ∧
          (Trace.play publisherStep last.1 [.fail 1 true]).any fun next =>
            statusOf next.1 0 = some .failed) = true)
    obtain ⟨hpublished, hfail⟩ := of_decide_eq_true htest
    obtain ⟨⟨m', outputs'⟩, hplay', htest'⟩ := (Option.any_eq_true _ _).mp hfail
    exact ⟨m, m', outputs, outputs', Trace.play_run hplay, Trace.play_run hplay',
      isPublished_of_statusOf hpublished, of_decide_eq_true htest'⟩
  · obtain ⟨⟨m, outputs⟩, hplay, htest⟩ := (Option.any_eq_true _ _).mp (by decide +kernel :
      ((Trace.play publisherStep (unstarted 0)
        (overtaken ++ [.fail 1 true, .pass 30000, .claimById 3 0])).any fun last =>
          last.1.now = 630001 ∧
          (last.1.workers 2).any (fun stage =>
            stage.event.id = 0 ∧ stage.event.startedAt = some 600001) ∧
          (last.1.workers 3).any (fun stage =>
            stage.event.id = 0 ∧ stage.event.startedAt = some 630001)) = true)
    obtain ⟨hnow, hsecond, hthird⟩ := of_decide_eq_true htest
    obtain ⟨stage, hstage, hevent⟩ := (Option.any_eq_true _ _).mp hsecond
    obtain ⟨stage', hstage', hevent'⟩ := (Option.any_eq_true _ _).mp hthird
    obtain ⟨hid, hstarted⟩ := of_decide_eq_true hevent
    obtain ⟨hid', hstarted'⟩ := of_decide_eq_true hevent'
    refine ⟨m, outputs, Trace.play_run hplay, ⟨stage, _, hstage, hid, hstarted, ?_⟩,
      ⟨stage', _, hstage', hid', hstarted', ?_⟩⟩
    · rw [hnow]
      decide
    · rw [hnow]
      decide

end Runs

end Rules
end LivePoly
