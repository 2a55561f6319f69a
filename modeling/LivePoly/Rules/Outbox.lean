import LivePoly.Service.Outbox
import LivePoly.Lib.Trace

/-!
# Rules.Outbox

What becomes of the outbox's events. A publish job that finds its event not claimable completes,
and a row left in `processing` is never returned by `findAvailable`; so an event is kept track of
in exactly the runs whose retries come when the row can be claimed and whose jobs are not given up
while the row is being processed (`outbox_undropped`).
-/

namespace LivePoly
namespace Rules

open Service JobQueue Trace

variable {ι : Type} [DecidableEq ι]

/-! ## What is claimed of the outbox -/

/-- A job that has completed: its event is published or has no attempts left. -/
def CompletedRightly (outputs : List (OutboxOutput ι)) (outbox : Outbox ι) : Prop :=
  ∀ id, .completed id ∈ outputs → ∀ row ∈ outbox.rows, row.id = id →
    row.status = .published ∨ row.maxAttempts ≤ row.attempts

/-- The event is marked as being processed, but no worker is publishing it. -/
def Interrupted (outbox : Outbox ι) (row : OutboxEvent ι) : Prop :=
  row.status = .processing ∧ ∀ event, outbox.workers row.id ≠ some (.claimed event)

/-- An event that failed or was interrupted with attempts left has a job that is to be run or is
being run, or is found once its delay has passed. -/
def NotDropped (outbox : Outbox ι) : Prop :=
  ∀ row ∈ outbox.rows, row.attempts < row.maxAttempts →
    row.status = .failed ∨ Interrupted outbox row →
    outbox.queue.holds row.id = true ∨ ∀ now limit, row.availableAt ≤ now →
      outbox.rows.length ≤ limit → row.id ∈ OutboxRepository.findAvailable outbox.rows limit now

/-- What a step leaves is as it should be. -/
def Undropped (_ : Outbox ι) (_ : OutboxInput ι) (outputs : List (OutboxOutput ι))
    (outbox : Outbox ι) : Prop :=
  CompletedRightly outputs outbox ∧ NotDropped outbox

/-- The event is being processed, with attempts left. -/
def HeldUp (outbox : Outbox ι) (id : ι) : Prop :=
  ∃ row ∈ outbox.rows, row.id = id ∧ row.status = .processing ∧ row.attempts < row.maxAttempts

/-- The job is at its last attempt. -/
def AtLastAttempt (outbox : Outbox ι) (id : ι) : Prop :=
  ∃ job, outbox.queue id = some job ∧ OutboxQueueService.attempts ≤ job.attemptsMade + 1

/-- A worker looks for an unpublished event with attempts left when the row can be claimed, and a
job is not given up while its event is being processed with attempts left. -/
def MeetsRetries (outbox : Outbox ι) : OutboxInput ι → Prop
  | .claimById id => ∀ row ∈ outbox.rows, row.id = id → row.status ≠ .published →
    row.attempts < row.maxAttempts → OutboxRepository.isClaimable outbox.now row = true
  | .endAttempt id _ => outbox.workers id = some .thrown → AtLastAttempt outbox id →
    ¬ HeldUp outbox id
  | .stalled id again => again = false → ¬ HeldUp outbox id
  | _ => True

instance (outbox : Outbox ι) (id : ι) : Decidable (HeldUp outbox id) :=
  inferInstanceAs (Decidable (∃ row ∈ outbox.rows, _))

instance (outbox : Outbox ι) (id : ι) : Decidable (AtLastAttempt outbox id) :=
  decidable_of_iff ((outbox.queue id).any fun job =>
    OutboxQueueService.attempts ≤ job.attemptsMade + 1) (by
      unfold AtLastAttempt
      rw [Option.any_eq_true]
      simp)

instance (outbox : Outbox ι) : ∀ input, Decidable (MeetsRetries outbox input)
  | .claimById _ => inferInstanceAs (Decidable (∀ row ∈ outbox.rows, _))
  | .endAttempt id _ =>
    inferInstanceAs (Decidable (outbox.workers id = some .thrown → AtLastAttempt outbox id →
      ¬ HeldUp outbox id))
  | .stalled id again => inferInstanceAs (Decidable (again = false → ¬ HeldUp outbox id))
  | .pass _ | .createOrGet _ _ | .enqueuePublishEvent _ | .recoverAvailableEvents | .take _
  | .claimThrows _ _ | .publishEvent _ _ | .crash _ => inferInstanceAs (Decidable True)

/-- An outbox at its beginning. -/
structure FreshOutbox (outbox : Outbox ι) : Prop where
  nodup : (outbox.rows.map OutboxEvent.id).Nodup
  queued : ∀ row ∈ outbox.rows, row.status = .queued
  jobless : ∀ id, outbox.queue id = none
  idle : ∀ id, outbox.workers id = none

/-! ## The invariant -/

/-- What holds of an event's row, its job, and the worker of that job. -/
structure EventInv (id : ι) (row : Option (OutboxEvent ι))
    (job : Option (Job (PublishOutboxEventJob ι))) (worker : Option (PublishStage ι)) : Prop where
  working : ∀ stage, worker = some stage → ∃ j, job = some j ∧ j.state = .active
  claimed : ∀ event, worker = some (.claimed event) → event.id = id ∧ row.isSome
  returned : worker = some .returned → ∃ r, row = some r ∧ r.status = .published
  kept : ∀ r, row = some r → r.status = .processing → r.attempts < r.maxAttempts →
    ∃ j, job = some j ∧ j.isPending = true

structure OutboxInv (outbox : Outbox ι) : Prop where
  nodup : (outbox.rows.map OutboxEvent.id).Nodup
  events : ∀ id, EventInv id (Keyed.find OutboxEvent.id outbox.rows id) (outbox.queue id)
    (outbox.workers id)

theorem FreshOutbox.inv {outbox : Outbox ι} (h : FreshOutbox outbox) : OutboxInv outbox where
  nodup := h.nodup
  events id := by
    rw [h.jobless id, h.idle id]
    refine ⟨nofun, nofun, nofun, fun r hrow hprocessing => ?_⟩
    rw [h.queued r (Keyed.find_mem _ hrow)] at hprocessing
    cases hprocessing

section Found

variable {outbox : Outbox ι} {row : OutboxEvent ι}

theorem OutboxInv.find (h : OutboxInv outbox) (hrow : row ∈ outbox.rows) :
    Keyed.find OutboxEvent.id outbox.rows row.id = some row :=
  Keyed.find_of_mem OutboxEvent.id h.nodup hrow

theorem OutboxInv.heldUp_iff (h : OutboxInv outbox) {id : ι} :
    HeldUp outbox id ↔ ∃ row, Keyed.find OutboxEvent.id outbox.rows id = some row ∧
      row.status = .processing ∧ row.attempts < row.maxAttempts := by
  constructor
  · rintro ⟨row, hrow, rfl, hstatus⟩
    exact ⟨row, h.find hrow, hstatus⟩
  · rintro ⟨row, hrow, hstatus⟩
    exact ⟨row, Keyed.find_mem _ hrow, Keyed.find_key _ hrow, hstatus⟩

omit [DecidableEq ι] in
theorem mem_findAvailable {rows : List (OutboxEvent ι)} {limit now : Nat} (hrow : row ∈ rows)
    (havailable : OutboxRepository.isAvailable now row = true) (hlimit : rows.length ≤ limit) :
    row.id ∈ OutboxRepository.findAvailable rows limit now := by
  unfold OutboxRepository.findAvailable
  rw [List.take_of_length_le]
  · refine List.mem_map_of_mem ?_
    rw [List.mem_insertionSort]
    exact List.mem_filter.mpr ⟨hrow, havailable⟩
  · rw [List.length_insertionSort]
    exact Nat.le_trans (List.length_filter_le _ _) hlimit

omit [DecidableEq ι] in
theorem exists_of_mem_findAvailable {rows : List (OutboxEvent ι)} {limit now : Nat} {id : ι}
    (h : id ∈ OutboxRepository.findAvailable rows limit now) :
    ∃ row ∈ rows, row.id = id ∧ OutboxRepository.isAvailable now row = true := by
  obtain ⟨row, hrow, rfl⟩ := List.mem_map.mp h
  have hsorted := List.mem_of_mem_take hrow
  rw [List.mem_insertionSort] at hsorted
  obtain ⟨hmem, havailable⟩ := List.mem_filter.mp hsorted
  exact ⟨row, hmem, rfl, havailable⟩

/-- A row that is being processed is not found, however long it has been. -/
theorem OutboxInv.not_found (h : OutboxInv outbox) (hrow : row ∈ outbox.rows)
    (hstatus : row.status = .processing) (limit now : Nat) :
    row.id ∉ OutboxRepository.findAvailable outbox.rows limit now := by
  intro hfound
  obtain ⟨row', hrow', hid, havailable⟩ := exists_of_mem_findAvailable hfound
  have hsame : row' = row := by
    have hfind := h.find hrow'
    rw [hid, h.find hrow] at hfind
    exact (Option.some.inj hfind).symm
  subst hsame
  simp [OutboxRepository.isAvailable, hstatus] at havailable

theorem OutboxInv.notDropped (h : OutboxInv outbox) : NotDropped outbox := by
  intro row hrow hleft hstatus
  rcases hstatus with hfailed | ⟨hprocessing, _⟩
  · refine .inr fun now limit hnow hlimit => mem_findAvailable hrow ?_ hlimit
    simp [OutboxRepository.isAvailable, hfailed, hnow, hleft]
  · obtain ⟨job, hjob, hpending⟩ := (h.events row.id).kept row (h.find hrow) hprocessing hleft
    left
    show (outbox.queue row.id).any Job.isPending = true
    rw [hjob]
    exact hpending

end Found

/-! ## One step -/

section Operations

variable {rows rows' : List (OutboxEvent ι)} {id : ι} {now : Nat}

theorem start_eq_some {event : OutboxEvent ι}
    (h : OutboxRepository.start rows id now = (rows', some event)) :
    ∃ row, Keyed.find OutboxEvent.id rows id = some row ∧
      (row.attempts < row.maxAttempts ∧ OutboxRepository.isClaimable now row = true) ∧
      event = OutboxRepository.claim now row ∧
      rows' = Keyed.modify OutboxEvent.id rows id (OutboxRepository.claim now) := by
  unfold OutboxRepository.start at h
  cases hrow : Keyed.find OutboxEvent.id rows id with
  | none =>
    rw [hrow] at h
    cases h
  | some row =>
    rw [hrow] at h
    dsimp only at h
    split at h
    · rename_i hclaimable
      cases h
      exact ⟨row, rfl, hclaimable, rfl, rfl⟩
    · cases h

theorem start_eq_none (h : OutboxRepository.start rows id now = (rows', none)) :
    rows' = rows ∧ ∀ row, Keyed.find OutboxEvent.id rows id = some row →
      row.attempts < row.maxAttempts → OutboxRepository.isClaimable now row = false := by
  unfold OutboxRepository.start at h
  cases hfind : Keyed.find OutboxEvent.id rows id with
  | none =>
    rw [hfind] at h
    cases h
    exact ⟨rfl, nofun⟩
  | some found =>
    rw [hfind] at h
    dsimp only at h
    split at h
    · cases h
    · rename_i hnot
      cases h
      refine ⟨rfl, fun row hrow hleft => ?_⟩
      cases hrow
      cases hclaimable : OutboxRepository.isClaimable now found with
      | false => rfl
      | true => exact absurd ⟨hleft, hclaimable⟩ hnot

theorem publishEvent_eq {event : OutboxEvent ι} {outcome : PublishOutcome} {ok : Bool}
    (h : OutboxPublisher.publishEvent rows event outcome now = (rows', ok)) :
    ∃ f : OutboxEvent ι → OutboxEvent ι, (∀ row, (f row).id = row.id) ∧
      rows' = Keyed.modify OutboxEvent.id rows event.id f ∧
      (ok = true → ∀ row, (f row).status = .published) := by
  unfold OutboxPublisher.publishEvent at h
  split at h
  · cases h
    exact ⟨fun row =>
      { row with status := .published, publishedAt := some now, error := none, updatedAt := now },
      fun _ => rfl, rfl, fun _ _ => rfl⟩
  · split at h
    · cases h
      exact ⟨fun row =>
        { row with
          status := .failed, failedAt := some now
          error := some (String.ofList (outcome.error.toList.take 2000))
          availableAt := now + OutboxRepository.retryDelayMs, updatedAt := now },
        fun _ => rfl, rfl, nofun⟩
    · cases h
      refine ⟨fun row => row, fun _ => rfl, ?_, nofun⟩
      unfold Keyed.modify
      simp

end Operations

section Step

variable {s t : Outbox ι} {id : ι}

/-- What a step does to one event leaves the others as they are. -/
theorem OutboxInv.at_event (h : OutboxInv s) (id : ι) (hnodup : (t.rows.map OutboxEvent.id).Nodup)
    (hother : ∀ other, other ≠ id →
      Keyed.find OutboxEvent.id t.rows other = Keyed.find OutboxEvent.id s.rows other ∧
        t.queue other = s.queue other ∧ t.workers other = s.workers other)
    (hself : EventInv id (Keyed.find OutboxEvent.id t.rows id) (t.queue id) (t.workers id)) :
    OutboxInv t where
  nodup := hnodup
  events other := by
    by_cases hid : other = id
    · subst hid
      exact hself
    · obtain ⟨hrow, hjob, hworker⟩ := hother other hid
      rw [hrow, hjob, hworker]
      exact h.events other

theorem OutboxInv.at_job (h : OutboxInv s) (hrows : t.rows = s.rows)
    {job : Option (Job (PublishOutboxEventJob ι))} {worker : Option (PublishStage ι)}
    (hqueue : t.queue = Function.update s.queue id job)
    (hworkers : t.workers = Function.update s.workers id worker)
    (hself : EventInv id (Keyed.find OutboxEvent.id s.rows id) job worker) : OutboxInv t := by
  refine h.at_event id ?_ ?_ ?_
  · rw [hrows]
    exact h.nodup
  · intro other hid
    rw [hrows, hqueue, hworkers, Function.update_of_ne hid, Function.update_of_ne hid]
    exact ⟨rfl, rfl, rfl⟩
  · rw [hrows, hqueue, hworkers, Function.update_self, Function.update_self]
    exact hself

theorem OutboxInv.at_row (h : OutboxInv s) {f : OutboxEvent ι → OutboxEvent ι}
    (hf : ∀ row, (f row).id = row.id) (hrows : t.rows = Keyed.modify OutboxEvent.id s.rows id f)
    (hqueue : t.queue = s.queue) {stage : PublishStage ι}
    (hworkers : t.workers = Function.update s.workers id (some stage))
    (hself : EventInv id ((Keyed.find OutboxEvent.id s.rows id).map f) (s.queue id) (some stage)) :
    OutboxInv t := by
  refine h.at_event id ?_ ?_ ?_
  · rw [hrows, Keyed.map_modify OutboxEvent.id hf]
    exact h.nodup
  · intro other hid
    rw [hrows, hqueue, hworkers, Function.update_of_ne hid,
      Keyed.find_modify_other OutboxEvent.id hf _ hid]
    exact ⟨rfl, rfl, rfl⟩
  · rw [hrows, hqueue, hworkers, Function.update_self, Keyed.find_modify_self OutboxEvent.id hf]
    exact hself

theorem OutboxInv.enqueue (h : OutboxInv s) (id : ι) :
    OutboxInv (OutboxQueueService.enqueuePublishEvent s id) where
  nodup := h.nodup
  events other := by
    obtain ⟨hworking, hclaimed, hreturned, hkept⟩ := h.events other
    refine ⟨fun stage hstage => ?_, hclaimed, hreturned, fun row hrow hstatus hleft => ?_⟩
    · obtain ⟨job, hjob, hactive⟩ := hworking stage hstage
      exact ⟨job, Queue.add_of_some hjob _ _ _, hactive⟩
    · obtain ⟨job, hjob, hpending⟩ := hkept row hrow hstatus hleft
      exact ⟨job, Queue.add_of_some hjob _ _ _, hpending⟩

theorem OutboxInv.recover (h : OutboxInv s) :
    OutboxInv (OutboxRecoveryService.recoverAvailableEvents s) := by
  unfold OutboxRecoveryService.recoverAvailableEvents
  generalize OutboxRepository.findAvailable s.rows OutboxRecoveryService.batchSize s.now = ids
  induction ids generalizing s with
  | nil => exact h
  | cons id ids ih => exact ih (h.enqueue id)

theorem OutboxInv.create (h : OutboxInv s) {input : CreateOutboxEventInput}
    (hid : id ∉ s.rows.map OutboxEvent.id) :
    OutboxInv { s with rows := OutboxRepository.createOrGet s.rows id input s.now } := by
  unfold OutboxRepository.createOrGet
  split
  · exact h
  have hnone : Keyed.find OutboxEvent.id s.rows id = none :=
    (Keyed.find_eq_none_iff OutboxEvent.id).mpr hid
  refine h.at_event id ?_ ?_ ?_
  · rw [List.map_append]
    exact List.nodup_append.mpr ⟨h.nodup, List.nodup_singleton _, by
      rintro _ hmem _ hnew rfl
      rw [List.mem_singleton.mp hnew] at hmem
      exact hid hmem⟩
  · intro other hother
    refine ⟨?_, rfl, rfl⟩
    unfold Keyed.find
    rw [List.find?_append]
    simp [Ne.symm hother]
  · obtain ⟨hworking, hclaimed, hreturned, _⟩ := h.events id
    refine ⟨hworking, fun event hevent => ?_, fun hstage => ?_, fun row hrow hstatus => ?_⟩
    · obtain ⟨_, hsome⟩ := hclaimed event hevent
      rw [hnone] at hsome
      cases hsome
    · obtain ⟨_, hrow, _⟩ := hreturned hstage
      rw [hnone] at hrow
      cases hrow
    · unfold Keyed.find at hrow hnone
      rw [List.find?_append, hnone] at hrow
      simp at hrow
      subst hrow
      cases hstatus

theorem OutboxInv.complete {outputs : List (OutboxOutput ι)} (h : OutboxInv s)
    (hstep : completeJob s id = some (t, outputs))
    (hover : ∀ row, Keyed.find OutboxEvent.id s.rows id = some row →
      row.status = .published ∨ row.maxAttempts ≤ row.attempts) :
    OutboxInv t ∧ CompletedRightly outputs t := by
  obtain ⟨queue, hqueue, heq⟩ := Option.bind_eq_some_iff.mp hstep
  cases heq
  obtain ⟨job, _, _, hremoved⟩ := Queue.complete_eq_some hqueue
  refine ⟨h.at_job rfl hremoved rfl ⟨nofun, nofun, nofun, fun row hrow hstatus hleft => ?_⟩, ?_⟩
  · rcases hover row hrow with hpublished | hout
    · rw [hpublished] at hstatus
      cases hstatus
    · omega
  · intro id' hid' row hrow hid
    cases List.mem_singleton.mp hid'
    refine hover row ?_
    rw [← hid]
    exact h.find hrow

/-- What a job that is not completed rightly leaves of its event. -/
theorem completedWrongly {outputs : List (OutboxOutput ι)} {row : OutboxEvent ι}
    (hstep : completeJob s id = some (t, outputs)) (hrow : row ∈ s.rows) (hid : row.id = id)
    (hunpublished : row.status ≠ .published) (hleft : row.attempts < row.maxAttempts) :
    ¬ CompletedRightly outputs t := by
  obtain ⟨queue, _, heq⟩ := Option.bind_eq_some_iff.mp hstep
  cases heq
  intro hright
  rcases hright id (List.mem_singleton.mpr rfl) row hrow hid with hpublished | hout
  · exact hunpublished hpublished
  · omega

theorem OutboxInv.fail {outputs : List (OutboxOutput ι)} {delay : Nat} (h : OutboxInv s)
    (hstep : failJob s id delay = some (t, outputs)) (hcond : AtLastAttempt s id → ¬ HeldUp s id) :
    OutboxInv t := by
  obtain ⟨queue, hqueue, heq⟩ := Option.bind_eq_some_iff.mp hstep
  cases heq
  obtain ⟨job, hjob, _, hfailed⟩ := Queue.fail_eq_some hqueue
  refine h.at_job rfl hfailed rfl ⟨nofun, nofun, nofun, fun row hrow hstatus hleft => ?_⟩
  by_cases hlast : job.attemptsMade + 1 < OutboxQueueService.attempts
  · rw [if_pos hlast]
    exact ⟨_, rfl, rfl⟩
  · exact absurd (h.heldUp_iff.mpr ⟨row, hrow, hstatus, hleft⟩) (hcond ⟨job, hjob, by omega⟩)

/-- The statement has thrown; the event may be claimed or not. -/
theorem OutboxInv.claimThrows (h : OutboxInv s) (htaken : s.workers id = some .taken)
    (claimed : Bool) :
    OutboxInv { s with
      rows := if claimed then (OutboxRepository.start s.rows id s.now).1 else s.rows
      workers := Function.update s.workers id (some .thrown) } := by
  obtain ⟨job, hjob, hactive⟩ := (h.events id).working .taken htaken
  have hqueue : s.queue = Function.update s.queue id (s.queue id) := by
    rw [Function.update_eq_self]
  have hunclaimed : EventInv id (Keyed.find OutboxEvent.id s.rows id) (s.queue id) (some .thrown) :=
    ⟨fun _ _ => ⟨job, hjob, hactive⟩, nofun, nofun, (h.events id).kept⟩
  cases claimed with
  | false => exact h.at_job rfl hqueue rfl hunclaimed
  | true =>
    cases hstart : OutboxRepository.start s.rows id s.now with
    | mk rows event =>
      cases event with
      | none => exact h.at_job (start_eq_none hstart).1 hqueue rfl hunclaimed
      | some event =>
        obtain ⟨row, hrow, _, _, rfl⟩ := start_eq_some hstart
        refine h.at_row (f := OutboxRepository.claim s.now) (fun _ => rfl) rfl rfl rfl ?_
        rw [hrow, hjob]
        refine ⟨fun _ _ => ⟨job, rfl, hactive⟩, nofun, nofun, fun _ _ _ _ => ⟨job, rfl, ?_⟩⟩
        simp [Job.isPending, hactive]

theorem OutboxInv.stall {queue : Queue ι (PublishOutboxEventJob ι)} {again : Bool}
    (h : OutboxInv s) (hidle : s.workers id = none) (hqueue : s.queue.stalled id again = some queue)
    (hcond : again = false → ¬ HeldUp s id) : OutboxInv { s with queue } := by
  obtain ⟨job, hjob, _, hstalled⟩ := Queue.stalled_eq_some hqueue
  have hworkers : s.workers = Function.update s.workers id none := by
    rw [← hidle, Function.update_eq_self]
  refine h.at_job rfl hstalled hworkers ⟨nofun, nofun, nofun, fun row hrow hstatus hleft => ?_⟩
  cases again with
  | false => exact absurd (h.heldUp_iff.mpr ⟨row, hrow, hstatus, hleft⟩) (hcond rfl)
  | true => exact ⟨_, rfl, rfl⟩

/-- An event that is being processed, and has no job and no worker, is lost. -/
theorem OutboxInv.lost (h : OutboxInv s) (hrows : t.rows = s.rows) (hheld : HeldUp s id)
    (hworker : t.workers id = none) (hjob : t.queue.holds id = false) : ¬ NotDropped t := by
  obtain ⟨row, hrow, rfl, hprocessing, hleft⟩ := hheld
  intro hkept
  have hinterrupted : Interrupted t row := by
    refine ⟨hprocessing, fun event => ?_⟩
    rw [hworker]
    exact nofun
  rw [← hrows] at hrow
  rcases hkept row hrow hleft (.inr hinterrupted) with hholds | hfound
  · rw [hjob] at hholds
    cases hholds
  · have hrow' : row ∈ s.rows := by rwa [← hrows]
    have hnot := h.not_found hrow' hprocessing t.rows.length row.availableAt
    rw [← hrows] at hnot
    exact hnot (hfound _ _ (Nat.le_refl _) (Nat.le_refl _))

/-- A step keeps the invariant where it meets the retries. -/
theorem OutboxInv.step {input : OutboxInput ι} {outputs : List (OutboxOutput ι)} (h : OutboxInv s)
    (hstep : OutboxSteps s input outputs t) (hcond : MeetsRetries s input) :
    OutboxInv t ∧ CompletedRightly outputs t := by
  unfold OutboxSteps outboxStep at hstep
  cases input with
  | pass ms =>
    cases hstep
    exact ⟨⟨h.nodup, h.events⟩, nofun⟩
  | createOrGet id input =>
    dsimp only at hstep
    split at hstep
    · cases hstep
    · rename_i hid
      cases hstep
      exact ⟨h.create hid, nofun⟩
  | enqueuePublishEvent id =>
    cases hstep
    exact ⟨h.enqueue id, nofun⟩
  | recoverAvailableEvents =>
    cases hstep
    exact ⟨h.recover, nofun⟩
  | take id =>
    obtain ⟨queue, hqueue, heq⟩ := Option.bind_eq_some_iff.mp hstep
    cases heq
    obtain ⟨job, _, _, _, htaken⟩ := Queue.take_eq_some hqueue
    refine ⟨h.at_job rfl htaken rfl ⟨fun _ _ => ⟨_, rfl, rfl⟩, nofun, nofun, ?_⟩, nofun⟩
    exact fun _ _ _ _ => ⟨_, rfl, rfl⟩
  | claimById id =>
    cases hworker : s.workers id with
    | none =>
      simp only [hworker] at hstep
      cases hstep
    | some stage =>
      obtain ⟨job, hjob, hactive⟩ := (h.events id).working stage hworker
      cases stage with
      | taken =>
        simp only [hworker] at hstep
        cases hstart : OutboxRepository.start s.rows id s.now with
        | mk rows event =>
          simp only [hstart] at hstep
          cases event with
          | none =>
            dsimp only at hstep
            refine h.complete hstep fun row hrow => ?_
            by_cases hpublished : row.status = .published
            · exact .inl hpublished
            · refine .inr (Nat.le_of_not_lt fun hleft => ?_)
              have hclaimable := hcond row (Keyed.find_mem _ hrow) (Keyed.find_key _ hrow)
                hpublished hleft
              rw [(start_eq_none hstart).2 row hrow hleft] at hclaimable
              cases hclaimable
          | some event =>
            cases hstep
            obtain ⟨row, hrow, _, rfl, rfl⟩ := start_eq_some hstart
            refine ⟨h.at_row (f := OutboxRepository.claim s.now) (fun _ => rfl) rfl rfl rfl ?_, nofun⟩
            rw [hrow, hjob]
            refine ⟨fun _ _ => ⟨job, rfl, hactive⟩, ?_, nofun, fun _ _ _ _ => ⟨job, rfl, ?_⟩⟩
            · intro event hevent
              cases hevent
              have hid : row.id = id := Keyed.find_key OutboxEvent.id hrow
              exact ⟨hid, rfl⟩
            · simp [Job.isPending, hactive]
      | claimed | returned | thrown =>
        simp only [hworker] at hstep
        cases hstep
  | claimThrows id claimed =>
    cases hworker : s.workers id with
    | none =>
      simp only [hworker] at hstep
      cases hstep
    | some stage =>
      cases stage with
      | taken =>
        simp only [hworker] at hstep
        cases hstep
        exact ⟨h.claimThrows hworker claimed, nofun⟩
      | claimed | returned | thrown =>
        simp only [hworker] at hstep
        cases hstep
  | publishEvent id outcome =>
    cases hworker : s.workers id with
    | none =>
      simp only [hworker] at hstep
      cases hstep
    | some stage =>
      obtain ⟨job, hjob, hactive⟩ := (h.events id).working stage hworker
      cases stage with
      | claimed event =>
        simp only [hworker] at hstep
        obtain ⟨rfl, hsome⟩ := (h.events id).claimed event hworker
        cases hpublish : OutboxPublisher.publishEvent s.rows event outcome s.now with
        | mk rows ok =>
          simp only [hpublish] at hstep
          cases hstep
          obtain ⟨f, hf, rfl, hok⟩ := publishEvent_eq hpublish
          obtain ⟨row, hrow⟩ := Option.isSome_iff_exists.mp hsome
          refine ⟨h.at_row hf rfl rfl rfl ?_, nofun⟩
          rw [hrow, hjob]
          refine ⟨fun _ _ => ⟨job, rfl, hactive⟩, ?_, ?_, fun _ _ _ _ => ⟨job, rfl, ?_⟩⟩
          · cases ok <;> exact nofun
          · intro hreturned
            cases ok with
            | true => exact ⟨_, rfl, hok rfl row⟩
            | false => cases hreturned
          · simp [Job.isPending, hactive]
      | taken | returned | thrown =>
        simp only [hworker] at hstep
        cases hstep
  | endAttempt id delay =>
    cases hworker : s.workers id with
    | none =>
      simp only [hworker] at hstep
      cases hstep
    | some stage =>
      cases stage with
      | returned =>
        simp only [hworker] at hstep
        refine h.complete hstep fun row hrow => .inl ?_
        obtain ⟨row', hrow', hpublished⟩ := (h.events id).returned hworker
        cases hrow.symm.trans hrow'
        exact hpublished
      | thrown =>
        simp only [hworker] at hstep
        split at hstep
        · have houtputs : outputs = [] := by
            obtain ⟨queue, _, heq⟩ := Option.bind_eq_some_iff.mp hstep
            cases heq
            rfl
          subst houtputs
          exact ⟨h.fail hstep (hcond hworker), nofun⟩
        · cases hstep
      | taken | claimed =>
        simp only [hworker] at hstep
        cases hstep
  | crash id =>
    cases hworker : s.workers id with
    | none =>
      simp only [hworker] at hstep
      cases hstep
    | some stage =>
      simp only [hworker] at hstep
      cases hstep
      have hqueue : s.queue = Function.update s.queue id (s.queue id) := by
        rw [Function.update_eq_self]
      refine ⟨h.at_job rfl hqueue rfl ?_, nofun⟩
      · exact ⟨nofun, nofun, nofun, (h.events id).kept⟩
  | stalled id again =>
    cases hworker : s.workers id with
    | none =>
      simp only [hworker] at hstep
      obtain ⟨queue, hqueue, heq⟩ := Option.bind_eq_some_iff.mp hstep
      cases heq
      exact ⟨h.stall hworker hqueue hcond, nofun⟩
    | some stage =>
      simp only [hworker] at hstep
      cases hstep

theorem OutboxInv.dropped {input : OutboxInput ι} {outputs : List (OutboxOutput ι)}
    (h : OutboxInv s) (hstep : OutboxSteps s input outputs t) (hcond : ¬ MeetsRetries s input) :
    ¬ Undropped s input outputs t := by
  unfold OutboxSteps outboxStep at hstep
  unfold MeetsRetries at hcond
  cases input with
  | claimById id =>
    dsimp only at hcond
    push Not at hcond
    obtain ⟨row, hrow, rfl, hunpublished, hleft, hclaimable⟩ := hcond
    cases hworker : s.workers row.id with
    | none =>
      simp only [hworker] at hstep
      cases hstep
    | some stage =>
      cases stage with
      | taken =>
        simp only [hworker] at hstep
        have hstart : OutboxRepository.start s.rows row.id s.now = (s.rows, none) := by
          unfold OutboxRepository.start
          rw [h.find hrow]
          exact if_neg fun hboth => hclaimable hboth.2
        simp only [hstart] at hstep
        exact fun hgood => completedWrongly hstep hrow rfl hunpublished hleft hgood.1
      | claimed | returned | thrown =>
        simp only [hworker] at hstep
        cases hstep
  | endAttempt id delay =>
    dsimp only at hcond
    push Not at hcond
    obtain ⟨hworker, ⟨job, hjob, hlast⟩, hheld⟩ := hcond
    simp only [hworker] at hstep
    split at hstep
    · obtain ⟨queue, hqueue, heq⟩ := Option.bind_eq_some_iff.mp hstep
      cases heq
      obtain ⟨job', hjob', _, rfl⟩ := Queue.fail_eq_some hqueue
      cases hjob.symm.trans hjob'
      intro hgood
      refine h.lost ?_ hheld ?_ ?_ hgood.2
      · rfl
      · exact Function.update_self ..
      unfold Queue.holds
      dsimp only
      rw [Function.update_self, if_neg (by omega)]
      rfl
    · cases hstep
  | stalled id again =>
    dsimp only at hcond
    push Not at hcond
    obtain ⟨rfl, hheld⟩ := hcond
    cases hworker : s.workers id with
    | none =>
      simp only [hworker] at hstep
      obtain ⟨queue, hqueue, heq⟩ := Option.bind_eq_some_iff.mp hstep
      cases heq
      obtain ⟨job, _, _, rfl⟩ := Queue.stalled_eq_some hqueue
      intro hgood
      refine h.lost ?_ hheld ?_ ?_ hgood.2
      · rfl
      · exact hworker
      unfold Queue.holds
      dsimp only
      rw [Function.update_self]
      rfl
    | some stage =>
      simp only [hworker] at hstep
      cases hstep
  | _ => exact absurd trivial hcond

end Step

/-- In the runs from a fresh outbox: no event is dropped at any step if and only if every claim of
an unpublished event with attempts left comes when its row can be claimed, and no job is given up
while its event is being processed with attempts left. -/
theorem outbox_undropped {s t : Outbox ι} {inputs : List (OutboxInput ι)}
    {outputs : List (OutboxOutput ι)} (h : FreshOutbox s) :
    Run (fun s i o t => OutboxSteps s i o t ∧ Undropped s i o t) s inputs outputs t ↔
      Run (Guarded OutboxSteps MeetsRetries) s inputs outputs t := by
  refine Run.good_iff_guarded (I := OutboxInv) ?_ ?_ h.inv
  · intro s input outputs t hinv hstep
    constructor
    · intro hgood
      by_contra hcond
      exact hinv.dropped hstep hcond hgood
    · intro hcond
      obtain ⟨hinv', hright⟩ := hinv.step hstep hcond
      exact ⟨hright, hinv'.notDropped⟩
  · intro s input outputs t hinv hstep hcond
    exact (hinv.step hstep hcond).1

/-! ## An event that is published at the second attempt -/

/-- An outbox with one event. -/
def oneEvent : Outbox Nat where
  now := 0
  rows := OutboxRepository.createOrGet [] 0 {
    key := "notification", topic := notificationCreated, maxAttempts := none
    payload := some [("notificationId", .string "n"), ("userId", .string "u"),
      ("type", .string "invite"), ("createdAt", .string "now")] } 0
  queue := JobQueue.empty
  workers := fun _ => none

theorem oneEvent_fresh : FreshOutbox oneEvent where
  nodup := by decide
  queued := by decide
  jobless _ := rfl
  idle _ := rfl

def unreachable : PublishOutcome :=
  { published := false, marked := true, failMarked := true, error := "unreachable" }

def reachable : PublishOutcome :=
  { published := true, marked := true, failMarked := true, error := "" }

/-- The job's second attempt comes after `ms`. -/
def secondAttempt (ms : Nat) : List (OutboxInput Nat) :=
  [.enqueuePublishEvent 0, .take 0, .claimById 0, .publishEvent 0 unreachable, .endAttempt 0 1000,
    .pass ms, .take 0, .claimById 0]

/-- The worker dies, and the job runs again. -/
def afterCrash : List (OutboxInput Nat) :=
  [.enqueuePublishEvent 0, .take 0, .claimById 0, .crash 0, .stalled 0 true, .pass 30000, .take 0,
    .claimById 0]

/-- The first attempt fails, and the second, at the queue's retry time, finds that the event cannot
be claimed yet: the job completes. Or the worker dies, and the job that runs again completes as well;
then no job is left, and the event is never found. -/
theorem oneEvent_dropped :
    (∃ outputs t, Run OutboxSteps oneEvent (secondAttempt 1000) outputs t ∧
      ¬ CompletedRightly outputs t) ∧
    ∃ outputs t, Run OutboxSteps oneEvent afterCrash outputs t ∧ ¬ NotDropped t := by
  constructor
  · obtain ⟨⟨t, outputs⟩, hplay, htest⟩ := (Option.any_eq_true _ _).mp (by decide +kernel :
      (Trace.play outboxStep oneEvent (secondAttempt 1000)).any (fun last =>
        decide (.completed 0 ∈ last.2 ∧ ∃ row ∈ last.1.rows, row.id = 0 ∧
          row.status ≠ .published ∧ row.attempts < row.maxAttempts)) = true)
    obtain ⟨hcompleted, row, hrow, hid, hunpublished, hleft⟩ := of_decide_eq_true htest
    refine ⟨outputs, t, Trace.play_run hplay, fun hright => ?_⟩
    rcases hright 0 hcompleted row hrow hid with hpublished | hout
    · exact hunpublished hpublished
    · omega
  · obtain ⟨⟨t, outputs⟩, hplay, htest⟩ := (Option.any_eq_true _ _).mp (by decide +kernel :
      (Trace.play outboxStep oneEvent afterCrash).any (fun last =>
        decide ((∀ row ∈ last.1.rows, row.status = .processing) ∧
          ∃ row ∈ last.1.rows, row.attempts < row.maxAttempts ∧ last.1.workers row.id = none ∧
            last.1.queue.holds row.id = false)) = true)
    obtain ⟨hprocessing, row, hrow, hleft, hworker, hjob⟩ := of_decide_eq_true htest
    refine ⟨outputs, t, Trace.play_run hplay, fun hkept => ?_⟩
    have hinterrupted : Interrupted t row := by
      refine ⟨hprocessing row hrow, fun event => ?_⟩
      rw [hworker]
      exact nofun
    rcases hkept row hrow hleft (.inr hinterrupted) with hholds | hfound
    · rw [hjob] at hholds
      cases hholds
    · obtain ⟨row', hrow', _, havailable⟩ :=
        exists_of_mem_findAvailable (hfound row.availableAt _ (Nat.le_refl _) (Nat.le_refl _))
      simp [OutboxRepository.isAvailable, hprocessing row' hrow'] at havailable

/-- The second attempt comes when the delay of the row has passed. -/
theorem oneEvent_published : ∃ outputs t,
    Run (fun s i o t => OutboxSteps s i o t ∧ Undropped s i o t) oneEvent
      (secondAttempt 30000 ++ [.publishEvent 0 reachable, .endAttempt 0 0]) outputs t ∧
    ∀ row ∈ t.rows, row.status = .published := by
  obtain ⟨⟨t, outputs⟩, hplay, htest⟩ := (Option.any_eq_true _ _).mp (by decide +kernel :
    (Trace.play (fun s i => if MeetsRetries s i then outboxStep s i else none) oneEvent
      (secondAttempt 30000 ++ [.publishEvent 0 reachable, .endAttempt 0 0])).any (fun last =>
        decide (∀ row ∈ last.1.rows, row.status = .published)) = true)
  exact ⟨outputs, t, (outbox_undropped oneEvent_fresh).mpr (play_guarded hplay),
    of_decide_eq_true htest⟩

end Rules
end LivePoly
