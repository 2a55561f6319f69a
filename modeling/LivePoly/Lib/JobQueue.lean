import Mathlib.Logic.Function.Basic

/-!
# Lib.JobQueue

A queue of jobs with ids. An id that is taken keeps its job: adding under it again does nothing,
whatever has become of that job. A job waits until it is ready, is active while a worker has it,
and when it ends it is dropped or kept as completed or failed until it is removed. The job of a
worker that died stays active until the queue finds it stalled, and then runs again or is given up.
-/

namespace JobQueue

variable {ι δ : Type}

inductive JobState where
  | waiting | active | completed | failed
  deriving DecidableEq

/-- A job that waits is not started before `readyAt`. -/
structure Job (δ : Type) where
  data : δ
  state : JobState
  attemptsMade : Nat
  readyAt : Nat
  deriving DecidableEq

/-- The job is still to be run, or is being run. -/
def Job.isPending (job : Job δ) : Bool := job.state = .waiting || job.state = .active

abbrev Queue (ι δ : Type) := ι → Option (Job δ)

def empty : Queue ι δ := fun _ => none

namespace Queue

variable [DecidableEq ι] (queue : Queue ι δ) (id : ι)

def add (data : δ) (readyAt : Nat) : Queue ι δ :=
  match queue id with
  | some _ => queue
  | none => Function.update queue id (some { data, state := .waiting, attemptsMade := 0, readyAt })

/-- Removing a job. One that is active is locked. -/
def remove : Option (Queue ι δ) :=
  match queue id with
  | none => some queue
  | some job => if job.state = .active then none else some (Function.update queue id none)

/-- A worker takes a job. -/
def take (now : Nat) : Option (Queue ι δ) :=
  match queue id with
  | none => none
  | some job =>
    if job.state = .waiting ∧ job.readyAt ≤ now then
      some (Function.update queue id (some { job with state := .active }))
    else none

/-- The active job has succeeded; `keep` tells whether it is kept. -/
def complete (keep : Bool) : Option (Queue ι δ) :=
  match queue id with
  | none => none
  | some job =>
    if job.state = .active then
      some (Function.update queue id (if keep then some { job with state := .completed } else none))
    else none

/-- The active job has failed: it is to be tried again at `retryAt`, unless this was the last of
its `attempts`. -/
def fail (attempts retryAt : Nat) : Option (Queue ι δ) :=
  match queue id with
  | none => none
  | some job =>
    if job.state = .active then
      some (Function.update queue id (some
        (if job.attemptsMade + 1 < attempts then
          { job with state := .waiting, attemptsMade := job.attemptsMade + 1, readyAt := retryAt }
        else { job with state := .failed, attemptsMade := job.attemptsMade + 1 })))
    else none

/-- The active job is found stalled; it runs again or is given up. -/
def stalled (again : Bool) : Option (Queue ι δ) :=
  match queue id with
  | none => none
  | some job =>
    if job.state = .active then
      some (Function.update queue id
        (some { job with state := if again then .waiting else .failed }))
    else none

/-- The job under the id is still to be run, or is being run. -/
def holds : Bool := (queue id).any Job.isPending

/-- The job under the id has not been started since it was added or tried again. -/
def awaits : Bool := (queue id).any fun job => job.state = .waiting

variable {queue id}

theorem add_self (data : δ) (readyAt : Nat) :
    queue.add id data readyAt id =
      (queue id).or (some { data, state := .waiting, attemptsMade := 0, readyAt }) := by
  unfold add
  cases hjob : queue id with
  | none => exact Function.update_self ..
  | some job => exact hjob

theorem add_other {other : ι} (h : other ≠ id) (data : δ) (readyAt : Nat) :
    queue.add id data readyAt other = queue other := by
  unfold add
  cases queue id with
  | none => exact Function.update_of_ne h ..
  | some job => rfl

theorem add_of_some {job : Job δ} (h : queue id = some job) (other : ι) (data : δ)
    (readyAt : Nat) : queue.add other data readyAt id = some job := by
  by_cases hid : id = other
  · subst hid
    rw [add_self, h]
    rfl
  · rw [add_other hid, h]

variable {queue' : Queue ι δ}

theorem take_eq_some {now : Nat} (h : queue.take id now = some queue') :
    ∃ job, queue id = some job ∧ job.state = .waiting ∧ job.readyAt ≤ now ∧
      queue' = Function.update queue id (some { job with state := .active }) := by
  unfold take at h
  cases hjob : queue id with
  | none =>
    rw [hjob] at h
    cases h
  | some job =>
    rw [hjob] at h
    dsimp only at h
    split at h
    · rename_i hready
      cases h
      exact ⟨job, rfl, hready.1, hready.2, rfl⟩
    · cases h

theorem complete_eq_some {keep : Bool} (h : queue.complete id keep = some queue') :
    ∃ job, queue id = some job ∧ job.state = .active ∧ queue' =
      Function.update queue id (if keep then some { job with state := .completed } else none) := by
  unfold complete at h
  cases hjob : queue id with
  | none =>
    rw [hjob] at h
    cases h
  | some job =>
    rw [hjob] at h
    dsimp only at h
    split at h
    · rename_i hactive
      cases h
      exact ⟨job, rfl, hactive, rfl⟩
    · cases h

theorem fail_eq_some {attempts retryAt : Nat} (h : queue.fail id attempts retryAt = some queue') :
    ∃ job, queue id = some job ∧ job.state = .active ∧ queue' = Function.update queue id (some
      (if job.attemptsMade + 1 < attempts then
        { job with state := .waiting, attemptsMade := job.attemptsMade + 1, readyAt := retryAt }
      else { job with state := .failed, attemptsMade := job.attemptsMade + 1 })) := by
  unfold fail at h
  cases hjob : queue id with
  | none =>
    rw [hjob] at h
    cases h
  | some job =>
    rw [hjob] at h
    dsimp only at h
    split at h
    · rename_i hactive
      cases h
      exact ⟨job, rfl, hactive, rfl⟩
    · cases h

theorem stalled_eq_some {again : Bool} (h : queue.stalled id again = some queue') :
    ∃ job, queue id = some job ∧ job.state = .active ∧ queue' = Function.update queue id
      (some { job with state := if again then .waiting else .failed }) := by
  unfold stalled at h
  cases hjob : queue id with
  | none =>
    rw [hjob] at h
    cases h
  | some job =>
    rw [hjob] at h
    dsimp only at h
    split at h
    · rename_i hactive
      cases h
      exact ⟨job, rfl, hactive, rfl⟩
    · cases h

theorem remove_eq_some (h : queue.remove id = some queue') :
    queue' id = none ∧ ∀ other, other ≠ id → queue' other = queue other := by
  unfold remove at h
  cases hjob : queue id with
  | none =>
    rw [hjob] at h
    cases h
    exact ⟨hjob, fun _ _ => rfl⟩
  | some job =>
    rw [hjob] at h
    dsimp only at h
    split at h
    · cases h
    · cases h
      exact ⟨Function.update_self .., fun _ hne => Function.update_of_ne hne ..⟩

theorem remove_isSome {job : Job δ} (h : queue id = some job) (hactive : job.state ≠ .active) :
    ∃ queue', queue.remove id = some queue' := by
  unfold remove
  rw [h]
  exact ⟨_, if_neg hactive⟩

/-! ## What the jobs are about -/

/-- The data of every job fits the id it is under. -/
def Fits (fits : ι → δ → Prop) (queue : Queue ι δ) : Prop :=
  ∀ id job, queue id = some job → fits id job.data

section Fits

variable {fits : ι → δ → Prop}

omit [DecidableEq ι] in
theorem Fits.empty : Fits fits (JobQueue.empty : Queue ι δ) := nofun

theorem Fits.add (h : Fits fits queue) {data : δ} (hdata : fits id data) (readyAt : Nat) :
    Fits fits (queue.add id data readyAt) := by
  intro other job hjob
  by_cases hid : other = id
  · subst hid
    rw [add_self] at hjob
    rcases Option.or_eq_some_iff.mp hjob with hheld | ⟨_, hnew⟩
    · exact h other job hheld
    · cases hnew
      exact hdata
  · rw [add_other hid] at hjob
    exact h other job hjob

theorem Fits.remove (h : Fits fits queue) (hremove : queue.remove id = some queue') :
    Fits fits queue' := by
  obtain ⟨hnone, hsame⟩ := remove_eq_some hremove
  intro other job hjob
  by_cases hid : other = id
  · subst hid
    rw [hnone] at hjob
    cases hjob
  · rw [hsame other hid] at hjob
    exact h other job hjob

theorem Fits.update (h : Fits fits queue) {job : Job δ} {next : Option (Job δ)}
    (hjob : queue id = some job) (hnext : ∀ job', next = some job' → job'.data = job.data) :
    Fits fits (Function.update queue id next) := by
  intro other held hheld
  by_cases hid : other = id
  · subst hid
    rw [Function.update_self] at hheld
    rw [hnext held hheld]
    exact h other job hjob
  · rw [Function.update_of_ne hid] at hheld
    exact h other held hheld

theorem Fits.take (h : Fits fits queue) {now : Nat} (hstep : queue.take id now = some queue') :
    Fits fits queue' := by
  obtain ⟨job, hjob, _, _, rfl⟩ := take_eq_some hstep
  refine h.update hjob fun job' h' => ?_
  cases h'
  rfl

theorem Fits.complete (h : Fits fits queue) {keep : Bool}
    (hstep : queue.complete id keep = some queue') : Fits fits queue' := by
  obtain ⟨job, hjob, _, rfl⟩ := complete_eq_some hstep
  refine h.update hjob fun job' h' => ?_
  split at h'
  · cases h'
    rfl
  · cases h'

theorem Fits.fail (h : Fits fits queue) {attempts retryAt : Nat}
    (hstep : queue.fail id attempts retryAt = some queue') : Fits fits queue' := by
  obtain ⟨job, hjob, _, rfl⟩ := fail_eq_some hstep
  refine h.update hjob fun job' h' => ?_
  cases h'
  split <;> rfl

theorem Fits.stalled (h : Fits fits queue) {again : Bool}
    (hstep : queue.stalled id again = some queue') : Fits fits queue' := by
  obtain ⟨job, hjob, _, rfl⟩ := stalled_eq_some hstep
  refine h.update hjob fun job' h' => ?_
  cases h'
  rfl

end Fits

end Queue

end JobQueue
