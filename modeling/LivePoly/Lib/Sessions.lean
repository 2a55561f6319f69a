import Mathlib.Logic.Function.Basic

/-!
# Lib.Sessions

A database with sessions. A session writes to a version of its own, which the others see once it
commits; `view` is what it reads, the committed data with its own writes. Locks are held until the
session ends. `Guarded` says that whatever a session has written is under a lock it holds, so two
sessions never write under the same lock, and what one of them commits does not touch what another
has under its locks.

A session that has to wait for a lock takes its turn when the lock is free.
-/

namespace Sessions

/-- The committed data, what the sessions have written since they began, and who holds the
locks. -/
structure Database (κ D U L : Type) where
  committed : D
  written : κ → List U
  holder : L → Option κ

variable {κ D U L : Type}

/-- The data after some writes. -/
def applyAll (apply : U → D → D) (writes : List U) (data : D) : D :=
  writes.foldl (fun data u => apply u data) data

theorem applyAll_append (apply : U → D → D) (xs ys : List U) (data : D) :
    applyAll apply (xs ++ ys) data = applyAll apply ys (applyAll apply xs data) :=
  List.foldl_append

/-- Writes that do not touch some part of the data leave it. -/
theorem applyAll_frame {β : Type} (part : D → β) {apply : U → D → D} {writes : List U}
    (h : ∀ u ∈ writes, ∀ data, part (apply u data) = part data) (data : D) :
    part (applyAll apply writes data) = part data := by
  induction writes generalizing data with
  | nil => rfl
  | cons u writes ih =>
    rw [List.forall_mem_cons] at h
    exact (ih h.2 (apply u data)).trans (h.1 data)

/-- How writes change some part of the data depends on that part alone. -/
theorem applyAll_congr {β : Type} (part : D → β) {apply : U → D → D} {writes : List U}
    (h : ∀ u ∈ writes, ∀ data data', part data = part data' →
      part (apply u data) = part (apply u data')) {data data' : D} (heq : part data = part data') :
    part (applyAll apply writes data) = part (applyAll apply writes data') := by
  induction writes generalizing data data' with
  | nil => exact heq
  | cons u writes ih =>
    rw [List.forall_mem_cons] at h
    exact ih h.2 (h.1 data data' heq)

namespace Database

section Read

variable (apply : U → D → D) (db : Database κ D U L) (k : κ)

/-- What a session reads. -/
def view : D := applyAll apply (db.written k) db.committed

variable [DecidableEq κ]

/-- The session may take the lock, or has it. -/
def isFree (l : L) : Bool := db.holder l = none || db.holder l = some k

def lock [DecidableEq L] (l : L) : Database κ D U L :=
  { db with holder := Function.update db.holder l (some k) }

/-- The session may take all these locks. -/
def areFree (ls : List L) : Bool := ls.all (db.isFree k)

def lockAll [DecidableEq L] (ls : List L) : Database κ D U L :=
  { db with holder := fun l => if l ∈ ls then some k else db.holder l }

def write (u : U) : Database κ D U L :=
  { db with written := Function.update db.written k (db.written k ++ [u]) }

def writeAll (us : List U) : Database κ D U L :=
  { db with written := Function.update db.written k (db.written k ++ us) }

/-- The locks of a session that has ended. -/
def unlocked : L → Option κ := fun l => if db.holder l = some k then none else db.holder l

def commit : Database κ D U L where
  committed := db.view apply k
  written := Function.update db.written k []
  holder := db.unlocked k

def rollback : Database κ D U L where
  committed := db.committed
  written := Function.update db.written k []
  holder := db.unlocked k

end Read

/-- Nothing is written without its locks. -/
def Guarded (locksOf : U → List L) (db : Database κ D U L) : Prop :=
  ∀ k, ∀ u ∈ db.written k, ∀ l ∈ locksOf u, db.holder l = some k

variable [DecidableEq κ] {apply : U → D → D} {locksOf : U → List L} {db : Database κ D U L}
  {j k : κ}

theorem written_write_self (u : U) : (db.write k u).written k = db.written k ++ [u] :=
  Function.update_self ..

theorem view_write_self (u : U) : (db.write k u).view apply k = apply u (db.view apply k) := by
  unfold view
  rw [written_write_self, applyAll_append]
  rfl

theorem writeAll_nil : db.writeAll k [] = db := by
  unfold writeAll
  rw [List.append_nil, Function.update_eq_self]

theorem view_writeAll_self (us : List U) :
    (db.writeAll k us).view apply k = applyAll apply us (db.view apply k) := by
  unfold view writeAll
  dsimp only
  rw [Function.update_self, applyAll_append]

theorem written_writeAll_other {us : List U} (h : j ≠ k) :
    (db.writeAll k us).written j = db.written j :=
  Function.update_of_ne h ..

omit [DecidableEq κ] in
theorem view_of_nil (h : db.written k = []) : db.view apply k = db.committed := by
  unfold view
  rw [h]
  rfl

theorem written_rollback_self : (db.rollback k).written k = [] := by
  unfold rollback
  exact Function.update_self ..

theorem written_rollback_other (h : j ≠ k) : (db.rollback k).written j = db.written j := by
  unfold rollback
  exact Function.update_of_ne h ..

theorem written_commit_self : (db.commit apply k).written k = [] := by
  unfold commit
  exact Function.update_self ..

theorem written_commit_other (h : j ≠ k) : (db.commit apply k).written j = db.written j := by
  unfold commit
  exact Function.update_of_ne h ..

theorem view_commit_other (h : j ≠ k) :
    (db.commit apply k).view apply j = applyAll apply (db.written j) (db.view apply k) := by
  unfold commit view
  dsimp only
  rw [Function.update_of_ne h]

omit [DecidableEq κ] in
theorem holder_lock_self [DecidableEq L] (l : L) : (db.lock k l).holder l = some k :=
  Function.update_self ..

omit [DecidableEq κ] in
theorem holder_lock_other [DecidableEq L] {l l' : L} (h : l' ≠ l) :
    (db.lock k l).holder l' = db.holder l' :=
  Function.update_of_ne h ..

theorem isFree_iff {l : L} : db.isFree k l = true ↔ ∀ j, db.holder l = some j → j = k := by
  unfold isFree
  cases hholder : db.holder l with
  | none => simp
  | some i => simp [eq_comm]

theorem holder_lock [DecidableEq L] {l l' : L} (hfree : db.isFree k l = true)
    (h : db.holder l' = some j) : (db.lock k l).holder l' = some j := by
  by_cases hl : l' = l
  · subst hl
    rw [holder_lock_self, isFree_iff.mp hfree j h]
  · rw [holder_lock_other hl, h]

theorem holder_lockAll [DecidableEq L] {ls : List L} {l : L} (hfree : db.areFree k ls = true)
    (h : db.holder l = some j) : (db.lockAll k ls).holder l = some j := by
  unfold lockAll
  dsimp only
  split
  · rename_i hl
    rw [isFree_iff.mp (List.all_eq_true.mp hfree l hl) j h]
  · exact h

omit [DecidableEq κ] in
theorem holder_lockAll_self [DecidableEq L] {ls : List L} {l : L} (hl : l ∈ ls) :
    (db.lockAll k ls).holder l = some k :=
  if_pos hl

theorem unlocked_eq_some {l : L} : db.unlocked k l = some j ↔ db.holder l = some j ∧ j ≠ k := by
  unfold unlocked
  split
  · rename_i hk
    rw [hk]
    constructor
    · exact nofun
    · rintro ⟨hj, hne⟩
      exact absurd (Option.some.inj hj).symm hne
  · rename_i hk
    constructor
    · intro hj
      refine ⟨hj, ?_⟩
      rintro rfl
      exact hk hj
    · exact And.left

theorem mem_written_writeAll {us : List U} {u : U} :
    u ∈ (db.writeAll k us).written j ↔ u ∈ db.written j ∨ j = k ∧ u ∈ us := by
  unfold writeAll
  dsimp only
  by_cases hj : j = k
  · subst hj
    rw [Function.update_self, List.mem_append]
    simp
  · rw [Function.update_of_ne hj]
    simp [hj]

theorem mem_written_ended {committed : D} {u : U} :
    u ∈ (⟨committed, Function.update db.written k [], db.unlocked k⟩ : Database κ D U L).written j ↔
      u ∈ db.written j ∧ j ≠ k := by
  dsimp only
  by_cases hj : j = k
  · subst hj
    rw [Function.update_self]
    simp
  · rw [Function.update_of_ne hj]
    simp [hj]

namespace Guarded

theorem lock [DecidableEq L] (h : db.Guarded locksOf) {l : L} (hfree : db.isFree k l = true) :
    (db.lock k l).Guarded locksOf :=
  fun j u hu l' hl' => holder_lock hfree (h j u hu l' hl')

theorem lockAll [DecidableEq L] (h : db.Guarded locksOf) {ls : List L}
    (hfree : db.areFree k ls = true) : (db.lockAll k ls).Guarded locksOf :=
  fun j u hu l hl => holder_lockAll hfree (h j u hu l hl)

theorem writeAll (h : db.Guarded locksOf) {us : List U}
    (hus : ∀ u ∈ us, ∀ l ∈ locksOf u, db.holder l = some k) :
    (db.writeAll k us).Guarded locksOf := by
  intro j u hu l hl
  rcases mem_written_writeAll.mp hu with hwritten | ⟨rfl, hnew⟩
  · exact h j u hwritten l hl
  · exact hus u hnew l hl

theorem ended (h : db.Guarded locksOf) {committed : D} :
    Guarded locksOf (⟨committed, Function.update db.written k [], db.unlocked k⟩ :
      Database κ D U L) := by
  intro j u hu l hl
  obtain ⟨hu, hj⟩ := mem_written_ended.mp hu
  exact unlocked_eq_some.mpr ⟨h j u hu l hl, hj⟩

end Guarded

end Database

end Sessions
