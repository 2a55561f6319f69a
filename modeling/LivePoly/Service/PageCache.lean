import LivePoly.Service.Database

/-!
# Service.PageCache

First pages that are cached under a version: `FriendsService.listFriends` with the version of a
user's friends, and `LeaderboardsService.getLeaderboard` with the version of the leaderboards. Both
read the counter, load through `CacheService.getOrSet` under a key that has the version in it, and
are invalidated by incrementing the counter after a write to the database. A request is where its
last `await` left it; a command of the cache and the factory's query are one step each. Requests run
in several processes, each with its own map of loads in flight.
-/

namespace LivePoly
namespace Service

/-- What a key is made of: `friends:⟨user⟩:list:v⟨version⟩:first:⟨limit⟩` or
`leaderboards:v⟨version⟩:⟨period⟩`. -/
structure PageKey (κ : Type) where
  version : Nat
  page : κ
  deriving DecidableEq

/-- A page and how many writes the database had seen when it was loaded. -/
structure LoadedPage (π : Type) where
  value : π
  loadedAt : Nat
  deriving DecidableEq

inductive PageStage (ν κ π : Type) where
  /-- before the counter is read -/
  | started (process : ν) (page : κ)
  /-- `getOrSet`, before the cached page is read -/
  | versioned (process : ν) (key : PageKey κ)
  /-- no page was cached; before the loads in flight are looked at -/
  | missed (process : ν) (key : PageKey κ)
  /-- waits for the load in flight -/
  | joined (process : ν) (key : PageKey κ)
  /-- `loadWithDistributedLock`, before the lock is taken -/
  | locking (process : ν) (key : PageKey κ)
  /-- before the cached page is read again -/
  | locked (process : ν) (key : PageKey κ)
  /-- before the factory's query -/
  | absent (process : ν) (key : PageKey κ)
  /-- before the page is stored -/
  | loaded (process : ν) (key : PageKey κ) (page : LoadedPage π)
  /-- before the lock is released; no page if the callback has thrown -/
  | releasing (process : ν) (key : PageKey κ) (result : Option (LoadedPage π))
  /-- before the request answers -/
  | settled (process : ν) (result : Option (LoadedPage π))
  /-- has written to the database, lastly as the write of this number -/
  | written (process : ν) (number : Nat)
  deriving DecidableEq

def PageStage.process {ν κ π : Type} : PageStage ν κ π → ν
  | started process _ | versioned process _ | missed process _ | joined process _
  | locking process _ | locked process _ | absent process _ | loaded process _ _
  | releasing process _ _ | settled process _ | written process _ => process

structure PageCache (ρ ν κ π δ : Type) where
  database : δ
  /-- How many writes the database has seen. -/
  writes : Nat
  counter : Option Nat
  pages : PageKey κ → Option (LoadedPage π)
  locks : PageKey κ → Option ρ
  inFlight : ν → PageKey κ → Bool
  requests : ρ → Option (PageStage ν κ π)

inductive PageInput (ρ ν κ δ : Type) where
  | read (request : ρ) (process : ν) (page : κ)
  | getCacheVersion (request : ρ)
  | getOrSet (request : ρ)
  | share (request : ρ)
  | withLock (request : ρ)
  /-- The lock was not acquired before the deadline. -/
  | lockTimeout (request : ρ)
  | getAgain (request : ρ)
  | load (request : ρ)
  /-- The page is stored, and then the command fails or not. -/
  | store (request : ρ) (fails : Bool)
  | release (request : ρ)
  | respond (request : ρ)
  | write (request : ρ) (process : ν) (database : δ)
  | invalidateCache (request : ρ)
  /-- The command under way fails. -/
  | fail (request : ρ)
  | crash (process : ν)
  | expireLock (key : PageKey κ)
  | expirePage (key : PageKey κ)
  deriving DecidableEq

inductive PageOutput (ρ π : Type) where
  | returned (request : ρ) (page : LoadedPage π)
  | failed (request : ρ)
  /-- The invalidation that belongs to the write of this number is done. -/
  | invalidated (number : Nat)
  deriving DecidableEq

section Steps

variable {ρ ν κ π δ : Type} [DecidableEq ρ] [DecidableEq ν] [DecidableEq κ]

def PageCache.set (m : PageCache ρ ν κ π δ) (request : ρ) (stage : Option (PageStage ν κ π)) :
    PageCache ρ ν κ π δ :=
  { m with requests := Function.update m.requests request stage }

def PageCache.setInFlight (m : PageCache ρ ν κ π δ) (process : ν) (key : PageKey κ)
    (loading : Bool) : PageCache ρ ν κ π δ :=
  { m with
    inFlight := Function.update m.inFlight process
      (Function.update (m.inFlight process) key loading) }

/-- `getCacheVersion`: a counter that was never incremented counts as 1. -/
def PageCache.version (m : PageCache ρ ν κ π δ) : Nat := m.counter.getD 1

/-- The request that waits for the load of a key is through with it. -/
def settleJoined (process : ν) (key : PageKey κ) (result : Option (LoadedPage π)) :
    Option (PageStage ν κ π) → Option (PageStage ν κ π)
  | some (.joined process' key') =>
    if process' = process ∧ key' = key then some (.settled process result)
    else some (.joined process' key')
  | stage => stage

/-- The promise of a load in flight is settled, and every request that waits for it goes on. -/
def PageCache.resolve (m : PageCache ρ ν κ π δ) (request : ρ) (process : ν) (key : PageKey κ)
    (result : Option (LoadedPage π)) : PageCache ρ ν κ π δ :=
  ({ m with requests := fun other => settleJoined process key result (m.requests other) }.set
    request (some (.settled process result))).setInFlight process key false

def pageStep (factory : δ → κ → π) (m : PageCache ρ ν κ π δ) :
    PageInput ρ ν κ δ → Option (PageCache ρ ν κ π δ × List (PageOutput ρ π))
  | .read request process page =>
    match m.requests request with
    | none => some (m.set request (some (.started process page)), [])
    | some _ => none
  | .getCacheVersion request =>
    match m.requests request with
    | some (.started process page) =>
      some (m.set request (some (.versioned process ⟨m.version, page⟩)), [])
    | _ => none
  | .getOrSet request =>
    match m.requests request with
    | some (.versioned process key) =>
      match m.pages key with
      | some page => some (m.set request (some (.settled process (some page))), [])
      | none => some (m.set request (some (.missed process key)), [])
    | _ => none
  | .share request =>
    match m.requests request with
    | some (.missed process key) =>
      if m.inFlight process key then some (m.set request (some (.joined process key)), [])
      else some ((m.set request (some (.locking process key))).setInFlight process key true, [])
    | _ => none
  | .withLock request =>
    match m.requests request with
    | some (.locking process key) =>
      match m.locks key with
      | some _ => none
      | none =>
        let locks := Function.update m.locks key (some request)
        some (({ m with locks }).set request (some (.locked process key)), [])
    | _ => none
  | .lockTimeout request =>
    match m.requests request with
    | some (.locking process key) => some (m.resolve request process key none, [])
    | _ => none
  | .getAgain request =>
    match m.requests request with
    | some (.locked process key) =>
      match m.pages key with
      | some page => some (m.set request (some (.releasing process key (some page))), [])
      | none => some (m.set request (some (.absent process key)), [])
    | _ => none
  | .load request =>
    match m.requests request with
    | some (.absent process key) =>
      let page := ⟨factory m.database key.page, m.writes⟩
      some (m.set request (some (.loaded process key page)), [])
    | _ => none
  | .store request fails =>
    match m.requests request with
    | some (.loaded process key page) =>
      let pages := Function.update m.pages key (some page)
      let result := if fails then none else some page
      some (({ m with pages }).set request (some (.releasing process key result)), [])
    | _ => none
  | .release request =>
    match m.requests request with
    | some (.releasing process key result) =>
      let locks :=
        if m.locks key = some request then Function.update m.locks key none else m.locks
      some (({ m with locks }).resolve request process key result, [])
    | _ => none
  | .respond request =>
    match m.requests request with
    | some (.settled _ (some page)) => some (m.set request none, [.returned request page])
    | some (.settled _ none) => some (m.set request none, [.failed request])
    | _ => none
  | .write request process database =>
    let next := { m with database, writes := m.writes + 1 }
    match m.requests request with
    | none | some (.written _ _) =>
      some (next.set request (some (.written process (m.writes + 1))), [])
    | _ => none
  | .invalidateCache request =>
    match m.requests request with
    | some (.written _ number) =>
      some (({ m with counter := some (m.counter.getD 0 + 1) }).set request none,
        [.invalidated number])
    | _ => none
  | .fail request =>
    match m.requests request with
    | some (.started process _) | some (.versioned process _) =>
      some (m.set request (some (.settled process none)), [])
    | some (.locking process key) => some (m.resolve request process key none, [])
    | some (.locked process key) | some (.absent process key) | some (.loaded process key _) =>
      some (m.set request (some (.releasing process key none)), [])
    | some (.releasing process key _) => some (m.resolve request process key none, [])
    | some (.written _ _) => some (m.set request none, [.failed request])
    | _ => none
  | .crash process =>
    let requests := fun request =>
      (m.requests request).filter fun stage => stage.process ≠ process
    some ({ m with requests, inFlight := Function.update m.inFlight process fun _ => false }, [])
  | .expireLock key => some ({ m with locks := Function.update m.locks key none }, [])
  | .expirePage key => some ({ m with pages := Function.update m.pages key none }, [])

/-- The step relation of the requests. -/
def PageSteps (factory : δ → κ → π) (m : PageCache ρ ν κ π δ) (input : PageInput ρ ν κ δ)
    (output : List (PageOutput ρ π)) (m' : PageCache ρ ν κ π δ) : Prop :=
  pageStep factory m input = some (m', output)

end Steps

end Service
end LivePoly
