import LivePoly.Service.PageCache
import LivePoly.Lib.Trace
import Mathlib.Order.Nat

/-!
# Rules.PageCache

Which pages a read may return. A page is kept under the version that was current when its read
began, and a write raises the version before its invalidation is done, so a read that begins after
that looks under a version no earlier page was kept under. That fails once: a counter that was never
incremented counts as 1, and the first increment makes it 1.
-/

namespace LivePoly
namespace Rules

open Service Trace

variable {ρ ν κ π δ : Type}

/-! ## What is claimed of the pages -/

/-- Nothing was read or invalidated yet. -/
def uncached (database : δ) : PageCache ρ ν κ π δ :=
  ⟨database, 0, none, fun _ => none, fun _ => none, fun _ _ => false, fun _ => none⟩

/-- When the counter is incremented for the first time, no page of version 1 that is cached or
loaded is older than the write. -/
def FirstIsFresh (m : PageCache ρ ν κ π δ) : PageInput ρ ν κ δ → Prop
  | .invalidateCache request => m.counter = none → ∀ process number,
    m.requests request = some (.written process number) → ∀ (key : PageKey κ), key.version = 1 →
      (∀ page, m.pages key = some page → number ≤ page.loadedAt) ∧
      ∀ loader process page, (m.requests loader = some (.loaded process key page) ∨
        m.requests loader = some (.releasing process key (some page))) → number ≤ page.loadedAt
  | _ => True

/-! ## What a step can do -/

/-- The key a request has come to. -/
def keyOf : PageStage ν κ π → Option (PageKey κ)
  | .versioned _ key | .missed _ key | .joined _ key | .locking _ key | .locked _ key
  | .absent _ key | .loaded _ key _ | .releasing _ key _ => some key
  | _ => none

/-- The page a request has brought for its key. -/
def broughtPage : PageStage ν κ π → Option (PageKey κ × LoadedPage π)
  | .loaded _ key page | .releasing _ key (some page) => some (key, page)
  | _ => none

/-- Somebody has a page for a key: the cache, or a request that loads it. -/
def HasPage (m : PageCache ρ ν κ π δ) (key : PageKey κ) (page : LoadedPage π) : Prop :=
  m.pages key = some page ∨
    ∃ request stage, m.requests request = some stage ∧ broughtPage stage = some (key, page)

/-- The request was at a stage with this key. -/
def HasKey (m : PageCache ρ ν κ π δ) (request : ρ) (key : PageKey κ) : Prop :=
  ∃ stage, m.requests request = some stage ∧ keyOf stage = some key

/-- Where the stage a request comes to is from. -/
inductive Next (m m' : PageCache ρ ν κ π δ) (request : ρ) : PageStage ν κ π → Prop
  | started (process page) : Next m m' request (.started process page)
  | versioned (process page) : Next m m' request (.versioned process ⟨m.version, page⟩)
  | keyed {stage key} (hold : HasKey m request key) (hkey : keyOf stage = some key)
      (hnone : broughtPage stage = none) : Next m m' request stage
  | brings {stage key page} (hold : HasKey m request key)
      (hpage : HasPage m key page ∨ page.loadedAt = m.writes)
      (hstage : broughtPage stage = some (key, page)) : Next m m' request stage
  | gets {process key page} (hold : HasKey m request key) (hpage : HasPage m key page) :
      Next m m' request (.settled process (some page))
  | fails (process) : Next m m' request (.settled process none)
  | written (process) : Next m m' request (.written process m'.writes)

/-- What a step does: pages and stages come from somewhere, an invalidation is one increment of the
counter, and a page that is returned was settled on. -/
structure PageMove (m : PageCache ρ ν κ π δ) (input : PageInput ρ ν κ δ)
    (output : List (PageOutput ρ π)) (m' : PageCache ρ ν κ π δ) : Prop where
  pages : ∀ key page, m'.pages key = some page → HasPage m key page
  requests : ∀ request stage, m'.requests request = some stage →
    m.requests request = some stage ∨ Next m m' request stage
  writes : m.writes ≤ m'.writes
  counter : m'.counter = m.counter ∧ (∀ number, .invalidated number ∉ output) ∨
    ∃ request process number, input = .invalidateCache request ∧
      m.requests request = some (.written process number) ∧ output = [.invalidated number] ∧
      m'.counter = some (m.counter.getD 0 + 1) ∧ m'.pages = m.pages ∧
      ∀ other stage, m'.requests other = some stage → m.requests other = some stage
  returned : ∀ request page, .returned request page ∈ output →
    ∃ process, m.requests request = some (.settled process (some page))

section Steps

variable [DecidableEq ρ] [DecidableEq ν] [DecidableEq κ] {factory : δ → κ → π}
  {m m' : PageCache ρ ν κ π δ} {input : PageInput ρ ν κ δ} {output : List (PageOutput ρ π)}

omit [DecidableEq ν] [DecidableEq κ] in
theorem set_stage {request other : ρ} {stage : Option (PageStage ν κ π)} {s : PageStage ν κ π}
    (h : (m.set request stage).requests other = some s) :
    other = request ∧ stage = some s ∨ m.requests other = some s := by
  by_cases hother : other = request
  · subst hother
    exact .inl ⟨rfl, by simpa [PageCache.set] using h⟩
  · exact .inr (by simpa [PageCache.set, hother] using h)

omit [DecidableEq ν] [DecidableEq κ] in
theorem advances {request : ρ} {stage : Option (PageStage ν κ π)}
    (hstage : ∀ s, stage = some s → Next m (m.set request stage) request s)
    (hquiet : ∀ number, .invalidated number ∉ output)
    (hreturned : ∀ other page, .returned other page ∈ output →
      ∃ process, m.requests other = some (.settled process (some page))) :
    PageMove m input output (m.set request stage) where
  pages := fun _ _ h => .inl h
  requests := by
    intro other s hs
    rcases set_stage hs with ⟨rfl, heq⟩ | hold
    · exact .inr (hstage s heq)
    · exact .inl hold
  writes := Nat.le_refl _
  counter := .inl ⟨rfl, hquiet⟩
  returned := hreturned

omit [DecidableEq ν] [DecidableEq κ] in
theorem advances_quietly {request : ρ} {stage : PageStage ν κ π}
    (hstage : Next m (m.set request (some stage)) request stage) :
    PageMove m input [] (m.set request (some stage)) :=
  advances (fun _ hs => Option.some.inj hs ▸ hstage) (fun _ => List.not_mem_nil)
    fun _ _ h => absurd h List.not_mem_nil

omit [DecidableEq ρ] [DecidableEq ν] [DecidableEq κ] in
theorem PageMove.congr {next : PageCache ρ ν κ π δ} (h : PageMove m input output m')
    (hpages : next.pages = m'.pages) (hrequests : next.requests = m'.requests)
    (hwrites : next.writes = m'.writes) (hcounter : next.counter = m'.counter) :
    PageMove m input output next := by
  have hnext : ∀ request stage, Next m m' request stage → Next m next request stage := by
    intro request stage hstage
    cases hstage with
    | started process page => exact .started process page
    | versioned process page => exact .versioned process page
    | keyed hold hkey hnone => exact .keyed hold hkey hnone
    | brings hold hpage hstage => exact .brings hold hpage hstage
    | gets hold hpage => exact .gets hold hpage
    | fails process => exact .fails process
    | written process =>
      rw [← hwrites]
      exact .written process
  refine ⟨?_, ?_, ?_, ?_, h.returned⟩
  · rw [hpages]
    exact h.pages
  · rw [hrequests]
    exact fun request stage hstage => (h.requests request stage hstage).imp_right
      (hnext request stage)
  · rw [hwrites]
    exact h.writes
  · rw [hcounter, hpages, hrequests]
    exact h.counter

omit [DecidableEq ρ] in
theorem settleJoined_eq {process : ν} {key : PageKey κ} {result : Option (LoadedPage π)}
    {old : Option (PageStage ν κ π)} {stage : PageStage ν κ π}
    (h : settleJoined process key result old = some stage) :
    old = some stage ∨ old = some (.joined process key) ∧ stage = .settled process result := by
  unfold settleJoined at h
  split at h
  · split at h
    · rename_i hsame
      obtain ⟨rfl, rfl⟩ := hsame
      cases h
      exact .inr ⟨rfl, rfl⟩
    · exact .inl h
  · exact .inl h

/-- A load in flight comes to an end. -/
theorem resolve_move {request : ρ} {process : ν} {key : PageKey κ}
    {result : Option (LoadedPage π)} (hkey : HasKey m request key)
    (hresult : ∀ page, result = some page → HasPage m key page) :
    PageMove m input [] (m.resolve request process key result) := by
  have hsettled : ∀ other, HasKey m other key →
      Next m (m.resolve request process key result) other (.settled process result) := by
    intro other hother
    cases result with
    | none => exact .fails process
    | some page => exact .gets hother (hresult page rfl)
  refine ⟨fun _ _ h => .inl h, ?_, Nat.le_refl _, .inl ⟨rfl, fun _ => List.not_mem_nil⟩,
    fun _ _ h => absurd h List.not_mem_nil⟩
  intro other stage hstage
  rcases set_stage hstage with ⟨rfl, heq⟩ | hother
  · cases heq
    exact .inr (hsettled other hkey)
  · rcases settleJoined_eq hother with hold | ⟨hjoined, rfl⟩
    · exact .inl hold
    · exact .inr (hsettled other ⟨_, hjoined, rfl⟩)

theorem pageStep_move (h : PageSteps factory m input output m') :
    PageMove m input output m' := by
  unfold PageSteps pageStep at h
  cases input with
  | read request process page =>
    simp only at h
    split at h
    · cases h
      exact advances_quietly (.started process page)
    · cases h
  | getCacheVersion request =>
    simp only at h
    split at h
    · cases h
      exact advances_quietly (.versioned _ _)
    · cases h
  | getOrSet request =>
    simp only at h
    split at h
    · rename_i hstage
      split at h
      · rename_i hpage
        cases h
        exact advances_quietly (.gets ⟨_, hstage, rfl⟩ (.inl hpage))
      · cases h
        exact advances_quietly (.keyed ⟨_, hstage, rfl⟩ rfl rfl)
    · cases h
  | share request =>
    simp only at h
    split at h
    · rename_i hstage
      split at h
      · cases h
        exact advances_quietly (.keyed ⟨_, hstage, rfl⟩ rfl rfl)
      · cases h
        exact (advances_quietly (.keyed ⟨_, hstage, rfl⟩ rfl rfl)).congr rfl rfl rfl rfl
    · cases h
  | withLock request =>
    simp only at h
    split at h
    · rename_i hstage
      split at h
      · cases h
      · cases h
        exact (advances_quietly (.keyed ⟨_, hstage, rfl⟩ rfl rfl)).congr rfl rfl rfl rfl
    · cases h
  | lockTimeout request =>
    simp only at h
    split at h
    · rename_i hstage
      cases h
      exact resolve_move ⟨_, hstage, rfl⟩ nofun
    · cases h
  | getAgain request =>
    simp only at h
    split at h
    · rename_i hstage
      split at h
      · rename_i hpage
        cases h
        exact advances_quietly (.brings ⟨_, hstage, rfl⟩ (.inl (.inl hpage)) rfl)
      · cases h
        exact advances_quietly (.keyed ⟨_, hstage, rfl⟩ rfl rfl)
    · cases h
  | load request =>
    simp only at h
    split at h
    · rename_i hstage
      cases h
      exact advances_quietly (.brings ⟨_, hstage, rfl⟩ (.inr rfl) rfl)
    · cases h
  | store request fails =>
    simp only at h
    split at h
    · rename_i process key page hstage
      cases h
      have hhas : HasPage m key page := .inr ⟨request, _, hstage, rfl⟩
      refine ⟨?_, ?_, Nat.le_refl _, .inl ⟨rfl, fun _ => List.not_mem_nil⟩,
        fun _ _ h => absurd h List.not_mem_nil⟩
      · intro other page' hpage
        by_cases hother : other = key
        · subst hother
          have heq : page = page' := by simpa [PageCache.set] using hpage
          exact heq ▸ hhas
        · exact .inl (by simpa [PageCache.set, hother] using hpage)
      · intro other stage hother
        rcases set_stage hother with ⟨rfl, heq⟩ | hold
        · cases heq
          right
          cases fails with
          | true => exact .keyed ⟨_, hstage, rfl⟩ rfl rfl
          | false => exact .brings ⟨_, hstage, rfl⟩ (.inl hhas) rfl
        · exact .inl hold
    · cases h
  | release request =>
    simp only at h
    split at h
    · rename_i process key result hstage
      cases h
      refine (resolve_move (m := m) ⟨_, hstage, rfl⟩ ?_).congr rfl rfl rfl rfl
      rintro page rfl
      exact .inr ⟨request, _, hstage, rfl⟩
    · cases h
  | respond request =>
    simp only at h
    split at h
    · rename_i process page hstage
      cases h
      refine advances nofun (fun number hmem => by cases List.mem_singleton.mp hmem) ?_
      intro other page' hmem
      cases List.mem_singleton.mp hmem
      exact ⟨process, hstage⟩
    · cases h
      exact advances nofun (fun number hmem => by cases List.mem_singleton.mp hmem)
        fun other page hmem => by cases List.mem_singleton.mp hmem
    · cases h
  | write request process database =>
    simp only at h
    split at h
    iterate 2
      cases h
      refine ⟨fun _ _ h => .inl h, ?_, Nat.le_succ _, .inl ⟨rfl, fun _ => List.not_mem_nil⟩,
        fun _ _ h => absurd h List.not_mem_nil⟩
      intro other stage hother
      rcases set_stage hother with ⟨rfl, heq⟩ | hold
      · cases heq
        exact .inr (.written process)
      · exact .inl hold
    cases h
  | invalidateCache request =>
    simp only at h
    split at h
    · rename_i process number hstage
      cases h
      have hgone : ∀ other stage, (({ m with counter := some (m.counter.getD 0 + 1) } :
          PageCache ρ ν κ π δ).set request none).requests other = some stage →
            m.requests other = some stage := by
        intro other stage hother
        rcases set_stage hother with ⟨_, heq⟩ | hold
        · cases heq
        · exact hold
      refine ⟨fun _ _ h => .inl h, fun other stage h => .inl (hgone other stage h),
        Nat.le_refl _, ?_, fun _ _ h => by cases List.mem_singleton.mp h⟩
      exact .inr ⟨request, process, number, rfl, hstage, rfl, rfl, rfl, hgone⟩
    · cases h
  | fail request =>
    simp only at h
    split at h
    · cases h
      exact advances_quietly (.fails _)
    · cases h
      exact advances_quietly (.fails _)
    · rename_i hstage
      cases h
      exact resolve_move ⟨_, hstage, rfl⟩ nofun
    · rename_i hstage
      cases h
      exact advances_quietly (.keyed ⟨_, hstage, rfl⟩ rfl rfl)
    · rename_i hstage
      cases h
      exact advances_quietly (.keyed ⟨_, hstage, rfl⟩ rfl rfl)
    · rename_i hstage
      cases h
      exact advances_quietly (.keyed ⟨_, hstage, rfl⟩ rfl rfl)
    · rename_i hstage
      cases h
      exact resolve_move ⟨_, hstage, rfl⟩ nofun
    · cases h
      exact advances nofun (fun number hmem => by cases List.mem_singleton.mp hmem)
        fun other page hmem => by cases List.mem_singleton.mp hmem
    · cases h
  | crash process =>
    cases h
    refine ⟨fun _ _ h => .inl h, ?_, Nat.le_refl _, .inl ⟨rfl, fun _ => List.not_mem_nil⟩,
      fun _ _ h => absurd h List.not_mem_nil⟩
    intro other stage hother
    exact .inl (Option.filter_eq_some_iff.mp hother).1
  | expireLock key =>
    cases h
    exact ⟨fun _ _ h => .inl h, fun _ _ h => .inl h, Nat.le_refl _,
      .inl ⟨rfl, fun _ => List.not_mem_nil⟩, fun _ _ h => absurd h List.not_mem_nil⟩
  | expirePage key =>
    cases h
    refine ⟨?_, fun _ _ h => .inl h, Nat.le_refl _, .inl ⟨rfl, fun _ => List.not_mem_nil⟩,
      fun _ _ h => absurd h List.not_mem_nil⟩
    intro other page hpage
    by_cases hother : other = key
    · subst hother
      simp at hpage
    · exact .inl (by simpa [hother] using hpage)

end Steps

/-! ## Pages of the current version -/

section Invariants

variable {m m' : PageCache ρ ν κ π δ} {input : PageInput ρ ν κ δ} {output : List (PageOutput ρ π)}
  {events : List (PageOutput ρ π)}

theorem keyOf_of_brought {stage : PageStage ν κ π} {key : PageKey κ} {page : LoadedPage π}
    (h : broughtPage stage = some (key, page)) : keyOf stage = some key := by
  unfold broughtPage at h
  split at h
  · cases h
    rfl
  · cases h
    rfl
  · cases h

theorem PageMove.hasKey (h : PageMove m input output m') {request : ρ} {key : PageKey κ}
    (hkey : HasKey m' request key) : HasKey m request key ∨ key.version = m.version := by
  obtain ⟨stage, hstage, hof⟩ := hkey
  rcases h.requests request stage hstage with hold | hnext
  · exact .inl ⟨stage, hold, hof⟩
  · cases hnext with
    | versioned process page =>
      cases hof
      exact .inr rfl
    | keyed hold hkey hnone =>
      cases hkey.symm.trans hof
      exact .inl hold
    | brings hold hpage hbrought =>
      cases (keyOf_of_brought hbrought).symm.trans hof
      exact .inl hold
    | _ => cases hof

theorem PageMove.hasPage (h : PageMove m input output m') {key : PageKey κ} {page : LoadedPage π}
    (hpage : HasPage m' key page) : HasPage m key page ∨ page.loadedAt = m.writes := by
  rcases hpage with hpage | ⟨request, stage, hstage, hbrought⟩
  · exact .inl (h.pages key page hpage)
  · rcases h.requests request stage hstage with hold | hnext
    · exact .inl (.inr ⟨request, stage, hold, hbrought⟩)
    · cases hnext with
      | keyed hold hkey hnone => cases hnone.symm.trans hbrought
      | brings hold hpage hbrought' =>
        cases hbrought'.symm.trans hbrought
        exact hpage
      | _ => cases hbrought

/-- What is cached or loaded under the current version is not older than a write whose invalidation
is done, and nothing is of a later version. -/
structure PagesInv (events : List (PageOutput ρ π)) (m : PageCache ρ ν κ π δ) : Prop where
  written : ∀ request process number, m.requests request = some (.written process number) →
    number ≤ m.writes
  invalidated : ∀ number, .invalidated number ∈ events → number ≤ m.writes ∧ m.counter ≠ none
  positive : ∀ n, m.counter = some n → 0 < n
  keys : ∀ request key, HasKey m request key → key.version ≤ m.version
  pageKeys : ∀ key page, m.pages key = some page → key.version ≤ m.version
  current : ∀ key page, key.version = m.version → HasPage m key page →
    ∀ number, .invalidated number ∈ events → number ≤ page.loadedAt

theorem PagesInv.hasPage_version (h : PagesInv events m) {key : PageKey κ} {page : LoadedPage π}
    (hpage : HasPage m key page) : key.version ≤ m.version := by
  rcases hpage with hpage | ⟨request, stage, hstage, hbrought⟩
  · exact h.pageKeys key page hpage
  · exact h.keys request key ⟨stage, hstage, keyOf_of_brought hbrought⟩

theorem PageMove.written_le (h : PageMove m input output m') (hm : PagesInv events m)
    {request : ρ} {process : ν} {number : Nat}
    (hstage : m'.requests request = some (.written process number)) : number ≤ m'.writes := by
  rcases h.requests request _ hstage with hold | hnext
  · exact (hm.written request process number hold).trans h.writes
  · cases hnext with
    | keyed hold hkey hnone => cases hkey
    | brings hold hpage hbrought => cases hbrought
    | written => exact Nat.le_refl _

theorem PageMove.pagesInv_same (h : PageMove m input output m') (hm : PagesInv events m)
    (hcounter : m'.counter = m.counter) (hquiet : ∀ number, .invalidated number ∉ output) :
    PagesInv (events ++ output) m' := by
  have hversion : m'.version = m.version := congrArg (Option.getD · 1) hcounter
  have hevent : ∀ number, PageOutput.invalidated number ∈ events ++ output →
      .invalidated number ∈ events := by
    intro number hmem
    rcases List.mem_append.mp hmem with hmem | hmem
    · exact hmem
    · exact absurd hmem (hquiet number)
  refine ⟨fun _ _ _ => h.written_le hm, ?_, ?_, ?_, ?_, ?_⟩
  · intro number hmem
    obtain ⟨hle, hsome⟩ := hm.invalidated number (hevent number hmem)
    exact ⟨hle.trans h.writes, hcounter ▸ hsome⟩
  · rw [hcounter]
    exact hm.positive
  · intro request key hkey
    rw [hversion]
    rcases h.hasKey hkey with hold | hnew
    · exact hm.keys request key hold
    · exact Nat.le_of_eq hnew
  · intro key page hpage
    rw [hversion]
    exact hm.hasPage_version (h.pages key page hpage)
  · intro key page hkey hpage number hmem
    rw [hversion] at hkey
    rcases h.hasPage hpage with hold | hnew
    · exact hm.current key page hkey hold number (hevent number hmem)
    · rw [hnew]
      exact (hm.invalidated number (hevent number hmem)).1

/-- The version after an increment: the same for the first one, a new one for every other. -/
theorem version_incremented (hcounter : m'.counter = some (m.counter.getD 0 + 1)) :
    m'.version = m.version ∧ m.counter = none ∧ m.version = 1 ∨
      m'.version = m.version + 1 ∧ m.counter ≠ none := by
  unfold PageCache.version
  rw [hcounter]
  cases m.counter with
  | none => exact .inl ⟨rfl, rfl, rfl⟩
  | some n => exact .inr ⟨rfl, nofun⟩

theorem PagesInv.incremented {request : ρ} {process : ν} {number : Nat} (hm : PagesInv events m)
    (hstage : m.requests request = some (.written process number))
    (hguard : FirstIsFresh m (.invalidateCache request))
    (hcounter : m'.counter = some (m.counter.getD 0 + 1)) (hwrites : m.writes ≤ m'.writes)
    (hpages : m'.pages = m.pages)
    (hrequests : ∀ other stage, m'.requests other = some stage → m.requests other = some stage) :
    PagesInv (events ++ [.invalidated number]) m' := by
  have hversion := version_incremented hcounter
  have hle : m.version ≤ m'.version := by omega
  have hhas : ∀ key page, HasPage m' key page → HasPage m key page := by
    rintro key page (hpage | ⟨other, stage, hother, hbrought⟩)
    · exact .inl (hpages ▸ hpage)
    · exact .inr ⟨other, stage, hrequests other stage hother, hbrought⟩
  refine ⟨?_, ?_, ?_, ?_, ?_, ?_⟩
  · intro other process' number' hother
    exact (hm.written other process' number' (hrequests other _ hother)).trans hwrites
  · intro number' hmem
    refine ⟨?_, ?_⟩
    · rcases List.mem_append.mp hmem with hmem | hmem
      · exact (hm.invalidated number' hmem).1.trans hwrites
      · cases List.mem_singleton.mp hmem
        exact (hm.written request process number hstage).trans hwrites
    · rw [hcounter]
      nofun
  · intro n hn
    rw [hcounter] at hn
    cases hn
    exact Nat.succ_pos _
  · rintro other key ⟨stage, hother, hof⟩
    exact (hm.keys other key ⟨stage, hrequests other stage hother, hof⟩).trans hle
  · intro key page hpage
    exact (hm.pageKeys key page (hpages ▸ hpage)).trans hle
  · intro key page hkey hpage number' hmem
    have hold := hhas key page hpage
    have hbound := hm.hasPage_version hold
    rcases hversion with ⟨hsame, hnone, hone⟩ | ⟨hnext, _⟩
    · rcases List.mem_append.mp hmem with hmem | hmem
      · exact absurd hnone (hm.invalidated number' hmem).2
      · cases List.mem_singleton.mp hmem
        -- the first increment: what is kept under version 1 stays current
        obtain ⟨hcached, hloads⟩ := hguard hnone process number hstage key (by omega)
        rcases hold with hcache | ⟨loader, stage, hloader, hbrought⟩
        · exact hcached page hcache
        · cases stage with
          | loaded process' key' page' =>
            cases hbrought
            exact hloads loader process' page (.inl hloader)
          | releasing process' key' result =>
            cases result with
            | none => cases hbrought
            | some page' =>
              cases hbrought
              exact hloads loader process' page (.inr hloader)
          | _ => cases hbrought
    · omega

theorem PageMove.pagesInv (h : PageMove m input output m') (hm : PagesInv events m)
    (hguard : FirstIsFresh m input) : PagesInv (events ++ output) m' := by
  rcases h.counter with ⟨hcounter, hquiet⟩ |
    ⟨request, process, number, rfl, hstage, rfl, hcounter, hpages, hrequests⟩
  · exact h.pagesInv_same hm hcounter hquiet
  · exact hm.incremented hstage hguard hcounter h.writes hpages hrequests

/-! ## Reads that begin later -/

/-- What a read that began at a version of at least `since` may come to, when the write of this
number was invalidated before. -/
structure BegunAfter (number since : Nat) (request : ρ) (m : PageCache ρ ν κ π δ) : Prop where
  version : since ≤ m.version
  writes : number ≤ m.writes
  pages : ∀ key page, since ≤ key.version → HasPage m key page → number ≤ page.loadedAt
  key : ∀ key, HasKey m request key → since ≤ key.version
  settled : ∀ process page, m.requests request = some (.settled process (some page)) →
    number ≤ page.loadedAt

theorem PageMove.version_le (h : PageMove m input output m') : m.version ≤ m'.version := by
  rcases h.counter with ⟨hcounter, _⟩ | ⟨_, _, _, _, _, _, hcounter, _, _⟩
  · exact Nat.le_of_eq (congrArg (Option.getD · 1) hcounter.symm)
  · have hversion := version_incremented hcounter
    omega

theorem PageMove.begunAfter {number since : Nat} {request : ρ}
    (h : PageMove m input output m') (hm : BegunAfter number since request m) :
    BegunAfter number since request m' := by
  refine ⟨hm.version.trans h.version_le, hm.writes.trans h.writes, ?_, ?_, ?_⟩
  · intro key page hkey hpage
    rcases h.hasPage hpage with hold | hnew
    · exact hm.pages key page hkey hold
    · rw [hnew]
      exact hm.writes
  · intro key hkey
    rcases h.hasKey hkey with hold | hnew
    · exact hm.key key hold
    · rw [hnew]
      exact hm.version
  · intro process page hstage
    rcases h.requests request _ hstage with hold | hnext
    · exact hm.settled process page hold
    · cases hnext with
      | keyed hold hkey hnone => cases hkey
      | brings hold hpage hbrought => cases hbrought
      | gets hold hpage => exact hm.pages _ page (hm.key _ hold) hpage

/-- The version is that of the invalidated write or a later one for a request that is idle. -/
theorem PagesInv.begunAfter {number : Nat} {request : ρ} (h : PagesInv events m)
    (hnumber : .invalidated number ∈ events) (hidle : m.requests request = none) :
    BegunAfter number m.version request m := by
  refine ⟨Nat.le_refl _, (h.invalidated number hnumber).1, ?_, ?_, ?_⟩
  · intro key page hkey hpage
    exact h.current key page (Nat.le_antisymm (h.hasPage_version hpage) hkey) hpage number hnumber
  · rintro key ⟨stage, hstage, _⟩
    cases hidle.symm.trans hstage
  · intro process page hstage
    cases hidle.symm.trans hstage

end Invariants

/-! ## Whole runs -/

section Runs

variable [DecidableEq ρ] [DecidableEq ν] [DecidableEq κ] {factory : δ → κ → π}
  {m m' : PageCache ρ ν κ π δ} {inputs : List (PageInput ρ ν κ δ)}
  {events : List (PageOutput ρ π)}

omit [DecidableEq ρ] [DecidableEq ν] [DecidableEq κ] in
theorem uncached_pagesInv (database : δ) :
    PagesInv [] (uncached database : PageCache ρ ν κ π δ) where
  written := fun _ _ _ hstage => by cases hstage
  invalidated := fun _ hmem => absurd hmem List.not_mem_nil
  positive := fun _ hcounter => by cases hcounter
  keys := by
    rintro request key ⟨stage, hstage, _⟩
    cases hstage
  pageKeys := fun _ _ hpage => by cases hpage
  current := fun _ _ _ _ _ hmem => absurd hmem List.not_mem_nil

theorem run_pagesInv {database : δ}
    (h : Run (Guarded (PageSteps factory) FirstIsFresh) (uncached database) inputs events m) :
    PagesInv events m := by
  induction h with
  | refl => exact uncached_pagesInv database
  | tail _ hs ih => exact (pageStep_move hs.1).pagesInv ih hs.2

theorem run_begunAfter {number since : Nat} {request : ρ}
    (h : Run (PageSteps factory) m inputs events m') (hm : BegunAfter number since request m) :
    BegunAfter number since request m' ∧
      ∀ page, .returned request page ∈ events → number ≤ page.loadedAt := by
  induction h with
  | refl => exact ⟨hm, fun _ hmem => absurd hmem List.not_mem_nil⟩
  | tail _ hs ih =>
    obtain ⟨hafter, hreturned⟩ := ih
    have hmove := pageStep_move hs
    refine ⟨hmove.begunAfter hafter, fun page hmem => ?_⟩
    rcases List.mem_append.mp hmem with hmem | hmem
    · exact hreturned page hmem
    · obtain ⟨process, hstage⟩ := hmove.returned request page hmem
      exact hafter.settled process page hstage

/-- A read that begins when the invalidation of a write is done returns no page that was loaded
before that write, if no page of version 1 is older than the write that first increments the
counter. -/
theorem getOrSet_fresh (factory : δ → κ → π) (database : δ) :
    ∀ inputs events (m : PageCache ρ ν κ π δ),
      Run (Guarded (PageSteps factory) FirstIsFresh) (uncached database) inputs events m →
      ∀ number, .invalidated number ∈ events → ∀ request, m.requests request = none →
      ∀ inputs' events' m', Run (Guarded (PageSteps factory) FirstIsFresh) m inputs' events' m' →
      ∀ page, .returned request page ∈ events' → number ≤ page.loadedAt := by
  intro inputs events m hrun number hnumber request hidle inputs' events' m' hrun' page hreturned
  have hafter := (run_pagesInv hrun).begunAfter hnumber hidle
  exact (run_begunAfter hrun'.unguarded hafter).2 page hreturned

/-- Where no input increments the counter, nothing is asked of the steps. -/
theorem guarded_of_reads (isRead : PageInput ρ ν κ δ → Bool)
    (hread : ∀ request, isRead (.invalidateCache request) = false)
    (h : Run (PageSteps factory) m inputs events m') (hall : ∀ i ∈ inputs, isRead i = true) :
    Run (Guarded (PageSteps factory) FirstIsFresh) m inputs events m' := by
  refine (h.guarded hall).mono fun s input output t hstep => ⟨hstep.1, ?_⟩
  cases input with
  | invalidateCache request =>
    have hinput : isRead (.invalidateCache request) = true := hstep.2
    cases (hread request).symm.trans hinput
  | _ => trivial

/-- The first page of a list of friends. -/
def firstFriends (friends : List String) (limit : Nat) : List String := friends.take limit

/-- A read that finds nothing cached. -/
def loads (request : Nat) : List (PageInput Nat Nat Nat (List String)) :=
  [.read request 0 50, .getCacheVersion request, .getOrSet request, .share request,
    .withLock request, .getAgain request, .load request, .store request false, .release request,
    .respond request]

/-- The list of friends is written and then loaded. -/
theorem firstFriends_fresh : ∃ (m m' : PageCache Nat Nat Nat (List String) (List String))
    (events : List (PageOutput Nat (List String))) (page : LoadedPage (List String)),
    Run (PageSteps firstFriends) (uncached []) [.write 1 0 ["bob"], .invalidateCache 1]
      [.invalidated 1] m ∧
    Run (PageSteps firstFriends) m (loads 2) events m' ∧ .returned 2 page ∈ events ∧
      1 ≤ page.loadedAt := by
  let written : PageCache Nat Nat Nat (List String) (List String) :=
    ({ uncached ["bob"] with writes := 1 }).set 1 (some (.written 0 1))
  have hwrite : Run (Guarded (PageSteps firstFriends) FirstIsFresh) (uncached [])
      [.write 1 0 ["bob"]] [] written :=
    (Run.refl _).tail (o := []) ⟨rfl, trivial⟩
  have hfirst : FirstIsFresh written (.invalidateCache 1) := by
    intro _ process number hnumber key _
    refine ⟨nofun, ?_⟩
    intro loader process' page hloader
    rcases hloader with hloader | hloader
    · rcases set_stage hloader with ⟨_, heq⟩ | hold
      · cases heq
      · cases hold
    · rcases set_stage hloader with ⟨_, heq⟩ | hold
      · cases heq
      · cases hold
  have hstep : PageSteps firstFriends written (.invalidateCache 1) [.invalidated 1]
      (({ written with counter := some 1 }).set 1 none) := rfl
  have hrun := hwrite.tail ⟨hstep, hfirst⟩
  obtain ⟨⟨m', events⟩, hplay, htest⟩ := (Option.any_eq_true _ _).mp (by decide +kernel :
    ((Trace.play (pageStep firstFriends)
      (({ written with counter := some 1 }).set 1 none) (loads 2)).any fun last =>
        .returned 2 ⟨["bob"], 1⟩ ∈ last.2) = true)
  have hread := guarded_of_reads (fun
    | .invalidateCache _ => false
    | _ => true) (fun _ => rfl) (Trace.play_run hplay) (by decide)
  exact ⟨_, m', events, _, hrun.unguarded, Trace.play_run hplay, of_decide_eq_true htest,
    getOrSet_fresh firstFriends [] _ _ _ hrun 1 (List.mem_singleton.mpr rfl) 2 rfl _ _ _ hread _
      (of_decide_eq_true htest)⟩

/-- The list was read before its counter was ever incremented, and then a friend is added. -/
def firstInvalidation : List (PageInput Nat Nat Nat (List String)) :=
  loads 1 ++ [.write 2 0 ["bob"], .invalidateCache 2]

/-- A read that begins after the first invalidation returns the page from before the write. -/
theorem firstInvalidation_stale :
    ∃ (m m' : PageCache Nat Nat Nat (List String) (List String))
      (events events' : List (PageOutput Nat (List String))),
    Run (PageSteps firstFriends) (uncached []) firstInvalidation events m ∧
      .invalidated 1 ∈ events ∧ m.requests 3 = none ∧
    Run (PageSteps firstFriends) m [.read 3 0 50, .getCacheVersion 3, .getOrSet 3, .respond 3]
      events' m' ∧ .returned 3 ⟨[], 0⟩ ∈ events' := by
  obtain ⟨⟨m, events⟩, hplay, htest⟩ := (Option.any_eq_true _ _).mp (by decide +kernel :
    ((Trace.play (pageStep firstFriends) (uncached []) firstInvalidation).any fun last =>
      .invalidated 1 ∈ last.2 ∧ (last.1.requests 3).isNone ∧
        (Trace.play (pageStep firstFriends) last.1
          [.read 3 0 50, .getCacheVersion 3, .getOrSet 3, .respond 3]).any fun next =>
            .returned 3 ⟨[], 0⟩ ∈ next.2) = true)
  obtain ⟨hinvalidated, hidle, hnext⟩ := of_decide_eq_true htest
  obtain ⟨⟨m', events'⟩, hplay', hreturned⟩ := (Option.any_eq_true _ _).mp hnext
  exact ⟨m, m', events, events', Trace.play_run hplay, hinvalidated, Option.isNone_iff_eq_none.mp hidle,
    Trace.play_run hplay', of_decide_eq_true hreturned⟩

end Runs

end Rules
end LivePoly
