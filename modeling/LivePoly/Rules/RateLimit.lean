import LivePoly.Service.RateLimit
import LivePoly.Lib.SlidingLog
import LivePoly.Lib.TokenBucket
import LivePoly.Lib.Trace

/-!
# Rules.RateLimit

The rate limiter as a sliding log beside a token bucket. `Limiter` has no keys that expire: a script
whose keys live at least as long as they are given does what it does (`rateLimitScript_refines`),
since a log expires when none of its entries is recent and a bucket when it would be full again. The
bounds are then those of sliding logs and token buckets.
-/

namespace LivePoly
namespace Rules

open Service Trace SlidingLog TokenBucket

/-! ## What is claimed of the calls -/

/-- What `consume` asks of its input. -/
structure ValidRule (rule : RateLimitRule) : Prop where
  limit : 0 < rule.limit
  windowSeconds : 0 < rule.windowSeconds
  burstLimit : 0 < rule.burstLimit

/-- Before the first call. -/
def unlimited : RateLimited := ⟨0, ⟨none, none, none⟩⟩

/-- The times of the calls that were allowed. -/
def allowedTimes (events : List Consumed) : List ℚ :=
  (events.filter fun event => event.result.isOk).map Consumed.time

/-- The slots of the window that a call finds taken. -/
def windowAt (rule : RateLimitRule) (keys : RateLimitKeys) (now : ℚ) : List ℚ :=
  Redis.scores (Redis.zremrangebyscore (Redis.live now keys.slidingWindow) 0 (now - rule.windowMs))

/-- The tokens that a call finds in the bucket. -/
def tokensAt (rule : RateLimitRule) (keys : RateLimitKeys) (now : ℚ) : ℚ :=
  min rule.burstLimit ((Redis.get now keys.bucketTokens).getD rule.burstLimit +
    max 0 (now - (Redis.get now keys.bucketTimestamp).getD now) * rule.refillPerMs)

/-! ## A limiter without keys -/

/-- The recent calls, and the tokens there were at a time unless the bucket is untouched. -/
structure Limiter where
  log : List ℚ
  bucket : Option (ℚ × ℚ)

namespace Limiter

def level (rule : RateLimitRule) (l : Limiter) (now : ℚ) : ℚ :=
  match l.bucket with
  | none => rule.burstLimit
  | some (tokens, last) => refill rule.burstLimit rule.refillPerMs tokens (now - last)

/-- A call: it is allowed if the window has a slot and the bucket a token. -/
def consume (rule : RateLimitRule) (l : Limiter) (now : ℚ) : Limiter × RateLimitResult :=
  let log := recent l.log (now - rule.windowMs)
  let tokens := l.level rule now
  if rule.limit ≤ log.length then
    let retryAfterMs :=
      match log.head? with
      | some oldest => max 0 (oldest + rule.windowMs - now)
      | none => rule.windowMs
    (⟨log, l.bucket⟩, ⟨false, log.length, ⌈retryAfterMs / 1000⌉⟩)
  else if tokens < 1 then
    (⟨log, some (tokens, now)⟩,
      ⟨false, log.length, ⌈((⌈(1 - tokens) / rule.refillPerMs⌉ : ℚ)) / 1000⌉⟩)
  else (⟨log.orderedInsert (· ≤ ·) now, some (tokens - 1, now)⟩, ⟨true, log.length + 1, 0⟩)

end Limiter

/-- What the keys hold, expired or not. -/
def limiterOf (keys : RateLimitKeys) : Limiter :=
  ⟨Redis.scores keys.slidingWindow,
    keys.bucketTokens.bind fun tokens =>
      keys.bucketTimestamp.map fun last => (tokens.value, last.value)⟩

/-- A key whose time to live is set is there at least that long. -/
def Lives (expires : ℚ → ℚ → Option ℚ) : Prop :=
  ∀ now ttl expiresAt, expires now ttl = some expiresAt → now + ttl ≤ expiresAt

theorem expiresAfter_lives : Lives expiresAfter := by
  intro now ttl expiresAt h
  cases h
  exact le_refl _

theorem neverExpires_lives : Lives neverExpires := by
  intro now ttl expiresAt h
  cases h

/-! ## Expired keys -/

/-- What was stored up to a time lives long enough: an entry of the log while it is recent, a bucket
until it is full again. -/
structure Stored (rule : RateLimitRule) (keys : RateLimitKeys) (clock : ℚ) : Prop where
  scores : ∀ key, keys.slidingWindow = some key → ∀ score ∈ key.value, 0 ≤ score ∧ score ≤ clock ∧
    ∀ expiresAt, key.expiresAt = some expiresAt → score + rule.windowMs ≤ expiresAt
  bucket : keys.bucketTokens = none ∧ keys.bucketTimestamp = none ∨
    ∃ tokens last expires, keys.bucketTokens = some ⟨tokens, expires⟩ ∧
      keys.bucketTimestamp = some ⟨last, expires⟩ ∧ 0 ≤ tokens ∧ tokens ≤ rule.burstLimit ∧
      last ≤ clock ∧ ∀ expiresAt, expires = some expiresAt →
        last + rule.burstLimit / rule.refillPerMs * 2 ≤ expiresAt

section Calls

variable {rule : RateLimitRule} {keys : RateLimitKeys} {clock now : ℚ}
  {expires : ℚ → ℚ → Option ℚ}

theorem ValidRule.windowMs_pos (h : ValidRule rule) : 0 < rule.windowMs :=
  mul_pos h.windowSeconds (by norm_num)

theorem ValidRule.refillPerMs_pos (h : ValidRule rule) : 0 < rule.refillPerMs :=
  div_pos (Nat.cast_pos.mpr h.limit) h.windowMs_pos

theorem live_eq {α : Type} (now : ℚ) (key : RedisKey α) :
    Redis.live now (some key) = some key ∨
      Redis.live now (some key) = none ∧ ∃ expiresAt, key.expiresAt = some expiresAt ∧
        expiresAt < now := by
  unfold Redis.live
  cases hexpires : key.expiresAt with
  | none => exact .inl (by simp [hexpires])
  | some expiresAt =>
    by_cases hnow : now ≤ expiresAt
    · exact .inl (by simp [hexpires, hnow])
    · exact .inr ⟨by simp [hexpires, hnow], expiresAt, rfl, not_le.mp hnow⟩

theorem scores_filter (key : Option (RedisKey (List ℚ))) :
    Redis.scores (key.filter fun key => key.value ≠ []) = Redis.scores key := by
  unfold Redis.scores
  cases key with
  | none => rfl
  | some key =>
    by_cases hnil : key.value = []
    · simp [Option.filter, hnil]
    · simp [Option.filter, hnil]

theorem scores_zremrangebyscore (key : Option (RedisKey (List ℚ))) (min max : ℚ) :
    Redis.scores (Redis.zremrangebyscore key min max) =
      (Redis.scores key).filter fun score => ¬ (min ≤ score ∧ score ≤ max) := by
  unfold Redis.zremrangebyscore
  rw [scores_filter]
  cases key <;> rfl

/-- A call finds the entries that are recent, whether the log has expired or not. -/
theorem Stored.windowAt_eq (h : Stored rule keys clock) :
    windowAt rule keys now = recent (limiterOf keys).log (now - rule.windowMs) := by
  unfold windowAt
  rw [scores_zremrangebyscore]
  unfold limiterOf recent
  cases hkey : keys.slidingWindow with
  | none => rfl
  | some key =>
    have hscores := h.scores key hkey
    rcases live_eq now key with hlive | ⟨hgone, expiresAt, hexpires, hlate⟩
    · rw [hlive]
      refine List.filter_congr fun score hscore => ?_
      obtain ⟨hnonneg, _⟩ := hscores score hscore
      simp [hnonneg]
    · rw [hgone]
      refine (List.filter_eq_nil_iff.mpr fun score hscore => ?_).symm
      have hlife := (hscores score hscore).2.2 expiresAt hexpires
      simp only [decide_eq_true_eq, not_lt]
      linarith

theorem Stored.tokensAt_eq (hrule : ValidRule rule) (h : Stored rule keys clock)
    (hnow : clock ≤ now) : tokensAt rule keys now = (limiterOf keys).level rule now := by
  unfold tokensAt limiterOf Limiter.level
  rcases h.bucket with ⟨htokens, htimestamp⟩ |
    ⟨tokens, last, expires, htokens, htimestamp, hnonneg, _, hlast, hexpires⟩
  · rw [htokens, htimestamp]
    simp [Redis.get, Redis.live]
  · rw [htokens, htimestamp]
    have helapsed : 0 ≤ now - last := sub_nonneg.mpr (hlast.trans hnow)
    by_cases hlive : expires.all (now ≤ ·) = true
    · simp [Redis.get, Redis.live, Option.filter, hlive, max_eq_right helapsed, refill]
    · obtain ⟨expiresAt, rfl⟩ : ∃ expiresAt, expires = some expiresAt := by
        cases expires with
        | none => exact absurd rfl hlive
        | some expiresAt => exact ⟨expiresAt, rfl⟩
      have hlate : expiresAt < now := by simpa using hlive
      have hlife := hexpires expiresAt rfl
      have hfull : refill rule.burstLimit rule.refillPerMs tokens (now - last) =
          rule.burstLimit := by
        refine refill_full ?_
        have hgain : rule.burstLimit / rule.refillPerMs * 2 * rule.refillPerMs ≤
            (now - last) * rule.refillPerMs :=
          mul_le_mul_of_nonneg_right (by linarith) hrule.refillPerMs_pos.le
        have htwice : rule.burstLimit / rule.refillPerMs * 2 * rule.refillPerMs =
            rule.burstLimit * 2 := by
          have hne := hrule.refillPerMs_pos.ne'
          field_simp
        have hburst := hrule.burstLimit
        linarith
      simp [Redis.get, Redis.live, Option.filter, not_le.mpr hlate, hfull]

/-! ## The script and the limiter -/

theorem scores_pexpire (expiresAt : Option ℚ) (key : Option (RedisKey (List ℚ))) :
    Redis.scores (Redis.pexpire expiresAt key) = Redis.scores key := by
  cases key <;> rfl

theorem stored_pexpire (hexpires : Lives expires) {sliding : Option (RedisKey (List ℚ))}
    (hscores : ∀ score ∈ Redis.scores sliding, 0 ≤ score ∧ score ≤ now) :
    ∀ key, Redis.pexpire (expires now rule.windowMs) sliding = some key → ∀ score ∈ key.value,
      0 ≤ score ∧ score ≤ now ∧
        ∀ expiresAt, key.expiresAt = some expiresAt → score + rule.windowMs ≤ expiresAt := by
  intro key hkey score hscore
  obtain ⟨before, rfl, rfl⟩ := Option.map_eq_some_iff.mp hkey
  obtain ⟨hnonneg, hle⟩ := hscores score hscore
  refine ⟨hnonneg, hle, fun expiresAt hexpiresAt => ?_⟩
  have hlife := hexpires now rule.windowMs expiresAt hexpiresAt
  linarith

theorem stored_bucket (hexpires : Lives expires) (expiresAt : ℚ)
    (h : expires now (max rule.windowMs ⌈rule.burstLimit / rule.refillPerMs * 2⌉) =
      some expiresAt) : now + rule.burstLimit / rule.refillPerMs * 2 ≤ expiresAt := by
  have hlife := hexpires _ _ _ h
  have hceil : rule.burstLimit / rule.refillPerMs * 2 ≤
      ⌈rule.burstLimit / rule.refillPerMs * 2⌉ := Int.le_ceil _
  have hmax := le_max_right rule.windowMs (⌈rule.burstLimit / rule.refillPerMs * 2⌉ : ℚ)
  linarith

theorem Stored.level_nonneg (hrule : ValidRule rule) (h : Stored rule keys clock)
    (hnow : clock ≤ now) : 0 ≤ (limiterOf keys).level rule now := by
  unfold limiterOf Limiter.level
  rcases h.bucket with ⟨htokens, _⟩ |
    ⟨tokens, last, expires, htokens, htimestamp, hnonneg, _, hlast, _⟩
  · rw [htokens]
    exact hrule.burstLimit.le
  · rw [htokens, htimestamp]
    exact refill_nonneg hrule.burstLimit.le hrule.refillPerMs_pos.le hnonneg
      (sub_nonneg.mpr (hlast.trans hnow))

theorem Limiter.level_le (l : Limiter) : l.level rule now ≤ rule.burstLimit := by
  unfold Limiter.level
  split
  · exact le_refl _
  · exact refill_le _ _

/-- The script does what the limiter does, and what it stores lives long enough. -/
theorem rateLimitScript_refines (hrule : ValidRule rule) (hexpires : Lives expires)
    (h : Stored rule keys clock) (hnow : clock ≤ now) (hnonneg : 0 ≤ now) :
    limiterOf (rateLimitScript expires keys now rule.windowMs rule.limit rule.burstLimit
        rule.refillPerMs 1).1 = ((limiterOf keys).consume rule now).1 ∧
      (rateLimitScript expires keys now rule.windowMs rule.limit rule.burstLimit
        rule.refillPerMs 1).2 = ((limiterOf keys).consume rule now).2 ∧
      Stored rule (rateLimitScript expires keys now rule.windowMs rule.limit rule.burstLimit
        rule.refillPerMs 1).1 now := by
  have hwindow : Redis.scores (Redis.zremrangebyscore (Redis.live now keys.slidingWindow) 0
      (now - rule.windowMs)) = recent (limiterOf keys).log (now - rule.windowMs) :=
    h.windowAt_eq
  have htokens : min rule.burstLimit ((Redis.get now keys.bucketTokens).getD rule.burstLimit +
      max 0 (now - (Redis.get now keys.bucketTimestamp).getD now) * rule.refillPerMs) =
        (limiterOf keys).level rule now := h.tokensAt_eq hrule hnow
  have hrecent : ∀ score ∈ recent (limiterOf keys).log (now - rule.windowMs),
      0 ≤ score ∧ score ≤ now := by
    intro score hscore
    have hmem : score ∈ (limiterOf keys).log := List.mem_of_mem_filter hscore
    unfold limiterOf at hmem
    cases hkey : keys.slidingWindow with
    | none =>
      rw [hkey] at hmem
      cases hmem
    | some key =>
      rw [hkey] at hmem
      obtain ⟨hscore0, hclock, _⟩ := h.scores key hkey score hmem
      exact ⟨hscore0, hclock.trans hnow⟩
  unfold rateLimitScript Limiter.consume
  simp only [hwindow, htokens]
  split
  · -- the window is full
    refine ⟨?_, rfl, stored_pexpire hexpires (hwindow ▸ hrecent), ?_⟩
    · unfold limiterOf
      rw [scores_pexpire, hwindow]
      rfl
    · rcases h.bucket with hnone |
        ⟨tokens, last, expires', htok, htime, hpos, hfull, hlast, hlife⟩
      · exact .inl hnone
      · exact .inr ⟨tokens, last, expires', htok, htime, hpos, hfull, hlast.trans hnow, hlife⟩
  · split
    · -- the bucket is empty
      refine ⟨?_, rfl, stored_pexpire hexpires (hwindow ▸ hrecent), .inr ⟨_, _, _, rfl, rfl,
        h.level_nonneg hrule hnow, Limiter.level_le _, le_refl _, stored_bucket hexpires⟩⟩
      unfold limiterOf
      rw [scores_pexpire, hwindow]
      rfl
    · rename_i htoken
      have hadd : Redis.scores (Redis.zadd (Redis.zremrangebyscore
          (Redis.live now keys.slidingWindow) 0 (now - rule.windowMs)) now) =
            (recent (limiterOf keys).log (now - rule.windowMs)).orderedInsert (· ≤ ·) now := by
        rw [← hwindow]
        rfl
      have hadded : ∀ score ∈ Redis.scores (Redis.zadd (Redis.zremrangebyscore
          (Redis.live now keys.slidingWindow) 0 (now - rule.windowMs)) now),
          0 ≤ score ∧ score ≤ now := by
        rw [hadd]
        intro score hscore
        rcases (List.mem_orderedInsert _).mp hscore with rfl | hscore
        · exact ⟨hnonneg, le_refl _⟩
        · exact hrecent score hscore
      refine ⟨?_, rfl, stored_pexpire hexpires hadded, .inr ⟨_, _, _, rfl, rfl, ?_, ?_, le_refl _,
        stored_bucket hexpires⟩⟩
      · unfold limiterOf
        rw [scores_pexpire, hadd]
        rfl
      · linarith
      · have hle : (limiterOf keys).level rule now ≤ rule.burstLimit := Limiter.level_le _
        linarith

theorem Stored.level_later (hrule : ValidRule rule) (h : Stored rule keys clock)
    (hnow : clock ≤ now) : (limiterOf keys).level rule now =
      refill rule.burstLimit rule.refillPerMs ((limiterOf keys).level rule clock) (now - clock) := by
  have hrate := hrule.refillPerMs_pos.le
  unfold limiterOf Limiter.level
  rcases h.bucket with ⟨htokens, _⟩ | ⟨tokens, last, expires, htokens, htimestamp, _, _, hlast, _⟩
  · rw [htokens]
    refine (refill_full ?_).symm
    show rule.burstLimit ≤ rule.burstLimit + (now - clock) * rule.refillPerMs
    have hgain : 0 ≤ (now - clock) * rule.refillPerMs := mul_nonneg (sub_nonneg.mpr hnow) hrate
    linarith
  · rw [htokens, htimestamp]
    have hsum : now - last = clock - last + (now - clock) := by ring
    simp only [Option.map_some, Option.bind_some]
    rw [refill_refill hrate (sub_nonneg.mpr hnow), ← hsum]

/-! ## Runs -/

/-- The log is what is recent of the calls that were allowed, and the bucket what they have left. -/
structure Follows (rule : RateLimitRule) (times : List ℚ) (m : RateLimited) : Prop where
  stored : Stored rule m.keys m.clock
  nonneg : 0 ≤ m.clock
  window : ∀ now, m.clock ≤ now → (recent (limiterOf m.keys).log (now - rule.windowMs)).Perm
    (recent times (now - rule.windowMs))
  admitted : Admitted rule.windowMs rule.limit times
  spent : Spent rule.burstLimit rule.refillPerMs times
    ((limiterOf m.keys).level rule m.clock) m.clock

theorem consume_eq (hrule : ValidRule rule) (expires : ℚ → ℚ → Option ℚ) (keys : RateLimitKeys)
    (now : ℚ) : RateLimitService.consume expires rule keys now =
      let (keys, result) := rateLimitScript expires keys now rule.windowMs rule.limit
        rule.burstLimit rule.refillPerMs 1
      (keys, if result.allowed then .ok () else
        .error (.exceeded result.count result.retryAfterSeconds)) := by
  unfold RateLimitService.consume
  rw [if_neg (not_or.mpr ⟨not_le.mpr hrule.limit, not_le.mpr hrule.windowSeconds⟩),
    if_neg (not_le.mpr hrule.burstLimit)]

theorem consumeStep_limiter {m m' : RateLimited} {output : List Consumed} (hrule : ValidRule rule)
    (hexpires : Lives expires) (hstored : Stored rule m.keys m.clock) (hnonneg : 0 ≤ m.clock)
    (h : ConsumeSteps expires rule m now output m') :
    m.clock ≤ now ∧ m'.clock = now ∧ Stored rule m'.keys now ∧
      limiterOf m'.keys = ((limiterOf m.keys).consume rule now).1 ∧
      output = [⟨now, if ((limiterOf m.keys).consume rule now).2.allowed then .ok () else
        .error (.exceeded ((limiterOf m.keys).consume rule now).2.count
          ((limiterOf m.keys).consume rule now).2.retryAfterSeconds)⟩] := by
  unfold ConsumeSteps consumeStep at h
  split at h
  · rename_i hnow
    obtain ⟨hlimiter, hresult, hstored'⟩ :=
      rateLimitScript_refines hrule hexpires hstored hnow (hnonneg.trans hnow)
    rw [consume_eq hrule] at h
    generalize rateLimitScript expires m.keys now rule.windowMs rule.limit rule.burstLimit
      rule.refillPerMs 1 = called at h hlimiter hresult hstored'
    obtain ⟨keys, result⟩ := called
    cases h
    cases hresult
    exact ⟨hnow, rfl, hstored', hlimiter, rfl⟩
  · cases h

theorem Limiter.consume_cases (rule : RateLimitRule) (l : Limiter) (now : ℚ) :
    (((l.consume rule now).2.allowed = false ∧
      ((l.consume rule now).1 = ⟨recent l.log (now - rule.windowMs), l.bucket⟩ ∨
        (l.consume rule now).1 =
          ⟨recent l.log (now - rule.windowMs), some (l.level rule now, now)⟩)) ∨
      (l.consume rule now).2.allowed = true ∧
        (recent l.log (now - rule.windowMs)).length < rule.limit ∧ 1 ≤ l.level rule now ∧
        (l.consume rule now).1 =
          ⟨(recent l.log (now - rule.windowMs)).orderedInsert (· ≤ ·) now,
            some (l.level rule now - 1, now)⟩) := by
  unfold Limiter.consume
  simp only
  split
  · exact .inl ⟨rfl, .inl rfl⟩
  · rename_i hlimit
    split
    · exact .inl ⟨rfl, .inr rfl⟩
    · rename_i htokens
      exact .inr ⟨rfl, not_le.mp hlimit, not_lt.mp htokens, rfl⟩

/-- A call that is denied leaves the slots and the tokens of every later time. -/
theorem Stored.denied (hrule : ValidRule rule) (h : Stored rule keys clock) (hnow : clock ≤ now)
    (hdenied : ((limiterOf keys).consume rule now).2.allowed = false) (later : ℚ)
    (hlater : now ≤ later) :
    recent ((limiterOf keys).consume rule now).1.log (later - rule.windowMs) =
        recent (limiterOf keys).log (later - rule.windowMs) ∧
      ((limiterOf keys).consume rule now).1.level rule later =
        (limiterOf keys).level rule later := by
  have hsince : now - rule.windowMs ≤ later - rule.windowMs := by linarith
  have hlevel : refill rule.burstLimit rule.refillPerMs ((limiterOf keys).level rule now)
      (later - now) = (limiterOf keys).level rule later := by
    rw [h.level_later hrule hnow, h.level_later hrule (hnow.trans hlater),
      refill_refill hrule.refillPerMs_pos.le (sub_nonneg.mpr hlater)]
    congr 1
    ring
  rcases Limiter.consume_cases rule (limiterOf keys) now with
    ⟨_, heq | heq⟩ | ⟨hallowed, _⟩
  · rw [heq]
    exact ⟨recent_recent _ hsince, rfl⟩
  · rw [heq]
    exact ⟨recent_recent _ hsince, hlevel⟩
  · rw [hdenied] at hallowed
    cases hallowed

theorem allowedTimes_append (events : List Consumed) (event : Consumed) :
    allowedTimes (events ++ [event]) =
      allowedTimes events ++ if event.result.isOk then [event.time] else [] := by
  unfold allowedTimes
  rw [List.filter_append, List.map_append]
  congr 1
  cases hok : event.result.isOk <;> simp [hok]

theorem Follows.step {events output : List Consumed} {m m' : RateLimited} (hrule : ValidRule rule)
    (hexpires : Lives expires) (hm : Follows rule (allowedTimes events) m)
    (h : ConsumeSteps expires rule m now output m') :
    Follows rule (allowedTimes (events ++ output)) m' := by
  obtain ⟨hnow, hclock, hstored, hlimiter, rfl⟩ :=
    consumeStep_limiter hrule hexpires hm.stored hm.nonneg h
  have hlater := hm.stored.level_later hrule hnow
  have hwaited : Spent rule.burstLimit rule.refillPerMs (allowedTimes events)
      ((limiterOf m.keys).level rule now) now := hlater ▸ hm.spent.wait hnow
  have hrecent : ∀ later, now ≤ later →
      recent (recent (limiterOf m.keys).log (now - rule.windowMs)) (later - rule.windowMs) =
        recent (limiterOf m.keys).log (later - rule.windowMs) :=
    fun later hle => recent_recent _ (by linarith)
  rcases Limiter.consume_cases rule (limiterOf m.keys) now with
    ⟨hdenied, _⟩ | ⟨hallowed, hlimit, htokens, heq⟩
  · -- denied: no slot and no token is taken
    have hkept := fun later hle => hm.stored.denied hrule hnow hdenied later hle
    have htimes : allowedTimes (events ++ [⟨now, if ((limiterOf m.keys).consume rule now).2.allowed
        then .ok () else .error (.exceeded ((limiterOf m.keys).consume rule now).2.count
          ((limiterOf m.keys).consume rule now).2.retryAfterSeconds)⟩]) =
        allowedTimes events := by
      rw [allowedTimes_append, hdenied]
      exact List.append_nil _
    rw [htimes]
    refine ⟨hclock ▸ hstored, hclock ▸ hm.nonneg.trans hnow, ?_, hm.admitted, ?_⟩
    · intro later hle
      rw [hclock] at hle
      rw [hlimiter, (hkept later hle).1]
      exact hm.window later (hnow.trans hle)
    · rw [hclock, hlimiter, (hkept now (le_refl _)).2]
      exact hwaited
  · have htimes : allowedTimes (events ++ [⟨now, if ((limiterOf m.keys).consume rule now).2.allowed
        then .ok () else .error (.exceeded ((limiterOf m.keys).consume rule now).2.count
          ((limiterOf m.keys).consume rule now).2.retryAfterSeconds)⟩]) =
        allowedTimes events ++ [now] := by
      rw [allowedTimes_append, hallowed]
      rfl
    rw [htimes]
    refine ⟨hclock ▸ hstored, hclock ▸ hm.nonneg.trans hnow, ?_, ?_, ?_⟩
    · intro later hle
      rw [hclock] at hle
      rw [hlimiter, heq, recent_append]
      have hinsert : (recent ((recent (limiterOf m.keys).log (now - rule.windowMs)).orderedInsert
          (· ≤ ·) now) (later - rule.windowMs)).Perm
          (recent (now :: recent (limiterOf m.keys).log (now - rule.windowMs))
            (later - rule.windowMs)) :=
        (List.perm_orderedInsert _ _ _).filter _
      have hcons : recent (now :: recent (limiterOf m.keys).log (now - rule.windowMs))
          (later - rule.windowMs) = recent [now] (later - rule.windowMs) ++
            recent (limiterOf m.keys).log (later - rule.windowMs) := by
        rw [← List.singleton_append, recent_append, hrecent later hle]
      rw [hcons] at hinsert
      exact hinsert.trans (List.perm_append_comm.trans
        ((hm.window later (hnow.trans hle)).append_right _))
    · refine hm.admitted.append (fun time htime => ?_) ?_
      · exact (hm.spent.last time htime).trans hnow
      · rw [← (hm.window now hnow).length_eq]
        exact hlimit
    · rw [hclock, hlimiter, heq]
      have hspent := hwaited.spend htokens
      have hlevel : Limiter.level rule ⟨(recent (limiterOf m.keys).log
          (now - rule.windowMs)).orderedInsert (· ≤ ·) now,
            some ((limiterOf m.keys).level rule now - 1, now)⟩ now =
          (limiterOf m.keys).level rule now - 1 := by
        show refill rule.burstLimit rule.refillPerMs _ (now - now) = _
        rw [sub_self, refill_zero hspent.le_capacity]
      rw [hlevel]
      exact hspent

theorem unlimited_stored (rule : RateLimitRule) :
    Stored rule unlimited.keys unlimited.clock where
  scores := fun _ hkey => by cases hkey
  bucket := .inl ⟨rfl, rfl⟩

theorem unlimited_follows (rule : RateLimitRule) : Follows rule [] unlimited where
  stored := unlimited_stored rule
  nonneg := le_refl _
  window := fun _ _ => .refl _
  admitted := .nil
  spent := .full _

theorem run_follows {events : List Consumed} {m : RateLimited} {times : List ℚ}
    (hrule : ValidRule rule) (hexpires : Lives expires)
    (h : Run (ConsumeSteps expires rule) unlimited times events m) :
    Follows rule (allowedTimes events) m := by
  induction h with
  | refl => exact unlimited_follows rule
  | tail _ hs ih => exact ih.step hrule hexpires hs

/-- Two ways to expire that both let keys live lead through the same decisions. -/
theorem run_same {events : List Consumed} {m : RateLimited} {times : List ℚ}
    {expires' : ℚ → ℚ → Option ℚ} (hrule : ValidRule rule) (hexpires : Lives expires)
    (hexpires' : Lives expires') (h : Run (ConsumeSteps expires rule) unlimited times events m) :
    ∃ m', Run (ConsumeSteps expires' rule) unlimited times events m' ∧ m'.clock = m.clock ∧
      limiterOf m'.keys = limiterOf m.keys := by
  induction h with
  | refl => exact ⟨_, .refl _, rfl, rfl⟩
  | @tail t u is os now output hrun hs ih =>
    obtain ⟨t', hrun', hclock, hlimiter⟩ := ih
    have ht := run_follows hrule hexpires hrun
    have ht' := run_follows hrule hexpires' hrun'
    obtain ⟨hnow, huclock, _, hu, hout⟩ :=
      consumeStep_limiter hrule hexpires ht.stored ht.nonneg hs
    obtain ⟨⟨u', output'⟩, hs'⟩ : ∃ next, consumeStep expires' rule t' now = some next := by
      unfold consumeStep
      rw [if_pos (hclock ▸ hnow)]
      exact ⟨_, rfl⟩
    obtain ⟨_, huclock', _, hu', hout'⟩ :=
      consumeStep_limiter hrule hexpires' ht'.stored ht'.nonneg hs'
    rw [hlimiter] at hu' hout'
    refine ⟨u', ?_, huclock'.trans huclock.symm, hu'.trans hu.symm⟩
    rw [hout, ← hout']
    exact hrun'.tail hs'

/-- Of the calls that are allowed no more than the limit are in a window, and no more than the burst
and what the rate brings are in any interval; the tokens that are stored are between none and the
burst; a call that is denied takes neither a slot nor a token; and keys that expire decide as keys
that do not. -/
theorem consume_bounds (rule : RateLimitRule) (hlimit : 0 < rule.limit)
    (hwindow : 0 < rule.windowSeconds) (hburst : 0 < rule.burstLimit) : ∀ times events m,
      Run (ConsumeSteps expiresAfter rule) unlimited times events m →
      (∀ start,
        (allowedTimes events).countP (fun time =>
          start ≤ time ∧ time < start + rule.windowMs) ≤ rule.limit ∧
        (allowedTimes events).countP (fun time =>
          start < time ∧ time ≤ start + rule.windowMs) ≤ rule.limit) ∧
      (∀ start t, 0 ≤ t →
        ((allowedTimes events).countP (fun time => start ≤ time ∧ time ≤ start + t) : ℚ) ≤
          rule.burstLimit + t * (rule.limit / rule.windowMs)) ∧
      (∀ key, m.keys.bucketTokens = some key → 0 ≤ key.value ∧ key.value ≤ rule.burstLimit) ∧
      (∀ now error m', ConsumeSteps expiresAfter rule m now [⟨now, .error error⟩] m' →
        ∀ later, now ≤ later →
          windowAt rule m'.keys later = windowAt rule m.keys later ∧
          tokensAt rule m'.keys later = tokensAt rule m.keys later) ∧
      ∃ m', Run (ConsumeSteps neverExpires rule) unlimited times events m' := by
  intro times events m hrun
  have hrule : ValidRule rule := ⟨hlimit, hwindow, hburst⟩
  have hm := run_follows hrule expiresAfter_lives hrun
  refine ⟨fun start => ⟨hm.admitted.within start, hm.admitted.within' start⟩, ?_, ?_, ?_, ?_⟩
  · intro start t ht
    have hbound := hm.spent.between hburst.le hrule.refillPerMs_pos.le
      (le_add_of_nonneg_right ht : start ≤ start + t)
    rwa [add_sub_cancel_left] at hbound
  · intro key hkey
    rcases hm.stored.bucket with ⟨hnone, _⟩ | ⟨tokens, _, _, htokens, _, hnonneg, hle, _⟩
    · cases hnone.symm.trans hkey
    · cases htokens.symm.trans hkey
      exact ⟨hnonneg, hle⟩
  · intro now error m' hstep later hlater
    obtain ⟨hnow, _, hstored, hlimiter, hout⟩ :=
      consumeStep_limiter hrule expiresAfter_lives hm.stored hm.nonneg hstep
    have hdenied : ((limiterOf m.keys).consume rule now).2.allowed = false := by
      cases hallowed : ((limiterOf m.keys).consume rule now).2.allowed with
      | false => rfl
      | true =>
        rw [hallowed] at hout
        cases hout
    have hle := hnow.trans hlater
    obtain ⟨hlog, hlevel⟩ := hm.stored.denied hrule hnow hdenied later hlater
    rw [hstored.windowAt_eq, hm.stored.windowAt_eq, hstored.tokensAt_eq hrule hlater,
      hm.stored.tokensAt_eq hrule hle, hlimiter]
    exact ⟨hlog, hlevel⟩
  · obtain ⟨m', hrun', _⟩ := run_same hrule expiresAfter_lives neverExpires_lives hrun
    exact ⟨m', hrun'⟩

/-- Two calls a second, with a burst of two. -/
def twoPerSecond : RateLimitRule := ⟨2, 1, 2⟩

/-- Three calls at once, and one a second later: the third is denied. -/
theorem twoPerSecond_consume : ∃ m events,
    Run (ConsumeSteps expiresAfter twoPerSecond) unlimited [5000, 5000, 5000, 6000] events m ∧
      allowedTimes events = [5000, 5000, 6000] ∧
      (allowedTimes events).countP (fun time => 5000 ≤ time ∧ time < 5000 + twoPerSecond.windowMs) ≤
        2 := by
  obtain ⟨⟨m, events⟩, hplay, htest⟩ := (Option.any_eq_true _ _).mp (by decide +kernel :
    ((Trace.play (consumeStep expiresAfter twoPerSecond) unlimited [5000, 5000, 5000, 6000]).any
      fun last => allowedTimes last.2 = [5000, 5000, 6000]) = true)
  have hrun := Trace.play_run hplay
  have hbounds := consume_bounds twoPerSecond (by decide) (by decide +kernel)
    (by decide +kernel) _ _ m hrun
  exact ⟨m, events, hrun, of_decide_eq_true htest, (hbounds.1 5000).1⟩

end Calls

end Rules
end LivePoly
