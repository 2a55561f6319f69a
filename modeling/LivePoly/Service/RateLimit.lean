import Mathlib.Data.Rat.Floor
import Mathlib.Data.List.Sort

/-!
# Service.RateLimit

`RateLimitService.consume` and its script, with the three Redis keys of one scope and identifier and
the time at which each expires. One clock dates calls and keys, in milliseconds, and arithmetic is
exact. How long a key lives is a parameter, so that the same script runs on keys that never expire.
-/

namespace LivePoly
namespace Service

/-! ## Redis keys -/

/-- A value in Redis and when it expires, if it does. -/
structure RedisKey (α : Type) where
  value : α
  expiresAt : Option ℚ
  deriving DecidableEq

namespace Redis

variable {α : Type}

/-- What a command at a time finds: a key that has expired is gone. -/
def live (now : ℚ) (key : Option (RedisKey α)) : Option (RedisKey α) :=
  key.filter fun key => key.expiresAt.all (now ≤ ·)

def get (now : ℚ) (key : Option (RedisKey α)) : Option α := (live now key).map RedisKey.value

/-- `PEXPIRE`, with the time at which the key expires from now on -/
def pexpire (expiresAt : Option ℚ) (key : Option (RedisKey α)) : Option (RedisKey α) :=
  key.map fun key => { key with expiresAt }

/-- The scores of a sorted set, in order. A set without members is no key. -/
def scores (key : Option (RedisKey (List ℚ))) : List ℚ := (key.map RedisKey.value).getD []

def zremrangebyscore (key : Option (RedisKey (List ℚ))) (min max : ℚ) :
    Option (RedisKey (List ℚ)) :=
  (key.map fun key =>
    { key with value := key.value.filter fun score => ¬ (min ≤ score ∧ score ≤ max) }).filter
      fun key => key.value ≠ []

/-- `ZADD` of a new member -/
def zadd (key : Option (RedisKey (List ℚ))) (score : ℚ) : Option (RedisKey (List ℚ)) :=
  some ⟨(scores key).orderedInsert (· ≤ ·) score, key.bind RedisKey.expiresAt⟩

end Redis

structure RateLimitKeys where
  slidingWindow : Option (RedisKey (List ℚ))
  bucketTokens : Option (RedisKey ℚ)
  bucketTimestamp : Option (RedisKey ℚ)
  deriving DecidableEq

structure RateLimitResult where
  allowed : Bool
  count : Nat
  retryAfterSeconds : Int
  deriving DecidableEq

/-- `RATE_LIMIT_SCRIPT`. `expires now ttl` is when a key expires whose time to live is set. -/
def rateLimitScript (expires : ℚ → ℚ → Option ℚ) (keys : RateLimitKeys) (now windowMs : ℚ)
    (limit : Nat) (capacity refillPerMs cost : ℚ) : RateLimitKeys × RateLimitResult :=
  let sliding := Redis.zremrangebyscore (Redis.live now keys.slidingWindow) 0 (now - windowMs)
  let slidingCount := (Redis.scores sliding).length
  if limit ≤ slidingCount then
    let retryAfterMs :=
      match (Redis.scores sliding).head? with
      | some oldest => max 0 (oldest + windowMs - now)
      | none => windowMs
    ({ keys with slidingWindow := Redis.pexpire (expires now windowMs) sliding },
      ⟨false, slidingCount, ⌈retryAfterMs / 1000⌉⟩)
  else
    let tokens := (Redis.get now keys.bucketTokens).getD capacity
    let lastRefill := (Redis.get now keys.bucketTimestamp).getD now
    let elapsedMs := max 0 (now - lastRefill)
    let tokens := min capacity (tokens + elapsedMs * refillPerMs)
    let bucketTtlMs := max windowMs ⌈capacity / refillPerMs * 2⌉
    if tokens < cost then
      let missingTokens := cost - tokens
      let retryAfterMs : ℚ := ⌈missingTokens / refillPerMs⌉
      ({ slidingWindow := Redis.pexpire (expires now windowMs) sliding
         bucketTokens := some ⟨tokens, expires now bucketTtlMs⟩
         bucketTimestamp := some ⟨now, expires now bucketTtlMs⟩ },
        ⟨false, slidingCount, ⌈retryAfterMs / 1000⌉⟩)
    else
      ({ slidingWindow := Redis.pexpire (expires now windowMs) (Redis.zadd sliding now)
         bucketTokens := some ⟨tokens - cost, expires now bucketTtlMs⟩
         bucketTimestamp := some ⟨now, expires now bucketTtlMs⟩ },
        ⟨true, slidingCount + 1, 0⟩)

/-! ## Calls -/

structure RateLimitRule where
  limit : Nat
  windowSeconds : ℚ
  burstLimit : ℚ
  deriving DecidableEq

namespace RateLimitRule

def windowMs (rule : RateLimitRule) : ℚ := rule.windowSeconds * 1000

def refillPerMs (rule : RateLimitRule) : ℚ := rule.limit / rule.windowMs

end RateLimitRule

inductive RateLimitError where
  | invalidConfiguration | invalidBurstConfiguration
  /-- `RateLimitException` -/
  | exceeded (count : Nat) (retryAfterSeconds : Int)
  deriving DecidableEq

/-- `consume` at a time: the keys after it, and the error it throws if it does. -/
def RateLimitService.consume (expires : ℚ → ℚ → Option ℚ) (rule : RateLimitRule)
    (keys : RateLimitKeys) (now : ℚ) : RateLimitKeys × Except RateLimitError Unit :=
  if rule.limit ≤ 0 ∨ rule.windowSeconds ≤ 0 then (keys, .error .invalidConfiguration)
  else if rule.burstLimit ≤ 0 then (keys, .error .invalidBurstConfiguration)
  else
    let (keys, result) := rateLimitScript expires keys now rule.windowMs rule.limit rule.burstLimit
      rule.refillPerMs 1
    (keys, if result.allowed then .ok () else
      .error (.exceeded result.count result.retryAfterSeconds))

/-- The keys and the clock of Redis. -/
structure RateLimited where
  clock : ℚ
  keys : RateLimitKeys
  deriving DecidableEq

/-- A call and how it ended. -/
structure Consumed where
  time : ℚ
  result : Except RateLimitError Unit

/-- Calls come at times that do not go back. -/
def consumeStep (expires : ℚ → ℚ → Option ℚ) (rule : RateLimitRule) (m : RateLimited) (now : ℚ) :
    Option (RateLimited × List Consumed) :=
  if m.clock ≤ now then
    let (keys, result) := RateLimitService.consume expires rule m.keys now
    some (⟨now, keys⟩, [⟨now, result⟩])
  else none

/-- The step relation of the calls. -/
def ConsumeSteps (expires : ℚ → ℚ → Option ℚ) (rule : RateLimitRule) (m : RateLimited) (now : ℚ)
    (output : List Consumed) (m' : RateLimited) : Prop :=
  consumeStep expires rule m now = some (m', output)

/-- `PX` and `PEXPIRE`: a key is there until the time to live has passed. -/
def expiresAfter (now ttl : ℚ) : Option ℚ := some (now + ttl)

/-- Keys that do not expire. -/
def neverExpires (_ _ : ℚ) : Option ℚ := none

end Service
end LivePoly
