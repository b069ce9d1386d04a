import JobRadar.AuthModel
import JobRadar.FixedWindow
import JobRadar.RateLimit
import JobRadar.Sequence
import Std.Data.String.ToNat

namespace JobRadar

open FixedWindow Python Sequence

/-- A key of Redis that holds a counter, and the instant from which on Redis may remove it. -/
structure RedisCounter where
  count : Nat
  deadline : Option Time

abbrev RedisKeys := Text → Option RedisCounter

namespace RedisKeys

variable (r : RedisKeys)

def value (key : Text) : Nat := (r key).elim 0 RedisCounter.count

/-- `INCR`, which leaves the deadline alone. -/
def incr (key : Text) : RedisKeys :=
  Function.update r key (some ⟨r.value key + 1, (r key).bind RedisCounter.deadline⟩)

def expire (now : Time) (key : Text) (seconds : Nat) : RedisKeys :=
  Function.update r key ((r key).map fun counter =>
    { counter with deadline := some (now + seconds * 1000000) })

/-- Redis removes some of the keys whose deadline has passed. -/
def sweep (now : Time) (stale : Text → Bool) : RedisKeys := fun key =>
  (r key).filter fun counter => !(stale key && counter.deadline.any (· ≤ now))

end RedisKeys

/-- `int(time.time())`. -/
def unixSeconds (now : Time) : Nat := now / 1000000

def windowBucket (windowSeconds : Nat) (now : Time) : Nat := unixSeconds now / windowSeconds

/-- `RateLimiter.check` over counters that expire. -/
def RateLimiter.checkAt (r : RedisKeys) (now : Time) (key : Text) (limit windowSeconds : Nat) :
    RedisKeys × RateLimitResult :=
  let key := redisKey key (windowBucket windowSeconds now)
  let r := r.incr key
  let count := r.value key
  (if count = 1 then r.expire now key windowSeconds else r,
    .of (unixSeconds now) limit windowSeconds count)

/-- A check for the key, and which of the keys that may go have gone before it. -/
structure CheckCall where
  now : Time
  stale : Text → Bool

section Checks

variable (key : Text) (limit windowSeconds : Nat)

def checkStep (r : RedisKeys) (c : CheckCall) : RedisKeys :=
  (RateLimiter.checkAt (r.sweep c.now c.stale) c.now key limit windowSeconds).1

def checkResult (c : Call CheckCall RedisKeys) : RateLimitResult :=
  (RateLimiter.checkAt (c.before.sweep c.call.now c.call.stale) c.call.now key limit
    windowSeconds).2

def hits (calls : List (Call CheckCall RedisKeys)) (bucket : Nat) : Nat :=
  calls.countP fun c => windowBucket windowSeconds c.call.now = bucket

/-- The counter is there before the call, and gone when it comes. -/
def Expires (c : Call CheckCall RedisKeys) (bucket : Nat) : Prop :=
  (c.before (redisKey key bucket)).isSome ∧
    c.before.sweep c.call.now c.call.stale (redisKey key bucket) = none

/-- What the limiter promises of checks for a key, the latest first: the first `limit` ones of a
bucket are let through and told how many are left, no interval as long as the window sees more than
two limits, and no counter goes before its bucket ends. -/
structure LimiterKept (calls : List (Call CheckCall RedisKeys)) : Prop where
  verdict : ∀ later c earlier, calls = later ++ c :: earlier →
    let count := hits windowSeconds earlier (windowBucket windowSeconds c.call.now) + 1
    (checkResult key limit windowSeconds c).allowed = decide (count ≤ limit) ∧
      (checkResult key limit windowSeconds c).remaining = limit - count
  interval : ∀ start, (calls.countP fun c =>
    start ≤ c.call.now ∧ c.call.now ≤ start + windowSeconds * 1000000 ∧
      (checkResult key limit windowSeconds c).allowed = true) ≤ 2 * limit
  expiry : ∀ c ∈ calls, ∀ bucket, Expires key c bucket →
    (bucket + 1) * windowSeconds * 1000000 ≤ c.call.now

/-- The counters of the buckets that are not over show their calls, and no counter may go before its
bucket ends. -/
structure Tracks (calls : List (Call CheckCall RedisKeys)) (now : Time) (r : RedisKeys) : Prop where
  count : ∀ bucket, now < (bucket + 1) * windowSeconds * 1000000 →
    r.value (redisKey key bucket) = hits windowSeconds calls bucket
  deadline : ∀ bucket counter, r (redisKey key bucket) = some counter →
    ∃ deadline, counter.deadline = some deadline ∧
      (bucket + 1) * windowSeconds * 1000000 ≤ deadline

end Checks

section Buckets

variable {windowSeconds now start : Nat}

theorem redisKey_bucket_injective {key : Text} {b b' : Nat} (h : redisKey key b = redisKey key b') :
    b = b' := by
  have htext : text (toString b) = text (toString b') := by simpa [redisKey] using h
  have hlist : (toString b).toList = (toString b').toList :=
    List.map_injective_iff.mpr (fun c d hcd => Char.toNat_inj.mp hcd) htext
  exact Nat.repr_inj.mp (String.toList_inj.mp hlist)

theorem windowBucket_le (windowSeconds now : Nat) :
    windowBucket windowSeconds now * windowSeconds * 1000000 ≤ now := by
  have hseconds := Nat.div_mul_le_self (unixSeconds now) windowSeconds
  have hnow := Nat.div_mul_le_self now 1000000
  calc windowBucket windowSeconds now * windowSeconds * 1000000
      ≤ unixSeconds now * 1000000 := Nat.mul_le_mul_right _ hseconds
    _ ≤ now := hnow

theorem lt_windowBucket (hwindow : 1 ≤ windowSeconds) :
    now < (windowBucket windowSeconds now + 1) * windowSeconds * 1000000 := by
  have hseconds : unixSeconds now < (windowBucket windowSeconds now + 1) * windowSeconds := by
    rw [Nat.succ_mul]
    exact Nat.lt_div_mul_add hwindow
  have hnow : now < (unixSeconds now + 1) * 1000000 := by
    rw [Nat.succ_mul]
    exact Nat.lt_div_mul_add (by decide)
  exact Nat.lt_of_lt_of_le hnow (Nat.mul_le_mul_right _ hseconds)

theorem windowBucket_of_interval (hwindow : 1 ≤ windowSeconds) (hfrom : start ≤ now)
    (hto : now ≤ start + windowSeconds * 1000000) :
    windowBucket windowSeconds now = windowBucket windowSeconds start ∨
      windowBucket windowSeconds now = windowBucket windowSeconds start + 1 := by
  have hlow : windowBucket windowSeconds start ≤ windowBucket windowSeconds now :=
    Nat.div_le_div_right (Nat.div_le_div_right hfrom)
  have hnext : windowBucket windowSeconds (start + windowSeconds * 1000000) =
      windowBucket windowSeconds start + 1 := by
    unfold windowBucket unixSeconds
    rw [Nat.add_mul_div_right _ _ (by decide), Nat.add_div_right _ hwindow]
  have hhigh : windowBucket windowSeconds now ≤
      windowBucket windowSeconds (start + windowSeconds * 1000000) :=
    Nat.div_le_div_right (Nat.div_le_div_right hto)
  omega

end Buckets

section Run

variable {key : Text} {limit windowSeconds : Nat} {calls : List (Call CheckCall RedisKeys)}
  {now later : Time} {r r₀ s : RedisKeys} {c : CheckCall}

theorem tracks_start (hfresh : ∀ bucket, r₀ (redisKey key bucket) = none) :
    Tracks key windowSeconds [] now r₀ := by
  constructor
  · intro bucket _
    simp [RedisKeys.value, hfresh, hits]
  · intro bucket counter hcounter
    rw [hfresh] at hcounter
    cases hcounter

theorem Tracks.kept {bucket : Nat} {counter : RedisCounter}
    (h : Tracks key windowSeconds calls now r) (hcounter : r (redisKey key bucket) = some counter)
    (hopen : c.now < (bucket + 1) * windowSeconds * 1000000) :
    r.sweep c.now c.stale (redisKey key bucket) = some counter := by
  obtain ⟨deadline, hdeadline, hend⟩ := h.deadline bucket counter hcounter
  have hlate : ¬deadline ≤ c.now := Nat.not_le_of_lt (Nat.lt_of_lt_of_le hopen hend)
  simp [RedisKeys.sweep, hcounter, hdeadline, hlate]

theorem Tracks.sweep (h : Tracks key windowSeconds calls now r) (hnow : now ≤ c.now) :
    Tracks key windowSeconds calls c.now (r.sweep c.now c.stale) := by
  constructor
  · intro bucket hopen
    rw [← h.count bucket (Nat.lt_of_le_of_lt hnow hopen)]
    unfold RedisKeys.value
    cases hcounter : r (redisKey key bucket) with
    | none => simp [RedisKeys.sweep, hcounter]
    | some counter => rw [h.kept hcounter hopen]
  · intro bucket counter hcounter
    exact h.deadline bucket counter (Option.filter_eq_some_iff.mp hcounter).1

theorem checkAt_eq (r : RedisKeys) (now : Time) (key : Text) (limit windowSeconds : Nat) :
    RateLimiter.checkAt r now key limit windowSeconds =
      let key := redisKey key (windowBucket windowSeconds now)
      (Function.update r key (some ⟨r.value key + 1, if r.value key = 0 then
          some (now + windowSeconds * 1000000) else (r key).bind RedisCounter.deadline⟩),
        .of (unixSeconds now) limit windowSeconds (r.value key + 1)) := by
  unfold RateLimiter.checkAt
  generalize redisKey key (windowBucket windowSeconds now) = counter
  have hcount : (r.incr counter).value counter = r.value counter + 1 := by
    simp [RedisKeys.value, RedisKeys.incr]
  simp only [hcount, Nat.add_eq_right]
  split
  next hnew => simp [RedisKeys.expire, RedisKeys.incr]
  next => rfl

theorem checkAt_agrees {counters : Counters}
    (h : counters (redisKey key (windowBucket windowSeconds now)) =
      r.value (redisKey key (windowBucket windowSeconds now))) :
    RateLimiter.check counters .none (unixSeconds now) key limit windowSeconds =
      (Function.update counters (redisKey key (windowBucket windowSeconds now))
        ((RateLimiter.checkAt r now key limit windowSeconds).1.value
          (redisKey key (windowBucket windowSeconds now))),
        some (RateLimiter.checkAt r now key limit windowSeconds).2) := by
  unfold windowBucket at h
  rw [checkAt_eq]
  simp [RateLimiter.check, h, RedisKeys.value, windowBucket]

theorem Tracks.check (limit : Nat) (hwindow : 1 ≤ windowSeconds)
    (h : Tracks key windowSeconds calls c.now r) :
    Tracks key windowSeconds (⟨s, c⟩ :: calls) c.now
        (RateLimiter.checkAt r c.now key limit windowSeconds).1 ∧
      (RateLimiter.checkAt r c.now key limit windowSeconds).2 =
        .of (unixSeconds c.now) limit windowSeconds
          (hits windowSeconds calls (windowBucket windowSeconds c.now) + 1) := by
  have hvalue := h.count (windowBucket windowSeconds c.now) (lt_windowBucket hwindow)
  rw [checkAt_eq]
  dsimp only
  refine ⟨⟨?_, ?_⟩, by rw [hvalue]⟩
  · intro bucket hopen
    by_cases hbucket : bucket = windowBucket windowSeconds c.now
    · subst hbucket
      simp [RedisKeys.value, hits] at hvalue ⊢
      exact hvalue
    · have hkey : redisKey key bucket ≠ redisKey key (windowBucket windowSeconds c.now) :=
        fun he => hbucket (redisKey_bucket_injective he)
      have hsame := h.count bucket hopen
      simp only [RedisKeys.value, Function.update_of_ne hkey] at hsame ⊢
      rw [hsame, hits, hits, List.countP_cons_of_neg]
      simpa using fun he => hbucket he.symm
  · intro bucket counter hcounter
    by_cases hbucket : bucket = windowBucket windowSeconds c.now
    · subst hbucket
      rw [Function.update_self] at hcounter
      cases hcounter
      by_cases hnew : r.value (redisKey key (windowBucket windowSeconds c.now)) = 0
      · refine ⟨_, if_pos hnew, ?_⟩
        have hstart := windowBucket_le windowSeconds c.now
        rw [Nat.succ_mul, Nat.add_mul]
        exact Nat.add_le_add_right hstart _
      · obtain ⟨old, hold⟩ : ∃ old,
            r (redisKey key (windowBucket windowSeconds c.now)) = some old := by
          apply Option.ne_none_iff_exists'.mp
          intro hnone
          exact hnew (by rw [RedisKeys.value, hnone]; rfl)
        obtain ⟨deadline, hdeadline, hend⟩ := h.deadline _ old hold
        refine ⟨deadline, ?_, hend⟩
        simp [hnew, hold, hdeadline]
    · have hkey : redisKey key bucket ≠ redisKey key (windowBucket windowSeconds c.now) :=
        fun he => hbucket (redisKey_bucket_injective he)
      rw [Function.update_of_ne hkey] at hcounter
      exact h.deadline bucket counter hcounter

theorem run_tracks (hwindow : 1 ≤ windowSeconds)
    (hfresh : ∀ bucket, r₀ (redisKey key bucket) = none)
    (run : Run (checkStep key limit windowSeconds) r₀ calls s)
    (hordered : calls.Pairwise fun later earlier => earlier.call.now ≤ later.call.now)
    (hnow : ∀ c ∈ calls, c.call.now ≤ now) : Tracks key windowSeconds calls now s := by
  induction run generalizing now with
  | start => exact tracks_start hfresh
  | @next calls s c _ ih =>
    obtain ⟨hlast, hearlier⟩ := List.pairwise_cons.mp hordered
    have hbefore := (ih hearlier hlast).sweep (c := c) (Nat.le_refl _)
    have hafter := (hbefore.check (s := s) limit hwindow).1
    have hle : c.now ≤ now := hnow _ (List.mem_cons_self ..)
    exact ⟨fun bucket hopen => hafter.count bucket (Nat.lt_of_le_of_lt hle hopen), hafter.deadline⟩

theorem tracks_before (hwindow : 1 ≤ windowSeconds)
    (hfresh : ∀ bucket, r₀ (redisKey key bucket) = none)
    (run : Run (checkStep key limit windowSeconds) r₀ calls s)
    (hordered : calls.Pairwise fun later earlier => earlier.call.now ≤ later.call.now)
    {later earlier : List (Call CheckCall RedisKeys)} {c : Call CheckCall RedisKeys}
    (hcalls : calls = later ++ c :: earlier) :
    Tracks key windowSeconds earlier c.call.now c.before := by
  subst hcalls
  obtain ⟨hlast, hearlier⟩ := List.pairwise_cons.mp (List.pairwise_append.mp hordered).2.1
  exact run_tracks hwindow hfresh run.split.1 hearlier hlast

theorem verdict_of_tracks (hwindow : 1 ≤ windowSeconds) {earlier : List (Call CheckCall RedisKeys)}
    {c : Call CheckCall RedisKeys} (h : Tracks key windowSeconds earlier c.call.now c.before) :
    checkResult key limit windowSeconds c = .of (unixSeconds c.call.now) limit windowSeconds
      (hits windowSeconds earlier (windowBucket windowSeconds c.call.now) + 1) := by
  have hbefore := h.sweep (c := c.call) (Nat.le_refl _)
  exact (hbefore.check (s := c.before) limit hwindow).2

theorem interval_le (hwindow : 1 ≤ windowSeconds)
    (hbucket : ∀ bucket, (calls.countP fun c => windowBucket windowSeconds c.call.now = bucket ∧
      (checkResult key limit windowSeconds c).allowed = true) ≤ limit) (start : Time) :
    (calls.countP fun c => start ≤ c.call.now ∧ c.call.now ≤ start + windowSeconds * 1000000 ∧
      (checkResult key limit windowSeconds c).allowed = true) ≤ 2 * limit := by
  have htwo := countP_le_add calls
    (fun c => start ≤ c.call.now ∧ c.call.now ≤ start + windowSeconds * 1000000 ∧
      (checkResult key limit windowSeconds c).allowed = true)
    (fun c => windowBucket windowSeconds c.call.now = windowBucket windowSeconds start ∧
      (checkResult key limit windowSeconds c).allowed = true)
    (fun c => windowBucket windowSeconds c.call.now = windowBucket windowSeconds start + 1 ∧
      (checkResult key limit windowSeconds c).allowed = true)
    (by
      intro c _ hc
      obtain ⟨hfrom, hto, hallowed⟩ := of_decide_eq_true hc
      rcases windowBucket_of_interval hwindow hfrom hto with hb | hb
      · exact Or.inl (decide_eq_true ⟨hb, hallowed⟩)
      · exact Or.inr (decide_eq_true ⟨hb, hallowed⟩))
  have hfirst := hbucket (windowBucket windowSeconds start)
  have hsecond := hbucket (windowBucket windowSeconds start + 1)
  omega

/-- The limiter keeps its promises over any calls in the order of their times. -/
theorem limiter_kept (hwindow : 1 ≤ windowSeconds)
    (hfresh : ∀ bucket, r₀ (redisKey key bucket) = none)
    (run : Run (checkStep key limit windowSeconds) r₀ calls s)
    (hordered : calls.Pairwise fun later earlier => earlier.call.now ≤ later.call.now) :
    LimiterKept key limit windowSeconds calls := by
  have hverdict : ∀ later c earlier, calls = later ++ c :: earlier →
      checkResult key limit windowSeconds c = .of (unixSeconds c.call.now) limit windowSeconds
        (hits windowSeconds earlier (windowBucket windowSeconds c.call.now) + 1) :=
    fun _ _ _ hcalls => verdict_of_tracks hwindow (tracks_before hwindow hfresh run hordered hcalls)
  constructor
  · intro later c earlier hcalls
    rw [hverdict later c earlier hcalls]
    exact ⟨rfl, rfl⟩
  · apply interval_le hwindow
    intro bucket
    rw [countP_admitted calls limit]
    · exact Nat.min_le_right ..
    · intro later c earlier hcalls
      rw [hverdict later c earlier hcalls]
      exact decide_eq_true_iff
  · rintro c hc bucket ⟨hthere, hgone⟩
    obtain ⟨later, earlier, hcalls⟩ := List.append_of_mem hc
    obtain ⟨counter, hcounter⟩ := Option.isSome_iff_exists.mp hthere
    by_contra hopen
    have hkept := (tracks_before hwindow hfresh run hordered hcalls).kept (c := c.call) hcounter
      (Nat.lt_of_not_le hopen)
    rw [hgone] at hkept
    cases hkept

end Run

/-- Three checks at second 119, and from the next bucket on at the given seconds, for which Redis
keeps nothing longer than it must. -/
def borderChecks (seconds : List Nat) : List (Call CheckCall RedisKeys) × RedisKeys :=
  runAll (checkStep (text "ip:test") 2 60) [] (fun _ => none)
    (([119, 119, 119] ++ seconds).map fun second => ⟨second * 1000000, fun _ => true⟩)

/-- Four checks of a second and the next are let through, and the counters go in time. -/
theorem borderChecks_kept :
    ((borderChecks [120, 120, 120, 200]).1.map fun c =>
      ((checkResult (text "ip:test") 2 60 c).allowed,
        (checkResult (text "ip:test") 2 60 c).remaining)) =
      [(true, 1), (false, 0), (true, 0), (true, 1), (false, 0), (true, 0), (true, 1)] ∧
    (borderChecks [120, 120, 120, 200]).2 (redisKey (text "ip:test") 1) = none ∧
    LimiterKept (text "ip:test") 2 60 (borderChecks [120, 120, 120, 200]).1 := by
  refine ⟨by decide, by decide, ?_⟩
  exact limiter_kept (by decide) (fun _ => rfl) (run_runAll .start _) (by decide)

end JobRadar
