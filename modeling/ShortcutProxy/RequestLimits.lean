import Mathlib

/-!
# Quotas of the re-identification API

`RequestLimiter.allow` queues for each identity the moments of its allowed calls, drops those
that are a minute old, and counts the allowed calls of each UTC day. The queue and the counts
are compared with all the moments at which the identity was allowed. Moments are exact numbers,
and a UTC day is given by its number.
-/

namespace ShortcutProxy.RequestLimits

open List

structure LimitDecision where
  allowed : Bool
  reason : String

structure RequestLimiter where
  minute : String → List ℚ := fun _ => []
  day : String × Int → Nat := fun _ => 0

structure Call where
  identity : String
  moment : ℚ

/-- The UTC day of a moment. -/
def utcDay (moment : ℚ) : Int := (moment / 86400).floor

variable (perMinute perDay : Int)

/-- The moments of a queue that are less than a minute old. -/
def recent (moment : ℚ) (queue : List ℚ) : List ℚ :=
  queue.dropWhile fun earlier => earlier ≤ moment - 60

/-- `RequestLimiter.allow`. -/
def allow (limiter : RequestLimiter) (call : Call) : LimitDecision × RequestLimiter :=
  if perMinute < 1 ∨ perDay < 1 then
    (⟨false, "re-identification quota is not configured"⟩, limiter)
  else
    let queue := recent call.moment (limiter.minute call.identity)
    let swept := { limiter with minute := Function.update limiter.minute call.identity queue }
    let dayKey := (call.identity, utcDay call.moment)
    if perMinute ≤ queue.length then
      (⟨false, "re-identification minute quota exceeded"⟩, swept)
    else if perDay ≤ limiter.day dayKey then
      (⟨false, "re-identification daily quota exceeded"⟩, swept)
    else
      (⟨true, "allowed"⟩,
        { minute := Function.update limiter.minute call.identity (queue ++ [call.moment])
          day := Function.update limiter.day dayKey (limiter.day dayKey + 1) })

/-- The limiter after a call, and the moments at which each identity was allowed. -/
def step (state : RequestLimiter × (String → List ℚ)) (call : Call) :
    RequestLimiter × (String → List ℚ) :=
  let answer := allow perMinute perDay state.1 call
  (answer.2, if answer.1.allowed then
    Function.update state.2 call.identity (state.2 call.identity ++ [call.moment]) else state.2)

def run (calls : List Call) : RequestLimiter × (String → List ℚ) :=
  calls.foldl (step perMinute perDay) ({}, fun _ => [])

/-- The moments of a window lie less than a minute apart. -/
def Close (window : ℚ → Bool) : Prop :=
  ∀ first last, window first = true → window last = true → last < first + 60

/-- The queue of an identity holds the allowed moments after some moment a minute ago, its
counts are those of the days, and neither quota is exceeded. -/
structure Tracks (clock : ℚ) (queue allowed : List ℚ) (count : Int → Nat) : Prop where
  ascending : (allowed ++ [clock]).Pairwise (· ≤ ·)
  queued : ∃ cut ≤ clock - 60, queue = allowed.filter (cut < ·)
  counted : ∀ day, count day = allowed.countP fun moment => utcDay moment = day
  minutes : ∀ window, Close window → (allowed.countP window : Int) ≤ perMinute
  days : ∀ day, (count day : Int) ≤ perDay

variable {perMinute perDay} {clock : ℚ} {queue allowed : List ℚ} {count : Int → Nat}

theorem dropWhile_le_eq_filter {items : List ℚ} (ascending : items.Pairwise (· ≤ ·)) (bound : ℚ) :
    (items.dropWhile fun item => item ≤ bound) = items.filter (bound < ·) := by
  induction items with
  | nil => rfl
  | cons item rest ih =>
    rw [pairwise_cons] at ascending
    by_cases below : item ≤ bound
    · rw [dropWhile_cons_of_pos (by simpa using below), ih ascending.2,
        filter_cons_of_neg (by simpa using below)]
    · rw [dropWhile_cons_of_neg (by simpa using below), eq_comm, filter_eq_self]
      have above := lt_of_not_ge below
      simpa using ⟨above, fun other later => above.trans_le (ascending.1 other later)⟩

section

variable (tracks : Tracks perMinute perDay clock queue allowed count)
include tracks

/-- The clock goes on. -/
theorem Tracks.later {next : ℚ} (order : clock ≤ next) :
    Tracks perMinute perDay next queue allowed count := by
  obtain ⟨cut, old, shape⟩ := tracks.queued
  refine { tracks with ascending := ?_, queued := ⟨cut, by linarith, shape⟩ }
  have ascending := tracks.ascending
  simp only [pairwise_append, mem_singleton, forall_eq] at ascending ⊢
  exact ⟨ascending.1, pairwise_singleton _ _,
    fun item member => (ascending.2.2 item member).trans order⟩

/-- The sweep leaves the allowed moments of the last minute. -/
theorem Tracks.recent : recent clock queue = allowed.filter (clock - 60 < ·) := by
  obtain ⟨cut, old, rfl⟩ := tracks.queued
  have ascending := (pairwise_append.mp tracks.ascending).1
  rw [RequestLimits.recent, dropWhile_le_eq_filter (ascending.filter _), filter_filter]
  refine filter_congr fun item _ => ?_
  by_cases after : clock - 60 < item
  · simp [after, old.trans_lt after]
  · simp [after]

theorem Tracks.swept : Tracks perMinute perDay clock (RequestLimits.recent clock queue) allowed count :=
  { tracks with queued := ⟨clock - 60, le_rfl, tracks.recent⟩ }

/-- An allowed call is within both quotas. -/
theorem Tracks.added (room : (RequestLimits.recent clock queue).length < perMinute)
    (left : count (utcDay clock) < perDay) :
    Tracks perMinute perDay clock (RequestLimits.recent clock queue ++ [clock]) (allowed ++ [clock])
      fun day => if day = utcDay clock then count (utcDay clock) + 1 else count day where
  ascending := by
    refine pairwise_append.mpr
      ⟨tracks.ascending, pairwise_singleton _ _, fun item member last same => ?_⟩
    obtain rfl : last = clock := by simpa using same
    rcases mem_append.mp member with member | member
    · exact (pairwise_append.mp tracks.ascending).2.2 _ member _ same
    · exact (mem_singleton.mp member).le
  queued := ⟨clock - 60, le_rfl, by simp [tracks.recent]⟩
  counted day := by
    have counted := tracks.counted day
    by_cases own : day = utcDay clock
    · subst own
      simp [counted]
    · simp [counted, own, Ne.symm own]
  minutes window close := by
    rw [tracks.recent, ← countP_eq_length_filter] at room
    rw [countP_append, countP_singleton]
    split
    · next inside =>
      have fewer : allowed.countP window ≤ allowed.countP (clock - 60 < ·) := by
        refine countP_mono_left fun moment _ counts => ?_
        have near := close _ _ counts inside
        simp only [decide_eq_true_eq]
        linarith
      push_cast
      omega
    · simpa using tracks.minutes window close
  days day := by
    have days := tracks.days day
    by_cases own : day = utcDay clock
    · subst own
      simp
      omega
    · simpa [own] using days

end

section

variable (positive : 1 ≤ perMinute) (daily : 1 ≤ perDay)
include positive daily

/-- A call keeps the account of every identity. -/
theorem step_tracks {state : RequestLimiter × (String → List ℚ)} {call : Call} {identity : String}
    (before : Tracks perMinute perDay call.moment (state.1.minute identity) (state.2 identity)
      fun day => state.1.day (identity, day)) :
    Tracks perMinute perDay call.moment ((step perMinute perDay state call).1.minute identity)
      ((step perMinute perDay state call).2 identity)
      fun day => (step perMinute perDay state call).1.day (identity, day) := by
  have configured : ¬(perMinute < 1 ∨ perDay < 1) := by omega
  by_cases own : identity = call.identity
  · subst own
    simp only [step, allow, if_neg configured]
    split
    · simpa using before.swept
    split
    · simpa using before.swept
    · next room left =>
      simpa [Function.update_apply] using before.added (by omega) (by omega)
  · simp only [step, allow, if_neg configured]
    split
    · simpa [own] using before
    split
    · simpa [own] using before
    · simpa [own] using before

theorem run_tracks {calls : List Call} (ordered : calls.Pairwise (·.moment ≤ ·.moment))
    (past : ∀ call ∈ calls, call.moment ≤ clock) (identity : String) :
    Tracks perMinute perDay clock ((run perMinute perDay calls).1.minute identity)
      ((run perMinute perDay calls).2 identity)
      fun day => (run perMinute perDay calls).1.day (identity, day) := by
  -- The calls are taken from the end: the clock before the last one is its moment.
  induction calls using List.reverseRecOn generalizing clock with
  | nil =>
    exact
      { ascending := pairwise_singleton _ _
        queued := ⟨_, le_rfl, rfl⟩
        counted := fun _ => rfl
        minutes := fun _ _ => by simp [run]; omega
        days := fun _ => by simp [run]; omega }
  | append_singleton earlier call ih =>
    rw [pairwise_append] at ordered
    have tracks := ih ordered.1 fun other member => ordered.2.2 other member call (by simp)
    rw [show run perMinute perDay (earlier ++ [call]) =
      step perMinute perDay (run perMinute perDay earlier) call from foldl_append ..]
    exact (step_tracks positive daily tracks).later (past call (by simp))

/-- In any calls with non-decreasing moments an identity is allowed at most `per_minute` times in
each half-open interval of sixty seconds and at most `per_day` times on each UTC day, and a call
is denied only when the allowed ones of the last minute or of its day fill a quota. -/
theorem quotas_exact (calls : List Call) (ordered : calls.Pairwise (·.moment ≤ ·.moment)) :
    (∀ identity, let allowed := (run perMinute perDay calls).2 identity
      (∀ start, (allowed.countP fun moment => start ≤ moment ∧ moment < start + 60) ≤ perMinute) ∧
      (∀ start, (allowed.countP fun moment => start < moment ∧ moment ≤ start + 60) ≤ perMinute) ∧
      ∀ day, (allowed.countP fun moment => utcDay moment = day) ≤ perDay) ∧
    ∀ earlier call later, calls = earlier ++ call :: later →
      (allow perMinute perDay (run perMinute perDay earlier).1 call).1.allowed = false →
      let allowed := (run perMinute perDay earlier).2 call.identity
      perMinute ≤ (allowed.countP fun moment => call.moment - 60 < moment ∧ moment ≤ call.moment) ∨
      perDay ≤ allowed.countP fun moment => utcDay moment = utcDay call.moment := by
  refine ⟨fun identity => ?_, ?_⟩
  · obtain ⟨clock, past⟩ : ∃ clock, ∀ call ∈ calls, call.moment ≤ clock := by
      cases calls using List.reverseRecOn with
      | nil => exact ⟨0, by simp⟩
      | append_singleton earlier last =>
        refine ⟨last.moment, fun call member => ?_⟩
        rcases mem_append.mp member with member | member
        · exact (pairwise_append.mp ordered).2.2 call member last (by simp)
        · rw [mem_singleton.mp member]
    have tracks := run_tracks positive daily ordered past identity
    refine ⟨fun start => tracks.minutes _ ?_, fun start => tracks.minutes _ ?_, fun day => ?_⟩
    · intro first last inside also
      simp only [decide_eq_true_eq] at inside also
      linarith
    · intro first last inside also
      simp only [decide_eq_true_eq] at inside also
      linarith
    · exact tracks.counted day ▸ tracks.days day
  · rintro earlier call later rfl denied
    rw [pairwise_append] at ordered
    have past : ∀ other ∈ earlier, other.moment ≤ call.moment :=
      fun other member => ordered.2.2 other member call (by simp)
    have tracks := run_tracks positive daily ordered.1 past call.identity
    have ascending := (pairwise_append.mp tracks.ascending).2.2
    have configured : ¬(perMinute < 1 ∨ perDay < 1) := by omega
    simp only [allow, if_neg configured, tracks.recent, ← countP_eq_length_filter,
      tracks.counted] at denied
    split at denied
    · next full =>
      refine .inl (full.trans_eq (congrArg _ (countP_congr fun moment member => ?_)))
      simp [ascending moment member call.moment (by simp)]
    split at denied
    · next full => exact .inr full
    · simp at denied

end

/-- One call a minute and two a day: the second call comes too early. -/
theorem quotas_exact_early :
    ((run 1 2 [⟨"analyst", 0⟩, ⟨"analyst", 59⟩, ⟨"analyst", 60⟩]).2 "analyst").countP
      (fun moment => 0 ≤ moment ∧ moment < 0 + 60) ≤ (1 : Int) :=
  ((quotas_exact (by decide) (by decide) _ (by decide +kernel)).1 "analyst").1 0

end ShortcutProxy.RequestLimits
