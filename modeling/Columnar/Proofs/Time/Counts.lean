import Columnar.Time.Instant

/-! Instants and their counts. An instant that is no leap second is the instant of its count of
nanoseconds, and the count of its milliseconds stands for the instant with the rest cut off. -/
namespace Columnar.Instant

theorem ofParts?_parts (t : Instant) : ofParts? t.second t.nano = some t :=
  dif_pos ⟨t.earliest_le, t.le_latest, t.nano_lt, t.leap_at_minute_end⟩

theorem parts_of_ofParts? {second : Int} {nano : Nat} {t : Instant}
    (found : ofParts? second nano = some t) : t.second = second ∧ t.nano = nano := by
  unfold ofParts? at found
  split at found
  · cases found
    exact ⟨rfl, rfl⟩
  · cases found

/-- Without leap seconds, nothing is lost in a count of nanoseconds. -/
theorem ofNanos?_nanos {t : Instant} (noLeap : t.nano < nanosPerSecond) :
    ofNanos? t.nanos = some t := by
  have second : t.nanos / nanosPerSecond = t.second := by
    rw [nanos, nanosPerSecond] at *
    omega
  have nano : (t.nanos % nanosPerSecond).toNat = t.nano := by
    rw [nanos, nanosPerSecond] at *
    omega
  rw [ofNanos?, second, nano, ofParts?_parts]

/-- Every count of milliseconds fits 64 bits. -/
theorem millis_bounds (t : Instant) :
    -0x8000000000000000 ≤ t.millis ∧ t.millis < 0x8000000000000000 := by
  have early := t.earliest_le
  have late := t.le_latest
  have nano := t.nano_lt
  rw [earliestSecond] at early
  rw [latestSecond] at late
  rw [nanosPerSecond] at nano
  unfold millis
  omega

/-- The instant with the part of a millisecond cut off. -/
def floorToMillis (t : Instant) : Instant where
  second := t.second
  nano := t.nano / 1000000 * 1000000
  earliest_le := t.earliest_le
  le_latest := t.le_latest
  nano_lt := Nat.lt_of_le_of_lt (Nat.div_mul_le_self ..) t.nano_lt
  leap_at_minute_end := fun leap =>
    t.leap_at_minute_end (Nat.le_trans leap (Nat.div_mul_le_self ..))

/-- A count of milliseconds stands for the last full millisecond. -/
theorem ofMillis?_millis {t : Instant} (noLeap : t.nano < nanosPerSecond) :
    ofMillis? t.millis = some t.floorToMillis := by
  have second : t.millis / 1000 = t.second := by
    rw [millis, nanosPerSecond] at *
    omega
  have nano : (t.millis % 1000).toNat * 1000000 = t.nano / 1000000 * 1000000 := by
    rw [millis, nanosPerSecond] at *
    omega
  rw [ofMillis?, second, nano]
  exact t.floorToMillis.ofParts?_parts

/-- The milliseconds of a time stand for a time, except those of a leap second at the very end. -/
theorem exists_ofMillis?_millis {t : Instant} (before : t.second < latestSecond) :
    ∃ s, ofMillis? t.millis = some s := by
  by_cases leap : t.nano < nanosPerSecond
  · exact ⟨_, ofMillis?_millis leap⟩
  · have early := t.earliest_le
    have nano := t.nano_lt
    rw [nanosPerSecond] at leap nano
    have second : t.millis / 1000 = t.second + 1 := by
      rw [millis]
      omega
    have fraction : (t.millis % 1000).toNat * 1000000 < nanosPerSecond := by
      rw [millis, nanosPerSecond]
      omega
    rw [ofMillis?, second]
    refine ⟨_, dif_pos ⟨by omega, by omega, by omega, fun late => ?_⟩⟩
    exact absurd fraction (Nat.not_lt.2 late)

/-- The milliseconds of a time are those of the time they stand for. -/
theorem millis_of_ofMillis? {millis : Int} {t : Instant} (found : ofMillis? millis = some t) :
    t.millis = millis := by
  obtain ⟨second, nano⟩ := parts_of_ofParts? found
  rw [Instant.millis, second, nano]
  omega

theorem noLeap_of_ofMillis? {millis : Int} {t : Instant} (found : ofMillis? millis = some t) :
    t.nano < nanosPerSecond := by
  obtain ⟨-, nano⟩ := parts_of_ofParts? found
  rw [nano, nanosPerSecond]
  omega

theorem noLeap_of_ofNanos? {nanos : Int} {t : Instant} (found : ofNanos? nanos = some t) :
    t.nano < nanosPerSecond := by
  obtain ⟨-, nano⟩ := parts_of_ofParts? found
  rw [nano, nanosPerSecond]
  omega

/-- The nanoseconds of a time are those of the time they stand for. -/
theorem nanos_of_ofNanos? {nanos : Int} {t : Instant} (found : ofNanos? nanos = some t) :
    t.nanos = nanos := by
  obtain ⟨second, nano⟩ := parts_of_ofParts? found
  rw [Instant.nanos, second, nano, nanosPerSecond]
  omega

/-- Every count of nanoseconds that fits 64 bits stands for a time. -/
theorem exists_ofNanos? {nanos : Int} (low : -0x8000000000000000 ≤ nanos)
    (high : nanos < 0x8000000000000000) : ∃ t, ofNanos? nanos = some t := by
  rw [ofNanos?, ofParts?]
  refine ⟨_, dif_pos ?_⟩
  simp only [nanosPerSecond, earliestSecond, latestSecond]
  omega

/-- The milliseconds of a time are its full ones, those of a leap second too. -/
theorem millis_eq_nanos_div (t : Instant) : t.millis = t.nanos / 1000000 := by
  rw [millis, nanos, nanosPerSecond]
  omega

end Columnar.Instant
