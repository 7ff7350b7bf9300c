import CardIndex.Duration

namespace CardIndex.Duration

theorem of?_eq_some (seconds nanoseconds : Nat) (e : Duration) (h : of? seconds nanoseconds = some e) :
    e.seconds = seconds ∧ e.nanoseconds = nanoseconds := by
  unfold of? at h
  split at h
  · obtain rfl := Option.some.inj h
    exact ⟨rfl, rfl⟩
  · cases h

/-- The carry loses nothing. -/
theorem inNanoseconds_times? (d e : Duration) (n : UInt32) (h : d.times? n = some e) :
    e.inNanoseconds = d.inNanoseconds * n.toNat := by
  obtain ⟨hseconds, hnanoseconds⟩ := of?_eq_some _ _ e h
  have hcarry := Nat.div_add_mod' (d.nanoseconds * n.toNat) nanosecondsPerSecond
  rw [inNanoseconds, inNanoseconds, hseconds, hnanoseconds]
  calc
    (d.seconds * n.toNat + d.nanoseconds * n.toNat / nanosecondsPerSecond) * nanosecondsPerSecond +
        d.nanoseconds * n.toNat % nanosecondsPerSecond
      = d.seconds * n.toNat * nanosecondsPerSecond + d.nanoseconds * n.toNat := by
        rw [Nat.add_mul, Nat.add_assoc, hcarry]
    _ = (d.seconds * nanosecondsPerSecond + d.nanoseconds) * n.toNat := by
        rw [Nat.add_mul, Nat.mul_right_comm]

/-- A multiple overflows when its whole seconds do not fit. -/
theorem isSome_times?_iff (d : Duration) (n : UInt32) :
    (d.times? n).isSome ↔ d.inNanoseconds * n.toNat < UInt64.size * nanosecondsPerSecond := by
  have hpos : 0 < nanosecondsPerSecond := by decide
  have hmod : d.nanoseconds * n.toNat % nanosecondsPerSecond < nanosecondsPerSecond := Nat.mod_lt _ hpos
  have hwhole : d.inNanoseconds * n.toNat =
      d.nanoseconds * n.toNat + d.seconds * n.toNat * nanosecondsPerSecond := by
    rw [inNanoseconds, Nat.add_mul, Nat.mul_right_comm, Nat.add_comm]
  have hseconds : d.inNanoseconds * n.toNat / nanosecondsPerSecond =
      d.seconds * n.toNat + d.nanoseconds * n.toNat / nanosecondsPerSecond := by
    rw [hwhole, Nat.add_mul_div_right _ _ hpos, Nat.add_comm]
  rw [← Nat.div_lt_iff_lt_mul hpos, hseconds]
  unfold times? of?
  dsimp only
  split
  · rename_i h
    simpa using h.1
  · rename_i h
    rw [not_and] at h
    constructor
    · intro hnone
      cases hnone
    · intro hfits
      exact absurd hmod (h hfits)

theorem isSome_times?_of_le (d : Duration) (m n : UInt32) (hle : m.toNat ≤ n.toNat) (h : (d.times? n).isSome) :
    (d.times? m).isSome := by
  rw [isSome_times?_iff] at h ⊢
  have hmul := Nat.mul_le_mul_left d.inNanoseconds hle
  omega

/-- Where no pause is asked for, none is made. -/
theorem pauseLength_of_isZero {d : Duration} (h : d.isZero = true) : d.pauseLength = 0 := by
  have hle : d.pauseLength ≤ d.inNanoseconds := Nat.min_le_left _ _
  unfold isZero at h
  simp only [Bool.and_eq_true, decide_eq_true_eq] at h
  rw [inNanoseconds, h.1, h.2, Nat.zero_mul] at hle
  exact Nat.le_zero.1 hle

end CardIndex.Duration
