import CardIndex.Proofs.Catalog.Retries

namespace CardIndex

open Attempt

theorem Duration.inNanoseconds_ofMilliseconds (b : UInt64) : (ofMilliseconds b).inNanoseconds = b.toNat * 1000000 := by
  unfold inNanoseconds ofMilliseconds nanosecondsPerSecond
  dsimp only
  omega

namespace RetryPolicy

/-- A base delay of whole milliseconds has multiples as long as they are below a thousand times the seconds that fit. -/
theorem isSome_delay?_iff (maxAttempts n : UInt32) (b : UInt64) :
    ((RetryPolicy.mk maxAttempts (.ofMilliseconds b)).delay? n).isSome ↔ n.toNat * b.toNat < 1000 * UInt64.size := by
  have hscale : b.toNat * 1000000 * n.toNat = n.toNat * b.toNat * 1000000 := by ring
  unfold delay?
  rw [Duration.isSome_times?_iff, Duration.inNanoseconds_ofMilliseconds, hscale]
  unfold Duration.nanosecondsPerSecond
  omega

theorem map_delay? (maxAttempts n : UInt32) (b : UInt64) :
    ((RetryPolicy.mk maxAttempts (.ofMilliseconds b)).delay? n).map Duration.inNanoseconds =
      if n.toNat * b.toNat < 1000 * UInt64.size then some (n.toNat * b.toNat * 1000000) else none := by
  have hfits := isSome_delay?_iff maxAttempts n b
  cases hdelay : (RetryPolicy.mk maxAttempts (.ofMilliseconds b)).delay? n with
  | none =>
    rw [hdelay] at hfits
    rw [if_neg fun h => Bool.noConfusion (hfits.2 h), Option.map_none]
  | some delay =>
    rw [hdelay] at hfits
    have hlength := Duration.inNanoseconds_times? _ _ _ hdelay
    dsimp only at hlength
    rw [if_pos (hfits.1 rfl), Option.map_some, hlength, Duration.inNanoseconds_ofMilliseconds]
    exact congrArg some (by ring)

end RetryPolicy

variable {σ : Type} [Clock (StateM σ)]

/-- A wait that does not fit ends the run in the place of the pause. -/
theorem Publisher.resend_of_delay?_eq_none (p : Publisher (StateM σ)) (left attempt : Nat) {pending : List Item}
    (hleft : pending ≠ []) (hlong : p.policy.delay? (UInt32.ofNat (attempt + 1)) = none) :
    p.resend (left + 1) attempt pending = throw .delayOverflow := by
  rw [resend, if_neg hleft]
  dsimp only
  rw [hlong]

/-- A run fails over the last call that it makes, over items that are left or over a wait that does not fit. -/
theorem Publisher.failure_of_publish (p : Publisher (StateM σ)) (cards : List Card) (s s' : σ) (f : Failure)
    (h : Ends (p.publish cards) s (.error f) s') :
    (∃ c ∈ (p.record cards s).calls.getLast?, c.answer = .error f) ∨ (∃ chunk count, f = .unprocessed chunk count) ∨
      f = .delayOverflow ∧ p.policy.delay? p.policy.maxAttempts = none := by
  obtain ⟨t, parts, retries, -, hcourse, hrecord, hresult⟩ := p.course_of_publish cards s s' _ h
  cases retries with
  | ok => cases hresult
  | error =>
    obtain rfl := Except.error.inj hresult
    obtain ⟨calls, hcalls, c, hc, hanswer⟩ := hcourse.last_of_error _ rfl
    rcases hanswer with hfailed | ⟨rest, -, -, -, hleft⟩ | hlong
    · refine .inl ⟨c, ?_, hfailed⟩
      rw [hrecord]
      obtain ⟨earlier, rfl⟩ := List.getLast?_eq_some_iff.1 hcalls
      obtain ⟨before, rfl⟩ := List.getLast?_eq_some_iff.1 hc
      simp
    · exact .inr (.inl ⟨_, _, hleft⟩)
    · exact .inr (.inr hlong)

/-- The wait before an attempt is exactly as many base delays as attempts, or too long for a duration. Where all waits
that a policy can ask for fit, no run fails over one of them, whatever the store answers: it fails with a failure of the
store, or because items are left over. -/
theorem publish_never_overflows (store : CatalogStore (StateM σ)) (table : String) (size : Nat) (maxAttempts : UInt32)
    (b : UInt64) (cards : List Card) (s : σ) :
    let policy : RetryPolicy := ⟨maxAttempts, .ofMilliseconds b⟩
    let p : Publisher (StateM σ) := ⟨store, table, size, policy⟩
    (∀ n, (policy.delay? n).map Duration.inNanoseconds =
      if n.toNat * b.toNat < 1000 * UInt64.size then some (n.toNat * b.toNat * 1000000) else none) ∧
    (∀ left attempt pending, attempt < maxAttempts.toNat → pending ≠ [] →
      1000 * UInt64.size ≤ (attempt + 1) * b.toNat → p.resend (left + 1) attempt pending = throw .delayOverflow) ∧
    Failure.delayOverflow.message = "overflow when multiplying duration by scalar" ∧
    (maxAttempts.toNat * b.toNat < 1000 * UInt64.size → ∃ result s', Ends (p.publish cards) s result s' ∧
      ∀ f, result = .error f → (∃ c ∈ (p.record cards s).calls.getLast?, c.answer = .error f) ∨
        ∃ chunk count, f = .unprocessed chunk count) := by
  intro policy p
  refine ⟨fun n => RetryPolicy.map_delay? maxAttempts n b, ?_, rfl, ?_⟩
  · intro left attempt pending hmore hpending hlong
    refine p.resend_of_delay?_eq_none left attempt hpending (Option.not_isSome_iff_eq_none.1 fun hfits => ?_)
    have hlt := maxAttempts.toNat_lt_size
    have hbound := (RetryPolicy.isSome_delay?_iff maxAttempts _ b).1 hfits
    rw [UInt32.toNat_ofNat_of_lt' (by omega)] at hbound
    omega
  · intro hfits
    obtain ⟨result, s', h⟩ := exists_ends (p.publish cards) s
    refine ⟨result, s', h, fun f hf => ?_⟩
    subst hf
    rcases p.failure_of_publish cards s s' f h with hcall | hleft | ⟨-, hnone⟩
    · exact .inl hcall
    · exact .inr hleft
    · have hsome := (RetryPolicy.isSome_delay?_iff maxAttempts maxAttempts b).2 hfits
      rw [show (RetryPolicy.mk maxAttempts (.ofMilliseconds b)).delay? maxAttempts = none from hnone] at hsome
      cases hsome

/-- The longest base delay there is, a thousand times but not once more; the store fails after two retries. -/
theorem publish_never_overflows_at_edge :
    let policy : RetryPolicy := ⟨1000, .ofMilliseconds 18446744073709551615⟩
    let p : Publisher (StateM Script) := ⟨Script.store, "cards", 1, policy⟩
    let stranger := (Card.plain "x" "X").toItem (timeAt (⟨[]⟩ : Script))
    let s : Script := ⟨[.ok [stranger], .ok [stranger], .error (.store "refused")]⟩
    (policy.delay? 1000).map Duration.inNanoseconds = some (1000 * 18446744073709551615 * 1000000) ∧
      policy.delay? 1001 = none ∧ 1000 * 18446744073709551615 < 1000 * UInt64.size ∧
      ∃ s', Ends (p.publish [Card.plain "a" "A"]) s (.error (.store "refused")) s' ∧
        ∃ c ∈ (p.record [Card.plain "a" "A"] s).calls.getLast?, c.answer = .error (.store "refused") := by
  intro policy p stranger s
  obtain ⟨hdelay, -, -, hrun⟩ :=
    publish_never_overflows Script.store "cards" 1 1000 18446744073709551615 [Card.plain "a" "A"] s
  have hfits : 1000 * 18446744073709551615 < 1000 * UInt64.size := by decide
  obtain ⟨result, s', h, hfailed⟩ := hrun hfits
  have hchunks {α : Type} (f : Card → α) : chunksOf 1 ([Card.plain "a" "A"].map f) = [[f (.plain "a" "A")]] := by
    simp [chunksOf_cons]
  have hresult : (Id.run ((p.publish [Card.plain "a" "A"]).run.run s)).1 = .error (.store "refused") := by
    unfold Publisher.publish
    simp only [p, hchunks]
    decide +kernel
  obtain rfl : result = .error (.store "refused") := (congrArg Prod.fst h).symm.trans hresult
  refine ⟨(hdelay 1000).trans (if_pos hfits), ?_, hfits, s', h, ?_⟩
  · exact Option.map_eq_none_iff.1 ((hdelay 1001).trans (if_neg (by decide)))
  · rcases hfailed _ rfl with hcall | ⟨_, _, hleft⟩
    · exact hcall
    · cases hleft

end CardIndex
