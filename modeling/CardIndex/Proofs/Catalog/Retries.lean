import Mathlib.Algebra.BigOperators.Ring.List
import Mathlib.Algebra.Group.Nat.Even
import Mathlib.Algebra.Order.BigOperators.Group.List
import Mathlib.Tactic.Ring
import CardIndex.Proofs.Catalog.Dialogue
import CardIndex.Proofs.Catalog.Publication
import CardIndex.Proofs.Duration

namespace CardIndex

open Attempt

variable {σ : Type} [Clock (StateM σ)] {p : Publisher (StateM σ)}

/-- The length of all pauses asked for before some calls. -/
def requested (calls : List Call) : Nat := (calls.map fun c => (c.pauses.map Duration.inNanoseconds).sum).sum

theorem requested_flatten (parts : List (List Call)) : requested parts.flatten = (parts.map requested).sum := by
  rw [requested, List.map_flatten, List.sum_flatten, List.map_map]
  rfl

/-- How often a batch was sent again. -/
def resubmissions (calls : List Call) : Nat := calls.length - 1

theorem sum_resubmissions_le (parts : List (List Call)) :
    (parts.map resubmissions).sum ≤ parts.flatten.length := by
  rw [List.length_flatten]
  exact List.sum_le_sum fun calls _ => Nat.sub_le calls.length 1

/-- A call and the next one about the same chunk, after a number of attempts. -/
structure Resends (policy : RetryPolicy) (attempts : Nat) (c d : Call) : Prop where
  answer : c.answer = .ok d.batch
  left : d.batch ≠ []
  pause : ∃ delay, d.pauses = [delay] ∧ delay.inNanoseconds = (attempts + 1) * policy.baseDelay.inNanoseconds

/-- The calls about a chunk. -/
structure Retried (policy : RetryPolicy) (table : String) (chunk : List Item) (calls : List Call) : Prop where
  length_le : calls.length ≤ policy.maxAttempts.toNat + 1
  table : ∀ c ∈ calls, c.table = table
  first : ∃ c, calls[0]? = some c ∧ c.batch = chunk ∧ c.pauses = []
  again : ∀ n c d, calls[n]? = some c → calls[n + 1]? = some d → Resends policy n c d

namespace RetryPolicy

variable {policy : RetryPolicy}

theorem inNanoseconds_delay? {attempts : Nat} {delay : Duration} (more : attempts < policy.maxAttempts.toNat)
    (wait : policy.delay? (UInt32.ofNat (attempts + 1)) = some delay) :
    delay.inNanoseconds = (attempts + 1) * policy.baseDelay.inNanoseconds := by
  have hlt := policy.maxAttempts.toNat_lt_size
  rw [Duration.inNanoseconds_times? _ _ _ wait, UInt32.toNat_ofNat_of_lt' (by omega), Nat.mul_comm]

/-- Where the longest wait can be asked for, all can. -/
theorem isSome_delay? {attempts : Nat} (fits : (policy.delay? policy.maxAttempts).isSome)
    (more : attempts < policy.maxAttempts.toNat) : (policy.delay? (UInt32.ofNat (attempts + 1))).isSome := by
  have hlt := policy.maxAttempts.toNat_lt_size
  refine Duration.isSome_times?_of_le _ _ _ ?_ fits
  rw [UInt32.toNat_ofNat_of_lt' (by omega)]
  omega

/-- The standard policy waits seven and a half seconds at most. -/
theorem standard_waits_le {retries : Nat} (hretries : retries ≤ standard.maxAttempts.toNat) :
    standard.baseDelay.inNanoseconds * (retries * (retries + 1) / 2) ≤
      (Duration.ofMilliseconds 7500).inNanoseconds := by
  have hsum : retries * (retries + 1) ≤ 30 := Nat.mul_le_mul hretries (Nat.succ_le_succ hretries)
  have hbase : standard.baseDelay.inNanoseconds = 500000000 := rfl
  have hlimit : (Duration.ofMilliseconds 7500).inNanoseconds = 7500000000 := rfl
  rw [hbase, hlimit]
  omega

end RetryPolicy

namespace Dialogue

variable {number attempt : Nat} {pauses : List Duration} {batch : List Item} {s s' : σ} {calls : List Call}
  {result : Except Failure Nat}

theorem starts (h : Dialogue p number attempt pauses batch s calls result s') :
    ∃ c, calls[0]? = some c ∧ c.batch = batch ∧ c.pauses = pauses := by
  cases h <;> exact ⟨_, rfl, rfl, rfl⟩

theorem table (h : Dialogue p number attempt pauses batch s calls result s') : ∀ c ∈ calls, c.table = p.table := by
  induction h with
  | last => simp
  | again _ _ _ _ _ _ ih => simpa using ih

theorem length_le (h : Dialogue p number attempt pauses batch s calls result s')
    (hattempt : attempt ≤ p.policy.maxAttempts.toNat) : attempt + calls.length ≤ p.policy.maxAttempts.toNat + 1 := by
  induction h with
  | last => simpa using hattempt
  | again _ _ more _ _ _ ih =>
    have hcalls := ih more
    rw [List.length_cons]
    omega

theorem again_at (h : Dialogue p number attempt pauses batch s calls result s') (n : Nat) (c d : Call)
    (hc : calls[n]? = some c) (hd : calls[n + 1]? = some d) : Resends p.policy (attempt + n) c d := by
  induction h generalizing n with
  | last => cases hd
  | again _ left more wait _ others ih =>
    cases n with
    | zero =>
      obtain ⟨first, hfirst, rfl, hpauses⟩ := others.starts
      rw [List.getElem?_cons_succ, hfirst] at hd
      obtain rfl := Option.some.inj hd
      obtain rfl := Option.some.inj hc
      exact ⟨rfl, left, _, hpauses, RetryPolicy.inNanoseconds_delay? more wait⟩
    | succ n =>
      rw [← Nat.succ_add_eq_add_succ]
      exact ih n hc hd

theorem retried {chunk : List Item} (h : Dialogue p number 0 [] chunk s calls result s') :
    Retried p.policy p.table chunk calls where
  length_le := by simpa using h.length_le (Nat.zero_le _)
  table := h.table
  first := h.starts
  again n c d hc hd := by simpa using h.again_at n c d hc hd

/-- The waits for `t` retries behind `a` earlier ones add up to `t * (2 * a + t + 1) / 2` base delays. -/
theorem two_mul_requested (h : Dialogue p number attempt pauses batch s calls result s') :
    2 * requested calls = 2 * (pauses.map Duration.inNanoseconds).sum +
      p.policy.baseDelay.inNanoseconds * (resubmissions calls * (2 * attempt + resubmissions calls + 1)) := by
  induction h with
  | last => simp [requested, resubmissions]
  | @again attempt pauses batch _ rest _ delay _ calls _ _ _ _ more wait _ others ih =>
    obtain ⟨c, hc, -⟩ := others.starts
    have hpos : 0 < calls.length := (List.getElem?_eq_some_iff.1 hc).1
    have hone (first : Call) : resubmissions (first :: calls) = resubmissions calls + 1 :=
      (Nat.succ_pred_eq_of_pos hpos).symm
    have hsum (first : Call) : requested (first :: calls) =
        (first.pauses.map Duration.inNanoseconds).sum + requested calls := by
      simp [requested]
    have hdelay := RetryPolicy.inNanoseconds_delay? more wait
    rw [hone, hsum, Nat.mul_add, ih, List.map_singleton, List.sum_singleton, hdelay]
    ring

theorem requested_chunk {chunk : List Item} (h : Dialogue p number 0 [] chunk s calls result s') :
    requested calls =
      p.policy.baseDelay.inNanoseconds * (resubmissions calls * (resubmissions calls + 1) / 2) := by
  obtain ⟨half, hhalf⟩ := Nat.even_mul_succ_self (resubmissions calls)
  have htwice := h.two_mul_requested
  have hdiv : (half + half) / 2 = half := by omega
  rw [List.map_nil, List.sum_nil, Nat.mul_zero, Nat.zero_add, Nat.zero_add, hhalf, Nat.mul_add] at htwice
  rw [hhalf, hdiv]
  omega

theorem of_ok {retries : Nat} (h : Dialogue p number 0 [] batch s calls (.ok retries) s') :
    retries = resubmissions calls ∧ ∃ c ∈ calls.getLast?, c.answer = .ok [] := by
  obtain ⟨earlier, last, rfl, houtcome, -⟩ := h.outcome
  generalize hanswer : last.answer = answer at houtcome
  cases houtcome
  refine ⟨?_, last, ?_, hanswer⟩
  · simp [resubmissions]
  · simp

/-- A chunk fails with the failure of its last call, or with items left over after all retries, or for a wait that
cannot be asked for. -/
theorem of_error {f : Failure} (h : Dialogue p number 0 [] batch s calls (.error f) s') :
    ∃ c ∈ calls.getLast?, c.answer = .error f ∨
      (∃ rest, c.answer = .ok rest ∧ rest ≠ [] ∧ calls.length = p.policy.maxAttempts.toNat + 1 ∧
        f = .unprocessed number rest.length) ∨
      f = .delayOverflow ∧ p.policy.delay? p.policy.maxAttempts = none := by
  obtain ⟨earlier, last, rfl, houtcome, -⟩ := h.outcome
  refine ⟨last, by simp, ?_⟩
  generalize hanswer : last.answer = answer at houtcome ⊢
  cases houtcome with
  | failed => exact .inl rfl
  | givenUp left all =>
    refine .inr (.inl ⟨_, rfl, left, ?_, rfl⟩)
    rw [List.length_append, List.length_singleton]
    omega
  | tooLong _ more long =>
    refine .inr (.inr ⟨rfl, Option.not_isSome_iff_eq_none.1 fun fits => ?_⟩)
    have hsome := RetryPolicy.isSome_delay? fits more
    rw [long] at hsome
    cases hsome

end Dialogue

namespace Course

variable {number : Nat} {chunks : List (List Item)} {s s' : σ} {parts : List (List Call)}
  {result : Except Failure Nat}

theorem retried (h : Course p number chunks s parts result s') :
    ∃ attempted, attempted <+: chunks ∧ List.Forall₂ (Retried p.policy p.table) attempted parts := by
  induction h with
  | nil => exact ⟨[], List.nil_prefix, .nil⟩
  | @stop _ chunk _ _ _ _ _ first =>
    exact ⟨[chunk], List.cons_prefix_cons.2 ⟨rfl, List.nil_prefix⟩, .cons first.retried .nil⟩
  | @next _ chunk _ _ _ _ _ _ _ _ first _ ih =>
    obtain ⟨attempted, hfront, hothers⟩ := ih
    exact ⟨chunk :: attempted, List.cons_prefix_cons.2 ⟨rfl, hfront⟩, .cons first.retried hothers⟩

theorem forall_parts {holds : List Call → Prop}
    (hholds : ∀ number chunk s calls result s', Dialogue p number 0 [] chunk s calls result s' → holds calls)
    (h : Course p number chunks s parts result s') : ∀ calls ∈ parts, holds calls := by
  induction h with
  | nil => simp
  | stop first => simpa using hholds _ _ _ _ _ _ first
  | next first _ ih =>
    rw [List.forall_mem_cons]
    exact ⟨hholds _ _ _ _ _ _ first, ih⟩

theorem of_ok (h : Course p number chunks s parts result s') (retries : Nat) (hresult : result = .ok retries) :
    parts.length = chunks.length ∧ retries = (parts.map resubmissions).sum ∧
      ∀ calls ∈ parts, ∃ c ∈ calls.getLast?, c.answer = .ok [] := by
  induction h generalizing retries with
  | nil =>
    obtain rfl := Except.ok.inj hresult
    exact ⟨rfl, rfl, fun calls hcalls => by cases hcalls⟩
  | stop => cases hresult
  | @next _ _ _ _ _ _ _ _ result _ first _ ih =>
    cases result with
    | error => cases hresult
    | ok others =>
      obtain rfl := Except.ok.inj hresult
      obtain ⟨hlength, rfl, hlast⟩ := ih others rfl
      obtain ⟨rfl, htaken⟩ := first.of_ok
      refine ⟨congrArg (· + 1) hlength, by rw [List.map_cons, List.sum_cons], ?_⟩
      rw [List.forall_mem_cons]
      exact ⟨htaken, hlast⟩

theorem length_flatten_le (h : Course p number chunks s parts result s') :
    parts.flatten.length ≤ parts.length * (p.policy.maxAttempts.toNat + 1) := by
  have hbound : ∀ calls ∈ parts, calls.length ≤ p.policy.maxAttempts.toNat + 1 :=
    h.forall_parts fun _ _ _ _ _ _ hd => hd.retried.length_le
  have hsum := List.sum_le_card_nsmul (parts.map List.length) (p.policy.maxAttempts.toNat + 1) (by simpa using hbound)
  rw [List.length_map, nsmul_eq_mul, Nat.cast_id] at hsum
  rw [List.length_flatten]
  exact hsum

/-- A course that begins at the first chunk and fails tells of the last chunk that was sent. -/
theorem last_of_error (h : Course p 1 chunks s parts result s') (f : Failure) (hresult : result = .error f) :
    ∃ calls ∈ parts.getLast?, ∃ c ∈ calls.getLast?, c.answer = .error f ∨
      (∃ rest, c.answer = .ok rest ∧ rest ≠ [] ∧ calls.length = p.policy.maxAttempts.toNat + 1 ∧
        f = .unprocessed parts.length rest.length) ∨
      f = .delayOverflow ∧ p.policy.delay? p.policy.maxAttempts = none := by
  obtain ⟨before, chunk, after, earlier, calls, _, _, -, rfl, hbefore, hcalls⟩ := h.of_error f hresult
  obtain ⟨c, hc, hanswer⟩ := hcalls.of_error
  have hnumber : (earlier ++ [calls]).length = 1 + before.length := by
    rw [List.length_append, (hbefore.of_ok _ rfl).1]
    exact Nat.add_comm _ _
  rw [hnumber]
  exact ⟨calls, by simp, c, hc, hanswer⟩

end Course

/-- What a run asks of any store, even of one that hands back what it was never sent. Each chunk is sent first,
at once, and then what was left over, with waits that grow by the base delay, until nothing is left or all
retries are made. The waits can be asked for, so a failure is that of a call or tells of what is left. -/
theorem publish_follows_retry_policy (p : Publisher (StateM σ)) (cards : List Card) (s : σ)
    (fits : (p.policy.delay? p.policy.maxAttempts).isSome) :
    let chunks := chunksOf p.chunkSize (cards.map (·.toItem (timeAt s)))
    ∃ result s' attempted parts, Ends (p.publish cards) s result s' ∧ p.record cards s = ⟨s', parts.flatten, []⟩ ∧
      attempted <+: chunks ∧ List.Forall₂ (Retried p.policy p.table) attempted parts ∧
      parts.flatten.length ≤ chunks.length * (p.policy.maxAttempts.toNat + 1) ∧
      (∀ report, result = .ok report → attempted = chunks ∧
        (∀ calls ∈ parts, ∃ c ∈ calls.getLast?, c.answer = .ok []) ∧
        report.retries = UInt32.ofNat (parts.map resubmissions).sum ∧
        ((parts.map resubmissions).sum < UInt32.size → report.retries = (parts.map resubmissions).sum) ∧
        requested parts.flatten = p.policy.baseDelay.inNanoseconds *
          (parts.map fun calls => resubmissions calls * (resubmissions calls + 1) / 2).sum) ∧
      (∀ f, result = .error f → ∃ calls ∈ parts.getLast?, ∃ c ∈ calls.getLast?, c.answer = .error f ∨
        ∃ rest, c.answer = .ok rest ∧ rest ≠ [] ∧ calls.length = p.policy.maxAttempts.toNat + 1 ∧
          f = .unprocessed attempted.length rest.length) ∧
      (p.policy = .standard → ∀ calls ∈ parts,
        requested calls ≤ (Duration.ofMilliseconds 7500).inNanoseconds) := by
  intro chunks
  obtain ⟨result, s', h⟩ := exists_ends (p.publish cards) s
  obtain ⟨t, parts, retries, -, hcourse, hrecord, rfl⟩ := p.course_of_publish cards s s' result h
  obtain ⟨attempted, hfront, hretried⟩ := hcourse.retried
  have hlength := hretried.length_eq
  have hrequested := hcourse.forall_parts fun _ _ _ _ _ _ hd => hd.requested_chunk
  refine ⟨_, s', attempted, parts, h, hrecord, hfront, hretried, ?_, ?_, ?_, ?_⟩
  · have hparts : parts.length ≤ chunks.length := hlength ▸ hfront.length_le
    exact hcourse.length_flatten_le.trans (Nat.mul_le_mul_right _ hparts)
  · intro report hreport
    cases retries with
    | error => cases hreport
    | ok n =>
      obtain rfl := Except.ok.inj hreport
      obtain ⟨hall, hretries, hlast⟩ := hcourse.of_ok n rfl
      refine ⟨hfront.eq_of_length (hlength.trans hall), hlast, congrArg UInt32.ofNat hretries, fun hfits => ?_, ?_⟩
      · rw [← hretries] at hfits ⊢
        exact UInt32.toNat_ofNat_of_lt' hfits
      rw [requested_flatten, List.map_congr_left hrequested, List.sum_map_mul_left]
  · intro f hf
    cases retries with
    | ok => cases hf
    | error =>
      obtain rfl := Except.error.inj hf
      obtain ⟨calls, hcalls, c, hc, hanswer⟩ := hcourse.last_of_error _ rfl
      rw [hlength]
      refine ⟨calls, hcalls, c, hc, hanswer.imp_right ?_⟩
      rintro (hleft | ⟨-, hnone⟩)
      · exact hleft
      · rw [hnone] at fits
        cases fits
  · intro hstandard calls hcalls
    rw [hrequested calls hcalls]
    have hbound := hcourse.forall_parts (fun _ _ _ _ _ _ hd => hd.retried.length_le) calls hcalls
    have hretries : resubmissions calls ≤ p.policy.maxAttempts.toNat := Nat.sub_le_of_le_add hbound
    rw [hstandard] at hretries ⊢
    exact RetryPolicy.standard_waits_le hretries

/-- The answers that a store gives, whatever it is sent. Behind the last of them it takes everything. -/
structure Script where
  answers : List (Except Failure (List Item))

namespace Script

def store : CatalogStore (StateM Script) where
  name := "script"
  batchWrite _ _ := ExceptT.mk fun s => (s.answers.headD (.ok []), ⟨s.answers.tail⟩)

instance : Clock (StateM Script) where
  now := pure (timeAt (⟨[], [], []⟩ : Shelf))
  pause _ := pure ()

end Script

/-- A store that hands back, of the first of two chunks, two items that it was never sent and then one of them. -/
theorem publish_follows_retry_policy_of_strangers :
    let cards := [Card.plain "a" "A", .plain "b" "B", .plain "c" "C"]
    let p : Publisher (StateM Script) := ⟨Script.store, "cards", 2, .standard⟩
    let stranger := (Card.plain "x" "X").toItem (timeAt (⟨[]⟩ : Script))
    let s : Script := ⟨[.ok [stranger, stranger], .ok [stranger], .ok []]⟩
    (p.policy.delay? p.policy.maxAttempts).isSome ∧
      ∃ s' parts, (p.publish cards).Ends s (.ok ⟨3, 2, 2, 3⟩) s' ∧ p.record cards s = ⟨s', parts.flatten, []⟩ ∧
        List.Forall₂ (Retried p.policy p.table) (chunksOf 2 (cards.map (·.toItem (timeAt s)))) parts ∧
        (parts.map resubmissions).sum = 2 ∧
        parts.flatten.map (fun c => c.pauses.map Duration.milliseconds) = [[], [500], [1000], []] := by
  intro cards p stranger s
  have hfits : (p.policy.delay? p.policy.maxAttempts).isSome := by decide
  have hchunks {α : Type} (f : Card → α) : chunksOf 2 (cards.map f) =
      [[f (.plain "a" "A"), f (.plain "b" "B")], [f (.plain "c" "C")]] := by
    simp [cards, chunksOf_cons]
  have hdone : (Id.run ((p.publish cards).run.run s)).1 = .ok ⟨3, 2, 2, 3⟩ := by
    unfold Publisher.publish
    simp only [p, hchunks]
    rfl
  have hpauses : (p.record cards s).calls.map (fun c => c.pauses.map Duration.milliseconds) =
      [[], [500], [1000], []] := by
    unfold Publisher.record Publisher.publish
    simp only [p, Publisher.recorded, hchunks]
    rfl
  obtain ⟨result, s', attempted, parts, h, hrecord, -, hretried, -, hok, -⟩ :=
    publish_follows_retry_policy p cards s hfits
  obtain rfl : result = .ok ⟨3, 2, 2, 3⟩ := (congrArg Prod.fst h).symm.trans hdone
  obtain ⟨rfl, -, -, hretries, -⟩ := hok _ rfl
  rw [hrecord] at hpauses
  have hcalls : parts.flatten.length = 4 := by
    have hlength := congrArg List.length hpauses
    rwa [List.length_map] at hlength
  have hsum := hretries (Nat.lt_of_le_of_lt (sum_resubmissions_le parts) (by rw [hcalls]; decide))
  exact ⟨hfits, s', parts, h, hrecord, hretried, hsum.symm, hpauses⟩

end CardIndex
