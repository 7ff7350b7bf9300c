import CardIndex.Proofs.Catalog.Calls
import CardIndex.Proofs.Catalog.Publication
import CardIndex.Proofs.Catalog.Uptake

namespace CardIndex

open Attempt

variable {σ : Type}

/-- What follows from the answer to a call after a number of attempts, where nothing is sent again. -/
inductive Outcome (policy : RetryPolicy) (number attempt : Nat) :
    Except Failure (List Item) → Except Failure Nat → Prop
  | failed (f : Failure) : Outcome policy number attempt (.error f) (.error f)
  | taken : Outcome policy number attempt (.ok []) (.ok attempt)
  | givenUp {rest : List Item} (left : rest ≠ []) (last : attempt = policy.maxAttempts.toNat) :
      Outcome policy number attempt (.ok rest) (.error (.unprocessed number rest.length))
  | tooLong {rest : List Item} (left : rest ≠ []) (more : attempt < policy.maxAttempts.toNat)
      (long : policy.delay? (UInt32.ofNat (attempt + 1)) = none) :
      Outcome policy number attempt (.ok rest) (.error .delayOverflow)

/-- The calls about one batch, from one state to another. Before the first of them the given pauses were asked
for. -/
inductive Dialogue [Clock (StateM σ)] (p : Publisher (StateM σ)) (number : Nat) :
    (attempt : Nat) → List Duration → List Item → σ → List Call → Except Failure Nat → σ → Prop
  | last {attempt pauses batch s answer result s'}
      (call : Ends (p.store.batchWrite p.table batch) s answer s')
      (outcome : Outcome p.policy number attempt answer result) :
      Dialogue p number attempt pauses batch s [⟨pauses, p.table, batch, answer⟩] result s'
  | again {attempt pauses batch s rest t delay t' calls result s'}
      (call : Ends (p.store.batchWrite p.table batch) s (.ok rest) t) (left : rest ≠ [])
      (more : attempt < p.policy.maxAttempts.toNat)
      (wait : p.policy.delay? (UInt32.ofNat (attempt + 1)) = some delay)
      (pause : Id.run ((Clock.pause delay : StateM σ Unit).run t) = ((), t'))
      (others : Dialogue p number (attempt + 1) [delay] rest t' calls result s') :
      Dialogue p number attempt pauses batch s (⟨pauses, p.table, batch, .ok rest⟩ :: calls) result s'

/-- The dialogues about chunks, one after the other, of which none but the last may fail. -/
inductive Course [Clock (StateM σ)] (p : Publisher (StateM σ)) :
    (number : Nat) → List (List Item) → σ → List (List Call) → Except Failure Nat → σ → Prop
  | nil {number s} : Course p number [] s [] (.ok 0) s
  | stop {number chunk chunks s calls f s'} (first : Dialogue p number 0 [] chunk s calls (.error f) s') :
      Course p number (chunk :: chunks) s [calls] (.error f) s'
  | next {number chunk chunks s calls retries t parts result s'}
      (first : Dialogue p number 0 [] chunk s calls (.ok retries) t)
      (others : Course p (number + 1) chunks t parts result s') :
      Course p number (chunk :: chunks) s (calls :: parts) (result.map (retries + ·)) s'

variable [Clock (StateM σ)]

namespace Dialogue

variable {p : Publisher (StateM σ)} {number attempt : Nat} {pauses : List Duration} {batch : List Item} {s s' : σ}
  {calls : List Call} {result : Except Failure Nat}

/-- The last answer decides how it ends; before it something was always left over. -/
theorem outcome (h : Dialogue p number attempt pauses batch s calls result s') :
    ∃ earlier last, calls = earlier ++ [last] ∧
      Outcome p.policy number (attempt + earlier.length) last.answer result ∧
      ∀ c ∈ earlier, ∃ rest, c.answer = .ok rest := by
  induction h with
  | last _ outcome => exact ⟨[], _, rfl, outcome, fun c hc => by cases hc⟩
  | @again _ _ _ _ rest _ _ _ _ _ _ _ _ _ _ _ _ ih =>
    obtain ⟨earlier, last, rfl, houtcome, hearlier⟩ := ih
    refine ⟨_ :: earlier, last, rfl, ?_, ?_⟩
    · rw [List.length_cons, ← Nat.succ_add_eq_add_succ]
      exact houtcome
    · rw [List.forall_mem_cons]
      exact ⟨⟨rest, rfl⟩, hearlier⟩

/-- A call that fails is the last one and decides how the dialogue ends. -/
theorem of_failed_call (h : Dialogue p number attempt pauses batch s calls result s') (c : Call) (hc : c ∈ calls)
    (f : Failure) (hf : c.answer = .error f) :
    result = .error f ∧ ∃ earlier, calls = earlier ++ [c] ∧ ∀ d ∈ earlier, ∃ rest, d.answer = .ok rest := by
  obtain ⟨earlier, last, rfl, houtcome, hearlier⟩ := h.outcome
  rcases List.mem_append.1 hc with hc | hc
  · obtain ⟨rest, hrest⟩ := hearlier c hc
    rw [hrest] at hf
    cases hf
  · obtain rfl := List.mem_singleton.1 hc
    rw [hf] at houtcome
    cases houtcome
    exact ⟨rfl, earlier, rfl, hearlier⟩

end Dialogue

namespace Course

variable {p : Publisher (StateM σ)} {number : Nat} {chunks : List (List Item)} {s s' : σ} {parts : List (List Call)}
  {result : Except Failure Nat}

theorem of_failed_call (h : Course p number chunks s parts result s') (c : Call) (hc : c ∈ parts.flatten)
    (f : Failure) (hf : c.answer = .error f) :
    result = .error f ∧ ∃ earlier, parts.flatten = earlier ++ [c] ∧ ∀ d ∈ earlier, ∃ rest, d.answer = .ok rest := by
  induction h with
  | nil => cases hc
  | stop first =>
    rw [List.flatten_singleton] at hc ⊢
    exact first.of_failed_call c hc f hf
  | @next _ _ _ _ calls _ _ parts _ _ first _ ih =>
    rw [List.flatten_cons] at hc ⊢
    have hcalls : ∀ d ∈ calls, ∃ rest, d.answer = .ok rest := by
      intro d hd
      cases hanswer : d.answer with
      | ok rest => exact ⟨rest, rfl⟩
      | error f => cases (first.of_failed_call d hd f hanswer).1
    rcases List.mem_append.1 hc with hc | hc
    · obtain ⟨rest, hrest⟩ := hcalls c hc
      rw [hrest] at hf
      cases hf
    · obtain ⟨rfl, earlier, hparts, hearlier⟩ := ih hc
      refine ⟨rfl, calls ++ earlier, by rw [hparts, List.append_assoc], ?_⟩
      rw [List.forall_mem_append]
      exact ⟨hcalls, hearlier⟩

/-- A course that fails does so in the dialogue about one chunk, behind a course about the chunks before it. -/
theorem of_error (h : Course p number chunks s parts result s') (f : Failure) (hresult : result = .error f) :
    ∃ before chunk after earlier calls retries t, chunks = before ++ chunk :: after ∧ parts = earlier ++ [calls] ∧
      Course p number before s earlier (.ok retries) t ∧
      Dialogue p (number + before.length) 0 [] chunk t calls (.error f) s' := by
  induction h with
  | nil => cases hresult
  | @stop _ chunk chunks _ calls _ _ first =>
    obtain rfl := Except.error.inj hresult
    exact ⟨[], chunk, chunks, [], calls, 0, _, rfl, rfl, .nil, first⟩
  | @next number first _ _ calls _ _ _ result _ hfirst _ ih =>
    cases result with
    | ok => cases hresult
    | error =>
      obtain ⟨before, chunk, after, earlier, last, _, t, rfl, rfl, hbefore, hlast⟩ := ih hresult
      refine ⟨first :: before, chunk, after, calls :: earlier, last, _, t, rfl, rfl, .next hfirst hbefore, ?_⟩
      rw [List.length_cons, Nat.add_comm before.length, ← Nat.add_assoc]
      exact hlast

end Course

namespace Publisher

variable (p : Publisher (StateM σ))

/-- What is done with the items that a call leaves over. -/
def follow (number left attempt : Nat) (rest : List Item) : Attempt (StateM σ) Nat := do
  let (pending, attempts) ← p.resend left attempt rest
  if pending = [] then pure attempts else throw (.unprocessed number pending.length)

theorem writeChunk_eq (number : Nat) (chunk : List Item) :
    p.writeChunk number chunk =
      p.store.batchWrite p.table chunk >>= p.follow number p.policy.maxAttempts.toNat 0 := rfl

theorem follow_nil (number left attempt : Nat) : p.follow number left attempt [] = pure attempt := by
  rw [follow, resend_nil, pure_bind]
  rfl

theorem follow_zero (number attempt : Nat) {rest : List Item} (left : rest ≠ []) :
    p.follow number 0 attempt rest = throw (.unprocessed number rest.length) := by
  rw [follow, resend, pure_bind]
  exact if_neg left

theorem follow_succ (number more attempt : Nat) {rest : List Item} (left : rest ≠ []) :
    p.follow number (more + 1) attempt rest = match p.policy.delay? (UInt32.ofNat (attempt + 1)) with
      | none => throw .delayOverflow
      | some delay => (liftM (Clock.pause delay : StateM σ Unit) : Attempt (StateM σ) Unit) >>= fun _ =>
          p.store.batchWrite p.table rest >>= p.follow number more (attempt + 1) := by
  rw [follow, resend, if_neg left]
  dsimp only
  cases p.policy.delay? (UInt32.ofNat (attempt + 1)) with
  | none => rfl
  | some delay =>
    simp only [bind_assoc]
    rfl

/-- What is left over is either the end of it or sent again after one more pause. -/
theorem ends_follow {number left attempt : Nat} {rest : List Item} {r r' : Recorded σ} {result : Except Failure Nat}
    (hleft : attempt + left = p.policy.maxAttempts.toNat)
    (h : Ends (p.recorded.follow number left attempt rest) r result r') :
    (Outcome p.policy number attempt (.ok rest) result ∧ r' = r) ∨
      ∃ more delay s, left = more + 1 ∧ rest ≠ [] ∧ p.policy.delay? (UInt32.ofNat (attempt + 1)) = some delay ∧
        Id.run ((Clock.pause delay : StateM σ Unit).run r.state) = ((), s) ∧
        Ends (p.recorded.store.batchWrite p.table rest >>= p.recorded.follow number more (attempt + 1))
          ⟨s, r.calls, r.pauses ++ [delay]⟩ result r' := by
  by_cases hrest : rest = []
  · subst hrest
    rw [follow_nil] at h
    obtain ⟨rfl, rfl⟩ := (ends_pure _ _ _ _).1 h
    exact .inl ⟨.taken, rfl⟩
  cases left with
  | zero =>
    rw [follow_zero _ _ _ hrest] at h
    obtain ⟨rfl, rfl⟩ := (ends_throw _ _ _ _).1 h
    exact .inl ⟨.givenUp hrest hleft, rfl⟩
  | succ more =>
    have hpolicy : p.recorded.policy = p.policy := rfl
    rw [follow_succ _ _ _ _ hrest, hpolicy] at h
    cases hdelay : p.policy.delay? (UInt32.ofNat (attempt + 1)) with
    | none =>
      rw [hdelay] at h
      obtain ⟨rfl, rfl⟩ := (ends_throw _ _ _ _).1 h
      exact .inl ⟨.tooLong hrest (by omega) hdelay, rfl⟩
    | some delay =>
      rw [hdelay] at h
      rcases (ends_bind _ _ _ _ _).1 h with ⟨u, t, hpause, hothers⟩ | ⟨f, hpause, -⟩
      · obtain ⟨_, hpause, -⟩ := (ends_lift _ _ _ _).1 hpause
        obtain ⟨s, hs, rfl⟩ := Recorded.run_pause hpause
        exact .inr ⟨more, delay, s, rfl, hrest, rfl, hs, hothers⟩
      · obtain ⟨_, -, hf⟩ := (ends_lift _ _ _ _).1 hpause
        cases hf

/-- However a store answers, a call and what follows it are a dialogue, and all calls of it are recorded. -/
theorem dialogue_of_ends (number left attempt : Nat) (batch : List Item) (r r' : Recorded σ)
    (result : Except Failure Nat) (hleft : attempt + left = p.policy.maxAttempts.toNat)
    (h : Ends (p.recorded.store.batchWrite p.table batch >>= p.recorded.follow number left attempt) r result r') :
    ∃ calls, Dialogue p number attempt r.pauses batch r.state calls result r'.state ∧
      r' = ⟨r'.state, r.calls ++ calls, []⟩ := by
  induction left using Nat.strongRecOn generalizing attempt batch r with
  | ind left ih =>
    rcases (ends_bind _ _ _ _ _).1 h with ⟨rest, t, hcall, hfollow⟩ | ⟨f, hcall, rfl⟩
    · obtain ⟨s, hs, rfl⟩ := Recorded.ends_batchWrite hcall
      rcases p.ends_follow hleft hfollow with ⟨houtcome, rfl⟩ | ⟨more, delay, t, rfl, hrest, hdelay, hpause, hothers⟩
      · exact ⟨_, .last hs houtcome, rfl⟩
      · obtain ⟨calls, hcalls, hr'⟩ := ih more (Nat.lt_succ_self more) (attempt + 1) rest _ (by omega) hothers
        refine ⟨_ :: calls, .again hs hrest (by omega) hdelay hpause hcalls, ?_⟩
        rw [hr', List.append_assoc]
        rfl
    · obtain ⟨s, hs, rfl⟩ := Recorded.ends_batchWrite hcall
      exact ⟨_, .last hs (.failed f), rfl⟩

/-- The dialogues about chunks follow each other up to one that fails. -/
theorem course_of_ends (number : Nat) (chunks : List (List Item)) (r r' : Recorded σ)
    (result : Except Failure Nat) (hpauses : r.pauses = [])
    (h : Ends (p.recorded.writeChunks number chunks) r result r') :
    ∃ parts, Course p number chunks r.state parts result r'.state ∧
      r' = ⟨r'.state, r.calls ++ parts.flatten, []⟩ := by
  induction chunks generalizing number r result with
  | nil =>
    obtain ⟨rfl, rfl⟩ := (ends_pure _ _ _ _).1 h
    refine ⟨[], .nil, ?_⟩
    rw [List.flatten_nil, List.append_nil, ← hpauses]
  | cons chunk chunks ih =>
    have hdialogue (result : Except Failure Nat) (t : Recorded σ)
        (hchunk : Ends (p.recorded.writeChunk number chunk) r result t) :
        ∃ calls, Dialogue p number 0 [] chunk r.state calls result t.state ∧ t = ⟨t.state, r.calls ++ calls, []⟩ := by
      rw [writeChunk_eq] at hchunk
      have hcalls := p.dialogue_of_ends number _ 0 chunk r t result (Nat.zero_add _) hchunk
      rw [hpauses] at hcalls
      exact hcalls
    rcases (ends_bind _ _ _ _ _).1 h with ⟨retries, t, hchunk, hothers⟩ | ⟨f, hchunk, rfl⟩
    · obtain ⟨calls, hcalls, ht⟩ := hdialogue _ _ hchunk
      have hpauses' : t.pauses = [] := by rw [ht]
      have happend (parts : List (List Call)) : t.calls ++ parts.flatten = r.calls ++ (calls :: parts).flatten := by
        rw [ht, List.flatten_cons, List.append_assoc]
      rcases (ends_bind _ _ _ _ _).1 hothers with ⟨others, t', hrest, hend⟩ | ⟨f, hrest, rfl⟩
      · obtain ⟨rfl, rfl⟩ := (ends_pure _ _ _ _).1 hend
        obtain ⟨parts, hparts, hr'⟩ := ih _ _ _ hpauses' hrest
        rw [happend] at hr'
        exact ⟨calls :: parts, .next hcalls hparts, hr'⟩
      · obtain ⟨parts, hparts, hr'⟩ := ih _ _ _ hpauses' hrest
        rw [happend] at hr'
        exact ⟨calls :: parts, .next hcalls hparts, hr'⟩
    · obtain ⟨calls, hcalls, hr'⟩ := hdialogue _ _ hchunk
      refine ⟨[calls], .stop hcalls, ?_⟩
      rw [List.flatten_singleton]
      exact hr'

/-- A run is a course about the chunks of its cards, whose calls are all that it makes. -/
theorem course_of_publish (cards : List Card) (s s' : σ) (result : Except Failure PublishReport)
    (h : Ends (p.publish cards) s result s') :
    let chunks := chunksOf p.chunkSize (cards.map (·.toItem (timeAt s)))
    ∃ t parts retries, Id.run ((Clock.now : StateM σ Timestamp).run s) = (timeAt s, t) ∧
      Course p 1 chunks t parts retries s' ∧ p.record cards s = ⟨s', parts.flatten, []⟩ ∧
      result = retries.map fun n => ⟨cards.length, chunks.length, UInt32.ofNat n, cards.length⟩ := by
  obtain ⟨result', r, hrecorded⟩ := exists_ends (p.recorded.publish cards) ⟨s, [], []⟩
  have hrecord : p.record cards s = r := congrArg Prod.snd hrecorded
  have hsame := h.symm.trans (p.mirrors_publish cards _ _ _ hrecorded)
  obtain ⟨rfl, rfl⟩ := Prod.mk.inj hsame
  rw [hrecord]
  rcases (ends_bind _ _ _ _ _).1 hrecorded with ⟨time, t, hnow, hchunks⟩ | ⟨f, hnow, -⟩
  · obtain ⟨_, hnow, htime⟩ := (ends_lift _ _ _ _).1 hnow
    obtain rfl := Except.ok.inj htime
    obtain ⟨t, ht, rfl⟩ := Recorded.run_now hnow
    have htime : timeAt s = time := congrArg Prod.fst ht
    rw [htime]
    rcases (ends_bind _ _ _ _ _).1 hchunks with ⟨retries, t', hcourse, hend⟩ | ⟨f, hcourse, rfl⟩
    · obtain ⟨rfl, rfl⟩ := (ends_pure _ _ _ _).1 hend
      obtain ⟨parts, hparts, hr⟩ := p.course_of_ends _ _ _ _ _ rfl hcourse
      exact ⟨t, parts, _, ht, hparts, hr, rfl⟩
    · obtain ⟨parts, hparts, hr⟩ := p.course_of_ends _ _ _ _ _ rfl hcourse
      exact ⟨t, parts, _, ht, hparts, hr, rfl⟩
  · obtain ⟨_, -, hf⟩ := (ends_lift _ _ _ _).1 hnow
    cases hf

end Publisher

end CardIndex
