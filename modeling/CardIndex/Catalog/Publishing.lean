import CardIndex.Catalog.Store

namespace CardIndex

/-- How often and after which time items that a store did not take are sent again. -/
structure RetryPolicy where
  maxAttempts : UInt32
  baseDelay : Duration
deriving DecidableEq

namespace RetryPolicy

def standard : RetryPolicy := ⟨5, .ofMilliseconds 500⟩

/-- The wait before an attempt, counted from one, grows by the base delay with each. -/
def delay? (policy : RetryPolicy) (attempt : UInt32) : Option Duration := policy.baseDelay.times? attempt

end RetryPolicy

instance coeUInt32Nat : Coe UInt32 Nat := ⟨UInt32.toNat⟩

/-- The retries are counted in 32 bits. A total that does not fit loses what is above them. -/
structure PublishReport where
  totalItems : Nat
  chunks : Nat
  retries : UInt32
  uploaded : Nat
deriving DecidableEq

/-- Cuts a list into chunks of the given size, at least one; the last may be shorter. -/
def chunksOf {α : Type} (size : Nat) (items : List α) : List (List α) :=
  match items with
  | [] => []
  | x :: xs =>
    let size := max size 1
    (x :: xs).take size :: chunksOf size ((x :: xs).drop size)
termination_by items.length
decreasing_by simp only [List.length_drop, List.length_cons]; omega

/-- Sends items to a table of a store. -/
structure Publisher (m : Type → Type) where
  store : CatalogStore m
  table : String
  chunkSize : Nat
  policy : RetryPolicy

namespace Publisher

def standardChunkSize : Nat := 25

variable {m : Type → Type} [Monad m] [Clock m]

def standard (store : CatalogStore m) (table : String) : Publisher m :=
  ⟨store, table, standardChunkSize, .standard⟩

/-- Sends what the store left over, until nothing is left or `left` attempts have been made. Gives what is
left and the number of the last attempt. -/
def resend (p : Publisher m) : (left : Nat) → (attempt : Nat) → List Item → Attempt m (List Item × Nat)
  | 0, attempt, pending => pure (pending, attempt)
  | left + 1, attempt, pending => do
    if pending = [] then pure (pending, attempt)
    else
      let attempt := attempt + 1
      match p.policy.delay? (UInt32.ofNat attempt) with
      | none => throw .delayOverflow
      | some delay =>
        Clock.pause (m := m) delay
        let pending ← p.store.batchWrite p.table pending
        p.resend left attempt pending

/-- Writes one chunk and gives the number of times that items of it were sent again. -/
def writeChunk (p : Publisher m) (number : Nat) (chunk : List Item) : Attempt m Nat := do
  let pending ← p.store.batchWrite p.table chunk
  let (pending, attempts) ← p.resend p.policy.maxAttempts.toNat 0 pending
  if pending = [] then pure attempts else throw (.unprocessed number pending.length)

/-- Writes the chunks from the given number on, and adds up how often items were sent again. -/
def writeChunks (p : Publisher m) (number : Nat) : List (List Item) → Attempt m Nat
  | [] => pure 0
  | chunk :: chunks => do
    let retries ← p.writeChunk number chunk
    let others ← p.writeChunks (number + 1) chunks
    pure (retries + others)

/-- Writes the items of all cards, stamped with one time, chunk by chunk. A chunk that cannot be written ends
the run; those before it stay written. -/
def publish (p : Publisher m) (cards : List Card) : Attempt m PublishReport := do
  let now ← Clock.now (m := m)
  let chunks := chunksOf p.chunkSize (cards.map (·.toItem now))
  let retries ← p.writeChunks 1 chunks
  pure ⟨cards.length, chunks.length, UInt32.ofNat retries, cards.length⟩

end Publisher

end CardIndex
