/-
  The client's download loop (`src/client/actor/download_loop.rs`): reading one response and
  deciding whether to ask for the next.

  1. **`drainResponse`** — the counting side of `drain_response`: the bytes received so far, and
     the prefetch of the next continuation, fired at most once when the count reaches
     `prefetch_at`.  Chunks are whatever pieces the HTTP client cuts the body into.

  2. **`doStreaming`** — `Rotating` if the body was non-empty and reached `max_bytes`, else `Done`.

  Decoding the frames and writing them to the local socket do not influence either.  The counters
  are `u64` and wrap.
-/
import Httproxy.Lib.Bytes

namespace Httproxy.Download

/-- `Phase`, without its data. -/
inductive Phase where
  | streaming
  | rotating
  | done
  deriving DecidableEq, Repr

/-- The loop state of `drain_response`. -/
structure Drain where
  bytesReceived : UInt64
  /-- `prefetch_trigger.is_some()`. -/
  trigger : Bool
  /-- The trigger was sent: a `Continue` is on its way. -/
  fired : Bool
  deriving DecidableEq, Repr

/-- The `data_stream.next()` branch. -/
def onChunk (prefetchAt : Option UInt64) (d : Drain) (chunk : Bytes) : Drain :=
  let bytesReceived := d.bytesReceived + UInt64.ofNat chunk.length
  if (prefetchAt.any fun at' => decide (bytesReceived ≥ at')) && d.trigger then
    { bytesReceived, trigger := false, fired := true }
  else { d with bytesReceived }

def drainResponse (prefetchAt : Option UInt64) (trigger : Bool) (chunks : List Bytes) : Drain :=
  chunks.foldl (onChunk prefetchAt) ⟨0, trigger, false⟩

/-- `bytes > 0 && max_bytes.is_some_and(|m| bytes >= m)`. -/
def shouldRotate (maxBytes : Option UInt64) (bytes : UInt64) : Bool :=
  decide (bytes > 0) && maxBytes.any fun m => decide (bytes ≥ m)

def doStreaming (maxBytes prefetchAt : Option UInt64) (trigger : Bool) (chunks : List Bytes) :
    Phase :=
  if shouldRotate maxBytes (drainResponse prefetchAt trigger chunks).bytesReceived then .rotating
  else .done

@[simp] theorem onChunk_bytesReceived (prefetchAt : Option UInt64) (d : Drain) (chunk : Bytes) :
    (onChunk prefetchAt d chunk).bytesReceived =
      d.bytesReceived + UInt64.ofNat chunk.length := by
  unfold onChunk
  dsimp only
  split <;> rfl

/-- The count depends on the body only, not on how it is cut, nor on the prefetch. -/
theorem bytesReceived_eq_count (prefetchAt : Option UInt64) (trigger : Bool)
    (chunks : List Bytes) :
    (drainResponse prefetchAt trigger chunks).bytesReceived = Bytes.count chunks := by
  have hfold : ∀ (cs : List Bytes) (d : Drain),
      (cs.foldl (onChunk prefetchAt) d).bytesReceived = d.bytesReceived + Bytes.count cs := by
    intro cs
    induction cs with
    | nil =>
      intro d
      simp
    | cons c cs ih =>
      intro d
      rw [List.foldl_cons, ih, onChunk_bytesReceived, ← List.singleton_append,
        Bytes.count_append, Bytes.count_singleton, UInt64.add_assoc]
  unfold drainResponse
  rw [hfold, UInt64.zero_add]

theorem doStreaming_rotating_iff (m : UInt64) (prefetchAt : Option UInt64) (trigger : Bool)
    (chunks : List Bytes) :
    doStreaming (some m) prefetchAt trigger chunks = .rotating ↔
      0 < Bytes.count chunks ∧ m ≤ Bytes.count chunks := by
  unfold doStreaming shouldRotate
  rw [bytesReceived_eq_count]
  split <;> simp_all

end Httproxy.Download
