import BlobVault.Proofs.Outcome
import BlobVault.Store.Copy

/-!
# Runs of a store

A run is a list of operations on one store, each at its own time. The trace of a run has, for every
step, the worlds before and after it and the answer. A stream is read to its end as soon as it is
opened, and a local file that a store gives away is read at once.
-/

namespace BlobVault

/-- An operation on a store. A copy without a source is one from the store itself. -/
inductive Operation
  | write (request : WriteRequest)
  | read (key : String) (dest : LocalPath)
  | stream (key : String)
  | file (key : String)
  | contains (key : String)
  | delete (key : String)
  | copy (key : String) (source? : Option Store) (sourceKey : String) (move : Bool)
  | clear
  | evict

/-- The answer to an operation. -/
inductive Answer
  | done
  | stored (key : String)
  | copied (key? : Option String)
  | found (b : Bool)
  | content (content? : Option (Bytes × Option BlobError))
  | file (lookup : Lookup Bytes)
  | evicted (stats : EvictionStats)

/-- The operation is about the cache alone, and says nothing of what the store holds. -/
def Operation.IsOfCache : Operation → Prop
  | .file _ | .evict => True
  | _ => False

namespace Store

/-- Carries an operation out. A store without a cache has nothing to evict. -/
def perform (store : Store) : Operation → Action Answer
  | .write request => return .stored (← store.write request)
  | .read key dest => return .found (← store.readInto key dest)
  | .stream key => do
    match ← store.openStream key with
    | some stream => return .content (some (← stream.drain))
    | none => return .content none
  | .file key => do
    match ← store.localFile key with
    | .found path => return .file (.found (← fileContent path))
    | .missing => return .file .missing
    | .unknown => return .file .unknown
  | .contains key => return .found (← store.contains key)
  | .delete key => do
    store.delete key
    return .done
  | .copy key source? sourceKey move =>
    return .copied (← store.copyFrom key (source?.getD store) sourceKey move)
  | .clear => do
    store.clear
    return .done
  | .evict =>
    match store with
    | .caching _ cache _ => return .evicted (← cache.evict)
    | _ => return .done

end Store

/-- An operation and the time when it starts. -/
structure Step where
  time : Instant
  operation : Operation

/-- What a step of a run did. -/
structure Transition where
  before : World
  operation : Operation
  answer : Except BlobError Answer
  after : World

namespace Store

/-- One step of a run. -/
def step (store : Store) (w : World) (s : Step) : Transition :=
  let before := { w with now := s.time }
  match store.perform s.operation before with
  | .ok a after => ⟨before, s.operation, .ok a, after⟩
  | .error e after => ⟨before, s.operation, .error e, after⟩

/-- The steps of a run. -/
def trace (store : Store) : World → List Step → List Transition
  | _, [] => []
  | w, s :: steps =>
    let t := store.step w s
    t :: store.trace t.after steps

/-- The world after a run. -/
def run (store : Store) (w : World) (steps : List Step) : World :=
  steps.foldl (fun w s => (store.step w s).after) w

end Store

@[simp] theorem Store.step_before (store : Store) (w : World) (s : Step) :
    (store.step w s).before = { w with now := s.time } := by
  unfold Store.step
  dsimp only
  cases store.perform s.operation { w with now := s.time } <;> rfl

@[simp] theorem Store.step_operation (store : Store) (w : World) (s : Step) :
    (store.step w s).operation = s.operation := by
  unfold Store.step
  dsimp only
  cases store.perform s.operation { w with now := s.time } <;> rfl

theorem Store.forall_mem_trace_nil (store : Store) (w : World) (P : Transition → Prop) :
    ∀ t ∈ store.trace w [], P t := fun _ ht => absurd ht List.not_mem_nil

/-- What holds of every step of a run holds of the first one and of the rest of the run. -/
theorem Store.forall_mem_trace_cons {store : Store} {w : World} {s : Step} {steps : List Step}
    {P : Transition → Prop} :
    (∀ t ∈ store.trace w (s :: steps), P t) ↔
      P (store.step w s) ∧ ∀ t ∈ store.trace (store.step w s).after steps, P t :=
  List.forall_mem_cons

/-- What is ensured of an operation is true of the step that carries it out. -/
theorem Store.step_spec {store : Store} {w : World} {s : Step} {Q : Answer → World → Prop}
    {E : World → Prop}
    (h : Ensures (store.perform s.operation) { w with now := s.time } Q fun _ v => E v) :
    (∃ a, (store.step w s).answer = .ok a ∧ Q a (store.step w s).after) ∨
      (∃ e, (store.step w s).answer = .error e ∧ E (store.step w s).after) := by
  unfold Store.step
  dsimp only
  cases hrun : store.perform s.operation { w with now := s.time } with
  | ok a v => exact .inl ⟨a, rfl, h.ok_of_eq hrun⟩
  | error e v => exact .inr ⟨e, rfl, h.error_of_eq hrun⟩

end BlobVault
