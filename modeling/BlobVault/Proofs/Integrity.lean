import BlobVault.Proofs.Answers
import BlobVault.Proofs.Digest
import BlobVault.Provider

/-!
# Integrity of content under digest keys

A provider with a digest strategy derives the key of a write from its content, or takes a key that
has the shape of a digest; what is given is not compared with the content. So the objects have their
keys as digests exactly as long as no such key is stored with other content, and a later write of
the content that belongs to the key goes through without being stored.

1. `perform_brings`, `perform_idle`: what one request does to the objects under digest keys.
2. `brought_of_hold?`, `sound_iff`: what a run does, by induction over its requests.
3. `content_integrity_iff`: when content that was written can be read back, and when all objects
   have their keys as digests.
-/

namespace BlobVault

open Std (ExtTreeMap)

/-- The content of a stream that does not fail. -/
def ContentStream.complete? (chunks : ContentStream) : Option Bytes :=
  match chunks.gather with
  | (content, none) => some content
  | (_, some _) => none

namespace Provider

/-- A request to a provider. -/
inductive Request
  | write (chunks : ContentStream)
  | writeUnder (key : String) (chunks : ContentStream)
  | delete (key : String)

namespace Request

/-- The content of a write whose stream does not fail. -/
def content? : Request → Option Bytes
  | write chunks | writeUnder _ chunks => chunks.complete?
  | delete _ => none

/-- The key and the content that a request brings, unless it is refused or fails. -/
def brings? (algorithm : DigestAlgorithm) : Request → Option (String × Bytes)
  | write chunks => chunks.complete?.map fun content => (algorithm.digest content, content)
  | writeUnder key chunks =>
    if algorithm.isDigest key then chunks.complete?.map fun content => (key, content) else none
  | delete _ => none

variable {algorithm : DigestAlgorithm} {request : Request} {key : String} {content : Bytes}

theorem brings?_writeUnder (key : String) (chunks : ContentStream) :
    (writeUnder key chunks).brings? algorithm =
      if algorithm.isDigest key then chunks.complete?.map fun content => (key, content)
      else none := rfl

theorem isDigest_of_brings? (h : request.brings? algorithm = some (key, content)) :
    algorithm.isDigest key = true := by
  unfold brings? at h
  split at h
  · obtain ⟨bytes, -, heq⟩ := Option.map_eq_some_iff.1 h
    obtain ⟨rfl, -⟩ := Prod.mk.inj heq
    exact algorithm.isDigest_digest bytes
  · split at h
    · rename_i hdigest
      obtain ⟨bytes, -, heq⟩ := Option.map_eq_some_iff.1 h
      obtain ⟨rfl, -⟩ := Prod.mk.inj heq
      exact hdigest
    · exact absurd h nofun
  · exact absurd h nofun

theorem content?_of_brings? (h : request.brings? algorithm = some (key, content)) :
    request.content? = some content := by
  unfold brings? at h
  unfold content?
  split at h
  · obtain ⟨bytes, hbytes, heq⟩ := Option.map_eq_some_iff.1 h
    obtain ⟨-, rfl⟩ := Prod.mk.inj heq
    exact hbytes
  · split at h
    · obtain ⟨bytes, hbytes, heq⟩ := Option.map_eq_some_iff.1 h
      obtain ⟨-, rfl⟩ := Prod.mk.inj heq
      exact hbytes
    · exact absurd h nofun
  · exact absurd h nofun

end Request

/-- Carries a request out; a write gives the key that it settled on. -/
def perform (p : Provider) : Request → Action (Option String)
  | .write chunks => return some (← p.writeBlob chunks)
  | .writeUnder key chunks => return some (← p.writeBlobWithKey key chunks)
  | .delete key => do
    p.delete key
    return none

/-- The world after a request. -/
def next (p : Provider) (w : World) (request : Request) : World := w.after (p.perform request)

/-- The world after the first so many requests of a run. -/
def moment (p : Provider) (w : World) (requests : List Request) (n : Nat) : World :=
  (requests.take n).foldl p.next w

/-- The store behind the provider. -/
def base (p : Provider) : PlainStore := .remote p.remote

/-- What the store holds under a key. -/
def hold? (p : Provider) (w : World) (key : String) : Option Bytes := p.base.hold? w key

/-- A read of the key gets the content, into every file outside that takes it and as a stream. -/
structure Delivers (p : Provider) (w : World) (key : String) (content : Bytes) : Prop where
  file : ∀ dest : LocalPath, dest.IsOutside → w.Writable dest →
    ∃ v, p.readInto key dest w = .ok true v ∧ v.read dest = .ok content
  stream : ∃ stream u v, p.openStream key w = .ok (some stream) u ∧
    stream.drain u = .ok (content, none) v

/-- Every object under a digest key has the key as the digest of its bytes. -/
def Sound (p : Provider) (algorithm : DigestAlgorithm) (w : World) : Prop :=
  ∀ key content, algorithm.isDigest key = true → p.hold? w key = some content →
    algorithm.digest content = key

/-- No two contents of a run have the same digest. -/
def DistinctDigests (algorithm : DigestAlgorithm) (requests : List Request) : Prop :=
  ∀ a ∈ requests.filterMap Request.content?, ∀ b ∈ requests.filterMap Request.content?,
    algorithm.digest a = algorithm.digest b → a = b

/-- A provider that derives keys with the algorithm, has no cache, and begins all paths with whole
segments. -/
structure IsPlain (p : Provider) (algorithm : DigestAlgorithm) : Prop where
  keys : p.keys = .digest algorithm
  cache? : p.cache? = none
  closed : p.base.Closed

/-- No faults are ahead, and there is a place for temporary files. -/
structure Ready (p : Provider) (w : World) : Prop where
  quiet : p.base.Quiet w
  temps : ∃ files, w.temps? p.remote.tempDir = some files

variable {p : Provider} {algorithm : DigestAlgorithm} {w v : World} {key : String}
  {content : Bytes} {request : Request} {requests : List Request}

theorem Ready.of_looks (h : p.Ready w) (hlooks : w.Looks v) : p.Ready v := by
  refine ⟨h.quiet.of_looks hlooks, ?_⟩
  rw [hlooks.temps?]
  exact h.temps

theorem Ready.accept (h : p.Ready w) (key : String) (content : Bytes) :
    p.Ready (p.base.accept w key content) := by
  refine ⟨h.quiet.of_follows (p.base.follows_accept w key content), ?_⟩
  rw [PlainStore.temps?_accept]
  exact h.temps

theorem Ready.drop (h : p.Ready w) (key : String) : p.Ready (p.base.drop w key) := by
  refine ⟨h.quiet.of_follows (p.base.follows_drop w key), ?_⟩
  unfold PlainStore.drop
  rw [PlainStore.setObjects_rest]
  exact h.temps

/-! ## One request -/

/-- A digest key is never taken for a qualified one. -/
theorem localKey_of_isDigest (h : algorithm.isDigest key = true) : p.localKey key = key := by
  unfold localKey
  cases hdrop : Text.dropFront? (p.id.toList ++ [':']) key.toList with
  | none => rfl
  | some rest =>
    have hmem : ':' ∈ key.toList := by
      rw [Namespace.dropFront?_eq_some_iff.1 hdrop]
      simp
    exact absurd (DigestAlgorithm.isLowerDigit_of_isDigest h _ hmem) (by decide)

theorem store_of_no_cache (hp : p.cache? = none) : p.store = p.base.toStore := by
  unfold store
  rw [hp]
  rfl

/-- A read of a key gets what the store holds under the key without a qualifier. -/
theorem delivers_iff_hold? (hp : p.cache? = none) (hw : p.base.Quiet w)
    (hrange : ByteRange.splitKey (p.localKey key) = (p.localKey key, none)) :
    p.Delivers w key content ↔ p.hold? w (p.localKey key) = some content := by
  obtain ⟨u, hopen, -⟩ := PlainStore.stream_run hw (p.localKey key)
  have hopen' : p.openStream key w =
      .ok ((p.hold? w (p.localKey key)).map fun content => .delivery ⟨content, none⟩) u := by
    unfold openStream
    rw [store_of_no_cache hp]
    exact hopen
  constructor
  · rintro ⟨-, stream, u', v, hrun, hdrain⟩
    rw [hopen'] at hrun
    obtain ⟨hstream, rfl⟩ := EStateM.Result.ok.inj hrun
    obtain ⟨held, hheld, rfl⟩ := Option.map_eq_some_iff.1 hstream
    obtain rfl : held = content := congrArg Prod.fst (EStateM.Result.ok.inj hdrain).1
    exact hheld
  · intro hheld
    rw [hheld] at hopen'
    refine ⟨fun dest houtside hdest => ?_, _, u, u, hopen', rfl⟩
    obtain ⟨v, hlooks, hread⟩ := PlainStore.readInto_run hw (p.localKey key) dest
    have hasked : p.base.asked? w (p.localKey key) = some content :=
      (PlainStore.asked?_of_splitKey hrange).trans hheld
    rw [hasked] at hread
    refine ⟨v.place dest content, ?_, World.read_place (hlooks.writable hdest) content⟩
    unfold readInto
    rw [store_of_no_cache hp, hread]
    exact run_bind_ok (putFile_ok (hlooks.writable hdest) content) _

namespace IsPlain

variable (hp : p.IsPlain algorithm)

include hp

theorem writeBlob_eq (chunks : ContentStream) : p.writeBlob chunks =
    p.base.toStore.write
      { source := .stream chunks, observer? := some (Observer.digest algorithm) } := by
  unfold writeBlob
  rw [hp.keys, store_of_no_cache hp.cache?]
  rfl

/-- A given key is only looked at for its shape. -/
theorem writeBlobWithKey_eq (key : String) (chunks : ContentStream) :
    p.writeBlobWithKey key chunks = if algorithm.isDigest key then
      p.base.toStore.write {
        source := .stream chunks
        observer? := some (Observer.digest algorithm)
        key? := some key }
    else throw (.invalid (.malformedDigest key algorithm)) := by
  unfold writeBlobWithKey KeyStrategy.validate
  rw [hp.keys, store_of_no_cache hp.cache?]
  dsimp only
  split <;> rfl

end IsPlain

section

variable {chunks : ContentStream}

/-- A write of a stream that does not fail goes through. -/
theorem write_complete (algorithm : DigestAlgorithm) (key? : Option String) (h : p.Ready w)
    (hcomplete : chunks.complete? = some content) :
    ∃ v, p.base.toStore.write {
        source := .stream chunks
        observer? := some (Observer.digest algorithm)
        key? } w = .ok (key?.getD (algorithm.digest content)) v ∧
      (p.base.accept w (key?.getD (algorithm.digest content)) content).Looks v := by
  refine PlainStore.write_ok h.quiet h.temps ?_
  unfold ContentStream.complete? at hcomplete
  unfold WriteRequest.plan
  dsimp only
  split at hcomplete
  · rename_i bytes hgather
    obtain rfl := Option.some.inj hcomplete
    rw [hgather]
    refine (WriteRequest.keyed_observed rfl _ _).trans ?_
    rw [chunks.flatten_pieces, hgather]
  · exact absurd hcomplete nofun

/-- A write of a stream that fails stores nothing. -/
theorem write_incomplete (algorithm : DigestAlgorithm) (key? : Option String) (h : p.Ready w)
    (hcomplete : chunks.complete? = none) :
    ∃ e v, p.base.toStore.write {
        source := .stream chunks
        observer? := some (Observer.digest algorithm)
        key? } w = .error e v ∧ w.Looks v := by
  have hplan : ∃ e, WriteRequest.plan {
      source := .stream chunks
      observer? := some (Observer.digest algorithm)
      key? } w = .error e := by
    unfold ContentStream.complete? at hcomplete
    unfold WriteRequest.plan
    dsimp only
    split at hcomplete
    · exact absurd hcomplete nofun
    · rename_i bytes e hgather
      rw [hgather]
      exact ⟨_, rfl⟩
  obtain ⟨e, he⟩ := hplan
  exact ⟨e, PlainStore.write_error h.quiet h.temps he⟩

end

namespace IsPlain

variable (hp : p.IsPlain algorithm)

include hp

/-- A request that brings content goes through, and the store keeps what it has under the key. -/
theorem perform_brings (h : p.Ready w)
    (hbrings : request.brings? algorithm = some (key, content)) :
    ∃ v, p.perform request w = .ok (some key) v ∧ (p.base.accept w key content).Looks v := by
  cases request with
  | write chunks =>
    obtain ⟨bytes, hcomplete, heq⟩ := Option.map_eq_some_iff.1 hbrings
    obtain ⟨rfl, rfl⟩ := Prod.mk.inj heq
    obtain ⟨v, hrun, hlooks⟩ := write_complete algorithm none h hcomplete
    refine ⟨v, ?_, hlooks⟩
    rw [← hp.writeBlob_eq] at hrun
    exact run_bind_ok hrun _
  | writeUnder given chunks =>
    have hwrite := hp.writeBlobWithKey_eq given chunks
    rw [Request.brings?_writeUnder] at hbrings
    by_cases hgiven : algorithm.isDigest given = true
    · rw [if_pos hgiven] at hbrings hwrite
      obtain ⟨bytes, hcomplete, heq⟩ := Option.map_eq_some_iff.1 hbrings
      obtain ⟨rfl, rfl⟩ := Prod.mk.inj heq
      obtain ⟨v, hrun, hlooks⟩ := write_complete algorithm (some given) h hcomplete
      rw [← hwrite] at hrun
      exact ⟨v, run_bind_ok hrun _, hlooks⟩
    · rw [if_neg hgiven] at hbrings
      exact absurd hbrings nofun
  | delete given => exact absurd hbrings nofun

/-- A request that brings nothing leaves the objects as they are or deletes one. -/
theorem perform_idle (h : p.Ready w) (hbrings : request.brings? algorithm = none) :
    w.Looks (p.next w request) ∨
      ∃ given, (p.base.drop w given).Looks (p.next w request) := by
  cases request with
  | write chunks =>
    obtain ⟨e, v, hrun, hlooks⟩ := write_incomplete algorithm none h
      (Option.map_eq_none_iff.1 hbrings)
    rw [← hp.writeBlob_eq] at hrun
    refine .inl ?_
    unfold next World.after perform
    dsimp only
    rw [run_bind_error hrun]
    exact hlooks
  | writeUnder given chunks =>
    have hwrite := hp.writeBlobWithKey_eq given chunks
    rw [Request.brings?_writeUnder] at hbrings
    refine .inl ?_
    unfold next World.after perform
    dsimp only
    by_cases hgiven : algorithm.isDigest given = true
    · rw [if_pos hgiven] at hbrings hwrite
      obtain ⟨e, v, hrun, hlooks⟩ := write_incomplete algorithm (some given) h
        (Option.map_eq_none_iff.1 hbrings)
      rw [← hwrite] at hrun
      rw [run_bind_error hrun]
      exact hlooks
    · rw [if_neg hgiven] at hwrite
      rw [hwrite]
      exact .refl w
  | delete given =>
    obtain ⟨_, v, hrun, hv⟩ := (p.base.delete_spec w (p.localKey given)).exists_ok
    rw [← store_of_no_cache hp.cache?] at hrun
    have hafter : p.next w (.delete given) = v :=
      World.after_of_ok (run_bind_ok hrun _)
    rw [hafter]
    rcases hv with hlooks | ⟨-, hquiet⟩
    · exact .inr ⟨_, hlooks⟩
    · exact absurd h.quiet hquiet

/-- One request keeps what it finds under a digest key, deletes it, or fills a free key with what it
brings. -/
theorem next_spec (h : p.Ready w) (request : Request) :
    p.Ready (p.next w request) ∧
      ∀ other, algorithm.isDigest other = true →
        p.hold? (p.next w request) other = none ∨
        p.hold? (p.next w request) other = p.hold? w other ∨
        ∃ content, request.brings? algorithm = some (other, content) ∧ p.hold? w other = none ∧
          p.hold? (p.next w request) other = some content := by
  cases hbrings : request.brings? algorithm with
  | none =>
    rcases hp.perform_idle h hbrings with hlooks | ⟨given, hlooks⟩
    · exact ⟨h.of_looks hlooks, fun other _ =>
        .inr (.inl (PlainStore.hold?_of_looks hlooks p.base other))⟩
    · refine ⟨(h.drop given).of_looks hlooks, fun other _ => ?_⟩
      have hheld := PlainStore.hold?_of_looks hlooks p.base other
      unfold hold?
      rw [hheld]
      exact (p.base.hold?_drop_or w given other).imp_right .inl
  | some brought =>
    obtain ⟨key, content⟩ := brought
    obtain ⟨v, hrun, hlooks⟩ := hp.perform_brings h hbrings
    rw [show p.next w request = v from World.after_of_ok hrun]
    refine ⟨(h.accept key content).of_looks hlooks, fun other hother => .inr ?_⟩
    have hheld := PlainStore.hold?_of_looks hlooks p.base other
    unfold hold?
    rw [hheld]
    by_cases hsame : key = other
    · subst hsame
      rw [PlainStore.hold?_accept_self]
      cases hold : p.base.hold? w key with
      | some old => exact .inl rfl
      | none => exact .inr ⟨content, rfl, rfl, rfl⟩
    · have hkey := KeyStrategy.accepted_of_isDigest (Request.isDigest_of_brings? hbrings)
      exact .inl (PlainStore.hold?_accept_of_ne hp.closed hkey
        (KeyStrategy.accepted_of_isDigest hother) hsame content)

/-- A read of a digest key gets what the store holds under it. -/
theorem delivers_iff (h : p.Ready w) (hkey : algorithm.isDigest key = true) {held : Bytes}
    (hheld : p.hold? w key = some held) : p.Delivers w key content ↔ held = content := by
  have hlocal := localKey_of_isDigest (p := p) hkey
  rw [delivers_iff_hold? hp.cache? h.quiet, hlocal, hheld, Option.some_inj]
  rw [hlocal]
  exact (KeyStrategy.accepted_of_isDigest hkey).splitKey

/-- Content that is written goes through, and its key keeps what it holds. -/
theorem writeBlob_complete (h : p.Ready w) {chunks : ContentStream}
    (hcomplete : chunks.complete? = some content) :
    ∃ v, p.writeBlob chunks w = .ok (algorithm.digest content) v ∧ p.Ready v ∧
      p.hold? v (algorithm.digest content) =
        some ((p.hold? w (algorithm.digest content)).getD content) := by
  obtain ⟨v, hrun, hlooks⟩ := write_complete algorithm none h hcomplete
  rw [← hp.writeBlob_eq] at hrun
  exact ⟨v, hrun, (h.accept _ content).of_looks hlooks,
    (PlainStore.hold?_of_looks hlooks _ _).trans (PlainStore.hold?_accept_self content)⟩

/-- Content that is written is read back unless its key holds something else. -/
theorem writeBlob_delivers (h : p.Ready w) {chunks : ContentStream}
    (hcomplete : chunks.complete? = some content) :
    ∃ v, p.writeBlob chunks w = .ok (algorithm.digest content) v ∧
      (p.Delivers v (algorithm.digest content) content ↔
        ∀ held, p.hold? w (algorithm.digest content) = some held → held = content) := by
  obtain ⟨v, hrun, hready, hheld⟩ := hp.writeBlob_complete h hcomplete
  refine ⟨v, hrun, ?_⟩
  rw [hp.delivers_iff hready (algorithm.isDigest_digest content) hheld]
  cases p.hold? w (algorithm.digest content) <;> simp

/-- Content that does not arrive is not written. -/
theorem writeBlob_incomplete (h : p.Ready w) {chunks : ContentStream}
    (hcomplete : chunks.complete? = none) : ∃ e v, p.writeBlob chunks w = .error e v := by
  obtain ⟨e, v, hrun, -⟩ := write_incomplete algorithm none h hcomplete
  rw [← hp.writeBlob_eq] at hrun
  exact ⟨e, v, hrun⟩

end IsPlain

/-! ## Runs -/

theorem moment_succ {n : Nat} (h : requests[n]? = some request) :
    p.moment w requests (n + 1) = p.next (p.moment w requests n) request :=
  foldl_take_succ p.next w h

/-- What holds at first and is kept by every request holds at all moments. -/
theorem moment_induction {P : World → Prop} (h : P w)
    (hnext : ∀ n request, requests[n]? = some request → P (p.moment w requests n) →
      P (p.next (p.moment w requests n) request)) (n : Nat) :
    P (p.moment w requests n) := by
  induction n with
  | zero => exact h
  | succ n ih =>
    cases hrequest : requests[n]? with
    | some request =>
      rw [moment_succ hrequest]
      exact hnext n request hrequest ih
    | none =>
      rw [List.getElem?_eq_none_iff] at hrequest
      unfold moment at ih ⊢
      rw [List.take_of_length_le (by omega)]
      rwa [List.take_of_length_le hrequest] at ih

namespace IsPlain

variable (hp : p.IsPlain algorithm) (h : p.Ready w)

include hp h

theorem ready_moment (n : Nat) : p.Ready (p.moment w requests n) :=
  moment_induction h (fun _ request _ hready => (hp.next_spec hready request).1) n

variable (hempty : ∀ key, algorithm.isDigest key = true → p.hold? w key = none)

include hempty

/-- All that is held under a digest key was brought in the run. -/
theorem brought_of_hold? (n : Nat) (hkey : algorithm.isDigest key = true)
    (hheld : p.hold? (p.moment w requests n) key = some content) :
    ∃ request ∈ requests, request.brings? algorithm = some (key, content) := by
  have hall : ∀ key content, algorithm.isDigest key = true →
      p.hold? (p.moment w requests n) key = some content →
      ∃ request ∈ requests, request.brings? algorithm = some (key, content) := by
    refine moment_induction (P := fun v => ∀ key content, algorithm.isDigest key = true →
      p.hold? v key = some content → ∃ request ∈ requests,
        request.brings? algorithm = some (key, content)) ?_ ?_ n
    · intro key content hkey hheld
      rw [hempty key hkey] at hheld
      exact absurd hheld nofun
    · intro k request hrequest ih key content hkey hheld
      rcases (hp.next_spec (hp.ready_moment h k) request).2 key hkey with
        hnone | hsame | ⟨bytes, hbrings, -, hnew⟩
      · exact absurd (hheld.symm.trans hnone) nofun
      · exact ih key content hkey (hsame ▸ hheld)
      · obtain rfl : bytes = content := Option.some.inj (hnew.symm.trans hheld)
        exact ⟨request, List.mem_of_getElem? hrequest, hbrings⟩
  exact hall key content hkey hheld

/-- The objects have their keys as digests at all moments just if no free key is given to content
with another digest. -/
theorem sound_iff :
    (∀ n, p.Sound algorithm (p.moment w requests n)) ↔
      ∀ (n : Nat) (key : String) (chunks : ContentStream) (content : Bytes),
        requests[n]? = some (.writeUnder key chunks) → algorithm.isDigest key = true →
        chunks.complete? = some content →
        p.hold? (p.moment w requests n) key = none → algorithm.digest content = key := by
  constructor
  · intro hsound n key chunks content hrequest hkey hcomplete hfree
    have hbrings : (Request.writeUnder key chunks).brings? algorithm = some (key, content) := by
      rw [Request.brings?_writeUnder, if_pos hkey, hcomplete]
      rfl
    obtain ⟨v, hrun, hlooks⟩ := hp.perform_brings (hp.ready_moment h n) hbrings
    refine hsound (n + 1) key content hkey ?_
    rw [moment_succ hrequest, show p.next _ _ = v from World.after_of_ok hrun]
    refine (PlainStore.hold?_of_looks hlooks _ _).trans ((PlainStore.hold?_accept_self _).trans ?_)
    rw [show p.base.hold? _ key = none from hfree]
    rfl
  · intro hexplicit
    refine moment_induction ?_ ?_
    · intro key content hkey hheld
      rw [hempty key hkey] at hheld
      exact absurd hheld nofun
    · intro n request hrequest ih key content hkey hheld
      rcases (hp.next_spec (hp.ready_moment h n) request).2 key hkey with
        hnone | hsame | ⟨bytes, hbrings, hfree, hnew⟩
      · exact absurd (hheld.symm.trans hnone) nofun
      · exact ih key content hkey (hsame ▸ hheld)
      · obtain rfl : bytes = content := Option.some.inj (hnew.symm.trans hheld)
        -- only a given key can be free of the digest of its content
        cases request with
        | write chunks =>
          obtain ⟨_, -, heq⟩ := Option.map_eq_some_iff.1 hbrings
          obtain ⟨rfl, rfl⟩ := Prod.mk.inj heq
          rfl
        | writeUnder given chunks =>
          have hcomplete := Request.content?_of_brings? hbrings
          rw [Request.brings?_writeUnder] at hbrings
          split at hbrings
          · obtain ⟨_, -, heq⟩ := Option.map_eq_some_iff.1 hbrings
            obtain ⟨rfl, -⟩ := Prod.mk.inj heq
            exact hexplicit n _ chunks _ hrequest hkey hcomplete hfree
          · exact absurd hbrings nofun
        | delete given => exact absurd hbrings nofun

/-- As long as the objects have their keys as digests, and no two contents share one, a key holds no
other content than the one that is written. -/
theorem held_eq_of_sound (hdistinct : DistinctDigests algorithm requests) {n : Nat}
    (hsound : p.Sound algorithm (p.moment w requests n)) {chunks : ContentStream}
    (hrequest : requests[n]? = some (.write chunks)) (hcomplete : chunks.complete? = some content)
    {held : Bytes}
    (hheld : p.hold? (p.moment w requests n) (algorithm.digest content) = some held) :
    held = content := by
  have hkey := algorithm.isDigest_digest content
  obtain ⟨request, hmem, hbrings⟩ := hp.brought_of_hold? h hempty n hkey hheld
  refine hdistinct held ?_ content ?_ (hsound _ _ hkey hheld)
  · exact List.mem_filterMap.2 ⟨request, hmem, Request.content?_of_brings? hbrings⟩
  · exact List.mem_filterMap.2 ⟨_, List.mem_of_getElem? hrequest, hcomplete⟩

end IsPlain

/-- **Integrity of content.** In every run of a plain provider that starts without objects under
digest keys:

* content that is written without a key goes through, and is read back right afterwards exactly if
  its digest held nothing else;
* all objects have their keys as digests, at all moments, exactly if every content that was stored
  under a given key has that key as its digest;
* if they have, and no two contents share a digest, then every content that is written is read
  back. -/
theorem content_integrity_iff (p : Provider) (algorithm : DigestAlgorithm)
    (hp : p.IsPlain algorithm) (w : World) (h : p.Ready w)
    (hempty : ∀ key, algorithm.isDigest key = true → p.hold? w key = none)
    (requests : List Request) :
    (∀ (n : Nat) (chunks : ContentStream), requests[n]? = some (.write chunks) →
      match chunks.complete? with
      | none => ∃ e v, p.writeBlob chunks (p.moment w requests n) = .error e v
      | some content =>
        ∃ v, p.writeBlob chunks (p.moment w requests n) = .ok (algorithm.digest content) v ∧
          (p.Delivers v (algorithm.digest content) content ↔
            ∀ held, p.hold? (p.moment w requests n) (algorithm.digest content) = some held →
              held = content)) ∧
    ((∀ n, p.Sound algorithm (p.moment w requests n)) ↔
      ∀ (n : Nat) (key : String) (chunks : ContentStream) (content : Bytes),
        requests[n]? = some (.writeUnder key chunks) → algorithm.isDigest key = true →
        chunks.complete? = some content →
        p.hold? (p.moment w requests n) key = none → algorithm.digest content = key) ∧
    (DistinctDigests algorithm requests → (∀ n, p.Sound algorithm (p.moment w requests n)) →
      ∀ (n : Nat) (chunks : ContentStream) (content : Bytes),
        requests[n]? = some (.write chunks) → chunks.complete? = some content →
        ∃ v, p.writeBlob chunks (p.moment w requests n) = .ok (algorithm.digest content) v ∧
          p.Delivers v (algorithm.digest content) content) := by
  refine ⟨fun n chunks _ => ?_, hp.sound_iff h hempty, ?_⟩
  · cases hcomplete : chunks.complete? with
    | none => exact hp.writeBlob_incomplete (hp.ready_moment h n) hcomplete
    | some content => exact hp.writeBlob_delivers (hp.ready_moment h n) hcomplete
  · intro hdistinct hsound n chunks content hrequest hcomplete
    obtain ⟨v, hrun, hdelivers⟩ := hp.writeBlob_delivers (hp.ready_moment h n) hcomplete
    exact ⟨v, hrun, hdelivers.2 fun held hheld =>
      hp.held_eq_of_sound h hempty hdistinct (hsound n) hrequest hcomplete hheld⟩

/-- A blob is written, deleted under its qualified key, and written again. -/
theorem content_integrity_after_delete :
    let p : Provider := {
      id := "vault"
      keys := .digest .md5
      remote := {
        name := "vault"
        location := ⟨"account", "box"⟩
        container := "box"
        tempDir := .scratch "temps" } }
    let w : World := { scratch := ExtTreeMap.insert ∅ "temps" ∅ }
    let requests : List Request := [.write [.ok [102, 111], .ok [111]],
      .delete "vault:acbd18db4cc2f85cedef654fccc4a4d8", .write [.ok [102, 111, 111]]]
    DistinctDigests .md5 requests ∧ (∀ n, p.Sound .md5 (p.moment w requests n)) ∧
      ∃ v, p.writeBlob [.ok [102, 111, 111]] (p.moment w requests 2) =
          .ok (DigestAlgorithm.md5.digest [102, 111, 111]) v ∧
        p.Delivers v (DigestAlgorithm.md5.digest [102, 111, 111]) [102, 111, 111] := by
  intro p w requests
  have hp : p.IsPlain .md5 := ⟨rfl, rfl, Namespace.closed_ofText ""⟩
  have h : p.Ready w := ⟨World.quiet_of_containers rfl _, ∅, ExtTreeMap.getElem?_insert_self⟩
  have hall := content_integrity_iff p .md5 hp w h
    (fun _ _ => PlainStore.hold?_of_containers rfl) requests
  have hdistinct : DistinctDigests .md5 requests := by
    intro a ha b hb _
    have hcontents : requests.filterMap Request.content? = [[102, 111, 111], [102, 111, 111]] := rfl
    rw [hcontents] at ha hb
    simp only [List.mem_cons, List.not_mem_nil, or_false, or_self] at ha hb
    rw [ha, hb]
  have hsound : ∀ n, p.Sound .md5 (p.moment w requests n) := by
    refine hall.2.1.2 fun n key chunks content hrequest => ?_
    have hmem : Request.writeUnder key chunks ∈ requests := List.mem_of_getElem? hrequest
    simp [requests] at hmem
  exact ⟨hdistinct, hsound, hall.2.2 hdistinct hsound 2 _ _ rfl rfl⟩

/-- Content under the key of other content: the write of the rightful content goes through, and what
is read back is still the first content. -/
theorem content_lost_under_given_key :
    let p : Provider := {
      id := "vault"
      keys := .digest .md5
      remote := {
        name := "vault"
        location := ⟨"account", "box"⟩
        container := "box"
        tempDir := .scratch "temps" } }
    let w : World := { scratch := ExtTreeMap.insert ∅ "temps" ∅ }
    let requests : List Request :=
      [.writeUnder "acbd18db4cc2f85cedef654fccc4a4d8" [.ok [98, 97, 114]],
        .write [.ok [102, 111, 111]]]
    DistinctDigests .md5 requests ∧ (∀ key, p.hold? w key = none) ∧
      (∃ v, p.perform (.writeUnder "acbd18db4cc2f85cedef654fccc4a4d8" [.ok [98, 97, 114]]) w =
        .ok (some "acbd18db4cc2f85cedef654fccc4a4d8") v) ∧
      ¬ p.Sound .md5 (p.moment w requests 1) ∧
      ∃ v, p.writeBlob [.ok [102, 111, 111]] (p.moment w requests 1) =
          .ok "acbd18db4cc2f85cedef654fccc4a4d8" v ∧
        p.Delivers v "acbd18db4cc2f85cedef654fccc4a4d8" [98, 97, 114] ∧
        ¬ p.Delivers v "acbd18db4cc2f85cedef654fccc4a4d8" [102, 111, 111] := by
  intro p w requests
  have hp : p.IsPlain .md5 := ⟨rfl, rfl, Namespace.closed_ofText ""⟩
  have h : p.Ready w := ⟨World.quiet_of_containers rfl _, ∅, ExtTreeMap.getElem?_insert_self⟩
  have hempty : ∀ key, p.hold? w key = none := fun _ => PlainStore.hold?_of_containers rfl
  have hfoo : DigestAlgorithm.md5.digest [102, 111, 111] = "acbd18db4cc2f85cedef654fccc4a4d8" := by
    decide +kernel
  have hbar : DigestAlgorithm.md5.digest [98, 97, 114] = "37b51d194a7513e45b56f6524f2d51f2" := by
    decide +kernel
  have hkey : DigestAlgorithm.md5.isDigest "acbd18db4cc2f85cedef654fccc4a4d8" = true := by decide
  have hdistinct : DistinctDigests .md5 requests := by
    unfold DistinctDigests
    have hcontents : requests.filterMap Request.content? = [[98, 97, 114], [102, 111, 111]] := rfl
    rw [hcontents]
    decide +kernel
  have hbrings : (Request.writeUnder "acbd18db4cc2f85cedef654fccc4a4d8" [.ok [98, 97, 114]]).brings?
      .md5 = some ("acbd18db4cc2f85cedef654fccc4a4d8", [98, 97, 114]) := by decide
  obtain ⟨v, hfirst, hlooks⟩ := hp.perform_brings h hbrings
  have hmoment : p.moment w requests 1 = v := World.after_of_ok hfirst
  have hheld : p.hold? v "acbd18db4cc2f85cedef654fccc4a4d8" = some [98, 97, 114] := by
    refine (PlainStore.hold?_of_looks hlooks _ _).trans
      ((PlainStore.hold?_accept_self [98, 97, 114]).trans ?_)
    rw [show p.base.hold? w _ = none from hempty _]
    rfl
  obtain ⟨u, hsecond, hready, hstays⟩ := hp.writeBlob_complete
    ((h.accept _ _).of_looks hlooks) (show ContentStream.complete? [.ok [102, 111, 111]] =
      some [102, 111, 111] from rfl)
  rw [hfoo] at hsecond hstays
  rw [hheld] at hstays
  refine ⟨hdistinct, hempty, ⟨v, hfirst⟩, fun hsound => ?_, u, ?_, ?_, ?_⟩
  · rw [hmoment] at hsound
    have hdigest := hsound _ _ hkey hheld
    rw [hbar] at hdigest
    exact absurd hdigest (by decide)
  · rw [hmoment]
    exact hsecond
  · exact (hp.delivers_iff hready hkey hstays).2 rfl
  · rw [hp.delivers_iff hready hkey hstays]
    decide

end Provider

end BlobVault
