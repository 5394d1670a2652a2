import BlobVault.Proofs.Integrity
import BlobVault.Proofs.Gc.Exact
import BlobVault.Proofs.Caching.ReadAfterWrite

/-!
# Deduplicating writes

A write without a key of its own whose content passes a digest observer stores the content under its
digest. Where a namespace has nothing else, it has each content once, however often and in whatever
pieces the content was written: the second write finds the object of the first and leaves it there.

1. `WriteRequest.DigestsTo`: writes of this kind, from streams and from local files.
2. `DigestedStore`: a store without a cache, or with a cache in front of it, and what one write does
   to the objects behind it.
3. `PlainStore.Stocked`: the objects of a namespace are those of some contents. An accepted content
   keeps a namespace stocked.
4. `DigestedStore.writes_spec`, by induction over the writes, and `DigestedStore.deduplicates`.
-/

namespace BlobVault

open Std (ExtTreeMap)
open KeyStrategy (Accepted)

/-! ## Writes under digests -/

/-- The content that a source brings: a stream that ends without a failure, or a local file of the
caller's. -/
def ContentSource.Brings (w : World) (content : Bytes) : ContentSource → Prop
  | .stream chunks => chunks.complete? = some content
  | .file path => path.IsOutside ∧ w.read path = .ok content

namespace WriteRequest

/-- The request brings the content, with a digest observer and without a key. -/
structure DigestsTo (algorithm : DigestAlgorithm) (w : World) (q : WriteRequest) (content : Bytes) :
    Prop where
  observer? : q.observer? = some (Observer.digest algorithm)
  key? : q.key? = none
  source : q.source.Brings w content

variable {algorithm : DigestAlgorithm} {w v : World} {q : WriteRequest} {content : Bytes}

/-- The key of such a request is the digest of all the content. -/
theorem DigestsTo.plan (h : q.DigestsTo algorithm w content) :
    q.plan w = .ok (algorithm.digest content, .ok content) := by
  have hkeyed : ∀ pieces : List Bytes, pieces.flatten = content →
      (q.observed pieces).keyed (.ok content) = .ok (algorithm.digest content, .ok content) := by
    rintro pieces rfl
    rw [keyed_observed h.observer?, h.key?]
    rfl
  have hsource := h.source
  unfold WriteRequest.plan
  cases hq : q.source with
  | stream chunks =>
    rw [hq] at hsource
    have hcomplete : chunks.complete? = some content := hsource
    unfold ContentStream.complete? at hcomplete
    dsimp only
    split at hcomplete
    · rename_i bytes hgather
      obtain rfl := Option.some.inj hcomplete
      rw [hgather]
      exact hkeyed _ (by rw [chunks.flatten_pieces, hgather])
    · exact absurd hcomplete nofun
  | file path =>
    rw [hq] at hsource
    dsimp only
    rw [hsource.2, h.observer?]
    exact hkeyed _ (flatten_readPieces content)

/-- The files of the caller's are all that such a request depends on. -/
theorem DigestsTo.of_files (h : q.DigestsTo algorithm w content) (hfiles : v.files = w.files) :
    q.DigestsTo algorithm v content := by
  refine ⟨h.observer?, h.key?, ?_⟩
  have hsource := h.source
  cases hq : q.source with
  | stream chunks =>
    rw [hq] at hsource
    exact hsource
  | file path =>
    rw [hq] at hsource
    exact ⟨hsource.1, (World.read_of_files hsource.1 hfiles).trans hsource.2⟩

theorem DigestsTo.isLasting (h : q.DigestsTo algorithm w content) : q.IsLasting := by
  intro path hpath htemporary
  have hsource := h.source
  rw [hpath] at hsource
  cases path with
  | temp _ _ => exact hsource.1
  | caller _ => exact htemporary
  | detached => exact htemporary
  | entry _ _ => exact htemporary

end WriteRequest

/-! ## Namespaces that have nothing else -/

/-- No two of the contents have the same digest. -/
def DigestAlgorithm.Separates (algorithm : DigestAlgorithm) (contents : List Bytes) : Prop :=
  ∀ a ∈ contents, ∀ b ∈ contents, algorithm.digest a = algorithm.digest b → a = b

namespace PlainStore

/-- The object of that name stands for a key of the store's own namespace. -/
def owns : PlainStore → String → Bool
  | .memory _, _ => true
  | .remote r, name => (r.space.localKey? ⟨name⟩).isSome

/-- The objects of the store's own namespace. -/
def ownObjects (p : PlainStore) (w : World) : Blobs :=
  (p.objects w).filter fun name _ => p.owns name

/-- The objects of the namespace are those of some contents, each under its digest. -/
def Stocked (p : PlainStore) (algorithm : DigestAlgorithm) (contents : List Bytes) (w : World) :
    Prop :=
  ∀ (name : String) (bytes : Bytes), (p.ownObjects w)[name]? = some bytes ↔
    bytes ∈ contents ∧ name = p.root ++ algorithm.digest bytes

variable {p : PlainStore} {algorithm : DigestAlgorithm} {w v : World} {contents : List Bytes}
  {content : Bytes}

theorem owns_of_isDigest (p : PlainStore) {key : String} (h : algorithm.isDigest key = true) :
    p.owns (p.root ++ key) = true := by
  cases p with
  | memory m => rfl
  | remote r =>
    have hkey : r.space.localKey? ⟨r.space.root ++ key⟩ = some key := by
      rw [Namespace.localKey?_eq_some_iff, ← String.toList_append, String.ofList_toList]
      exact ⟨DigestAlgorithm.plainChars_of_isDigest h, rfl⟩
    show (r.space.localKey? _).isSome = true
    rw [show (remote r).root = r.space.root from rfl, hkey]
    rfl

theorem owns_digest (p : PlainStore) (algorithm : DigestAlgorithm) (content : Bytes) :
    p.owns (p.root ++ algorithm.digest content) = true :=
  p.owns_of_isDigest (algorithm.isDigest_digest content)

theorem getElem?_ownObjects {name : String} {bytes : Bytes} :
    (p.ownObjects w)[name]? = some bytes ↔
      (p.objects w)[name]? = some bytes ∧ p.owns name = true := by
  unfold ownObjects
  rw [ExtTreeMap.getElem?_filter', Option.filter_eq_some_iff]

theorem address_digest (hp : p.Canonical) (algorithm : DigestAlgorithm) (content : Bytes) :
    p.address (algorithm.digest content) = p.root ++ algorithm.digest content :=
  address_of_isDigest hp (algorithm.isDigest_digest content)

theorem stocked_nil (h : p.ownObjects w = ∅) : p.Stocked algorithm [] w := by
  intro name bytes
  rw [h, ExtTreeMap.getElem?_empty]
  exact ⟨nofun, fun h => absurd h.1 List.not_mem_nil⟩

theorem Stocked.of_mem (h : p.Stocked algorithm contents w) {others : List Bytes}
    (hmem : ∀ bytes, bytes ∈ others ↔ bytes ∈ contents) : p.Stocked algorithm others w := by
  intro name bytes
  rw [h name bytes, hmem]

theorem Stocked.of_objects (h : p.Stocked algorithm contents w)
    (hobjects : p.objects v = p.objects w) : p.Stocked algorithm contents v := by
  unfold Stocked ownObjects
  rw [hobjects]
  exact h

/-- What is held under the digest of a content is that content. -/
theorem Stocked.hold?_eq_some_iff (hp : p.Canonical) (h : p.Stocked algorithm contents w)
    {bytes : Bytes} :
    p.hold? w (algorithm.digest content) = some bytes ↔
      bytes ∈ contents ∧ algorithm.digest content = algorithm.digest bytes := by
  unfold hold?
  rw [address_digest hp]
  have hname := h (p.root ++ algorithm.digest content) bytes
  rw [getElem?_ownObjects, and_iff_left (owns_digest p algorithm content)] at hname
  rw [hname]
  refine and_congr_right fun _ => ⟨root_append_inj, fun heq => ?_⟩
  rw [heq]

/-- A stocked namespace takes another content under its digest, unless it has it already. -/
theorem Stocked.accept (hp : p.Canonical) (h : p.Stocked algorithm contents w)
    (hdistinct : algorithm.Separates (content :: contents)) :
    p.Stocked algorithm (content :: contents) (p.accept w (algorithm.digest content) content) := by
  have hcontent := hdistinct content List.mem_cons_self
  intro name bytes
  cases hheld : p.hold? w (algorithm.digest content) with
  | some held =>
    obtain ⟨hmem, hdigest⟩ := (h.hold?_eq_some_iff hp).1 hheld
    obtain rfl := hcontent held (List.mem_cons_of_mem _ hmem) hdigest
    rw [accept_of_held (by rw [hheld]; rfl), h name bytes, List.mem_cons]
    refine and_congr_left fun _ => (or_iff_right_of_imp ?_).symm
    rintro rfl
    exact hmem
  | none =>
    have hobjects : (p.objects (p.put w (algorithm.digest content) content)) =
        (p.objects w).insert (p.root ++ algorithm.digest content) content := by
      unfold put
      rw [objects_setObjects, address_digest hp]
    rw [accept_of_free hheld, getElem?_ownObjects, hobjects, ExtTreeMap.getElem?_insert]
    split
    · rename_i hname
      obtain rfl := Std.LawfulEqCmp.eq_of_compare hname
      constructor
      · rintro ⟨hbytes, -⟩
        obtain rfl := Option.some.inj hbytes
        exact ⟨List.mem_cons_self, rfl⟩
      · rintro ⟨hmem, hname⟩
        rw [hcontent bytes hmem (root_append_inj hname)]
        exact ⟨rfl, owns_digest p algorithm bytes⟩
    · rename_i hname
      rw [← getElem?_ownObjects, h name bytes, List.mem_cons]
      refine and_congr_left fun hbytes => (or_iff_right ?_).symm
      rintro rfl
      exact hname (hbytes ▸ Std.ReflCmp.compare_self)

/-- In a stocked namespace there is one object for each content. -/
theorem Stocked.perm (h : p.Stocked algorithm contents w) :
    (p.ownObjects w).toList.Perm
      (contents.dedup.map fun content => (p.root ++ algorithm.digest content, content)) := by
  refine (List.perm_ext_iff_of_nodup (.of_map Prod.fst (nodup_names _)) ?_).2 ?_
  · exact contents.nodup_dedup.map fun a b hab => (Prod.mk.inj hab).2
  · rintro ⟨name, bytes⟩
    rw [ExtTreeMap.mem_toList_iff_getElem?_eq_some, h name bytes, List.mem_map]
    constructor
    · rintro ⟨hmem, rfl⟩
      exact ⟨bytes, List.mem_dedup.2 hmem, rfl⟩
    · rintro ⟨content, hmem, heq⟩
      obtain ⟨rfl, rfl⟩ := Prod.mk.inj heq
      exact ⟨List.mem_dedup.1 hmem, rfl⟩

/-- The candidates of a collection over a stocked namespace are the digests of the contents. -/
theorem Stocked.begin_exact (hp : p.Canonical) (hw : p.Quiet w)
    (h : p.Stocked algorithm contents w) (pageSize : Nat) (order : SweepOrder) :
    ∃ pass u, (GarbageCollector.mk p.catalog algorithm pageSize order).begin w = .ok pass u ∧
      ∀ key, pass.isCandidate key = true ↔
        ∃ content ∈ contents, key = algorithm.digest content := by
  obtain ⟨pass, u, hbegin, -, hbegun⟩ := PlainStore.begin_exact hp hw
    (GarbageCollector.mk p.catalog algorithm pageSize order) rfl
  refine ⟨pass, u, hbegin, fun key => ?_⟩
  unfold GcPass.isCandidate
  rw [List.contains_iff_mem, hbegun.mem]
  constructor
  · rintro ⟨hdigest, hin⟩
    obtain ⟨bytes, hbytes⟩ := Option.isSome_iff_exists.1 (ExtTreeMap.mem_iff_isSome_getElem?.1 hin)
    have howned := getElem?_ownObjects.2 ⟨hbytes, p.owns_of_isDigest hdigest⟩
    obtain ⟨hmem, hname⟩ := (h _ bytes).1 howned
    exact ⟨bytes, hmem, root_append_inj hname⟩
  · rintro ⟨content, hmem, rfl⟩
    have hobject := (h (p.root ++ algorithm.digest content) content).2 ⟨hmem, rfl⟩
    refine ⟨algorithm.isDigest_digest content, ExtTreeMap.mem_iff_isSome_getElem?.2 ?_⟩
    rw [(getElem?_ownObjects.1 hobject).1]
    rfl

end PlainStore

/-! ## Stores with at most one cache -/

/-- A memory store, or a remote store with a canonical namespace, bare or with a cache in front. -/
inductive DigestedStore
  | bare (p : PlainStore) (canonical : p.Canonical)
  | cached (s : CachedStore)

namespace DigestedStore

/-- The store among all stores. -/
def toStore : DigestedStore → Store
  | bare p _ => p.toStore
  | cached s => s.toStore

/-- The store that keeps the blobs. -/
def backing : DigestedStore → PlainStore
  | bare p _ => p
  | cached s => s.inner

/-- No faults are ahead, and the store has its place for temporary files and its cache. -/
def Ready (w : World) : DigestedStore → Prop
  | bare p _ => w.Quiet ∧ ∃ files, w.temps? p.tempDir = some files
  | cached s => w.Quiet ∧ s.cache.Intact w

variable {s : DigestedStore} {algorithm : DigestAlgorithm} {w v : World} {q : WriteRequest}
  {content : Bytes}

theorem canonical (s : DigestedStore) : s.backing.Canonical := by
  cases s with
  | bare p canonical => exact canonical
  | cached s => exact s.canonical

theorem Ready.quiet (h : s.Ready w) : s.backing.Quiet w := by
  cases s with
  | bare p canonical => exact .of_world h.1 p
  | cached s => exact .of_world h.1 s.inner

/-- A write gives the digest, the backing store accepts the content under it, and the store is ready
for the next write. -/
theorem write_spec (h : s.Ready w) (hq : q.DigestsTo algorithm w content) :
    ∃ v, s.toStore.write q w = .ok (algorithm.digest content) v ∧ s.Ready v ∧
      v.files = w.files ∧
      s.backing.objects v =
        s.backing.objects (s.backing.accept w (algorithm.digest content) content) := by
  cases s with
  | bare p canonical =>
    obtain ⟨hquiet, htemp⟩ := h
    obtain ⟨v, hrun, hv⟩ := p.write_ok (.of_world hquiet p) htemp hq.plan
    refine ⟨v, hrun, ⟨?_, ?_⟩, ?_, PlainStore.objects_of_looks hv p⟩
    · exact ((p.follows_accept w _ content).trans hv.follows).quiet hquiet
    · rwa [hv.temps?, PlainStore.temps?_accept]
    · rw [hv.rest, PlainStore.accept_rest]
  | cached s =>
    obtain ⟨hquiet, hintact⟩ := h
    have hkey : Accepted (algorithm.digest content) :=
      KeyStrategy.accepted_of_isDigest (algorithm.isDigest_digest content)
    obtain ⟨v, hrun, hv⟩ := s.write_ok hintact hquiet hq.isLasting hkey hq.plan
    refine ⟨v, hrun, ⟨hv.follows.quiet hquiet, hv.intact hintact⟩, hv.files, ?_⟩
    obtain ⟨es, hturns, -⟩ := hv
    exact PlainStore.objects_of_turns hturns s.inner

/-! ## Runs of writes -/

/-- A write adds its content to those that a namespace is stocked with. -/
theorem write_stocks (h : s.Ready w) (hq : q.DigestsTo algorithm w content) {held : List Bytes}
    (hheld : s.backing.Stocked algorithm held w)
    (hdistinct : algorithm.Separates (content :: held)) :
    ∃ v, s.toStore.write q w = .ok (algorithm.digest content) v ∧ s.Ready v ∧
      v.files = w.files ∧ s.backing.Stocked algorithm (content :: held) v := by
  obtain ⟨v, hrun, hready, hfiles, hobjects⟩ := write_spec h hq
  exact ⟨v, hrun, hready, hfiles, (hheld.accept s.canonical hdistinct).of_objects hobjects⟩

/-- A list of writes goes through: each gives the digest of its content, and the namespace is
stocked with the contents in addition to what it had. -/
theorem writes_spec (h : s.Ready w) {requests : List WriteRequest} {contents held : List Bytes}
    (hrequests : List.Forall₂ (fun q content => q.DigestsTo algorithm w content) requests contents)
    (hheld : s.backing.Stocked algorithm held w)
    (hdistinct : algorithm.Separates (contents ++ held)) :
    ∃ v, requests.mapM s.toStore.write w = .ok (contents.map algorithm.digest) v ∧ s.Ready v ∧
      s.backing.Stocked algorithm (contents ++ held) v := by
  induction requests generalizing w contents held with
  | nil =>
    cases hrequests
    exact ⟨w, rfl, h, hheld⟩
  | cons q requests ih =>
    obtain ⟨content, rest, hq, hrest, rfl⟩ := List.forall₂_cons_left_iff.1 hrequests
    -- the content of the first write moves over to what the namespace had
    have hmem : ∀ bytes, bytes ∈ content :: rest ++ held ↔ bytes ∈ rest ++ content :: held := by
      intro bytes
      exact List.perm_middle.symm.mem_iff
    have hdistinct' : algorithm.Separates (rest ++ content :: held) := fun a ha b hb =>
      hdistinct a ((hmem a).2 ha) b ((hmem b).2 hb)
    obtain ⟨u, hrun, hready, hfiles, hstocked⟩ := write_stocks h hq hheld fun a ha b hb =>
      hdistinct' a (List.mem_append_right _ ha) b (List.mem_append_right _ hb)
    obtain ⟨v, hruns, hready', hstocked'⟩ :=
      ih hready (hrest.imp fun q content hq => hq.of_files hfiles) hstocked hdistinct'
    refine ⟨v, ?_, hready', hstocked'.of_mem hmem⟩
    rw [List.mapM_cons]
    exact (run_bind_ok hrun _).trans (run_bind_ok hruns _)

/-- **Deduplicating writes.** Take a memory store or a remote store with a canonical namespace, bare
or with a cache in front of it, whose namespace is empty, and write any contents without keys of
their own through a digest observer, from streams or from local files, no two different ones with
the same digest. Each write gives the digest of its whole content, which the observer derives in
whatever pieces it sees the content. The digests are digest keys that the strategy accepts, and they
are the candidates of a collection over the backing store. The namespace ends with one object for
each different content, with exactly its bytes. Another write of one of the contents changes no
object. -/
theorem deduplicates (s : DigestedStore) (algorithm : DigestAlgorithm) {w : World} (h : s.Ready w)
    (hempty : s.backing.ownObjects w = ∅) {requests : List WriteRequest} {contents : List Bytes}
    (hrequests : List.Forall₂ (fun q content => q.DigestsTo algorithm w content) requests contents)
    (hdistinct : algorithm.Separates contents) :
    ∃ v, requests.mapM s.toStore.write w = .ok (contents.map algorithm.digest) v ∧
      (∀ content ∈ contents, algorithm.isDigest (algorithm.digest content) = true ∧
        (KeyStrategy.digest algorithm).validate (algorithm.digest content) = .ok () ∧
        ∀ pieces : List Bytes, pieces.flatten = content →
          (pieces.foldl Observer.observe (.digest algorithm)).finish.key =
            some (algorithm.digest content)) ∧
      (∀ pageSize order, ∃ pass u,
        (GarbageCollector.mk s.backing.catalog algorithm pageSize order).begin v = .ok pass u ∧
        ∀ key, pass.isCandidate key = true ↔
          ∃ content ∈ contents, key = algorithm.digest content) ∧
      (s.backing.ownObjects v).toList.Perm (contents.dedup.map fun content =>
        (s.backing.root ++ algorithm.digest content, content)) ∧
      ∀ q, ∀ content ∈ contents, q.DigestsTo algorithm v content →
        ∃ u, s.toStore.write q v = .ok (algorithm.digest content) u ∧
          s.backing.objects u = s.backing.objects v := by
  obtain ⟨v, hrun, hready, hstocked⟩ :=
    writes_spec h hrequests (PlainStore.stocked_nil hempty) (by rwa [List.append_nil])
  rw [List.append_nil] at hstocked
  refine ⟨v, hrun, ?_, hstocked.begin_exact s.canonical hready.quiet, hstocked.perm, ?_⟩
  · intro content _
    have hdigest := algorithm.isDigest_digest content
    refine ⟨hdigest, if_pos hdigest, ?_⟩
    rintro pieces rfl
    exact Observer.key_digest algorithm pieces
  · intro q content hmem hq
    obtain ⟨u, hrun', -, -, hobjects⟩ := write_spec hready hq
    refine ⟨u, hrun', hobjects.trans ?_⟩
    have hheld := (hstocked.hold?_eq_some_iff s.canonical).2 ⟨hmem, rfl⟩
    rw [PlainStore.accept_of_held]
    rw [hheld]
    rfl

/-- A content arrives in two pieces, again as a local file, and then another one arrives: the
container behind the cache ends with two objects. -/
theorem deduplicates_below_prefix :
    let s : CachedStore := {
      name := "cached"
      cache := ⟨"cache", ⟨10, 2, 0⟩⟩
      inner := .remote {
        name := "vault"
        location := ⟨"account", "box"⟩
        container := "box"
        space := ⟨"cas/"⟩
        tempDir := .scratch "temps" }
      canonical := (by decide : Namespace.Canonical ⟨"cas/"⟩) }
    let start : World := ({} : World).place (.caller "in") [102, 111, 111]
    let w : World := start.setCache "cache" {}
    let digesting (source : ContentSource) : WriteRequest :=
      { source, observer? := some (Observer.digest .md5) }
    ∃ v, [digesting (.stream [.ok [102], .ok [111, 111]]), digesting (.file (.caller "in")),
          digesting (.stream [.ok [98, 97, 114]])].mapM s.toStore.write w =
        .ok ["acbd18db4cc2f85cedef654fccc4a4d8", "acbd18db4cc2f85cedef654fccc4a4d8",
          "37b51d194a7513e45b56f6524f2d51f2"] v ∧
      (s.inner.ownObjects v).toList.Perm
        [("cas/acbd18db4cc2f85cedef654fccc4a4d8", [102, 111, 111]),
          ("cas/37b51d194a7513e45b56f6524f2d51f2", [98, 97, 114])] := by
  intro s start w digesting
  have hfoo : DigestAlgorithm.md5.digest [102, 111, 111] = "acbd18db4cc2f85cedef654fccc4a4d8" := by
    decide +kernel
  have hbar : DigestAlgorithm.md5.digest [98, 97, 114] = "37b51d194a7513e45b56f6524f2d51f2" := by
    decide +kernel
  have hfresh : s.Fresh w := ⟨start, ExtTreeMap.getElem?_empty, rfl⟩
  have hready : (cached s).Ready w := ⟨World.quiet_of_containers rfl, hfresh.intact⟩
  have hempty : s.inner.ownObjects w = ∅ := by
    unfold PlainStore.ownObjects
    rw [PlainStore.objects_of_containers rfl]
    rfl
  have hin : w.read (.caller "in") = .ok [102, 111, 111] := by
    have houtside : (LocalPath.caller "in").IsOutside := trivial
    have hwritable : ({} : World).Writable (.caller "in") := fun _ hnode =>
      absurd (ExtTreeMap.getElem?_empty.symm.trans hnode) nofun
    exact (World.read_of_files (w := start) houtside rfl).trans
      (World.read_place hwritable _)
  have hpieces : (digesting (.stream [.ok [102], .ok [111, 111]])).DigestsTo .md5 w
      [102, 111, 111] := ⟨rfl, rfl, rfl⟩
  have hfile : (digesting (.file (.caller "in"))).DigestsTo .md5 w [102, 111, 111] :=
    ⟨rfl, rfl, trivial, hin⟩
  have hother : (digesting (.stream [.ok [98, 97, 114]])).DigestsTo .md5 w [98, 97, 114] :=
    ⟨rfl, rfl, rfl⟩
  obtain ⟨v, hrun, -, -, hobjects, -⟩ := deduplicates (cached s) .md5 hready hempty
    (.cons hpieces (.cons hfile (.cons hother .nil)))
    (by unfold DigestAlgorithm.Separates; decide +kernel)
  refine ⟨v, ?_, ?_⟩
  · rw [List.map_cons, List.map_cons, List.map_cons, List.map_nil, hfoo, hbar] at hrun
    exact hrun
  · have hdedup : ([[102, 111, 111], [102, 111, 111], [98, 97, 114]] : List Bytes).dedup =
        [[102, 111, 111], [98, 97, 114]] := by decide
    rw [hdedup, List.map_cons, List.map_cons, List.map_nil, hfoo, hbar] at hobjects
    exact hobjects

end DigestedStore

end BlobVault
