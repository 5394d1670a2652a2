import BlobVault.Proofs.Answers
import BlobVault.Proofs.Caching.Transparency
import BlobVault.Proofs.Listing

/-!
# Remote stores and memory stores

A remote store below a canonical root does what a memory store does. Where no fault strikes, a run
of queries to the one and the same run to the other have the same replies, and after every query the
namespace of the remote store holds exactly what the memory store holds.

1. `Query`, `PlainStore.ask`: what both stores can be asked, listings and scrolls included.
2. `RemoteStore.TwinOf`: the worlds of the two runs, and the changes that keep them so.
3. `TwinOf.contains`, `TwinOf.write`, `TwinOf.clear` and the like: one operation on both stores.
4. `RemoteStore.replies_as_memory`: whole runs.
-/

namespace BlobVault

open Std (ExtTreeMap)
open ObjectPath

/-! ## Scrolls that are read at once -/

/-- What a scroll is asked. -/
inductive ScrollCall
  | hasNext
  | next

/-- What a scroll answers. -/
inductive ScrollAnswer
  | more (b : Bool)
  | batch (page : Except BlobError Page)

namespace Scroll

/-- One call of a scroll. -/
def call (s : Scroll) (w : World) : ScrollCall → (ScrollAnswer × Scroll) × World
  | .hasNext =>
    let ((b, s), w) := s.hasNext w
    ((.more b, s), w)
  | .next =>
    let ((page, s), w) := s.next w
    ((.batch page, s), w)

/-- Calls of a scroll, one after the other. -/
def calls (s : Scroll) (w : World) : List ScrollCall → List ScrollAnswer × World
  | [] => ([], w)
  | c :: cs =>
    let ((answer, s), w) := s.call w c
    let (answers, w) := s.calls w cs
    (answer :: answers, w)

variable {id : String} {size : Nat} {items : List ListingItem} {w : World}

/-- A call of a listing that was taken is a matter of the listing alone. -/
theorem call_taken (size : Nat) (items : List ListingItem) (c : ScrollCall) :
    ∃ answer rest, ∀ (id : String) (w : World), (⟨id, size, .taken items⟩ : Scroll).call w c =
      ((answer, ⟨id, size, .taken rest⟩), w) := by
  cases c with
  | hasNext => exact ⟨.more !items.isEmpty, items, fun _ _ => rfl⟩
  | next =>
    cases hnext : (⟨size, items⟩ : Pager).next with
    | mk page p =>
      refine ⟨.batch (page.bind (·.elim (.error .noSuchElement) .ok)), p.rest, fun id w => ?_⟩
      unfold call next pager moved
      simp only [hnext]
      rcases page with e | ⟨_ | page⟩ <;> rfl

theorem calls_taken (size : Nat) (items : List ListingItem) (cs : List ScrollCall) :
    ∃ answers, ∀ (id : String) (w : World),
      (⟨id, size, .taken items⟩ : Scroll).calls w cs = (answers, w) := by
  induction cs generalizing items with
  | nil => exact ⟨[], fun _ _ => rfl⟩
  | cons c cs ih =>
    obtain ⟨answer, rest, hcall⟩ := call_taken size items c
    obtain ⟨answers, hcalls⟩ := ih rest
    refine ⟨answer :: answers, fun id w => ?_⟩
    unfold calls
    simp only [hcall, hcalls]

/-- The first call of a scroll over a remote store takes the listing. -/
theorem call_untaken {r : RemoteStore} {v : World} (h : r.list w = (items, v)) (c : ScrollCall) :
    (⟨id, size, .untaken r⟩ : Scroll).call w c = (⟨id, size, .taken items⟩ : Scroll).call v c := by
  have hpager : (⟨id, size, .untaken r⟩ : Scroll).pager w =
      (⟨id, size, .taken items⟩ : Scroll).pager v := by
    unfold pager
    simp only [h]
  cases c with
  | hasNext =>
    unfold call hasNext
    rw [hpager]
    rfl
  | next =>
    unfold call next
    rw [hpager]
    rfl

theorem calls_untaken {r : RemoteStore} {v : World} (h : r.list w = (items, v)) (c : ScrollCall)
    (cs : List ScrollCall) :
    (⟨id, size, .untaken r⟩ : Scroll).calls w (c :: cs) =
      (⟨id, size, .taken items⟩ : Scroll).calls v (c :: cs) := by
  unfold calls
  rw [call_untaken h]

end Scroll

/-! ## Queries -/

/-- What is asked of a store: an operation, its listing, the size of a blob, or a scroll that is
read before anything else is asked. -/
inductive Query
  | perform (operation : Operation)
  | list
  | size (key : String)
  | scroll (batchSize : Nat) (calls : List ScrollCall)

/-- The reply to a query. -/
inductive Reply
  | answer (a : Except BlobError Answer)
  | items (items : List ListingItem)
  | size (size? : Except BlobError (Option Nat))
  | scrolled (answers : List ScrollAnswer)

/-- A query that was put to a store. -/
structure Exchange where
  before : World
  query : Query
  reply : Reply
  after : World

namespace PlainStore

/-- A scroll over the blobs of the store. -/
def scroll (p : PlainStore) (w : World) (batchSize : Nat) : Scroll :=
  match p with
  | memory m => .ofMemory m w batchSize
  | remote r => .ofRemote r batchSize

/-- Puts a query to the store. -/
def ask (p : PlainStore) (w : World) : Query → Reply × World
  | .perform operation =>
    (.answer (w.answer (p.toStore.perform operation)), w.after (p.toStore.perform operation))
  | .list =>
    let (items, v) := p.catalog.list w
    (.items items, v)
  | .size key => (.size (w.answer (p.catalog.size? key)), w.after (p.catalog.size? key))
  | .scroll batchSize calls =>
    let (answers, v) := (p.scroll w batchSize).calls w calls
    (.scrolled answers, v)

/-- Puts queries to the store, one after the other. -/
def exchanges (p : PlainStore) : World → List Query → List Exchange
  | _, [] => []
  | w, q :: queries =>
    let (reply, v) := p.ask w q
    ⟨w, q, reply, v⟩ :: p.exchanges v queries

end PlainStore

/-- The keys and files of the query are ordinary: keys to store under stand for themselves in a
path, other keys are plain, files are the caller's, and a copy is one within the store, from a key
without a range to another key. -/
def Query.Ordinary (w : World) : Query → Prop
  | .perform (.write request) =>
    (∀ path, request.source = .file path → path.IsOutside) ∧
      ∀ key content, request.plan w = .ok (key, content) → Verbatim key
  | .perform (.read key dest) => PlainChars key.toList ∧ dest.IsOutside
  | .perform (.copy key source? sourceKey _) =>
    source? = none ∧ Verbatim key ∧ PlainChars sourceKey.toList ∧
      ByteRange.splitKey sourceKey = (sourceKey, none) ∧ sourceKey ≠ key
  | .perform (.stream key) | .perform (.file key) | .perform (.contains key)
  | .perform (.delete key) | .size key => PlainChars key.toList
  | .perform .clear | .perform .evict | .list | .scroll _ _ => True

/-- Queries that are ordinary in every world are so in all runs. -/
theorem PlainStore.ordinary_of_forall (p : PlainStore) (w : World) {queries : List Query}
    (h : ∀ q ∈ queries, ∀ v, q.Ordinary v) :
    ∀ t ∈ p.exchanges w queries, t.query.Ordinary t.before := by
  induction queries generalizing w with
  | nil => simp [exchanges]
  | cons q queries ih =>
    obtain ⟨hq, hrest⟩ := List.forall_mem_cons.1 h
    exact List.forall_mem_cons.2 ⟨hq w, ih _ hrest⟩

/-! ## Twins -/

namespace RemoteStore

/-- The namespace of the remote store holds in the second world exactly what the memory store holds
in the first one. -/
structure HoldsAs (r : RemoteStore) (m : MemoryStore) (x y : World) : Prop where
  held : ∀ key : String, PlainChars key.toList →
    (y.container r.container).objects[r.space.root ++ key]? = (m.blobs x)[key]?
  verbatim : ∀ key ∈ m.blobs x, Verbatim key

/-- The second world is for the remote store what the first one is for the memory store. -/
structure TwinOf (r : RemoteStore) (m : MemoryStore) (x y : World) : Prop
    extends r.HoldsAs m x y where
  files : y.files = x.files
  temps : ∃ fs, x.temps? m.tempDir = some fs
  temps' : ∃ fs, y.temps? r.tempDir = some fs
  quiet : (y.container r.container).Quiet

namespace TwinOf

variable {r : RemoteStore} {m : MemoryStore} {x y u v : World} {key : String}

/-! ### Changes on both sides -/

theorem of_shares (h : r.TwinOf m x y) (hx : x.Shares u) (hy : y.Shares v)
    (hheld : r.HoldsAs m u v) : r.TwinOf m u v := by
  constructor
  · exact hheld
  · rw [hx.rest, hy.rest]
    exact h.files
  · rw [hx.rest]
    exact h.temps
  · rw [hy.rest]
    exact h.temps'
  · exact (hy.follows r.container).quiet h.quiet

theorem looks (h : r.TwinOf m x y) (hx : x.Looks u) (hy : y.Looks v) : r.TwinOf m u v := by
  apply h.of_shares (.of_looks hx) (.of_looks hy)
  have hblobs : m.blobs u = m.blobs x := PlainStore.objects_of_looks hx (.memory m)
  constructor
  · intro key hkey
    rw [hy.objects, hblobs]
    exact h.held key hkey
  · rw [hblobs]
    exact h.verbatim

theorem setObjects (h : r.TwinOf m x y) {blobs objects : Blobs}
    (hheld : ∀ key : String, PlainChars key.toList → objects[r.space.root ++ key]? = blobs[key]?)
    (hverbatim : ∀ key ∈ blobs, Verbatim key) :
    r.TwinOf m ((PlainStore.memory m).setObjects x blobs)
      ((PlainStore.remote r).setObjects y objects) := by
  apply h.of_shares (PlainStore.shares_setObjects _ x _) (PlainStore.shares_setObjects _ y _)
  have hobjects := (PlainStore.remote r).objects_setObjects y objects
  have hblobs := (PlainStore.memory m).objects_setObjects x blobs
  constructor
  · intro key hkey
    show ((PlainStore.remote r).objects _)[_]? = ((PlainStore.memory m).objects _)[_]?
    rw [hobjects, hblobs]
    exact hheld key hkey
  · intro key hkey
    have hmem : key ∈ (PlainStore.memory m).objects _ := hkey
    rw [hblobs] at hmem
    exact hverbatim key hmem

theorem place (h : r.TwinOf m x y) {dest : LocalPath} (hdest : dest.IsOutside) (content : Bytes) :
    r.TwinOf m (x.place dest content) (y.place dest content) := by
  cases dest with
  | caller name =>
    refine ⟨⟨h.held, h.verbatim⟩, ?_, h.temps, h.temps', h.quiet⟩
    show y.files.insert name _ = x.files.insert name _
    rw [h.files]
  | detached => exact h
  | temp _ _ => exact hdest.elim
  | entry _ _ => exact hdest.elim

theorem verbatim_of_held (h : r.TwinOf m x y) {content : Bytes}
    (hheld : (m.blobs x)[key]? = some content) : Verbatim key := by
  apply h.verbatim
  simp [ExtTreeMap.mem_iff_isSome_getElem?, hheld]

/-- Keys that are not verbatim are free. -/
theorem blobs_of_encodeSegment_ne (h : r.TwinOf m x y)
    (hkey : encodeSegment key.toList ≠ key.toList) :
    (m.blobs x)[key]? = none ∧ (m.blobs x)[String.ofList (encodeSegment key.toList)]? = none := by
  constructor
  · apply ExtTreeMap.getElem?_eq_none
    intro hmem
    exact hkey (h.verbatim key hmem).2
  · apply ExtTreeMap.getElem?_eq_none
    intro hmem
    exact hkey (encodeSegment_of_verbatim (h.verbatim _ hmem))

theorem hold? (hr : r.space.Canonical) (h : r.TwinOf m x y) (hkey : PlainChars key.toList) :
    (PlainStore.remote r).hold? y key = (PlainStore.memory m).hold? x key := by
  have hencoded : PlainChars (String.ofList (encodeSegment key.toList)).toList := by
    rw [String.toList_ofList]
    exact ⟨encodeSegment_ne_nil hkey.1, delimiter_notMem_encodeSegment hkey.2⟩
  show ((y.container r.container).objects)[(PlainStore.remote r).address key]? = (m.blobs x)[key]?
  rw [PlainStore.address_of_canonical hr hkey, h.held _ hencoded]
  by_cases hsame : encodeSegment key.toList = key.toList
  · rw [hsame, String.ofList_toList]
  · obtain ⟨hfree, hfree'⟩ := h.blobs_of_encodeSegment_ne hsame
    rw [hfree, hfree']

theorem accept (hr : r.space.Canonical) (h : r.TwinOf m x y) (hkey : Verbatim key)
    (content : Bytes) :
    r.TwinOf m ((PlainStore.memory m).accept x key content)
      ((PlainStore.remote r).accept y key content) := by
  unfold PlainStore.accept
  rw [h.hold? hr hkey.1]
  split
  · exact h
  · unfold PlainStore.put
    rw [PlainStore.address_of_verbatim (p := .remote r) hr hkey]
    apply h.setObjects
    · intro other hother
      have hheld : ((PlainStore.remote r).objects y)[r.space.root ++ other]? =
          ((PlainStore.memory m).objects x)[other]? := h.held other hother
      have hroot : r.space.root ++ key = r.space.root ++ other ↔ key = other := by simp
      rw [ExtTreeMap.getElem?_insert, ExtTreeMap.getElem?_insert, hheld]
      simp only [Std.LawfulEqCmp.compare_eq_iff_eq, PlainStore.root, hroot, PlainStore.address]
    · intro other hother
      rw [ExtTreeMap.mem_insert, Std.LawfulEqCmp.compare_eq_iff_eq] at hother
      rcases hother with rfl | hother
      · exact hkey
      · exact h.verbatim other hother

theorem drop (hr : r.space.Canonical) (h : r.TwinOf m x y) (hkey : PlainChars key.toList) :
    r.TwinOf m ((PlainStore.memory m).drop x key) ((PlainStore.remote r).drop y key) := by
  unfold PlainStore.drop
  rw [PlainStore.address_of_canonical hr hkey]
  apply h.setObjects
  · intro other hother
    have hheld : ((PlainStore.remote r).objects y)[r.space.root ++ other]? =
        ((PlainStore.memory m).objects x)[other]? := h.held other hother
    have hroot : r.space.root ++ String.ofList (encodeSegment key.toList) = r.space.root ++ other ↔
        String.ofList (encodeSegment key.toList) = other := by simp
    rw [ExtTreeMap.getElem?_erase, ExtTreeMap.getElem?_erase, hheld]
    simp only [Std.LawfulEqCmp.compare_eq_iff_eq, hroot, PlainStore.address]
    by_cases hverbatim : encodeSegment key.toList = key.toList
    · rw [hverbatim, String.ofList_toList]
    · -- neither the key nor its encoded form is held, so no side loses a blob
      obtain ⟨hfree, hfree'⟩ := h.blobs_of_encodeSegment_ne hverbatim
      have hnone : ∀ name, (m.blobs x)[name]? = none →
          (if name = other then none else (m.blobs x)[other]?) = (m.blobs x)[other]? := by
        intro name hname
        split_ifs with hsame
        · rw [← hsame, hname]
        · rfl
      exact (hnone _ hfree').trans (hnone _ hfree).symm
  · intro other hother
    exact h.verbatim other (ExtTreeMap.mem_of_mem_erase hother)

/-- A listing of the remote store has what the memory store lists. -/
theorem listed_eq_items (hr : r.space.Canonical) (h : r.TwinOf m x y) :
    (r.listed y).map .ok = m.items x := by
  have hlisted : r.listed y = (m.blobs x).listed := by
    apply eq_of_sorted_blobs (r.sorted_listed y) (m.blobs x).sorted_listed
    intro blob
    rw [mem_listed, shows_iff hr, Blobs.mem_listed]
    constructor
    · rintro ⟨hplain, hsize⟩
      rwa [h.held blob.key hplain] at hsize
    · intro hsize
      obtain ⟨content, hcontent, -⟩ := Option.map_eq_some_iff.1 hsize
      have hplain := (h.verbatim_of_held hcontent).1
      rw [h.held blob.key hplain]
      exact ⟨hplain, hsize⟩
  rw [m.items_eq, hlisted]

/-- Clearing the remote store leaves its namespace empty. -/
theorem cleared (hr : r.space.Canonical) (h : r.TwinOf m x y) :
    ∃ v, r.clear y = .ok () v ∧ r.TwinOf m ((PlainStore.memory m).setObjects x ∅) v := by
  obtain ⟨v, hlist, hlooks⟩ := list_run h.quiet
  have hclear := clear_listed hlist
  have hquiet : (PlainStore.remote r).Quiet v := PlainStore.Quiet.of_looks hlooks h.quiet
  refine ⟨_, hclear, ?_⟩
  have hshares := ((PlainStore.remote r).clear_spec y).ok_of_eq hclear
  apply h.of_shares (PlainStore.shares_setObjects _ x _) hshares
  have hblobs : m.blobs ((PlainStore.memory m).setObjects x ∅) = ∅ :=
    (PlainStore.memory m).objects_setObjects x ∅
  constructor
  · intro key hkey
    rw [hblobs, ExtTreeMap.getElem?_empty]
    refine (objects_foldl_erase hquiet _).trans ?_
    rw [ite_eq_left_iff, PlainStore.objects_of_looks hlooks]
    intro hnot
    -- what is held under a verbatim key is listed, and other keys were free before
    refine (h.held key hkey).trans ?_
    by_contra hsome
    obtain ⟨content, hcontent⟩ := Option.ne_none_iff_exists'.1 hsome
    have hverbatim := h.verbatim_of_held hcontent
    refine hnot ⟨⟨key, content.length⟩, mem_listed.2 ⟨(shows_iff hr).2 hkey, ?_⟩, ?_⟩
    · rw [h.held key hkey, hcontent]
      rfl
    · exact PlainStore.address_of_verbatim (p := .remote r) hr hverbatim
  · intro key hkey
    rw [hblobs] at hkey
    exact absurd hkey ExtTreeMap.not_mem_empty

/-! ### One query to both stores -/

/-- The operation ends on the remote store as on the memory store, and leaves them twins. -/
def EndsAlike (r : RemoteStore) (m : MemoryStore) (operation : Operation) (x y : World) : Prop :=
  EndAlike ((PlainStore.memory m).toStore.perform operation)
    ((PlainStore.remote r).toStore.perform operation) x y (r.TwinOf m)

section

variable (hr : r.space.Canonical) (h : r.TwinOf m x y)

include hr h

theorem contains (hkey : PlainChars key.toList) : EndsAlike r m (.contains key) x y := by
  obtain ⟨u, hx, hu⟩ := PlainStore.contains_run (p := .memory m) (w := x) trivial key
  obtain ⟨v, hy, hv⟩ := PlainStore.contains_run (p := .remote r) h.quiet key
  rw [h.hold? hr hkey] at hy
  exact EndAlike.map (.of_ok hx hy (h.looks hu hv)) Answer.found

theorem stream (hkey : PlainChars key.toList) : EndsAlike r m (.stream key) x y := by
  obtain ⟨u, hx, hu⟩ := PlainStore.perform_stream_run (p := .memory m) (w := x) trivial key
  obtain ⟨v, hy, hv⟩ := PlainStore.perform_stream_run (p := .remote r) h.quiet key
  rw [h.hold? hr hkey] at hy
  exact .of_ok hx hy (h.looks hu hv)

omit hr in
theorem file (key : String) : EndsAlike r m (.file key) x y :=
  .of_ok (a := .file .unknown) rfl rfl h

omit hr in
theorem evict : EndsAlike r m .evict x y := .of_ok (a := .done) rfl rfl h

omit hr in
/-- Content is put into a file, or the file does not take it, on both sides. -/
theorem putFile {dest : LocalPath} (hdest : dest.IsOutside) (content : Bytes) :
    EndAlike (putFile dest content) (BlobVault.putFile dest content) x y (r.TwinOf m) := by
  cases dest with
  | caller name =>
    by_cases hwritable : x.Writable (.caller name)
    · have hwritable' : y.Writable (.caller name) := by
        intro node hnode
        rw [h.files] at hnode
        exact hwritable node hnode
      exact .of_ok (putFile_ok hwritable content) (putFile_ok hwritable' content)
        (h.place hdest content)
    · obtain ⟨e, herror⟩ := putFile_error hdest hwritable content
      exact .of_error (herror x rfl) (herror y h.files) h
  | detached => exact .of_error (e := .io .notFound) rfl rfl h
  | temp _ _ => exact hdest.elim
  | entry _ _ => exact hdest.elim

/-- A read asks both stores for the same. -/
theorem asked? (hrange : r.allowsRange = m.allowsRange) (hkey : PlainChars key.toList) :
    (PlainStore.remote r).asked? y key = (PlainStore.memory m).asked? x key := by
  have htarget : (PlainStore.remote r).target key = (PlainStore.memory m).target key := by
    unfold PlainStore.target
    rw [show (PlainStore.remote r).allowsRange = (PlainStore.memory m).allowsRange from hrange]
  unfold PlainStore.asked?
  rw [htarget, h.hold? hr (PlainStore.plainChars_target _ hkey)]

theorem read (hrange : r.allowsRange = m.allowsRange) (hkey : PlainChars key.toList)
    {dest : LocalPath} (hdest : dest.IsOutside) : EndsAlike r m (.read key dest) x y := by
  obtain ⟨u, hu, hx⟩ := PlainStore.readInto_run (p := .memory m) (w := x) trivial key dest
  obtain ⟨v, hv, hy⟩ := PlainStore.readInto_run (p := .remote r) h.quiet key dest
  rw [h.asked? hr hrange hkey] at hy
  have htwins := h.looks hu hv
  refine EndAlike.map ?_ Answer.found
  cases hasked : (PlainStore.memory m).asked? x key with
  | none =>
    rw [hasked] at hx hy
    exact .of_ok hx hy htwins
  | some content =>
    rw [hasked] at hx hy
    rcases (htwins.putFile hdest content).map fun _ => true with
      ⟨a, u', v', hx', hy', h'⟩ | ⟨e, u', v', hx', hy', h'⟩
    · exact .of_ok (hx.trans hx') (hy.trans hy') h'
    · exact .of_error (hx.trans hx') (hy.trans hy') h'

theorem delete (hkey : PlainChars key.toList) : EndsAlike r m (.delete key) x y := by
  refine EndAlike.map (.of_results ((PlainStore.memory m).delete_spec x key)
    ((PlainStore.remote r).delete_spec y key) ?_) fun _ : Unit => Answer.done
  rintro ⟨⟩ ⟨⟩ u v (hu | ⟨-, hstruck⟩) hv
  · rcases hv with hv | ⟨-, hstruck⟩
    · exact ⟨rfl, (h.drop hr hkey).looks hu hv⟩
    · exact absurd h.quiet hstruck
  · exact absurd trivial hstruck

theorem write {request : WriteRequest}
    (houtside : ∀ path, request.source = .file path → path.IsOutside)
    (hkeys : ∀ key content, request.plan x = .ok (key, content) → Verbatim key) :
    EndsAlike r m (.write request) x y := by
  have hplan : request.plan y = request.plan x := WriteRequest.plan_of_files houtside h.files
  have hx := PlainStore.write_verdict (p := .memory m) (w := x) (r := request) trivial
    fun _ _ => h.temps
  have hy := PlainStore.write_verdict (p := .remote r) (r := request) h.quiet fun _ _ => h.temps'
  have hverdict : request.verdict y ((PlainStore.remote r).hold? y) =
      request.verdict x ((PlainStore.memory m).hold? x) := by
    unfold WriteRequest.verdict
    rw [hplan]
    split
    · rfl
    · rfl
    · rename_i key cause hkey
      rw [h.hold? hr (hkeys _ _ hkey).1]
  rw [hverdict] at hy
  refine EndAlike.map (.of_verdict hx hy ?_ fun u v hu hv => h.looks hu hv) Answer.stored
  intro k content? u v hends hu hv
  cases content? with
  | none => exact h.looks hu hv
  | some content =>
    obtain ⟨_, hplanned⟩ := WriteRequest.plan_of_verdict hends
    exact (h.accept hr (hkeys _ _ hplanned) content).looks hu hv

theorem copy (hkey : Verbatim key) {sourceKey : String} (hsource : PlainChars sourceKey.toList)
    (hsplit : ByteRange.splitKey sourceKey = (sourceKey, none)) (hne : sourceKey ≠ key)
    (move : Bool) : EndsAlike r m (.copy key none sourceKey move) x y := by
  have hx := PlainStore.copy_spec (p := .memory m) (w := x) trivial h.temps hsplit key move
  have hy := PlainStore.copy_spec (p := .remote r) h.quiet h.temps' hsplit key move
  rw [h.hold? hr hsource] at hy
  refine EndAlike.map (.of_results hx hy ?_) Answer.copied
  rintro k k' u v (⟨rfl, hnone, hu⟩ | ⟨rfl, content, a, hcontent, ha, hu⟩) hy
  · rcases hy with ⟨rfl, -, hv⟩ | ⟨-, content, -, hcontent, -⟩
    · exact ⟨rfl, h.looks hu hv⟩
    · rw [hnone] at hcontent
      exact absurd hcontent nofun
  · rcases hy with ⟨-, hnone, -⟩ | ⟨rfl, content', b, hcontent', hb, hv⟩
    · rw [hcontent] at hnone
      exact absurd hnone nofun
    rw [hcontent] at hcontent'
    obtain rfl := Option.some.inj hcontent'
    have htwins := (h.accept hr hkey content).looks ha hb
    have haway : r.pathFor sourceKey ≠ r.pathFor key := fun heq =>
      hne (Namespace.pathFor_inj hr.closed hsource hkey.1 heq)
    refine ⟨rfl, ?_⟩
    cases move with
    | false =>
      obtain rfl : u = a := hu.elim (fun h => absurd h.1 nofun) And.right
      obtain rfl : v = b := hv.elim (fun h => absurd h.1 nofun) And.right
      exact htwins
    | true =>
      have hu' := hu.elim (fun h => h.2.2) fun h => absurd ⟨rfl, trivial⟩ h.1
      have hv' := hv.elim (fun h => h.2.2) fun h => absurd ⟨rfl, haway⟩ h.1
      exact (htwins.drop hr hsource).looks hu' hv'

theorem clear : EndsAlike r m .clear x y := by
  obtain ⟨v, hclear, hv⟩ := h.cleared hr
  have hx : (PlainStore.memory m).toStore.clear x =
      .ok () ((PlainStore.memory m).setObjects x ∅) := rfl
  exact EndAlike.map (.of_ok hx hclear hv) fun _ : Unit => Answer.done

theorem perform (hrange : r.allowsRange = m.allowsRange) {operation : Operation}
    (hop : (Query.perform operation).Ordinary x) : EndsAlike r m operation x y := by
  cases operation with
  | write request => exact h.write hr hop.1 hop.2
  | read key dest => exact h.read hr hrange hop.1 hop.2
  | stream key => exact h.stream hr hop
  | file key => exact h.file key
  | contains key => exact h.contains hr hop
  | delete key => exact h.delete hr hop
  | copy key source? sourceKey move =>
    obtain ⟨rfl, hkey, hsource, hsplit, hne⟩ := hop
    exact h.copy hr hkey hsource hsplit hne move
  | clear => exact h.clear hr
  | evict => exact h.evict

/-- A query gets the same reply from both stores and leaves them twins. -/
theorem ask (hrange : r.allowsRange = m.allowsRange) {q : Query} (hq : q.Ordinary x) :
    ((PlainStore.remote r).ask y q).1 = ((PlainStore.memory m).ask x q).1 ∧
      r.TwinOf m ((PlainStore.memory m).ask x q).2 ((PlainStore.remote r).ask y q).2 := by
  cases q with
  | perform operation =>
    obtain ⟨hanswer, hafter⟩ := World.answer_of_endAlike (h.perform hr hrange hq)
    exact ⟨congrArg Reply.answer hanswer, hafter⟩
  | list =>
    obtain ⟨v, hlist, hv⟩ := list_run h.quiet
    rw [h.listed_eq_items hr] at hlist
    have hask : (PlainStore.remote r).ask y .list = (.items (m.items x), v) := by
      show (let (items, v) := r.list y; (Reply.items items, v)) = _
      rw [hlist]
    rw [hask]
    exact ⟨rfl, h.looks (.refl x) hv⟩
  | size key =>
    obtain ⟨u, hx, hu⟩ := PlainStore.size?_catalog (p := .memory m) (w := x) trivial key
    obtain ⟨v, hy, hv⟩ := PlainStore.size?_catalog (p := .remote r) h.quiet key
    rw [h.hold? hr hq] at hy
    obtain ⟨hanswer, hafter⟩ := World.answer_of_endAlike (.of_ok hx hy (h.looks hu hv))
    exact ⟨congrArg Reply.size hanswer, hafter⟩
  | scroll batchSize calls =>
    cases calls with
    | nil => exact ⟨rfl, h⟩
    | cons c cs =>
      obtain ⟨v, hlist, hv⟩ := list_run h.quiet
      rw [h.listed_eq_items hr] at hlist
      obtain ⟨answers, hcalls⟩ := Scroll.calls_taken (max batchSize 1) (m.items x) (c :: cs)
      have hx : (PlainStore.memory m).ask x (.scroll batchSize (c :: cs)) =
          (.scrolled answers, x) := by
        show (let (answers, v) := Scroll.calls ⟨_, max batchSize 1, .taken (m.items x)⟩ x (c :: cs)
          (Reply.scrolled answers, v)) = _
        rw [hcalls]
      have hy : (PlainStore.remote r).ask y (.scroll batchSize (c :: cs)) =
          (.scrolled answers, v) := by
        show (let (answers, v) := Scroll.calls ⟨_, max batchSize 1, .untaken r⟩ y (c :: cs)
          (Reply.scrolled answers, v)) = _
        rw [Scroll.calls_untaken hlist, hcalls]
      rw [hx, hy]
      exact ⟨rfl, h.looks (.refl x) hv⟩

end

end TwinOf

/-! ## Runs -/

/-- One query and one reply, and after it the caller's files are the same and the namespace of the
remote store holds exactly what the memory store holds. -/
structure SameExchange (r : RemoteStore) (m : MemoryStore) (t t' : Exchange) : Prop
    extends r.HoldsAs m t.after t'.after where
  query : t'.query = t.query
  reply : t'.reply = t.reply
  files : t'.after.files = t.after.files

variable {r : RemoteStore} {m : MemoryStore} {x y w : World}

/-- Twins stay twins, and reply alike, whatever they are asked. -/
theorem TwinOf.exchanges (hr : r.space.Canonical) (hrange : r.allowsRange = m.allowsRange)
    (h : r.TwinOf m x y) (queries : List Query)
    (hqueries : ∀ t ∈ (PlainStore.memory m).exchanges x queries, t.query.Ordinary t.before) :
    List.Forall₂ (r.SameExchange m) ((PlainStore.memory m).exchanges x queries)
      ((PlainStore.remote r).exchanges y queries) := by
  induction queries generalizing x y with
  | nil => exact List.Forall₂.nil
  | cons q queries ih =>
    obtain ⟨hq, hrest⟩ := List.forall_mem_cons.1 hqueries
    obtain ⟨hreply, hafter⟩ := h.ask hr hrange hq
    exact List.Forall₂.cons ⟨hafter.toHoldsAs, rfl, hreply, hafter.files⟩ (ih hafter hrest)

/-- **A remote store is as good as memory.** From an empty memory store and a remote store with an
empty namespace below a canonical root on, whatever else the container holds and wherever the
threshold for uploads in parts lies, both stores reply alike to every run of queries, and the
namespace always holds exactly what the memory store holds. -/
theorem replies_as_memory (r : RemoteStore) (m : MemoryStore) (hr : r.space.Canonical)
    (hrange : r.allowsRange = m.allowsRange) (w : World) (hquiet : (w.container r.container).Quiet)
    (htemp : ∃ files, w.temps? m.tempDir = some files)
    (htemp' : ∃ files, w.temps? r.tempDir = some files) (hempty : m.blobs w = ∅)
    (hfree : ∀ key : String, PlainChars key.toList →
      (w.container r.container).objects[r.space.root ++ key]? = none)
    (queries : List Query)
    (hqueries : ∀ t ∈ (PlainStore.memory m).exchanges w queries, t.query.Ordinary t.before) :
    List.Forall₂ (r.SameExchange m) ((PlainStore.memory m).exchanges w queries)
      ((PlainStore.remote r).exchanges w queries) := by
  have htwins : r.TwinOf m w w := by
    refine ⟨⟨?_, ?_⟩, rfl, htemp, htemp', hquiet⟩
    · intro key hkey
      rw [hfree key hkey, hempty]
      exact ExtTreeMap.getElem?_empty.symm
    · intro key hkey
      rw [hempty] at hkey
      exact absurd hkey ExtTreeMap.not_mem_empty
  exact htwins.exchanges hr hrange queries hqueries

/-- A write, a download, a move and a scroll, next to an object of somebody else. -/
theorem replies_as_memory_next_to_other :
    let r : RemoteStore := {
      name := "vault"
      location := ⟨"account", "box"⟩
      container := "box"
      space := .ofText "cas"
      threshold := 1
      tempDir := .scratch "temps" }
    let m : MemoryStore := { name := "store", memory := "store", tempDir := .scratch "temps" }
    let before : World := { scratch := ExtTreeMap.insert ∅ "temps" ∅ }
    let w := before.setContainer "box" { objects := ExtTreeMap.insert ∅ "other" [111] }
    let queries : List Query := [
      .perform (.write { source := .stream [.ok [97], .ok [98]], key? := some "k" }),
      .perform (.read "k" (.caller "out")),
      .perform (.copy "l" none "k" true),
      .scroll 1 [.hasNext, .next, .next]]
    r.space.Canonical ∧ (∀ t ∈ (PlainStore.memory m).exchanges w queries,
        t.query.Ordinary t.before) ∧
      List.Forall₂ (r.SameExchange m) ((PlainStore.memory m).exchanges w queries)
        ((PlainStore.remote r).exchanges w queries) := by
  intro r m before w queries
  have hr : r.space.Canonical := by decide
  have hcontainer : w.container "box" = { objects := ExtTreeMap.insert ∅ "other" [111] } :=
    World.container_setContainer_self before "box" _
  have htemp : ∃ files, w.temps? (.scratch "temps") = some files :=
    ⟨∅, ExtTreeMap.getElem?_insert_self⟩
  have hverbatim : ∀ key, key = "k" ∨ key = "l" → Verbatim key := by
    rintro key (rfl | rfl)
    · exact ⟨⟨by decide, by decide⟩, by decide⟩
    · exact ⟨⟨by decide, by decide⟩, by decide⟩
  have hqueries : ∀ q ∈ queries, ∀ v, q.Ordinary v := by
    simp only [queries, List.forall_mem_cons]
    refine ⟨fun v => ⟨nofun, fun key content hplan => ?_⟩, fun v => ?_, fun v => ?_,
      fun v => trivial, nofun⟩
    · obtain ⟨rfl, -⟩ := Prod.mk.inj (Except.ok.inj hplan)
      exact hverbatim _ (.inl rfl)
    · exact ⟨(hverbatim _ (.inl rfl)).1, trivial⟩
    · exact ⟨rfl, hverbatim _ (.inr rfl), (hverbatim _ (.inl rfl)).1, by decide, by decide⟩
  have hordinary := (PlainStore.memory m).ordinary_of_forall w hqueries
  refine ⟨hr, hordinary, replies_as_memory r m hr rfl w ?_ htemp htemp ?_ ?_ queries hordinary⟩
  · rw [hcontainer]
    rfl
  · rfl
  · intro key _
    rw [hcontainer]
    have hroot : r.space.root = "cas/" := by decide
    rw [hroot, ExtTreeMap.getElem?_insert, if_neg]
    · exact ExtTreeMap.getElem?_empty
    · rw [Std.LawfulEqCmp.compare_eq_iff_eq]
      intro h
      have := congrArg String.toList h
      simp at this

end RemoteStore

end BlobVault
