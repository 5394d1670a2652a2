import BlobVault.Proofs.Answers
import BlobVault.Proofs.Copying.Pairs
import BlobVault.Proofs.Listing

/-!
# Keys that a listing gives out

A remote store lists a blob under the last segment of its path, which is the key in encoded form.
A listed name that is used as a key is encoded once more. So a listing gives out the keys that were
written, and a name leads to the blob that it was listed for, just for keys that stand for
themselves in a path. Clearing deletes by the listed names and leaves the other blobs behind.

1. `shownKey`: the name of a key in a listing. `shownKey_of_onto`: keys that are all names of such
   keys stand for themselves.
2. `RemoteStore.holdsJust_of_writes`, `RemoteStore.list_names`: what is listed after some writes.
3. `RemoteStore.actsOn_iff`, `RemoteStore.clear_names`: what is done by the listed names.
4. `RemoteStore.listed_keys_iff`: all of it together.
-/

namespace BlobVault

open Std (ExtTreeMap)
open KeyStrategy (Accepted)
open ObjectPath (encodeSegment)

/-! ## Names of keys -/

/-- The name under which a listing has a key: its encoded form. -/
def shownKey (key : String) : String := String.ofList (encodeSegment key.toList)

@[simp] theorem toList_shownKey (key : String) :
    (shownKey key).toList = encodeSegment key.toList := String.toList_ofList

/-- A key is its own name if all its characters are safe and it is not made of one or two dots. -/
theorem shownKey_eq_self_iff {key : String} :
    shownKey key = key ↔ key ≠ "." ∧ key ≠ ".." ∧ ∀ c ∈ key.toList, ObjectPath.isSafe c = true := by
  have hdot : key.toList ≠ ['.'] ↔ key ≠ "." := (@String.toList_inj key ".").not
  have hdots : key.toList ≠ ['.', '.'] ↔ key ≠ ".." := (@String.toList_inj key "..").not
  rw [← String.toList_inj, toList_shownKey, ObjectPath.encodeSegment_eq_self_iff, hdot, hdots]

theorem plainChars_shownKey {key : String} (h : PlainChars key.toList) :
    PlainChars (shownKey key).toList := by
  rw [toList_shownKey]
  exact ⟨ObjectPath.encodeSegment_ne_nil h.1, ObjectPath.delimiter_notMem_encodeSegment h.2⟩

/-- Keys that are all names of such keys are their own names: a key that is the name of another one
is longer than it. -/
theorem shownKey_of_onto (kept : String → Prop)
    (h : ∀ key, kept key → ∃ other, kept other ∧ shownKey other = key) {key : String}
    (hkey : kept key) : shownKey key = key := by
  induction hlength : key.toList.length using Nat.strong_induction_on generalizing key with
  | h n ih =>
    obtain ⟨other, hother, rfl⟩ := h key hkey
    by_cases hsame : encodeSegment other.toList = other.toList
    · have hname : shownKey other = other :=
        String.toList_inj.1 ((toList_shownKey other).trans hsame)
      rw [hname, hname]
    · have hshorter := ObjectPath.length_lt_encodeSegment hsame
      rw [← toList_shownKey, hlength] at hshorter
      rw [ih _ hshorter hother rfl]
      exact ih _ hshorter hother rfl

/-! ## Keys that were written -/

namespace RemoteStore

open WriteRequest (brought firstBrought)

variable {r : RemoteStore} {w v : World} {kept : String → Option Bytes} {key : String}
  {content : Bytes}

/-- Where the objects of the store lie, there are none. -/
def Vacant (r : RemoteStore) (w : World) : Prop :=
  ∀ name : String, PlainChars name.toList →
    (w.container r.container).objects[r.space.root ++ name]? = none

/-- Where the objects of the store lie, there are exactly the kept ones, under the names of their
keys. -/
structure HoldsJust (r : RemoteStore) (kept : String → Option Bytes) (w : World) : Prop where
  accepted : ∀ {key content}, kept key = some content → Accepted key
  objects : ∀ {name : String}, PlainChars name.toList → ∀ content,
    (w.container r.container).objects[r.space.root ++ name]? = some content ↔
      ∃ key, kept key = some content ∧ shownKey key = name

theorem hold?_eq (hr : r.space.Canonical) (hkey : PlainChars key.toList) :
    (PlainStore.remote r).hold? w key =
      (w.container r.container).objects[r.space.root ++ shownKey key]? := by
  unfold PlainStore.hold?
  rw [PlainStore.address_of_canonical hr hkey]
  rfl

/-- After writes into a vacant namespace just the first contents that were brought are held. -/
theorem holdsJust_of_writes (hr : r.space.Canonical) (hw : (PlainStore.remote r).Quiet w)
    (htemp : ∃ files, w.temps? r.tempDir = some files) (hvacant : r.Vacant w)
    {requests : List WriteRequest} {kind : String → Prop} (hkind : ∀ key, kind key → Accepted key)
    (hrequests : ∀ q ∈ requests, q.Brings kind w) :
    ∃ v, requests.mapM (Store.remote r).write w = .ok ((brought w requests).map Prod.fst) v ∧
      w.Follows v ∧ r.HoldsJust (firstBrought w requests) v := by
  obtain ⟨keys, v, hrun, rfl, hfollows, -, hhold, hothers, -⟩ :=
    PlainStore.writes_held hr.closed hkind hrequests hw htemp
  have haccepted : ∀ key ∈ (brought w requests).map Prod.fst, Accepted key := by
    rw [List.forall_mem_map]
    exact fun entry hentry => hkind _ (WriteRequest.kind_of_mem_brought hrequests hentry)
  have hheld : ∀ key, Accepted key →
      (v.container r.container).objects[r.space.root ++ shownKey key]? =
        firstBrought w requests key := by
    intro key hkey
    rw [← hold?_eq hr hkey.plainChars, hhold key hkey, hold?_eq hr hkey.plainChars,
      hvacant _ (plainChars_shownKey hkey.plainChars), Option.none_or]
    rfl
  refine ⟨v, hrun, hfollows, fun hkey => haccepted _ (WriteRequest.mem_keys_iff.2 ?_),
    fun {name} hname content => ?_⟩
  · rw [hkey]
    exact nofun
  constructor
  · intro hobject
    by_contra hnot
    -- no key that was brought has this address, so nothing has come there
    have hsame : ((PlainStore.remote r).objects v)[r.space.root ++ name]? =
        ((PlainStore.remote r).objects w)[r.space.root ++ name]? := by
      refine hothers _ fun key hkey haddress => ?_
      rw [PlainStore.address_of_canonical hr (haccepted key hkey).plainChars,
        String.append_right_inj] at haddress
      obtain rfl : shownKey key = name := haddress
      exact hnot ⟨key, (hheld key (haccepted key hkey)).symm.trans hobject, rfl⟩
    have hnone := hsame.trans (hvacant name hname)
    rw [show ((PlainStore.remote r).objects v)[r.space.root ++ name]? = some content from hobject]
      at hnone
    exact absurd hnone nofun
  · rintro ⟨key, hkey, rfl⟩
    have hmem : key ∈ (brought w requests).map Prod.fst := by
      rw [WriteRequest.mem_keys_iff, hkey]
      exact nofun
    rw [hheld key (haccepted key hmem), hkey]

namespace HoldsJust

theorem hold? (h : r.HoldsJust kept w) (hr : r.space.Canonical) (hkey : kept key = some content) :
    (PlainStore.remote r).hold? w key = some content := by
  have hplain := (h.accepted hkey).plainChars
  rw [hold?_eq hr hplain, h.objects (plainChars_shownKey hplain)]
  exact ⟨key, hkey, rfl⟩

end HoldsJust

/-! ## Listings -/

/-- The listed blobs are exactly the kept ones, each once and with its size, under the names of
their keys. -/
structure Names (kept : String → Option Bytes) (blobs : List ListedBlob) : Prop where
  nodup : (blobs.map ListedBlob.key).Nodup
  mem : ∀ {blob}, blob ∈ blobs ↔
    ∃ key content, kept key = some content ∧ blob = ⟨shownKey key, content.length⟩

/-- The listed blobs are exactly the kept ones, each once and with its size, under their keys. -/
structure ListsKeys (kept : String → Option Bytes) (blobs : List ListedBlob) : Prop where
  nodup : (blobs.map ListedBlob.key).Nodup
  mem : ∀ {blob : ListedBlob},
    blob ∈ blobs ↔ (kept blob.key).map List.length = some blob.size

theorem Names.listsKeys_iff {blobs : List ListedBlob} (h : Names kept blobs) :
    ListsKeys kept blobs ↔ ∀ key, kept key ≠ none → shownKey key = key := by
  constructor
  · intro hlists key hkey
    refine shownKey_of_onto (fun key => kept key ≠ none) (fun key hkey => ?_) hkey
    obtain ⟨content, hcontent⟩ := Option.ne_none_iff_exists'.1 hkey
    have hmem : (⟨key, content.length⟩ : ListedBlob) ∈ blobs := hlists.mem.2 (by rw [hcontent]; rfl)
    obtain ⟨other, found, hother, hblob⟩ := h.mem.1 hmem
    exact ⟨other, hother ▸ nofun, (congrArg ListedBlob.key hblob).symm⟩
  · refine fun hsame => ⟨h.nodup, fun {blob} => h.mem.trans ?_⟩
    rw [Option.map_eq_some_iff]
    constructor
    · rintro ⟨key, content, hkey, rfl⟩
      exact ⟨content, by rwa [hsame key (hkey ▸ nofun)], rfl⟩
    · rintro ⟨content, hkey, hsize⟩
      refine ⟨blob.key, content, hkey, ?_⟩
      rw [hsame _ (hkey ▸ nofun), hsize]

/-- A listing has what is kept under the names of the keys. -/
theorem list_names (hr : r.space.Canonical) (hw : (PlainStore.remote r).Quiet w)
    (hkept : r.HoldsJust kept w) :
    ∃ blobs v, r.list w = (blobs.map .ok, v) ∧ w.Looks v ∧ Names kept blobs := by
  obtain ⟨v, hlist, hlooks⟩ := list_run hw
  refine ⟨r.listed w, v, hlist, hlooks, nodup_of_sorted_blobs (r.sorted_listed w), fun {blob} => ?_⟩
  rw [mem_listed, shows_iff hr, Option.map_eq_some_iff]
  constructor
  · rintro ⟨hplain, content, hobject, hsize⟩
    obtain ⟨key, hkey, hname⟩ := (hkept.objects hplain content).1 hobject
    refine ⟨key, content, hkey, ?_⟩
    rw [hname, hsize]
  · rintro ⟨key, content, hkey, rfl⟩
    have hplain := plainChars_shownKey (hkept.accepted hkey).plainChars
    exact ⟨hplain, content, (hkept.objects hplain content).2 ⟨key, hkey, rfl⟩, rfl⟩

/-! ## Acting on a listed blob -/

/-- A removal by a plain name concerns the key of that name. -/
theorem hold?_erase (hr : r.space.Closed) (hw : (PlainStore.remote r).Quiet w) {name : String}
    (hname : PlainChars name.toList) (hkey : PlainChars key.toList) :
    (PlainStore.remote r).hold? (r.erase name w) key =
      if name = key then none else (PlainStore.remote r).hold? w key := by
  have herase := PlainStore.remove_catalog (p := .remote r) hw name
  rw [show r.erase name w = (PlainStore.remote r).catalog.remove name w from rfl,
    PlainStore.hold?_of_looks herase]
  unfold PlainStore.hold? PlainStore.drop
  rw [PlainStore.objects_setObjects, ExtTreeMap.getElem?_erase]
  refine if_congr (Std.LawfulEqCmp.compare_eq_iff_eq.trans ⟨fun haddress => ?_, ?_⟩) rfl rfl
  · exact Namespace.pathFor_inj hr hname hkey (congrArg ObjectPath.mk haddress)
  · rintro rfl
    rfl

/-- What is done by the name is done to the blob of the key, which has the content: reading it,
asking for its size, removing it and none else, and copying or moving it to another place. -/
structure ActsOn (r : RemoteStore) (name key : String) (content : Bytes) (w : World) : Prop where
  read : ∀ dest : LocalPath, dest.IsOutside → w.Writable dest →
    w.answer ((Store.remote r).download name dest) = .ok (some content)
  size : w.answer (r.size? name) = .ok (some content.length)
  remove : ∀ other, PlainChars other.toList → (PlainStore.remote r).hold? (r.erase name w) other =
    if other = key then none else (PlainStore.remote r).hold? w other
  copy : ∀ (dest : Store) (target : String) (move : Bool),
    (∃ files, w.temps? dest.base.tempDir = some files) →
    (∀ o, dest.base = .remote o → r.location = o.location → r.container = o.container) →
    dest.place target ≠ (Store.remote r).place key →
    ∃ v, dest.copyFrom target (.remote r) name move w = .ok (some target) v ∧
      v.bytesAt? (dest.place target) = some ((w.bytesAt? (dest.place target)).getD content) ∧
      v.bytesAt? ((Store.remote r).place key) = if move then none else some content

/-- A key acts on its own blob. -/
theorem actsOn_self (hr : r.space.Closed) (hw : w.Quiet) (hkey : Accepted key)
    (hheld : (PlainStore.remote r).hold? w key = some content) : r.ActsOn key key content w where
  read dest hdest hwritable := by
    have hread := PlainStore.answer_download (p := .remote r) (.of_world hw _) key hwritable
    rwa [PlainStore.asked?_of_splitKey hkey.splitKey, hheld] at hread
  size := by
    obtain ⟨v, hrun, -⟩ := size?_run (hw r.container) key
    rw [hheld] at hrun
    exact World.answer_of_ok hrun
  remove other hother := by
    rw [hold?_erase hr (.of_world hw _) hkey.plainChars hother]
    exact if_congr eq_comm rfl rfl
  copy dest target move htemp hsame hne := by
    have hhands : (Store.remote r).HandsOn w dest.base.tempDir key :=
      ⟨htemp, hkey.splitKey, fun h => absurd rfl h, List.nodup_nil, nofun⟩
    have hcontainer : ∀ o q, dest.base = .remote o → (Store.remote r).base = .remote q →
        q.location = o.location → q.container = o.container := by
      intro o q ho hsource
      obtain rfl := PlainStore.remote.inj hsource
      exact hsame o ho
    have hcopy := Store.copy_spec hw hhands hcontainer hne move
    obtain ⟨k?, v, hrun, hends⟩ := hcopy.exists_ok
    rcases hends with ⟨-, hnone, -⟩ | ⟨rfl, x, ⟨found, hfound, hstored⟩, hfinished⟩
    · exact absurd (hheld.symm.trans hnone) nofun
    · obtain rfl : content = found := Option.some.inj (hheld.symm.trans hfound)
      refine ⟨v, hrun, ?_, ?_⟩
      · rw [hfinished.bytesAt?_of_ne hne]
        exact hstored.bytesAt?_self
      · rw [hfinished.bytesAt?_self, hstored.bytesAt?_of_ne hne.symm]
        exact congrArg (fun held => if move then none else held)
          ((PlainStore.bytesAt?_place _ _ _).trans hheld)

/-- A listed name acts on the blob that it was listed for just if it is the key of the blob. -/
theorem actsOn_iff (hr : r.space.Canonical) (hw : w.Quiet) (hkept : r.HoldsJust kept w)
    (hkey : kept key = some content) :
    r.ActsOn (shownKey key) key content w ↔ shownKey key = key := by
  have haccepted := hkept.accepted hkey
  have hheld := hkept.hold? hr hkey
  constructor
  · intro hacts
    by_contra hne
    have hgone := hacts.remove key haccepted.plainChars
    rw [if_pos rfl, hold?_erase hr.closed (.of_world hw _)
      (plainChars_shownKey haccepted.plainChars) haccepted.plainChars, if_neg hne, hheld] at hgone
    exact absurd hgone nofun
  · intro hsame
    rw [hsame]
    exact actsOn_self hr.closed hw haccepted hheld

/-! ## Clearing -/

/-- Clearing deletes the blobs whose keys are names of kept blobs, and leaves the others. -/
theorem clear_names (hr : r.space.Canonical) (hw : (PlainStore.remote r).Quiet w)
    (hkept : r.HoldsJust kept w) :
    ∃ v, r.clear w = .ok () v ∧ ∀ {key content}, kept key = some content →
      ((∃ other, kept other ≠ none ∧ shownKey other = key) →
        (PlainStore.remote r).hold? v key = none) ∧
      ((¬ ∃ other, kept other ≠ none ∧ shownKey other = key) →
        (PlainStore.remote r).hold? v key = some content) := by
  obtain ⟨blobs, u, hlist, hlooks, hnames⟩ := list_names hr hw hkept
  refine ⟨_, clear_listed hlist, fun {key content} hkey => ?_⟩
  have hplain := (hkept.accepted hkey).plainChars
  have hlisted : (∃ blob ∈ blobs, (r.pathFor blob.key).text = (r.pathFor key).text) ↔
      ∃ other, kept other ≠ none ∧ shownKey other = key := by
    constructor
    · rintro ⟨blob, hblob, hpath⟩
      obtain ⟨other, found, hother, rfl⟩ := hnames.mem.1 hblob
      have hother' := (hkept.accepted hother).plainChars
      exact ⟨other, hother ▸ nofun, Namespace.pathFor_inj hr.closed (plainChars_shownKey hother')
        hplain (congrArg ObjectPath.mk hpath)⟩
    · rintro ⟨other, hother, rfl⟩
      obtain ⟨found, hfound⟩ := Option.ne_none_iff_exists'.1 hother
      exact ⟨_, hnames.mem.2 ⟨other, found, hfound, rfl⟩, rfl⟩
  have hobjects : ∀ v, (PlainStore.remote r).hold? v key =
      ((PlainStore.remote r).objects v)[(r.pathFor key).text]? := fun _ => rfl
  rw [hobjects, objects_foldl_erase (hw.of_looks hlooks), ← hobjects,
    PlainStore.hold?_of_looks hlooks, hkept.hold? hr hkey]
  exact ⟨fun h => if_pos (hlisted.2 h), fun h => if_neg fun hblob => h (hlisted.1 hblob)⟩

/-! ## All of it together -/

/-- After writes into a vacant namespace, a listing and every scroll have the written blobs once and
with their sizes, under the names of their keys. These are the keys themselves, and clearing deletes
all of the blobs, exactly if all keys are their own names. A listed name acts on the blob that it
was listed for exactly if it is the key, and clearing deletes exactly the keys that are names. -/
theorem listed_keys_iff (r : RemoteStore) (hr : r.space.Canonical) (w : World) (hw : w.Quiet)
    (htemp : ∃ files, w.temps? r.tempDir = some files) (hvacant : r.Vacant w)
    (requests : List WriteRequest) (hrequests : ∀ q ∈ requests,
      q.Brings (fun key => KeyStrategy.supplied.validate key = .ok ()) w) :
    let kept := firstBrought w requests
    ∃ v blobs u,
      requests.mapM (Store.remote r).write w = .ok ((brought w requests).map Prod.fst) v ∧
      (r.list v).1 = blobs.map .ok ∧
      (∀ batchSize, ∃ n pages,
        (Scroll.ofRemote r batchSize).readOut v n = (pages, some .noSuchElement) ∧
          pages.flatten = blobs) ∧
      Names kept blobs ∧
      (ListsKeys kept blobs ↔ ∀ key, kept key ≠ none → shownKey key = key) ∧
      (∀ key content, kept key = some content →
        (r.ActsOn (shownKey key) key content v ↔ shownKey key = key)) ∧
      r.clear v = .ok () u ∧
      (∀ key, kept key ≠ none → ((PlainStore.remote r).hold? u key = none ↔
        ∃ other, kept other ≠ none ∧ shownKey other = key)) ∧
      ((∀ key, kept key ≠ none → (PlainStore.remote r).hold? u key = none) ↔
        ∀ key, kept key ≠ none → shownKey key = key) := by
  intro kept
  obtain ⟨v, hwrites, hfollows, hholds⟩ := holdsJust_of_writes hr (.of_world hw _) htemp hvacant
    (fun _ hkey => ⟨.supplied, hkey⟩) hrequests
  have hv : v.Quiet := hfollows.quiet hw
  obtain ⟨blobs, x, hlist, -, hnames⟩ := list_names hr (.of_world hv _) hholds
  obtain ⟨u, hclear, hcleared⟩ := clear_names hr (.of_world hv _) hholds
  have hgone_iff : ∀ key, kept key ≠ none → ((PlainStore.remote r).hold? u key = none ↔
      ∃ other, kept other ≠ none ∧ shownKey other = key) := by
    intro key hkey
    obtain ⟨content, hcontent⟩ := Option.ne_none_iff_exists'.1 hkey
    obtain ⟨hgone, hstays⟩ := hcleared hcontent
    refine ⟨fun hnone => ?_, hgone⟩
    by_contra hnot
    exact absurd (hnone.symm.trans (hstays hnot)) nofun
  refine ⟨v, blobs, u, hwrites, by rw [hlist], Scroll.readOut_ofRemote hlist, hnames,
    hnames.listsKeys_iff, fun key content hkey => actsOn_iff hr hv hholds hkey, hclear, hgone_iff,
    fun hall key hkey => ?_, fun hsame key hkey => ?_⟩
  · exact shownKey_of_onto (fun key => kept key ≠ none)
      (fun key hkey => (hgone_iff key hkey).1 (hall key hkey)) hkey
  · exact (hgone_iff key hkey).2 ⟨key, hkey, hsame key hkey⟩

/-- A plain key below an ordinary prefix is listed, acted on and cleared. -/
theorem listed_keys_plain :
    let r : RemoteStore := {
      name := "vault"
      location := ⟨"account", "box"⟩
      container := "box"
      space := .ofText "cas"
      tempDir := .scratch "temps" }
    let w : World := { scratch := ExtTreeMap.insert ∅ "temps" ∅ }
    let request : WriteRequest := { source := .stream [.ok [1]], key? := some "my key" }
    ∃ v u, [request].mapM (Store.remote r).write w = .ok ["my key"] v ∧
      .ok ⟨"my key", 1⟩ ∈ (r.list v).1 ∧ r.ActsOn "my key" "my key" [1] v ∧
      r.clear v = .ok () u ∧ (PlainStore.remote r).hold? u "my key" = none := by
  intro r w request
  have hw : w.Quiet := World.quiet_of_containers rfl
  obtain ⟨v, blobs, u, hwrites, hlist, -, hnames, -, hacts, hclear, hgone, -⟩ :=
    listed_keys_iff r (by decide) w hw ⟨∅, ExtTreeMap.getElem?_insert_self⟩
      (fun _ _ => ExtTreeMap.getElem?_empty) [request]
      (fun q hq => by
        obtain rfl := List.mem_singleton.1 hq
        exact ⟨nofun, _, _, rfl, by decide⟩)
  have hname : shownKey "my key" = "my key" :=
    shownKey_eq_self_iff.2 ⟨by decide, by decide, List.all_eq_true.1 (by decide)⟩
  have hkey : firstBrought w [request] "my key" = some [1] := by decide
  refine ⟨v, u, hwrites, ?_, hname ▸ (hacts _ _ hkey).2 hname, hclear,
    (hgone _ (hkey ▸ nofun)).2 ⟨_, hkey ▸ nofun, hname⟩⟩
  rw [hlist]
  exact List.mem_map_of_mem (hnames.mem.2 ⟨_, _, hkey, by rw [hname]; rfl⟩)

/-- An accepted key with a letter beyond ASCII is listed under another text, which names no blob,
and clearing leaves its blob behind. -/
theorem listed_keys_encoded :
    let r : RemoteStore := {
      name := "vault"
      location := ⟨"account", "box"⟩
      container := "box"
      space := .whole
      tempDir := .scratch "temps" }
    let w : World := { scratch := ExtTreeMap.insert ∅ "temps" ∅ }
    let request : WriteRequest := { source := .stream [.ok [1]], key? := some "ü" }
    KeyStrategy.supplied.validate "ü" = .ok () ∧
    ∃ v u, [request].mapM (Store.remote r).write w = .ok ["ü"] v ∧
      (∀ blob, .ok blob ∈ (r.list v).1 ↔ blob = ⟨"%C3%BC", 1⟩) ∧
      v.answer (r.size? "%C3%BC") = .ok none ∧
      r.clear v = .ok () u ∧ (PlainStore.remote r).hold? u "ü" = some [1] := by
  intro r w request
  have hr : r.space.Canonical := by decide
  have hw : w.Quiet := World.quiet_of_containers rfl
  have haccepted : KeyStrategy.supplied.validate "ü" = .ok () := by decide
  have hrequests : ∀ q ∈ [request],
      q.Brings (fun key => KeyStrategy.supplied.validate key = .ok ()) w := by
    intro q hq
    obtain rfl := List.mem_singleton.1 hq
    exact ⟨nofun, _, _, rfl, haccepted⟩
  obtain ⟨v, hwrites, hfollows, hholds⟩ := holdsJust_of_writes (r := r) hr (.of_world hw _)
    ⟨∅, ExtTreeMap.getElem?_insert_self⟩ (fun _ _ => ExtTreeMap.getElem?_empty)
    (fun _ hkey => ⟨.supplied, hkey⟩) hrequests
  have hv : v.Quiet := hfollows.quiet hw
  have hkept : ∀ {key content}, firstBrought w [request] key = some content →
      key = "ü" ∧ content = [1] := by
    intro key content hkey
    have hmem : key ∈ (brought w [request]).map Prod.fst := by
      rw [WriteRequest.mem_keys_iff, hkey]
      exact nofun
    obtain rfl : key = "ü" := List.mem_singleton.1 hmem
    exact ⟨rfl, (Option.some.inj hkey).symm⟩
  have hown : firstBrought w [request] "ü" = some [1] := by decide
  have hname : shownKey "ü" = "%C3%BC" := by decide
  obtain ⟨blobs, x, hlist, -, hnames⟩ := list_names hr (.of_world hv _) hholds
  obtain ⟨u, hclear, hcleared⟩ := clear_names hr (.of_world hv _) hholds
  have hfree : (PlainStore.remote r).hold? v "%C3%BC" = none := by
    apply Option.eq_none_iff_forall_ne_some.2
    intro content hheld
    have hplain : PlainChars "%C3%BC".toList := ⟨by decide, by decide⟩
    rw [hold?_eq hr hplain, hholds.objects (plainChars_shownKey hplain)] at hheld
    obtain ⟨key, hkey, hsame⟩ := hheld
    obtain ⟨rfl, -⟩ := hkept hkey
    revert hsame
    decide
  refine ⟨haccepted, v, u, hwrites, fun blob => ?_, ?_, hclear, (hcleared hown).2 ?_⟩
  · rw [hlist, List.mem_map_of_injective fun _ _ => Except.ok.inj, hnames.mem]
    constructor
    · rintro ⟨key, content, hkey, rfl⟩
      obtain ⟨rfl, rfl⟩ := hkept hkey
      rw [hname]
      rfl
    · rintro rfl
      exact ⟨_, _, hown, by rw [hname]; rfl⟩
  · obtain ⟨y, hrun, -⟩ := size?_run (hv r.container) "%C3%BC"
    rw [hfree] at hrun
    exact World.answer_of_ok hrun
  · rintro ⟨other, hother, hsame⟩
    obtain ⟨content, hcontent⟩ := Option.ne_none_iff_exists'.1 hother
    obtain ⟨rfl, -⟩ := hkept hcontent
    revert hsame
    decide

end RemoteStore

end BlobVault
