import BlobVault.Proofs.Store

/-!
# What catalogs answer

Where no fault strikes, the catalogs of memory stores and of remote stores answer from the objects
alone. A remote store lists the objects that have a key behind its root and lie below its top, in
the order of the keys, and so the sizes under the names that it shows determine its listing.

1. `PlainStore.size?_catalog`, `PlainStore.remove_catalog`: the size of a blob, and its removal.
2. `RemoteStore.listed`: the listing of a remote store. `mem_listed` says what is in it, and
   `sorted_listed` in which order; `listed_eq` compares two listings.
-/

namespace BlobVault

open Std (ExtTreeMap)
open ObjectPath (IsProper)

namespace PlainStore

variable {p : PlainStore} {w : World}

theorem size?_catalog (hw : p.Quiet w) (key : String) :
    ∃ v, p.catalog.size? key w = .ok ((p.hold? w key).map List.length) v ∧ w.Looks v := by
  cases p with
  | memory m => exact ⟨w, rfl, .refl w⟩
  | remote r =>
    have hspec := (r.size?_spec key (Container.Quiet.honest hw)).mono (fun _ _ h => h)
      fun _ _ h => h.2 hw
    obtain ⟨size?, v, hrun, hlooks, rfl⟩ := hspec.exists_ok
    exact ⟨v, hrun, hlooks⟩

theorem remove_catalog (hw : p.Quiet w) (key : String) :
    (p.drop w key).Looks (p.catalog.remove key w) := by
  cases p with
  | memory m => exact .refl _
  | remote r =>
    rcases r.erase_spec key w with h | ⟨-, hquiet⟩
    · exact h
    · exact absurd hw hquiet

end PlainStore

/-! ## Sorted listings -/

/-- A common beginning does not matter to the order of texts. -/
theorem append_lt_append_iff {root a b : String} : root ++ a < root ++ b ↔ a < b := by
  have hchars : ∀ front l l' : List Char, front ++ l < front ++ l' ↔ l < l' := by
    intro front l l'
    induction front with
    | nil => exact Iff.rfl
    | cons c front ih =>
      rw [List.cons_append, List.cons_append, List.cons_lt_cons_iff, ih]
      simp
  rw [String.lt_iff_toList_lt, String.lt_iff_toList_lt, String.toList_append,
    String.toList_append, hchars]

/-- No key is twice in a list of blobs in the order of their keys. -/
theorem nodup_of_sorted_blobs {l : List ListedBlob} (h : l.Pairwise fun a b => a.key < b.key) :
    (l.map ListedBlob.key).Nodup := by
  apply List.pairwise_map.2
  exact h.imp ne_of_lt

/-- Lists of blobs in the order of their keys are the same if they have the same blobs. -/
theorem eq_of_sorted_blobs {l l' : List ListedBlob} (hl : l.Pairwise fun a b => a.key < b.key)
    (hl' : l'.Pairwise fun a b => a.key < b.key) (hmem : ∀ blob, blob ∈ l ↔ blob ∈ l') :
    l = l' := by
  have hperm : l.Perm l' := (List.perm_ext_iff_of_nodup (nodup_of_sorted_blobs hl).of_map
    (nodup_of_sorted_blobs hl').of_map).2 hmem
  refine hperm.eq_of_pairwise ?_ hl hl'
  intro a b _ _ hab hba
  exact absurd hab (lt_asymm hba)

namespace Blobs

variable {blobs : Blobs}

theorem sorted_toList (blobs : Blobs) : blobs.toList.Pairwise fun a b => a.1 < b.1 :=
  ExtTreeMap.ordered_keys_toList.imp fun h => compare_lt_iff_lt.1 h

/-- The keys with the sizes of what they hold, in the order of the keys. -/
def listed (blobs : Blobs) : List ListedBlob :=
  blobs.toList.map fun entry => ⟨entry.1, entry.2.length⟩

theorem mem_listed {blob : ListedBlob} :
    blob ∈ blobs.listed ↔ blobs[blob.key]?.map List.length = some blob.size := by
  unfold listed
  rw [List.mem_map, Option.map_eq_some_iff]
  constructor
  · rintro ⟨⟨key, content⟩, hmem, rfl⟩
    exact ⟨content, ExtTreeMap.mem_toList_iff_getElem?_eq_some.1 hmem, rfl⟩
  · rintro ⟨content, hget, hsize⟩
    refine ⟨(blob.key, content), ExtTreeMap.mem_toList_iff_getElem?_eq_some.2 hget, ?_⟩
    rw [hsize]

theorem sorted_listed (blobs : Blobs) : blobs.listed.Pairwise fun a b => a.key < b.key :=
  List.pairwise_map.2 blobs.sorted_toList

end Blobs

theorem MemoryStore.items_eq (m : MemoryStore) (w : World) :
    m.items w = (m.blobs w).listed.map .ok := by
  unfold items Blobs.listed
  rw [List.map_map]
  rfl

/-! ## Listings of a container -/

namespace Container

/-- The visible objects with their sizes. -/
theorem mem_visible_sizes {c : Container} {q : ObjectPath} {size : Nat} :
    (q, size) ∈ c.visible.map (fun (path, content) => (ObjectPath.mk path, content.length)) ↔
      q.text ≠ "" ∧ c.objects[q.text]?.map List.length = some size := by
  unfold Container.visible
  rw [List.mem_map, Option.map_eq_some_iff]
  constructor
  · rintro ⟨⟨path, content⟩, hmem, heq⟩
    obtain ⟨rfl, rfl⟩ := Prod.mk.inj heq
    rw [List.mem_filter, ExtTreeMap.mem_toList_iff_getElem?_eq_some] at hmem
    exact ⟨by simpa using hmem.2, content, hmem.1, rfl⟩
  · rintro ⟨hne, content, hget, rfl⟩
    refine ⟨(q.text, content), ?_, rfl⟩
    rw [List.mem_filter, ExtTreeMap.mem_toList_iff_getElem?_eq_some]
    exact ⟨hget, by simpa using hne⟩

theorem mem_below {c : Container} {top? : Option ObjectPath} {q : ObjectPath} {size : Nat} :
    (q, size) ∈ c.below top? ↔
      q.text ≠ "" ∧ c.objects[q.text]?.map List.length = some size ∧
        ∀ top, top? = some top → q.isBelow top = true := by
  unfold Container.below
  cases top? with
  | none =>
    rw [mem_visible_sizes]
    simp
  | some top =>
    rw [List.mem_filter, mem_visible_sizes, and_assoc]
    simp

end Container

namespace RemoteStore

variable {r : RemoteStore} {w v : World}

/-- The blobs that a listing of the store has where no fault strikes. -/
def listed (r : RemoteStore) (w : World) : List ListedBlob :=
  ((w.container r.container).below r.space.top?).filterMap fun object =>
    (r.space.localKey? object.1).map fun key => ⟨key, object.2⟩

/-- A listing shows what lies under the root with the key behind it. -/
def Shows (r : RemoteStore) (key : String) : Prop :=
  PlainChars key.toList ∧
    ∀ top, r.space.top? = some top → (ObjectPath.mk (r.space.root ++ key)).isBelow top = true

/-- Below a canonical root a listing shows all plain keys. -/
theorem shows_iff (hr : r.space.Canonical) {key : String} :
    r.Shows key ↔ PlainChars key.toList := by
  constructor
  · exact And.left
  · intro hkey
    refine ⟨hkey, fun top htop => ?_⟩
    apply Namespace.isBelow_top hr htop hkey.1
    rw [← String.toList_append, String.ofList_toList]

theorem list_run (hw : (w.container r.container).Quiet) :
    ∃ v, r.list w = ((r.listed w).map .ok, v) ∧ w.Looks v := by
  obtain ⟨hlooks, hlist⟩ := (w.container r.container).list_spec r.space.top?
  rcases hlist with ⟨hnone, hbelow⟩ | ⟨-, hquiet, -⟩
  · refine ⟨_, ?_, .of_container hlooks⟩
    unfold list listed
    simp only [hnone, hbelow, Option.toList_none, List.map_nil, List.append_nil]
  · exact absurd hw hquiet

theorem mem_listed {blob : ListedBlob} :
    blob ∈ r.listed w ↔ r.Shows blob.key ∧
      ((w.container r.container).objects[r.space.root ++ blob.key]?).map List.length =
        some blob.size := by
  have htext : ∀ key : String, String.ofList (r.space.root.toList ++ key.toList) =
      r.space.root ++ key := by
    intro key
    rw [← String.toList_append, String.ofList_toList]
  unfold listed
  rw [List.mem_filterMap]
  constructor
  · rintro ⟨⟨⟨text⟩, size⟩, hmem, hkey⟩
    obtain ⟨key, hlocal, rfl⟩ := Option.map_eq_some_iff.1 hkey
    obtain ⟨hplain, hpath⟩ := Namespace.localKey?_eq_some_iff.1 hlocal
    rw [htext] at hpath
    obtain rfl : text = r.space.root ++ key := hpath
    obtain ⟨-, hsize, htop⟩ := Container.mem_below.1 hmem
    exact ⟨⟨hplain, htop⟩, hsize⟩
  · rintro ⟨⟨hplain, htop⟩, hsize⟩
    refine ⟨(⟨r.space.root ++ blob.key⟩, blob.size),
      Container.mem_below.2 ⟨?_, hsize, htop⟩, ?_⟩
    · intro hempty
      have hnil := congrArg String.toList hempty
      rw [String.toList_append] at hnil
      exact hplain.1 (List.append_eq_nil_iff.1 hnil).2
    · refine Option.map_eq_some_iff.2 ⟨blob.key, ?_, rfl⟩
      rw [Namespace.localKey?_eq_some_iff, htext]
      exact ⟨hplain, rfl⟩

theorem sorted_listed (r : RemoteStore) (w : World) :
    (r.listed w).Pairwise fun a b => a.key < b.key := by
  have hvisible : (w.container r.container).visible.Pairwise fun a b => a.1 < b.1 :=
    (Blobs.sorted_toList _).filter _
  have hbelow : ((w.container r.container).below r.space.top?).Pairwise
      fun a b => a.1.text < b.1.text := by
    have hsizes := List.pairwise_map
      (f := fun object : String × Bytes => (ObjectPath.mk object.1, object.2.length))
      (R := fun a b => a.1.text < b.1.text) |>.2 hvisible
    unfold Container.below
    split
    · exact hsizes.filter _
    · exact hsizes
  refine hbelow.filterMap _ ?_
  rintro ⟨⟨path⟩, size⟩ ⟨⟨path'⟩, size'⟩ hlt a ha b hb
  obtain ⟨key, hkey, rfl⟩ := Option.map_eq_some_iff.1 ha
  obtain ⟨key', hkey', rfl⟩ := Option.map_eq_some_iff.1 hb
  have hpath := (Namespace.localKey?_eq_some_iff.1 hkey).2
  have hpath' := (Namespace.localKey?_eq_some_iff.1 hkey').2
  rw [← String.toList_append, String.ofList_toList] at hpath hpath'
  obtain rfl : path = r.space.root ++ key := hpath
  obtain rfl : path' = r.space.root ++ key' := hpath'
  exact append_lt_append_iff.1 hlt

/-- Worlds with the same objects under the names that a listing shows have the same listing. -/
theorem listed_eq (h : ∀ key, r.Shows key →
      (v.container r.container).objects[r.space.root ++ key]? =
        (w.container r.container).objects[r.space.root ++ key]?) :
    r.listed v = r.listed w := by
  refine eq_of_sorted_blobs (r.sorted_listed v) (r.sorted_listed w) fun blob => ?_
  rw [mem_listed, mem_listed]
  exact and_congr_right fun hshows => by rw [h blob.key hshows]

end RemoteStore

end BlobVault
